import BusCodec.Signature.GrammarError
import BusCodec.Wire.Utf8

/-!
Why decoding, encoding or generating can fail, and the text shown for it.
-/

namespace BusCodec

inductive Error
  /-- A text that should be a signature is none. -/
  | grammar (error : GrammarError)
  /-- A dictionary type keyed by doubles, which has no native map type. -/
  | doubleMapKey
  /-- A double in the place of a dictionary key. -/
  | doubleEntryKey
  /-- A message or variant of another type than the expected one. -/
  | protocolMismatch (expected found : String)
  /-- A move past the end of the buffer, to the index. -/
  | indexOutOfBounds (index : Nat)
  /-- An array whose elements do not end where the array ends. -/
  | arrayElementOverrun (position stop : Nat)
  /-- An array region with more bytes than are allowed. -/
  | arrayTooLong (length : Nat)
  | leftoverData (count : Nat)
  /-- A boolean that is encoded as neither 0 nor 1. -/
  | invalidBoolean (word : Nat)
  /-- Bytes that are no text.  No message tells the fault in them. -/
  | invalidUtf8 {fault : Utf8Fault}
  /-- A text with more bytes than its length field can hold. -/
  | textTooLong (length : Nat)
  | missingNul
  | interiorNul
  | invalidObjectPath (path : String)
  /-- More variants inside one another than a reader accepts. -/
  | variantDepth
  | unknownProcedure (name : String)
  /-- A value of another type than the expected one. -/
  | valueShape (expected found : String)
  /-- A procedure that would call itself for ever without reading or
  descending. -/
  | endless
  deriving DecidableEq, Repr, Inhabited

/-- The most variants that may be nested in one another when reading. -/
def maxVariantDepth : Nat := 64

/-- The most bytes that the elements of one array may take. -/
def maxArrayLength : Nat := 64 * 1024 * 1024

namespace Error

def message : Error → String
  | grammar error => error.message
  | doubleMapKey => "type code 'd' has no native mapping: f64 cannot be a map key"
  | doubleEntryKey =>
      "type code 'd' has no native mapping: doubles cannot be dictionary keys"
  | protocolMismatch expected found =>
      s!"expected signature \"{expected}\", found \"{found}\""
  | indexOutOfBounds index => s!"read past end of buffer at index {index}"
  | arrayElementOverrun position stop =>
      s!"array element ran to {position}, past array end {stop}"
  | arrayTooLong length => s!"array of {length} bytes exceeds the 64 MiB limit"
  | leftoverData count => s!"{count} bytes of leftover data"
  | invalidBoolean word => s!"boolean value {word} is neither 0 nor 1"
  | invalidUtf8 => "string is not valid UTF-8"
  | textTooLong length => s!"text of {length} bytes does not fit its length prefix"
  | missingNul => "string is missing its nul terminator"
  | interiorNul => "string contains an interior nul byte"
  | invalidObjectPath path => s!"invalid object path \"{path}\""
  | variantDepth => s!"variants nested deeper than {maxVariantDepth} levels"
  | unknownProcedure name => s!"no generated procedure named {name}"
  | valueShape expected found =>
      s!"value of signature \"{found}\" does not fit \"{expected}\""
  | endless => "evaluation does not end"

end Error

end BusCodec
