/-!
What can be wrong with a signature.
-/

namespace BusCodec

/-- The two kinds of nesting that a signature limits. -/
inductive Nesting
  | array
  | struct
  deriving DecidableEq, Repr, Inhabited

/-- Why a text is not a signature.  Offsets count bytes from its start. -/
inductive GrammarError
  /-- A type was expected and the text is empty. -/
  | empty
  /-- The text has more bytes than a signature may have. -/
  | tooLong (length : Nat)
  /-- A letter that is neither a type code nor a bracket. -/
  | unknownCode (code : Char) (offset : Nat)
  /-- The text ends inside the bracket opened at the offset. -/
  | unbalanced (opener : Char) (offset : Nat)
  /-- A closing bracket where a type was expected. -/
  | unexpectedClose (found : Char) (offset : Nat)
  /-- The text ends after an array prefix. -/
  | missingElement (offset : Nat)
  /-- A dictionary entry that does not have exactly a key and a value. -/
  | dictEntryArity (offset count : Nat)
  /-- A dictionary entry that no array prefix precedes. -/
  | dictEntryOutsideArray (offset : Nat)
  /-- A dictionary whose key is a container. -/
  | nonBasicKey (offset : Nat)
  | emptyStruct (offset : Nat)
  /-- One array or bracket too many around the offset. -/
  | tooDeep (nesting : Nesting) (offset : Nat)
  /-- More text after the one type that was expected. -/
  | trailing (offset : Nat)
  deriving DecidableEq, Repr, Inhabited

namespace Nesting

def word : Nesting → String
  | array => "array"
  | struct => "struct"

end Nesting

namespace GrammarError

def message : GrammarError → String
  | empty => "signature is empty"
  | tooLong length => s!"signature is {length} bytes long, the limit is 255"
  | unknownCode code offset => s!"unknown type code '{code}' at offset {offset}"
  | unbalanced opener offset => s!"'{opener}' at offset {offset} is never closed"
  | unexpectedClose found offset => s!"unexpected '{found}' at offset {offset}"
  | missingElement offset => s!"array at offset {offset} has no element type"
  | dictEntryArity offset count =>
      s!"dict entry at offset {offset} has {count} members, expected 2"
  | dictEntryOutsideArray offset =>
      s!"dict entry at offset {offset} is not directly inside an array"
  | nonBasicKey offset => s!"dict entry key at offset {offset} is not a basic type"
  | emptyStruct offset => s!"empty struct at offset {offset}"
  | tooDeep nesting offset =>
      s!"{nesting.word} nesting exceeds 32 levels at offset {offset}"
  | trailing offset => s!"trailing input at offset {offset}"

end GrammarError

end BusCodec
