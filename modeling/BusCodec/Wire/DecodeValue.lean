import BusCodec.Value.Basic
import BusCodec.Wire.Decode

/-!
Reading a value of a known type, and reading a variant, whose type is read
first.
-/

namespace BusCodec

namespace Decode

variable {α : Type}

def asKey (value : Decode Value) : Decode Key := do
  lift (← value).toKey

def entry (key value : Decode Value) : Decode (Key × Value) := do
  let key ← asKey key
  let value ← value
  return (key, value)

mutual

/-- Reads a value of a type, with the given way to read what a variant holds. -/
def valueWith (inner : Decode Value) : BusType → Decode Value
  | .basic type => return .basic (← basic type)
  | .variant => return .variant (← inner)
  | .array element => do
      let region ← Region.start element.wireKind
      let items ← region.collect (valueWith inner element)
      return .array (BusType.array element).signature items
  | .dict key value => do
      let region ← Region.start .struct
      let entries ← region.collect do
        alignStruct
        entry (return .basic (← basic key)) (valueWith inner value)
      return .dict (BusType.dict key value).signature (Entries.ofList entries)
  | .struct first rest => do
      alignStruct
      let first ← valueWith inner first
      let rest ← valuesWith inner rest
      return .struct (first :: rest)
termination_by structural type => type

def valuesWith (inner : Decode Value) : List BusType → Decode (List Value)
  | [] => return []
  | type :: types => do
      let value ← valueWith inner type
      let values ← valuesWith inner types
      return value :: values
termination_by structural types => types

end

/-- Runs a computation inside one more variant. -/
def insideVariant (contents : Decode α) : Decode α :=
  fun buffer cursor =>
    let (outcome, reached) :=
      contents buffer { cursor with variantDepth := cursor.variantDepth + 1 }
    (outcome, { reached with variantDepth := reached.variantDepth - 1 })

def variantType : Decode BusType := do
  liftGrammar (BusType.parse (← signature))

/-- Reads what a variant holds, when variants may be nested so many levels deep
from here. -/
def variantWithin : Nat → Decode Value
  | 0 => do
      let _ ← variantType
      fail .variantDepth
  | levels + 1 => do
      let type ← variantType
      insideVariant (valueWith (variantWithin levels) type)

/-- Reads what a variant holds. -/
def variant : Decode Value :=
  fun buffer cursor =>
    variantWithin (maxVariantDepth - cursor.variantDepth) buffer cursor

def value (type : BusType) : Decode Value :=
  valueWith variant type

end Decode

/-- A message body and the signature in its header. -/
structure Message where
  body : ByteArray
  signature : String

namespace Message

/-- The body as a buffer.  Bodies are little-endian. -/
def buffer (message : Message) : Buffer :=
  ⟨.little, message.body⟩

/-- A message read as one of the given signature must have it. -/
def checkSignature (message : Message) (expected : String) : Except Error Unit :=
  if message.signature = expected then .ok ()
  else .error (.protocolMismatch expected message.signature)

end Message

end BusCodec
