import BusCodec.Attempt
import BusCodec.Signature.Parser
import BusCodec.Value.Basic
import BusCodec.Value.ObjectPath
import BusCodec.Wire.ByteOrder

/-!
Writing a little-endian message body.  Bytes are only appended, except that
closing an array fills in its length field.
-/

namespace BusCodec

/-- A computation that appends to a message body. -/
abbrev Encode (α : Type) : Type :=
  Attempt ByteArray α

/-- Where an open array keeps its length field, and where its elements begin. -/
structure OpenArray where
  lengthIndex : Nat
  bodyIndex : Nat
  deriving DecidableEq, Repr, Inhabited

namespace Encode

def put (bytes : List UInt8) : Encode Unit :=
  Attempt.update fun body => body ++ ⟨bytes.toArray⟩

/-- Appends zero bytes up to the next multiple of the alignment. -/
def align (alignment : Nat) : Encode Unit :=
  Attempt.update fun body =>
    body ++ ⟨Array.replicate (alignUp body.size alignment - body.size) 0⟩

/-- Appends a word of the given width, at a boundary of that width. -/
def word (width value : Nat) : Encode Unit := do
  align width
  put (ByteOrder.little.encode width value)

/-- Appends a text behind a length field of the given width, and a nul byte
after it.  Nothing is appended when the text cannot be written. -/
def text (lengthWidth : Nat) (text : String) : Encode Unit := do
  let bytes := text.toByteArray
  if bytes.data.contains 0 then Attempt.fail .interiorNul
  else if bytes.size < Word.limit lengthWidth then
    word lengthWidth bytes.size
    Attempt.update fun body => body ++ bytes
    put [0]
  else Attempt.fail (.textTooLong bytes.size)

def objectPath (path : String) : Encode Unit := do
  if ObjectPath.isValid path then text 4 path else Attempt.fail (.invalidObjectPath path)

/-- Appends a signature of any number of types. -/
def signature (signature : String) : Encode Unit := do
  let _ ← Attempt.liftGrammar (BusType.parseAll signature)
  text 1 signature

def basic : BasicValue → Encode Unit
  | .byte value => word 1 value.toNat
  | .boolean value => word 4 (if value then 1 else 0)
  | .int16 value => word 2 value.toUInt16.toNat
  | .uint16 value => word 2 value.toNat
  | .int32 value => word 4 value.toUInt32.toNat
  | .uint32 value => word 4 value.toNat
  | .int64 value => word 8 value.toUInt64.toNat
  | .uint64 value => word 8 value.toNat
  | .double bits => word 8 bits.toNat
  | .string value => text 4 value
  | .objectPath value => objectPath value
  | .signature value => signature value
  | .unixFd index => word 4 index.toNat

/-- Begins a struct or a dictionary entry. -/
def alignStruct : Encode Unit :=
  align WireKind.struct.alignment

/-- Opens an array of the given elements.  Its length, which is not known yet,
does not count the padding before the first element. -/
def openArray (element : WireKind) : Encode OpenArray := do
  align 4
  let lengthIndex := (← Attempt.state).size
  put [0, 0, 0, 0]
  align element.alignment
  return ⟨lengthIndex, (← Attempt.state).size⟩

/-- Replaces as many bytes of a body as are given, from an index on. -/
def overwrite (index : Nat) (bytes : List UInt8) (body : ByteArray) : ByteArray :=
  ByteArray.copySlice ⟨bytes.toArray⟩ 0 body index bytes.length

/-- Closes an array: fills in the number of bytes appended since its elements
began. -/
def closeArray (array : OpenArray) : Encode Unit := do
  let length := (← Attempt.state).size - array.bodyIndex
  if length > maxArrayLength then Attempt.fail (.arrayTooLong length)
  else Attempt.update (overwrite array.lengthIndex (ByteOrder.little.encode 4 length))

mutual

/-- Appends a value.  What an array or a dictionary says about its own type must
fit its contents. -/
def value : Value → Encode Unit
  | .basic value => basic value
  | .variant inner => do
      let _ ← Attempt.liftGrammar (BusType.parse inner.signature)
      signature inner.signature
      value inner
  | .array signature items => do
      match ← Attempt.liftGrammar (BusType.parse signature) with
      | .array element =>
          let array ← openArray element.wireKind
          itemsOf element.signature items
          closeArray array
      | _ => Attempt.fail (.valueShape "array" signature)
  | .dict signature entries => do
      match ← Attempt.liftGrammar (BusType.parse signature) with
      | .dict key type =>
          let array ← openArray .struct
          entriesOf key.signatureText type.signature entries
          closeArray array
      | _ => Attempt.fail (.valueShape "dictionary" signature)
  | .struct [] => Attempt.fail (.valueShape "struct with members" "()")
  | .struct (first :: rest) => do
      alignStruct
      value first
      values rest
termination_by structural value => value

def values : List Value → Encode Unit
  | [] => pure ()
  | first :: rest => do
      value first
      values rest
termination_by structural values => values

/-- Appends the items of an array, each of which must have the given
signature. -/
def itemsOf (signature : String) : List Value → Encode Unit
  | [] => pure ()
  | item :: items => do
      Attempt.lift (item.checkShape signature)
      value item
      itemsOf signature items
termination_by structural items => items

/-- Appends the entries of a dictionary, whose keys and values must have the
given signatures. -/
def entriesOf (keySignature valueSignature : String) :
    List (Key × Value) → Encode Unit
  | [] => pure ()
  | (key, entry) :: entries => do
      alignStruct
      Attempt.lift ((Value.basic key.value).checkShape keySignature)
      basic key.value
      Attempt.lift (entry.checkShape valueSignature)
      value entry
      entriesOf keySignature valueSignature entries
termination_by structural entries => entries

end

/-- Appends a variant: the signature of its contents, then the contents. -/
def variant (inner : Value) : Encode Unit :=
  value (.variant inner)

/-- The body that a computation writes from nothing. -/
def toBody (written : Encode Unit) : Except Error ByteArray :=
  match written .empty with
  | (.ok (), body) => .ok body
  | (.error error, _) => .error error

end Encode

end BusCodec
