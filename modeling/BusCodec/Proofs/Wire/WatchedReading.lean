import BusCodec.Proofs.Watched
import BusCodec.Wire.DecodeValue

/-!
Reading on a machine whose words hold only so many numbers.  A watched reader takes the
steps of the reader and is stopped where a sum or a difference is not a number of a word,
where an index or a slice is out of bounds, and where a loop takes more rounds than there
are bytes for it or variants are read too deep inside one another.  Nothing else ends its
loops: that an element takes no byte is not noticed.
-/

namespace BusCodec

/-- A computation that reads a buffer while it is watched. -/
def WatchedDecode (α : Type) : Type :=
  Buffer → Watched Cursor α

namespace WatchedDecode

variable {α β : Type}

instance : Monad WatchedDecode where
  pure value := fun _ => pure value
  bind first next := fun buffer => first buffer >>= fun value => next value buffer

/-- A reader in which there is nothing to stop. -/
def free (reader : Decode α) : WatchedDecode α :=
  fun buffer => .free (reader buffer)

def stop : WatchedDecode α :=
  fun _ => .stop

def fail (error : Error) : WatchedDecode α :=
  free (Decode.fail error)

/-- Goes on only if the condition holds. -/
def require (condition : Prop) [Decidable condition] : WatchedDecode Unit :=
  fun _ => .require condition

def position : WatchedDecode Nat :=
  free Decode.position

def variantDepth : WatchedDecode Nat :=
  free fun _ cursor => (.ok cursor.variantDepth, cursor)

def bytes : WatchedDecode ByteArray :=
  free fun buffer => pure buffer.bytes

/-- The bytes between two indices, which must be in order and inside the buffer. -/
def slice (start stop : Nat) : WatchedDecode ByteArray := do
  let bytes ← bytes
  require (start ≤ stop ∧ stop ≤ bytes.size)
  return bytes.extract start stop

/-- Compares what is left with nothing, which must not be less. -/
def complete : WatchedDecode Unit := do
  let bytes ← bytes
  let index ← position
  require (index ≤ bytes.size)
  free Decode.complete

section

variable (words : Nat)

def align (alignment : Nat) : WatchedDecode Unit := do
  let index ← position
  require (index + alignment < words)
  free (Decode.align alignment)

/-- Takes bytes.  If the index behind them does not fit a word, the reader fails as if it
moved to the last index. -/
def take (count : Nat) : WatchedDecode ByteArray := do
  let start ← position
  if start + count < words then
    free (Decode.moveTo (start + count))
    slice start (start + count)
  else fail (.indexOutOfBounds (words - 1))

def word (width : Nat) : WatchedDecode Nat := do
  align words width
  let bytes ← take words width
  require (bytes.size = width)
  free fun buffer => pure (buffer.order.decode bytes.data.toList)

def text (lengthWidth : Nat) : WatchedDecode String := do
  let length ← word words lengthWidth
  require (length + 1 < words)
  let bytes ← take words (length + 1)
  match bytes.data[length]? with
  | none => stop
  | some last =>
      if last ≠ 0 then fail .missingNul
      else
        require (length ≤ bytes.size)
        let bytes := bytes.extract 0 length
        if bytes.data.contains 0 then fail .interiorNul
        else
          match String.fromUTF8? bytes with
          | some text => pure text
          | none => fail (@Error.invalidUtf8 (.ofBytes bytes))

def boolean : WatchedDecode Bool := do
  match ← word words 4 with
  | 0 => pure false
  | 1 => pure true
  | other => fail (.invalidBoolean other)

def objectPath : WatchedDecode String := do
  let path ← text words 4
  if ObjectPath.isValid path then pure path else fail (.invalidObjectPath path)

def signature : WatchedDecode String := do
  let text ← text words 1
  let _ ← free (Decode.liftGrammar (BusType.parseAll text))
  pure text

def basic : BasicType → WatchedDecode BasicValue
  | .byte => return .byte (UInt8.ofNat (← word words 1))
  | .boolean => return .boolean (← boolean words)
  | .int16 => return .int16 (UInt16.ofNat (← word words 2)).toInt16
  | .uint16 => return .uint16 (UInt16.ofNat (← word words 2))
  | .int32 => return .int32 (UInt32.ofNat (← word words 4)).toInt32
  | .uint32 => return .uint32 (UInt32.ofNat (← word words 4))
  | .int64 => return .int64 (UInt64.ofNat (← word words 8)).toInt64
  | .uint64 => return .uint64 (UInt64.ofNat (← word words 8))
  | .double => return .double (UInt64.ofNat (← word words 8))
  | .string => return .string (← text words 4)
  | .objectPath => return .objectPath (← objectPath words)
  | .signature => return .signature (← signature words)
  | .unixFd => return .unixFd (UInt32.ofNat (← word words 4))

def expectSignature (expected : String) : WatchedDecode Unit := do
  let found ← signature words
  if found = expected then pure () else fail (.protocolMismatch expected found)

def alignStruct : WatchedDecode Unit :=
  align words WireKind.struct.alignment

def startRegion (element : WireKind) : WatchedDecode Region := do
  let length ← word words 4
  if length > maxArrayLength then fail (.arrayTooLong length)
  else
    align words element.alignment
    let index ← position
    require (index + length < words)
    free (Region.ofLength element length)

def hasNext (region : Region) : WatchedDecode Bool := do
  let index ← position
  if index = region.stop then pure false
  else if region.stop < index then fail (.arrayElementOverrun index region.stop)
  else
    align words region.element.alignment
    let index ← position
    if region.stop ≤ index then fail (.arrayElementOverrun index region.stop)
    else pure true

/-- Reads the elements of a region in so many rounds at the most. -/
def collectIn (region : Region) (element : WatchedDecode α) : Nat → WatchedDecode (List α)
  | 0 => do
      if ← hasNext words region then stop else return []
  | rounds + 1 => do
      if ← hasNext words region then
        let value ← element
        let values ← collectIn region element rounds
        return value :: values
      else return []

/-- Reads the elements of a region in no more rounds than there are bytes in it. -/
def collect (region : Region) (element : WatchedDecode α) : WatchedDecode (List α) := do
  let index ← position
  collectIn words region element (region.stop - index)

def entry (key value : WatchedDecode Value) : WatchedDecode (Key × Value) := do
  let key ← key
  let key ← free (Decode.lift key.toKey)
  let value ← value
  return (key, value)

mutual

def valueWith (inner : WatchedDecode Value) : BusType → WatchedDecode Value
  | .basic type => return .basic (← basic words type)
  | .variant => return .variant (← inner)
  | .array element => do
      let region ← startRegion words element.wireKind
      let items ← collect words region (valueWith inner element)
      return .array (BusType.array element).signature items
  | .dict key value => do
      let region ← startRegion words .struct
      let entries ← collect words region do
        alignStruct words
        entry (return .basic (← basic words key)) (valueWith inner value)
      return .dict (BusType.dict key value).signature (Entries.ofList entries)
  | .struct first rest => do
      alignStruct words
      let first ← valueWith inner first
      let rest ← valuesWith inner rest
      return .struct (first :: rest)
termination_by structural type => type

def valuesWith (inner : WatchedDecode Value) : List BusType → WatchedDecode (List Value)
  | [] => return []
  | type :: types => do
      let value ← valueWith inner type
      let values ← valuesWith inner types
      return value :: values
termination_by structural types => types

end

/-- Runs a computation inside one more variant, which it must leave again. -/
def insideVariant (contents : WatchedDecode α) : WatchedDecode α :=
  fun buffer cursor =>
    if cursor.variantDepth + 1 < words then
      match contents buffer { cursor with variantDepth := cursor.variantDepth + 1 } with
      | some (outcome, reached) =>
          if 0 < reached.variantDepth then
            some (outcome, { reached with variantDepth := reached.variantDepth - 1 })
          else none
      | none => none
    else none

def variantType : WatchedDecode BusType := do
  free (Decode.liftGrammar (BusType.parse (← signature words)))

/-- Reads what a variant holds, when so many variants may be begun inside one another,
those included that are refused for their depth. -/
def variant : Nat → WatchedDecode Value
  | 0 => stop
  | levels + 1 => do
      let type ← variantType words
      if maxVariantDepth ≤ (← variantDepth) then fail .variantDepth
      else insideVariant words (valueWith words (variant levels) type)

end

end WatchedDecode

end BusCodec
