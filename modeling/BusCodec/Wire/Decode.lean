import BusCodec.Attempt
import BusCodec.Signature.Parser
import BusCodec.Value.BasicValue
import BusCodec.Value.ObjectPath
import BusCodec.Wire.ByteOrder

/-!
Reading from a buffer at a cursor.  The cursor never passes the end of the
buffer and never moves back, and it keeps its place when a step fails: what was
read before the failure stays consumed, and a move past the end is not made.
-/

namespace BusCodec

/-- The bytes of one message body.  Byte boundaries count from their start. -/
structure Buffer where
  order : ByteOrder
  bytes : ByteArray

/-- How far a buffer has been read, and how many variants surround the value
that is being read. -/
structure Cursor where
  position : Nat := 0
  variantDepth : Nat := 0
  deriving DecidableEq, Repr, Inhabited

/-- A computation that reads a buffer. -/
def Decode (α : Type) : Type :=
  Buffer → Attempt Cursor α

namespace Decode

variable {α β : Type}

instance : Monad Decode where
  pure value := fun _ => pure value
  bind first next := fun buffer => first buffer >>= fun value => next value buffer

@[simp] theorem pure_apply (value : α) (buffer : Buffer) :
    (pure value : Decode α) buffer = pure value :=
  rfl

theorem bind_apply (first : Decode α) (next : α → Decode β) (buffer : Buffer) :
    (first >>= next) buffer = first buffer >>= fun value => next value buffer :=
  rfl

def fail (error : Error) : Decode α :=
  fun _ => Attempt.fail error

/-- A result or error that does not depend on the buffer. -/
def lift (outcome : Except Error α) : Decode α :=
  fun _ => Attempt.lift outcome

/-- A result or grammar error that does not depend on the buffer. -/
def liftGrammar (outcome : Except GrammarError α) : Decode α :=
  fun _ => Attempt.liftGrammar outcome

def position : Decode Nat :=
  fun _ cursor => (.ok cursor.position, cursor)

/-- Moves the cursor to an index, which may be the end of the buffer. -/
def moveTo (index : Nat) : Decode Unit :=
  fun buffer cursor =>
    if index ≤ buffer.bytes.size then (.ok (), { cursor with position := index })
    else (.error (.indexOutOfBounds index), cursor)

/-- Moves the cursor to the next multiple of the alignment. -/
def align (alignment : Nat) : Decode Unit :=
  fun buffer cursor => moveTo (alignUp cursor.position alignment) buffer cursor

def take (count : Nat) : Decode ByteArray :=
  fun buffer cursor =>
    let stop := cursor.position + count
    if stop ≤ buffer.bytes.size then
      (.ok (buffer.bytes.extract cursor.position stop), { cursor with position := stop })
    else (.error (.indexOutOfBounds stop), cursor)

/-- Fails if bytes are left over. -/
def complete : Decode Unit :=
  fun buffer cursor =>
    let left := buffer.bytes.size - cursor.position
    if left = 0 then (.ok (), cursor) else (.error (.leftoverData left), cursor)

/-- Reads a word of the given width, from a boundary of that width. -/
def word (width : Nat) : Decode Nat := do
  align width
  let bytes ← take width
  fun buffer => pure (buffer.order.decode bytes.data.toList)

/-- Reads a text behind a length field of the given width.  A nul byte follows
the text and is not counted in its length. -/
def text (lengthWidth : Nat) : Decode String := do
  let length ← word lengthWidth
  let bytes ← take (length + 1)
  if bytes.data.back? ≠ some 0 then fail .missingNul
  else
    let bytes := bytes.extract 0 length
    if bytes.data.contains 0 then fail .interiorNul
    else
      match String.fromUTF8? bytes with
      | some text => pure text
      | none => fail (@Error.invalidUtf8 (.ofBytes bytes))

/-- Reads a boolean, which is encoded as the word 0 or 1. -/
def boolean : Decode Bool := do
  match ← word 4 with
  | 0 => pure false
  | 1 => pure true
  | other => fail (.invalidBoolean other)

def objectPath : Decode String := do
  let path ← text 4
  if ObjectPath.isValid path then pure path else fail (.invalidObjectPath path)

/-- Reads a signature of any number of types. -/
def signature : Decode String := do
  let text ← text 1
  let _ ← liftGrammar (BusType.parseAll text)
  pure text

def basic : BasicType → Decode BasicValue
  | .byte => return .byte (UInt8.ofNat (← word 1))
  | .boolean => return .boolean (← boolean)
  | .int16 => return .int16 (UInt16.ofNat (← word 2)).toInt16
  | .uint16 => return .uint16 (UInt16.ofNat (← word 2))
  | .int32 => return .int32 (UInt32.ofNat (← word 4)).toInt32
  | .uint32 => return .uint32 (UInt32.ofNat (← word 4))
  | .int64 => return .int64 (UInt64.ofNat (← word 8)).toInt64
  | .uint64 => return .uint64 (UInt64.ofNat (← word 8))
  | .double => return .double (UInt64.ofNat (← word 8))
  | .string => return .string (← text 4)
  | .objectPath => return .objectPath (← objectPath)
  | .signature => return .signature (← signature)
  | .unixFd => return .unixFd (UInt32.ofNat (← word 4))

/-- Reads a signature, which must be the expected one. -/
def expectSignature (expected : String) : Decode Unit := do
  let found ← signature
  if found = expected then pure () else fail (.protocolMismatch expected found)

/-- Moves to the boundary at which structs and dictionary entries start. -/
def alignStruct : Decode Unit :=
  align WireKind.struct.alignment

end Decode

/-- The elements of an array: their kind, which gives the boundary at which each
of them starts, and the index at which they end. -/
structure Region where
  element : WireKind
  stop : Nat
  deriving DecidableEq, Repr, Inhabited

namespace Region

/-- The region of `length` bytes that begins at the cursor. -/
def ofLength (element : WireKind) (length : Nat) : Decode Region :=
  fun buffer cursor =>
    let stop := cursor.position + length
    if stop ≤ buffer.bytes.size then (.ok ⟨element, stop⟩, cursor)
    else (.error (.indexOutOfBounds stop), cursor)

/-- Reads the length of an array of the given elements and moves to the first
of them. -/
def start (element : WireKind) : Decode Region := do
  let length ← Decode.word 4
  if length > maxArrayLength then Decode.fail (.arrayTooLong length)
  else
    Decode.align element.alignment
    ofLength element length

/-- Whether another element comes before the end of the region, to whose start
the cursor then moves. -/
def hasNext (region : Region) : Decode Bool :=
  fun buffer cursor =>
    if cursor.position = region.stop then (.ok false, cursor)
    else if region.stop < cursor.position then
      (.error (.arrayElementOverrun cursor.position region.stop), cursor)
    else
      match Decode.align region.element.alignment buffer cursor with
      | (.error error, reached) => (.error error, reached)
      | (.ok (), reached) =>
          if region.stop ≤ reached.position then
            (.error (.arrayElementOverrun reached.position region.stop), reached)
          else (.ok true, reached)

/-- Before a next element, the cursor stands inside the region and has not moved
back. -/
theorem hasNext_true {region : Region} {buffer : Buffer} {cursor reached : Cursor}
    (h : region.hasNext buffer cursor = (.ok true, reached)) :
    cursor.position < region.stop ∧ cursor.position ≤ reached.position := by
  have hle := le_alignUp cursor.position region.element.alignment_pos
  simp only [hasNext, Decode.align, Decode.moveTo] at h
  grind

/-- Reads elements to the end of the region.  An element that takes no bytes
would be read for ever, which is an error. -/
def collect {α : Type} (region : Region) (element : Decode α) (buffer : Buffer)
    (cursor : Cursor) : Except Error (List α) × Cursor :=
  match _hnext : region.hasNext buffer cursor with
  | (.error error, reached) => (.error error, reached)
  | (.ok false, reached) => (.ok [], reached)
  | (.ok true, reached) =>
      match element buffer reached with
      | (.error error, after) => (.error error, after)
      | (.ok value, after) =>
          if reached.position < after.position then
            match collect region element buffer after with
            | (.error error, last) => (.error error, last)
            | (.ok values, last) => (.ok (value :: values), last)
          else (.error .endless, after)
termination_by region.stop - cursor.position
decreasing_by
  have := hasNext_true _hnext
  omega

end Region

end BusCodec
