import BusCodec.Signature.BusType
import BusCodec.Signature.GrammarError

/-!
Reading signatures.  The text is read letter by letter, from left to right,
against a stack of the containers that are still open.  A complete type is
handed to the innermost open container, and an array that receives its element
is itself complete.
-/

namespace BusCodec

namespace Signature

/-- The most bytes that a signature may have. -/
def maxLength : Nat := 255

/-- The most arrays, and the most brackets, that may surround a type. -/
def maxNesting : Nat := 32

/-- A container that has been opened and not yet completed. -/
inductive Frame
  /-- An array prefix at the offset, waiting for its element type. -/
  | array (start : Nat)
  /-- A round bracket at the offset, and the member types read since. -/
  | struct (start : Nat) (members : List BusType)
  /-- An array prefix with a curly bracket at the offset, and the types read
  since. -/
  | dict (start : Nat) (members : List BusType)
  deriving Repr, Inhabited

/-- Whether the container counts as an array. -/
def Frame.isArray : Frame → Bool
  | .array _ | .dict _ _ => true
  | .struct _ _ => false

/-- Whether the container has an opening bracket. -/
def Frame.isBracket : Frame → Bool
  | .array _ => false
  | .struct _ _ | .dict _ _ => true

/-- How far a text has been read: the open containers, innermost first, and the
complete types outside of them. -/
structure Progress where
  frames : List Frame
  done : List BusType
  deriving Repr, Inhabited

namespace Progress

def start : Progress := ⟨[], []⟩

/-- Hands a complete type to the innermost open container. -/
def add (type : BusType) (done : List BusType) : List Frame → Progress
  | [] => ⟨[], done ++ [type]⟩
  | .array _ :: outer => add (.array type) done outer
  | .struct start members :: outer => ⟨.struct start (members ++ [type]) :: outer, done⟩
  | .dict start members :: outer => ⟨.dict start (members ++ [type]) :: outer, done⟩

/-- The element of an array may begin only if the array is not nested too
deeply. -/
def checkArrays (frames : List Frame) : Except GrammarError Unit :=
  match frames with
  | .array start :: _ =>
      if frames.countP Frame.isArray ≤ maxNesting then .ok ()
      else .error (.tooDeep .array start)
  | _ => .ok ()

/-- Opens a bracket inside the given containers. -/
def openBracket (offset : Nat) (frame : Frame) (outer : List Frame)
    (done : List BusType) : Except GrammarError Progress :=
  if outer.countP Frame.isBracket < maxNesting then .ok ⟨frame :: outer, done⟩
  else .error (.tooDeep .struct offset)

/-- The struct with the given members, opened at `start`. -/
def closeStruct (start : Nat) : List BusType → Except GrammarError BusType
  | [] => .error (.emptyStruct start)
  | first :: rest => .ok (.struct first rest)

/-- The dictionary with the given entry types, opened at `start`. -/
def closeDict (start : Nat) : List BusType → Except GrammarError BusType
  | [.basic key, value] => .ok (.dict key value)
  | [_, _] => .error (.nonBasicKey (start + 1))
  | members => .error (.dictEntryArity start members.length)

/-- Reads one letter at the offset. -/
def step (progress : Progress) (offset : Nat) (letter : Char) :
    Except GrammarError Progress := do
  checkArrays progress.frames
  match letter, progress.frames with
  | 'a', frames => return ⟨.array offset :: frames, progress.done⟩
  | 'v', frames => return add .variant progress.done frames
  | '(', frames => openBracket offset (.struct offset []) frames progress.done
  | '{', .array _ :: outer => openBracket offset (.dict offset []) outer progress.done
  | '{', _ => throw (.dictEntryOutsideArray offset)
  | ')', .struct start members :: outer =>
      return add (← closeStruct start members) progress.done outer
  | '}', .dict start members :: outer =>
      return add (← closeDict start members) progress.done outer
  | ')', _ => throw (.unexpectedClose ')' offset)
  | '}', _ => throw (.unexpectedClose '}' offset)
  | letter, frames =>
      match BasicType.ofCode? letter with
      | some type => return add (.basic type) progress.done frames
      | none => throw (.unknownCode letter offset)

/-- The types read so far, at the end of the text. -/
def finish (progress : Progress) : Except GrammarError (List BusType) :=
  match progress.frames with
  | [] => .ok progress.done
  | .array start :: _ => .error (.missingElement start)
  | .struct start _ :: _ => .error (.unbalanced '(' start)
  | .dict start _ :: _ => .error (.unbalanced '{' start)

/-- Reads letters to the end of the text.  Every letter before the offset was a
type code or a bracket, so the offset also counts bytes. -/
def run (progress : Progress) (offset : Nat) :
    List Char → Except GrammarError (List BusType)
  | [] => progress.finish
  | letter :: rest => do
      let progress ← progress.step offset letter
      progress.run (offset + 1) rest

/-- Reads letters until one complete type has been read, which must be the end
of the text. -/
def runSingle (progress : Progress) (offset : Nat) :
    List Char → Except GrammarError BusType
  | [] =>
      match progress.finish with
      | .ok (type :: _) => .ok type
      | .ok [] => .error .empty
      | .error error => .error error
  | letter :: rest =>
      match progress with
      | ⟨[], _ :: _⟩ => .error (.trailing offset)
      | progress => do
          let progress ← progress.step offset letter
          progress.runSingle (offset + 1) rest

end Progress

/-- A text with more bytes than the limit is no signature. -/
def checkLength (text : String) : Except GrammarError Unit :=
  if text.utf8ByteSize ≤ maxLength then .ok () else .error (.tooLong text.utf8ByteSize)

end Signature

namespace BusType

/-- The types that a text is the signature of, any number of them. -/
def parseAll (text : String) : Except GrammarError (List BusType) := do
  Signature.checkLength text
  Signature.Progress.start.run 0 text.toList

/-- The one type that a text is the signature of. -/
def parse (text : String) : Except GrammarError BusType := do
  Signature.checkLength text
  Signature.Progress.start.runSingle 0 text.toList

end BusType

end BusCodec
