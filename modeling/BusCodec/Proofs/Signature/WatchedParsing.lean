import BusCodec.Proofs.Watched
import BusCodec.Signature.Parser

/-!
Reading signatures on a machine that knows a text by its bytes.  The scanner takes one byte
after another and calls itself for the types that stand inside of others.  It is stopped
where an index or a slice is out of bounds, where a slice begins or ends inside of a letter,
where the text that is kept for a type is not its signature, where a count would fall below
zero, and where calls are nested deeper, or a loop takes more rounds, than the limits and the
text allow for.
-/

namespace BusCodec

namespace Signature

/-- Which byte of a text comes next, and how many arrays and brackets are open around it. -/
structure Scan where
  index : Nat
  arrays : Nat
  brackets : Nat
  deriving Repr

namespace Scan

def start : Scan := ⟨0, 0, 0⟩

/-- How many containers of the kind are open. -/
def depth : Nesting → Scan → Nat
  | .array, scan => scan.arrays
  | .struct, scan => scan.brackets

def withDepth : Nesting → Nat → Scan → Scan
  | .array, depth, scan => { scan with arrays := depth }
  | .struct, depth, scan => { scan with brackets := depth }

end Scan

/-- The two kinds of brackets. -/
inductive Bracket
  | round
  | curly
  deriving DecidableEq, Repr

namespace Bracket

def opener : Bracket → Char
  | round => '('
  | curly => '{'

def closer : Bracket → Char
  | round => ')'
  | curly => '}'

/-- The type that a bracket opened at the offset makes of its members. -/
def close : Bracket → Nat → List BusType → Except GrammarError BusType
  | round => Progress.closeStruct
  | curly => Progress.closeDict

end Bracket

/-- The byte at an index of the text, as the letter with its number, if the text is that
long. -/
def byte? (text : String) (index : Nat) : Option Char :=
  text.toByteArray.data[index]?.map Char.ofUInt8

/-- A computation that scans a text while it is watched. -/
abbrev Scanner (α : Type) : Type :=
  Watched Scan α

namespace Scanner

variable {α : Type}

/-- A result or an error that takes no scanning. -/
def lift (outcome : Except GrammarError α) : Scanner α :=
  .free (Attempt.liftGrammar outcome)

def fail (error : GrammarError) : Scanner α :=
  lift (.error error)

def position : Scanner Nat :=
  .free fun scan => (.ok scan.index, scan)

def advance : Scanner Unit :=
  .free (Attempt.update fun scan => { scan with index := scan.index + 1 })

/-- Counts one more container, opened at the offset. -/
def enter (nesting : Nesting) (offset : Nat) : Scanner Unit :=
  fun scan =>
    let depth := scan.depth nesting + 1
    let entered := scan.withDepth nesting depth
    if maxNesting < depth then fail (.tooDeep nesting offset) entered
    else some (.ok (), entered)

/-- Counts one container less. -/
def leave (nesting : Nesting) : Scanner Unit :=
  fun scan =>
    if 0 < scan.depth nesting then
      some (.ok (), scan.withDepth nesting (scan.depth nesting - 1))
    else none

section

variable (text : String)

def byteAt (index : Nat) : Scanner Char :=
  match byte? text index with
  | some code => pure code
  | none => .stop

/-- The text between two indices, which must be in order and between letters. -/
def slice (start stop : Nat) : Scanner String := do
  .require (start ≤ stop ∧ String.Pos.Raw.IsValid text ⟨start⟩ ∧
    String.Pos.Raw.IsValid text ⟨stop⟩)
  return String.Pos.Raw.extract text ⟨start⟩ ⟨stop⟩

/-- The type for which the text from the offset up to here is kept, which must be its
signature. -/
def node (start : Nat) (type : BusType) : Scanner BusType := do
  let stop ← position
  let kept ← slice text start stop
  .require (kept = type.signature)
  return type

variable (inner : Scanner BusType)

/-- Scans types up to the bracket that closes the one at the offset, in so many rounds at the
most. -/
def collect (bracket : Bracket) (offset : Nat) :
    Nat → List BusType → Scanner (List BusType)
  | rounds, members => do
      match byte? text (← position) with
      | none => fail (.unbalanced bracket.opener offset)
      | some code =>
          if code = bracket.closer then
            advance
            return members
          else
            match rounds with
            | 0 => .stop
            | rounds + 1 => do
                let type ← inner
                collect bracket offset rounds (members ++ [type])

/-- Scans what is in the bracket at the offset, for a type that begins at the start. -/
def bracketed (bracket : Bracket) (start offset : Nat) : Scanner BusType := do
  enter .struct offset
  let members ← collect text inner bracket offset text.utf8ByteSize []
  leave .struct
  let type ← lift (bracket.close offset members)
  node text start type

/-- Scans what is at the offset for an array whose prefix is at the start. -/
def elementAt (start offset : Nat) : Scanner BusType := do
  if (← byteAt text offset) = Bracket.curly.opener then
    advance
    bracketed text inner .curly start offset
  else
    let element ← inner
    node text start (.array element)

/-- Scans what comes after the array prefix at the start. -/
def array (start : Nat) : Scanner BusType := do
  let offset ← position
  if text.utf8ByteSize ≤ offset then fail (.missingElement start)
  else
    enter .array start
    let type ← elementAt text inner start offset
    leave .array
    return type

/-- Scans the rest of a type whose first byte is the given one, at the start. -/
def typeFrom (start : Nat) (code : Char) : Scanner BusType :=
  match code with
  | 'a' => array text inner start
  | '(' => bracketed text inner .round start start
  | 'v' => return .variant
  | '{' => fail (.dictEntryOutsideArray start)
  | ')' => fail (.unexpectedClose ')' start)
  | '}' => fail (.unexpectedClose '}' start)
  | code =>
      match BasicType.ofCode? code with
      | some type => node text start (.basic type)
      | none => do
          let rest ← slice text start text.utf8ByteSize
          fail (.unknownCode (rest.toList.head?.getD '?') start)

/-- Scans one complete type, by calls that are nested no deeper than allowed. -/
def completeType : Nat → Scanner BusType
  | 0 => .stop
  | calls + 1 => do
      let start ← position
      let code ← byteAt text start
      advance
      typeFrom text (completeType calls) start code

/-- How deep the calls for a type are nested at the most: inside every array and every
bracket there is one more. -/
def maxCalls : Nat :=
  2 * maxNesting + 1

/-- Scans a text that is the signature of one type. -/
def single : Scanner BusType :=
  if text.isEmpty then fail .empty
  else do
    lift (checkLength text)
    let type ← completeType text maxCalls
    let stop ← position
    if stop ≠ text.utf8ByteSize then fail (.trailing stop)
    else return type

/-- Scans types up to the end of the text, in so many rounds at the most. -/
def types : Nat → List BusType → Scanner (List BusType)
  | rounds, done => do
      if (← position) < text.utf8ByteSize then
        match rounds with
        | 0 => .stop
        | rounds + 1 => do
            let type ← completeType text maxCalls
            types rounds (done ++ [type])
      else return done

/-- Scans a text that is the signature of any number of types. -/
def all : Scanner (List BusType) := do
  lift (checkLength text)
  types text text.utf8ByteSize []

end

end Scanner

end Signature

end BusCodec
