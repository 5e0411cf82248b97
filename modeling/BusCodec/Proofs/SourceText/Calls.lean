import BusCodec.SourceText.Module
import BusCodec.Proofs.SourceText.Lines

/-!
Calls in source text.  A call is a path directly before an opening bracket, outside of string
literals.  A scan that starts on a piece of text where the scan of the piece before it ended
finds the calls of both, so the calls of a line are found from the pieces it was put together
from.
-/

namespace BusCodec

/-- The path of what is called, in functions of an access. -/
def Callee.path : Access → Callee → String
  | .read, .primitive type => "reader.read_" ++ SourceText.primitiveName type
  | .read, .variant => "reader.read_variant_value"
  | .write, .primitive type => "writer.write_" ++ SourceText.primitiveName type
  | .write, .variant => "writer.write_variant"
  | _, .procedure name _ => name

namespace SourceText

def isNameCharacter (letter : Char) : Bool :=
  letter.isAlphanum || letter == '_'

def isPathCharacter (letter : Char) : Bool :=
  isNameCharacter letter || letter == '.' || letter == ':'

/-- Whether a path is that of a function: a single name that begins with a small letter. -/
def isFunction : List Char → Bool
  | [] => false
  | first :: rest => first.isLower && rest.all isNameCharacter

/-- The methods that read or write one value. -/
def valueMethods : List String :=
  [Access.read, Access.write].flatMap fun access =>
    Callee.path access .variant ::
      BasicType.all.map fun type => Callee.path access (.primitive type)

/-- Whether a call handles a value, with a function or with a method for one value. -/
def handlesValue (path : List Char) : Bool :=
  isFunction path || valueMethods.contains (String.ofList path)

/-- Where a scan of source text is. -/
inductive Place
  /-- Behind the letters of a path, or behind none. -/
  | code (path : List Char)
  | literal
  /-- In a literal, behind a backslash. -/
  | escaped
  deriving DecidableEq, Repr, Inhabited

namespace Place

def next : Place → Char → Place
  | code path, letter =>
      if letter = '"' then literal
      else if isPathCharacter letter then code (path ++ [letter])
      else code []
  | literal, letter =>
      if letter = '"' then code []
      else if letter = '\\' then escaped
      else literal
  | escaped, _ => literal

def called : Place → Char → List String
  | code path, '(' => if handlesValue path then [String.ofList path] else []
  | _, _ => []

theorem called_of_ne {path : List Char} {letter : Char} (h : letter ≠ '(') :
    (code path).called letter = [] := by
  rw [called]
  rintro _ - rfl
  exact h rfl

/-- The paths of the calls that handle values, in the order in which they stand. -/
def calls : Place → List Char → List String
  | _, [] => []
  | place, letter :: rest => place.called letter ++ calls (place.next letter) rest

theorem calls_append (place : Place) (first second : List Char) :
    place.calls (first ++ second) =
      place.calls first ++ (first.foldl next place).calls second := by
  induction first generalizing place with
  | nil => rfl
  | cons letter first ih =>
      rw [List.cons_append, calls, calls, ih, List.foldl_cons, List.append_assoc]

end Place

/-- The paths of the calls in a line that handle values. -/
def callsIn (line : List Char) : List String :=
  Place.calls (.code []) line

/-- A scan leads over a text, which has no line break, from one place to the next and finds
the calls in it. -/
structure Scans (place : Place) (text : String) (calls : List String) (next : Place) : Prop where
  calls_eq : place.calls text.toList = calls
  next_eq : text.toList.foldl Place.next place = next
  unbroken : '\n' ∉ text.toList

variable {place middle next : Place} {path : List Char} {text more name : String}
  {found others : List String}

theorem Scans.append (h : Scans place text found middle) (hmore : Scans middle more others next) :
    Scans place (text ++ more) (found ++ others) next := by
  refine ⟨?_, ?_, unbroken_append h.unbroken hmore.unbroken⟩
  · rw [String.toList_append, Place.calls_append, h.next_eq, h.calls_eq, hmore.calls_eq]
  · rw [String.toList_append, List.foldl_append, h.next_eq, hmore.next_eq]

theorem scans_of_isPath (h : ∀ letter ∈ name.toList, isPathCharacter letter = true)
    (path : List Char) : Scans (.code path) name [] (.code (path ++ name.toList)) := by
  suffices hletters : ∀ letters : List Char, (∀ letter ∈ letters, isPathCharacter letter = true) →
      ∀ path, (Place.code path).calls letters = [] ∧
        letters.foldl Place.next (.code path) = .code (path ++ letters) by
    obtain ⟨hcalls, hnext⟩ := hletters _ h path
    refine ⟨hcalls, hnext, fun hbreak => ?_⟩
    cases h _ hbreak
  intro letters
  induction letters with
  | nil => exact fun _ path => ⟨rfl, by rw [List.foldl_nil, List.append_nil]⟩
  | cons letter letters ih =>
      intro h path
      rw [List.forall_mem_cons] at h
      have hquote : letter ≠ '"' := by
        rintro rfl
        cases h.1
      have hbracket : letter ≠ '(' := by
        rintro rfl
        cases h.1
      have hstep : (Place.code path).next letter = .code (path ++ [letter]) := by
        rw [Place.next, if_neg hquote, if_pos h.1]
      obtain ⟨hcalls, hnext⟩ := ih h.2 (path ++ [letter])
      rw [Place.calls, List.foldl_cons, hstep, Place.called_of_ne hbracket, hcalls, hnext,
        List.append_assoc]
      exact ⟨rfl, rfl⟩

instance : Decidable (Scans place text found next) :=
  decidable_of_iff (place.calls text.toList = found ∧ text.toList.foldl Place.next place = next ∧
      '\n' ∉ text.toList)
    ⟨fun h => ⟨h.1, h.2.1, h.2.2⟩, fun h => ⟨h.calls_eq, h.next_eq, h.unbroken⟩⟩

theorem scans_bracket (path : List Char) :
    Scans (.code path) "(" (if handlesValue path then [String.ofList path] else []) (.code []) :=
  ⟨List.append_nil _, rfl, by decide⟩

/-- Whether a text ends the path before it, without a call of it. -/
def EndsPath (text : String) : Prop :=
  ∃ letter ∈ text.toList.head?, isPathCharacter letter = false ∧ letter ≠ '(' ∧ letter ≠ '"'

instance (text : String) : Decidable (EndsPath text) :=
  Option.decidableExistsMem text.toList.head?

theorem Scans.of_endsPath (h : Scans (.code []) text found next) (hends : EndsPath text)
    (path : List Char) : Scans (.code path) text found next := by
  obtain ⟨letter, hletter, hpath, hbracket, hquote⟩ := hends
  obtain ⟨rest, htext⟩ := List.head?_eq_some_iff.mp hletter
  have hnext : ∀ path, (Place.code path).next letter = .code [] := by
    intro path
    rw [Place.next, if_neg hquote, hpath, if_neg Bool.false_ne_true]
  obtain ⟨hcalls, hplace, hunbroken⟩ := h
  rw [htext] at hcalls hplace
  rw [Place.calls, hnext, Place.called_of_ne hbracket] at hcalls
  rw [List.foldl_cons, hnext] at hplace
  refine ⟨?_, ?_, hunbroken⟩
  · rw [htext, Place.calls, hnext, Place.called_of_ne hbracket, hcalls]
  · rw [htext, List.foldl_cons, hnext, hplace]

theorem callsIn_indented (level : Nat) (letters : List Char) :
    callsIn (indentation level ++ letters) = callsIn letters := by
  have hblanks : ∀ count, Place.calls (.code []) (List.replicate count ' ') = [] ∧
      (List.replicate count ' ').foldl Place.next (.code []) = .code [] := by
    intro count
    induction count with
    | zero => exact ⟨rfl, rfl⟩
    | succ count ih => exact ih
  rw [callsIn, Place.calls_append, indentation, (hblanks _).1, (hblanks _).2, List.nil_append,
    callsIn]

namespace Code

mutual

/-- The paths of the calls in code that handle values. -/
def calls : Code → List String
  | .line content => callsIn content.toList
  | .block opening inside => callsIn opening.toList ++ callsAll inside
termination_by structural code => code

def callsAll : List Code → List String
  | [] => []
  | code :: rest => calls code ++ callsAll rest
termination_by structural codes => codes

end

mutual

/-- The calls in code are those in its lines. -/
theorem flatMap_callsIn_lines : ∀ (code : Code) (level : Nat),
    (lines level code).flatMap callsIn = calls code
  | .line content, level => by
      rw [lines, List.flatMap_singleton, callsIn_indented, calls]
  | .block opening inside, level => by
      have hclosing : callsIn ['}'] = [] := rfl
      rw [lines, List.flatMap_cons, List.flatMap_append, List.flatMap_singleton,
        callsIn_indented, callsIn_indented, flatMap_callsIn_linesAll inside, hclosing,
        List.append_nil, calls]

theorem flatMap_callsIn_linesAll : ∀ (codes : List Code) (level : Nat),
    (linesAll level codes).flatMap callsIn = callsAll codes
  | [], _ => rfl
  | code :: rest, level => by
      rw [linesAll, List.flatMap_append, flatMap_callsIn_lines code,
        flatMap_callsIn_linesAll rest, callsAll]

end

/-- Code that is laid out by its brackets makes calls. -/
structure Makes (codes : List Code) (paths : List String) : Prop where
  tidy : TidyAll codes
  calls_eq : callsAll codes = paths

variable {codes more : List Code} {content opening : String}

theorem makes_nil : Makes [] [] :=
  ⟨trivial, rfl⟩

theorem Makes.append (h : Makes codes found) (hmore : Makes more others) :
    Makes (codes ++ more) (found ++ others) := by
  obtain ⟨htidy, rfl⟩ := h
  induction codes with
  | nil => exact hmore
  | cons code codes ih =>
      obtain ⟨hboth, hcalls⟩ := ih htidy.2
      refine ⟨⟨htidy.1, hboth⟩, ?_⟩
      rw [List.cons_append, callsAll, hcalls, callsAll, List.append_assoc]

theorem Makes.cons_of_quiet_head {code : Code} (h : Makes [code] []) (hmore : Makes more found) :
    Makes (code :: more) found :=
  h.append hmore

theorem Makes.cons_of_quiet_tail {code : Code} (h : Makes [code] found) (hmore : Makes more []) :
    Makes (code :: more) found := by
  have hboth := h.append hmore
  rw [List.append_nil] at hboth
  exact hboth

theorem Makes.cons {code : Code} {path : String} (h : Makes [code] [path])
    (hmore : Makes more found) : Makes (code :: more) (path :: found) :=
  h.append hmore

theorem makes_line_iff : Makes [.line content] found ↔
    Begins content ∧ '\n' ∉ content.toList ∧ content.toList.getLast? ≠ some '{' ∧
      callsIn content.toList = found := by
  have hcalls : callsAll [.line content] = callsIn content.toList := List.append_nil _
  constructor
  · rintro ⟨⟨⟨hbegins, hunbroken, hends⟩, -⟩, rfl⟩
    exact ⟨hbegins, hunbroken, hends, hcalls.symm⟩
  · rintro ⟨hbegins, hunbroken, hends, rfl⟩
    exact ⟨⟨⟨hbegins, hunbroken, hends⟩, trivial⟩, hcalls⟩

instance : Decidable (Makes [.line content] found) :=
  decidable_of_iff _ makes_line_iff.symm

/-- A line with one part, between others, that makes its calls. -/
theorem makes_line {middle closing : String} {path : List Char} {letter : Char}
    (hopening : Scans (.code []) opening [] (.code path)) (hbegins : Begins opening)
    (hmiddle : Scans (.code path) middle found place) (hclosing : Scans place closing [] next)
    (hends : closing.toList.getLast? = some letter) (hletter : letter ≠ '{') :
    Makes [.line (opening ++ middle ++ closing)] found := by
  have hscan := (hopening.append hmiddle).append hclosing
  rw [List.nil_append, List.append_nil] at hscan
  refine makes_line_iff.mpr ⟨(hbegins.append _).append _, hscan.unbroken, ?_, hscan.calls_eq⟩
  rw [getLast?_toList_append hends]
  exact fun heq => hletter (Option.some.inj heq)

/-- What stands in a line before and behind its one part that may make calls. -/
structure Frame (opening closing : String) : Prop where
  opening_scans : Scans (.code []) opening [] (.code [])
  begins : Begins opening
  closing_scans : Scans (.code []) closing [] (.code [])
  endsPath : EndsPath closing
  ends : closing.toList.getLast? = some ';' ∨ closing.toList.getLast? = some ')'

instance (opening closing : String) : Decidable (Frame opening closing) :=
  decidable_of_iff (Scans (.code []) opening [] (.code []) ∧ Begins opening ∧
      Scans (.code []) closing [] (.code []) ∧ EndsPath closing ∧
      (closing.toList.getLast? = some ';' ∨ closing.toList.getLast? = some ')'))
    ⟨fun h => ⟨h.1, h.2.1, h.2.2.1, h.2.2.2.1, h.2.2.2.2⟩,
      fun h => ⟨h.opening_scans, h.begins, h.closing_scans, h.endsPath, h.ends⟩⟩

theorem Frame.makes {middle closing : String} {path : List Char} (h : Frame opening closing)
    (hmiddle : Scans (.code []) middle found (.code path)) :
    Makes [.line (opening ++ middle ++ closing)] found := by
  have hclosing := h.closing_scans.of_endsPath h.endsPath path
  rcases h.ends with hends | hends
  · exact makes_line h.opening_scans h.begins hmiddle hclosing hends (by decide)
  · exact makes_line h.opening_scans h.begins hmiddle hclosing hends (by decide)

theorem makes_block (h : Scans (.code []) opening [] next) (hbegins : Begins opening)
    (hends : opening.toList.getLast? = some '{') (hinside : Makes codes found) :
    Makes [.block opening codes] found := by
  refine ⟨⟨⟨hbegins, h.unbroken, hends, hinside.tidy⟩, trivial⟩, ?_⟩
  rw [callsAll, callsAll, Code.calls, callsIn, h.calls_eq, List.append_nil, List.nil_append,
    hinside.calls_eq]

end Code

end SourceText

end BusCodec
