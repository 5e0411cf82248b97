import Mathlib.Data.String.Basic
import BusCodec.Proofs.Signature.Parsing
import BusCodec.Proofs.Signature.WatchedParsing

/-!
The scanner is never stopped, and comes to the same types and errors as the parser.  All
letters that were scanned are ASCII, so that an index into the bytes is a place between
letters; the first byte of a letter tells whether it is a code or a bracket; and the counts
of the scanner are those of the containers that the parser keeps open.  The letters that were
taken for a type are those of its signature.
-/

namespace BusCodec

namespace Signature

open BusType

theorem utf8Size_of_mem_alphabet {letter : Char} (h : letter ∈ alphabet) :
    letter.utf8Size = 1 := by
  have hascii := (val_of_mem_alphabet letter h).2
  rw [Char.utf8Size_eq_one_iff, UInt32.le_iff_toNat_le]
  exact hascii

theorem utf8Len_eq_length {letters : List Char} (h : ∀ letter ∈ letters, letter ∈ alphabet) :
    String.utf8Len letters = letters.length := by
  induction letters with
  | nil => rfl
  | cons letter letters ih =>
      rw [String.utf8Len_cons, utf8Size_of_mem_alphabet (h _ (List.mem_cons_self ..)),
        ih fun other hother => h other (List.mem_cons_of_mem _ hother), List.length_cons]

theorem length_le_utf8Len (letters : List Char) : letters.length ≤ String.utf8Len letters := by
  induction letters with
  | nil => exact Nat.le_refl 0
  | cons letter letters ih =>
      have hsize := letter.utf8Size_pos
      rw [String.utf8Len_cons, List.length_cons]
      omega

theorem length_flatMap_utf8EncodeChar (letters : List Char) :
    (letters.flatMap String.utf8EncodeChar).length = String.utf8Len letters := by
  induction letters with
  | nil => rfl
  | cons letter letters ih =>
      rw [List.flatMap_cons, List.length_append, String.length_utf8EncodeChar, ih,
        String.utf8Len_cons, Nat.add_comm]

/-- The first byte of a letter that is not ASCII is the number of no code and no bracket. -/
theorem exists_leading_byte (letter : Char) :
    ∃ byte bytes, String.utf8EncodeChar letter = byte :: bytes ∧
      (byte.toNat = letter.toNat ∧ letter.toNat ≤ 127 ∨ 127 < byte.toNat ∧ 127 < letter.toNat) := by
  have hlead : ∀ payload mark : UInt8, 127 < mark.toNat → 127 < (payload ||| mark).toNat := by
    intro payload mark hmark
    rw [UInt8.toNat_or]
    exact Nat.lt_of_lt_of_le hmark Nat.right_le_or
  have hascii : letter.utf8Size = 1 ↔ letter.toNat ≤ 127 := by
    rw [Char.utf8Size_eq_one_iff, UInt32.le_iff_toNat_le]
    rfl
  rcases letter.utf8Size_eq with hsize | hsize | hsize | hsize
  · have hval := hascii.mp hsize
    refine ⟨_, _, String.utf8EncodeChar_eq_singleton hsize, .inl ⟨?_, hval⟩⟩
    rw [UInt32.toNat_toUInt8]
    exact Nat.mod_eq_of_lt (Nat.lt_of_le_of_lt hval (by decide))
  · exact ⟨_, _, String.utf8EncodeChar_eq_cons_cons hsize,
      .inr ⟨hlead _ _ (by decide), by omega⟩⟩
  · exact ⟨_, _, String.utf8EncodeChar_eq_cons_cons_cons hsize,
      .inr ⟨hlead _ _ (by decide), by omega⟩⟩
  · exact ⟨_, _, String.utf8EncodeChar_eq_cons_cons_cons_cons hsize,
      .inr ⟨hlead _ _ (by decide), by omega⟩⟩

structure Scanned (text : String) (before rest : List Char) : Prop where
  text_eq : text.toList = before ++ rest
  known : ∀ letter ∈ before, letter ∈ alphabet

namespace Scanned

variable {text : String} {before rest : List Char} {letter : Char}

theorem utf8ByteSize_eq (h : Scanned text before rest) :
    text.utf8ByteSize = before.length + String.utf8Len rest := by
  rw [← String.utf8Len_toList, h.text_eq, String.utf8Len_append, utf8Len_eq_length h.known]

theorem bytes_eq (h : Scanned text before rest) : ∃ bytes, bytes.length = before.length ∧
    text.toByteArray.data.toList = bytes ++ rest.flatMap String.utf8EncodeChar := by
  refine ⟨before.flatMap String.utf8EncodeChar, ?_, ?_⟩
  · rw [length_flatMap_utf8EncodeChar, utf8Len_eq_length h.known]
  · rw [← String.ofList_toList (s := text), h.text_eq, String.toByteArray_ofList,
      List.utf8Encode, List.data_toByteArray, List.flatMap_append]

theorem byte?_nil (h : Scanned text before []) : byte? text before.length = none := by
  obtain ⟨bytes, hlength, hbytes⟩ := h.bytes_eq
  rw [byte?, ← Array.getElem?_toList, hbytes, List.flatMap_nil, List.append_nil, ← hlength,
    List.getElem?_length]
  rfl

theorem byte?_cons (h : Scanned text before (letter :: rest)) :
    ∃ code, byte? text before.length = some code ∧
      (code = letter ∨ letter ∉ alphabet ∧ code ∉ alphabet) := by
  obtain ⟨bytes, hlength, hbytes⟩ := h.bytes_eq
  obtain ⟨byte, tail, hencode, hvalue⟩ := exists_leading_byte letter
  have hcode : (Char.ofUInt8 byte).toNat = byte.toNat := UInt8.toNat_toUInt32 byte
  refine ⟨Char.ofUInt8 byte, ?_, ?_⟩
  · rw [byte?, ← Array.getElem?_toList, hbytes, List.flatMap_cons, hencode, ← hlength,
      List.getElem?_append_right (Nat.le_refl _), Nat.sub_self]
    rfl
  · rcases hvalue with ⟨hbyte, -⟩ | ⟨hbyte, hletter⟩
    · exact .inl (Char.ext (UInt32.toNat_inj.mp (hcode.trans hbyte)))
    · refine .inr ⟨fun hmem => ?_, fun hmem => ?_⟩
      · exact absurd (val_of_mem_alphabet _ hmem).2 (by omega)
      · exact absurd (val_of_mem_alphabet _ hmem).2 (by omega)

/-- A code or bracket is known by the byte. -/
theorem exists_byte? (h : Scanned text before (letter :: rest)) :
    ∃ code, byte? text before.length = some code ∧ (letter ∉ alphabet → code ∉ alphabet) ∧
      ∀ known ∈ alphabet, code = known ↔ letter = known := by
  obtain ⟨code, hcode, rfl | ⟨hletter, hother⟩⟩ := h.byte?_cons
  · exact ⟨code, hcode, id, fun _ _ => Iff.rfl⟩
  · refine ⟨code, hcode, fun _ => hother, fun known hknown => ?_⟩
    exact iff_of_false (ne_of_mem_of_not_mem hknown hother).symm
      (ne_of_mem_of_not_mem hknown hletter).symm

/-- The scan is at the end of the text where no letters are left. -/
theorem length_lt_iff (h : Scanned text before rest) :
    before.length < text.utf8ByteSize ↔ rest ≠ [] := by
  rw [h.utf8ByteSize_eq, Nat.lt_add_right_iff_pos, Nat.pos_iff_ne_zero, ne_eq,
    String.utf8Len_eq_zero]

theorem le_length_iff (h : Scanned text before rest) :
    text.utf8ByteSize ≤ before.length ↔ rest = [] := by
  rw [← Nat.not_lt, h.length_lt_iff, not_not]

theorem length_le (h : Scanned text before rest) : before.length ≤ text.utf8ByteSize := by
  rw [h.utf8ByteSize_eq]
  exact Nat.le_add_right _ _

theorem isValid (h : Scanned text before rest) :
    String.Pos.Raw.IsValid text ⟨before.length⟩ := by
  refine String.Pos.Raw.isValid_iff_exists_append.mpr
    ⟨String.ofList before, String.ofList rest, ?_, ?_⟩
  · rw [← String.ofList_append, ← h.text_eq, String.ofList_toList]
  · rw [String.rawEndPos_ofList, utf8Len_eq_length h.known]

theorem extract_rest (h : Scanned text before rest) :
    String.Pos.Raw.extract text ⟨before.length⟩ ⟨text.utf8ByteSize⟩ = String.ofList rest := by
  have hextract := String.extract_of_valid before rest []
  rw [List.append_nil, ← h.text_eq, String.ofList_toList, utf8Len_eq_length h.known,
    ← h.utf8ByteSize_eq] at hextract
  exact hextract

/-- The letters scanned last are the slice that begins where they do. -/
theorem extract_last {taken : List Char} (h : Scanned text (before ++ taken) rest) :
    String.Pos.Raw.extract text ⟨before.length⟩ ⟨(before ++ taken).length⟩ =
      String.ofList taken := by
  have hextract := String.extract_of_valid before taken rest
  rw [← h.text_eq, String.ofList_toList, ← String.utf8Len_append, utf8Len_eq_length h.known,
    utf8Len_eq_length fun letter hletter => h.known letter (List.mem_append_left _ hletter)]
    at hextract
  exact hextract

theorem append {taken : List Char} (h : Scanned text before (taken ++ rest))
    (htaken : ∀ letter ∈ taken, letter ∈ alphabet) : Scanned text (before ++ taken) rest := by
  refine ⟨by rw [h.text_eq, List.append_assoc], fun letter hletter => ?_⟩
  exact (List.mem_append.mp hletter).elim (h.known letter) (htaken letter)

theorem of_append {taken : List Char} (h : Scanned text (before ++ taken) rest) :
    Scanned text before (taken ++ rest) :=
  ⟨by rw [h.text_eq, List.append_assoc],
    fun letter hletter => h.known letter (List.mem_append_left _ hletter)⟩

theorem push (h : Scanned text before (letter :: rest)) (hletter : letter ∈ alphabet) :
    Scanned text (before ++ [letter]) rest := by
  have hletters : Scanned text before ([letter] ++ rest) := h
  exact hletters.append fun _ hother => List.mem_singleton.mp hother ▸ hletter

end Scanned

namespace Bracket

def frame : Bracket → Nat → List BusType → Frame
  | round => .struct
  | curly => .dict

/-- The containers that are open before the bracket, the innermost first. -/
def around : Bracket → Nat → List Frame → List Frame
  | round, _, outer => outer
  | curly, start, outer => .array start :: outer

/-- What stands before the bracket in the signature of a type. -/
def leading : Bracket → List Char
  | round => []
  | curly => ['a']

variable {bracket : Bracket} {start offset : Nat} {members : List BusType}
  {outer : List Frame} {done : List BusType}

theorem codes_of_close {type : BusType} (h : bracket.close offset members = .ok type) :
    type.codes = bracket.leading ++ bracket.opener :: (codesAll members ++ [bracket.closer]) := by
  cases bracket with
  | round =>
      obtain ⟨first, rest, rfl, rfl⟩ := Progress.closeStruct_eq_ok h
      simp [codes, codesAll, leading, opener, closer]
  | curly =>
      obtain ⟨key, value, rfl, rfl⟩ := Progress.closeDict_eq_ok h
      simp [codes, codesAll, leading, opener, closer]

theorem mem_alphabet (bracket : Bracket) : bracket.opener ∈ alphabet ∧ bracket.closer ∈ alphabet := by
  cases bracket <;> decide

theorem openBrackets_around : openBrackets (bracket.around start outer) = openBrackets outer := by
  cases bracket with
  | round => rfl
  | curly => exact openBrackets_cons _ _

theorem openArrays_frame : openArrays (bracket.frame offset members :: outer) =
    openArrays (bracket.around start outer) := by
  cases bracket with
  | round => exact openArrays_cons _ _
  | curly => rw [frame, around, openArrays_cons, openArrays_cons, Frame.isArray, Frame.isArray]

theorem openBrackets_frame : openBrackets (bracket.frame offset members :: outer) =
    openBrackets outer + 1 := by
  cases bracket <;> exact openBrackets_cons _ _

theorem add_frame (type : BusType) :
    Progress.add type done (bracket.frame offset members :: outer) =
      ⟨bracket.frame offset (members ++ [type]) :: outer, done⟩ := by
  cases bracket <;> rfl

theorem finish_frame : Progress.finish ⟨bracket.frame offset members :: outer, done⟩ =
    .error (.unbalanced bracket.opener offset) := by
  cases bracket <;> rfl

theorem step_closer (place : Nat) :
    Progress.step ⟨bracket.frame offset members :: outer, done⟩ place bracket.closer =
      (do
        let type ← bracket.close offset members
        return Progress.add type done outer) := by
  cases bracket <;> rfl

end Bracket

namespace Progress

variable {frames outer : List Frame} {done : List BusType} {offset start : Nat} {letter : Char}

/-- Whether a letter is not one that goes on with the innermost container itself. -/
def Begins (letter : Char) : List Frame → Prop
  | [] => True
  | .array _ :: _ => letter ≠ '{'
  | .struct _ _ :: _ => letter ≠ ')'
  | .dict _ _ :: _ => letter ≠ '}'

theorem step_opener {bracket : Bracket}
    (h : openArrays (bracket.around start outer) ≤ maxNesting) :
    step ⟨bracket.around start outer, done⟩ offset bracket.opener =
      openBracket offset (bracket.frame offset []) outer done := by
  have hcheck := checkArrays_of_arraysFit (arraysFit_of_le h)
  cases bracket <;> simp only [step, hcheck, bind, Except.bind] <;> rfl

theorem step_of_arrays_full (h : maxNesting < openArrays (.array start :: outer)) :
    step ⟨.array start :: outer, done⟩ offset letter = .error (.tooDeep .array start) := by
  have hcheck : checkArrays (.array start :: outer) = .error (.tooDeep .array start) :=
    if_neg (Nat.not_le_of_lt h)
  simp only [step, hcheck, bind, Except.bind]

theorem step_outside (h : openArrays frames ≤ maxNesting) (hbegins : Begins '{' frames) :
    step ⟨frames, done⟩ offset '{' = .error (.dictEntryOutsideArray offset) := by
  have hcheck := checkArrays_of_arraysFit (arraysFit_of_le h)
  simp only [step, hcheck, bind, Except.bind]
  rcases frames with _ | ⟨_ | _ | _, _⟩
  · rfl
  · exact absurd rfl hbegins
  · rfl
  · rfl

theorem step_unexpected (h : openArrays frames ≤ maxNesting) (hletter : letter = ')' ∨ letter = '}')
    (hbegins : Begins letter frames) :
    step ⟨frames, done⟩ offset letter = .error (.unexpectedClose letter offset) := by
  have hcheck := checkArrays_of_arraysFit (arraysFit_of_le h)
  rcases hletter with rfl | rfl <;> simp only [step, hcheck, bind, Except.bind]
  · rcases frames with _ | ⟨_ | _ | _, _⟩ <;> first | rfl | exact absurd rfl hbegins
  · rcases frames with _ | ⟨_ | _ | _, _⟩ <;> first | rfl | exact absurd rfl hbegins

theorem step_unknown (h : openArrays frames ≤ maxNesting) (hletter : letter ∉ alphabet) :
    step ⟨frames, done⟩ offset letter = .error (.unknownCode letter offset) := by
  have hcheck := checkArrays_of_arraysFit (arraysFit_of_le h)
  obtain ⟨hbracket, hcode⟩ := not_mem_alphabet_iff.mp hletter
  simp only [step, hcheck, bind, Except.bind]
  split
  all_goals first
    | exact absurd (by decide) hbracket
    | rw [hcode]; rfl

end Progress

/-- A reader takes the letters one after another, and fails inside of a container where they
end. -/
structure Follows {α : Type} (read : Progress → Nat → List Char → Except GrammarError α)
    (done : List BusType) : Prop where
  letter : Progress.GoesOn read done
  ends : ∀ {frame outer offset error},
    Progress.finish ⟨frame :: outer, done⟩ = .error error →
      read ⟨frame :: outer, done⟩ offset [] = .error error

theorem follows_run (done : List BusType) : Follows Progress.run done :=
  ⟨Progress.goesOn_run done, id⟩

theorem follows_runSingle : Follows Progress.runSingle [] := by
  refine ⟨Progress.goesOn_runSingle, fun hfinish => ?_⟩
  rw [Progress.runSingle, hfinish]

section

variable {α β γ : Type} {read : Progress → Nat → List Char → Except GrammarError α}
  {done : List BusType} {frames : List Frame} {offset : Nat} {letter : Char}
  {rest : List Char}

theorem Follows.goes {next : Progress} (hread : Follows read done)
    (h : Progress.step ⟨frames, done⟩ offset letter = .ok next) :
    read ⟨frames, done⟩ offset (letter :: rest) = read next (offset + 1) rest := by
  rw [hread.letter, h]
  rfl

theorem Follows.fails {error : GrammarError} (hread : Follows read done)
    (h : Progress.step ⟨frames, done⟩ offset letter = .error error) :
    read ⟨frames, done⟩ offset (letter :: rest) = .error error := by
  rw [hread.letter, h]
  rfl

/-- Where a scan is that has taken the letters and is inside of the containers. -/
def Scan.inside (before : List Char) (frames : List Frame) : Scan :=
  ⟨before.length, openArrays frames, openBrackets frames⟩

/-- Inside of some containers there is one more of the kind than inside of others. -/
def Deepens (nesting : Nesting) (frames deeper : List Frame) : Prop :=
  ∀ before, (Scan.inside before frames).withDepth nesting
    ((Scan.inside before frames).depth nesting + 1) = .inside before deeper

theorem deepens_array (start : Nat) (frames : List Frame) :
    Deepens .array frames (.array start :: frames) := by
  intro before
  rw [Scan.inside, Scan.inside, openArrays_cons, openBrackets_cons]
  rfl

theorem deepens_bracket (bracket : Bracket) (start offset : Nat) (members : List BusType)
    (outer : List Frame) :
    Deepens .struct (bracket.around start outer) (bracket.frame offset members :: outer) := by
  intro before
  rw [Scan.inside, Scan.inside, Bracket.openArrays_frame, Bracket.openBrackets_frame,
    Bracket.openBrackets_around]
  rfl

/-- What a scan of the letters that are left comes to, and how the reader gets on with them:
it goes on from what the value makes of its progress, behind the letters that the scan has
taken and that spell the value, or both fail alike. -/
inductive Matches (read : Progress → Nat → List Char → Except GrammarError α)
    (progress : Progress) (before rest : List Char) (next : β → Except GrammarError Progress)
    (spells : β → List Char → Prop) (frames : List Frame) :
    Option (Except Error β × Scan) → Prop
  | value (value : β) (taken left : List Char) (split : rest = taken ++ left)
      (advanced : taken ≠ []) (known : ∀ letter ∈ taken, letter ∈ alphabet)
      (spelled : spells value taken)
      (goes : read progress before.length rest =
        (next value >>= fun later => read later (before ++ taken).length left)) :
      Matches read progress before rest next spells frames
        (some (.ok value, .inside (before ++ taken) frames))
  | error (error : GrammarError) (scan : Scan)
      (fails : read progress before.length rest = .error error) :
      Matches read progress before rest next spells frames
        (some (.error (.grammar error), scan))

namespace Matches

variable {progress later : Progress} {before taken left : List Char}
  {next : β → Except GrammarError Progress} {more : γ → Except GrammarError Progress}
  {spells spellsLeft : β → List Char → Prop} {spellsMore : γ → List Char → Prop}
  {outer : List Frame}

theorem bind {first : Scanner β} {second : β → Scanner γ} {scan : Scan}
    (h : Matches read progress before rest next spells frames (first scan))
    (hsecond : ∀ value taken left, rest = taken ++ left → taken ≠ [] →
      (∀ letter ∈ taken, letter ∈ alphabet) → spells value taken →
      read progress before.length rest =
        (next value >>= fun later => read later (before ++ taken).length left) →
      Matches read progress before rest more spellsMore outer
        (second value (.inside (before ++ taken) frames))) :
    Matches read progress before rest more spellsMore outer ((first >>= second) scan) := by
  generalize hfirst : first scan = result at h
  cases h with
  | value value taken left split advanced known spelled goes =>
      rw [Watched.bind_of_ok hfirst]
      exact hsecond value taken left split advanced known spelled goes
  | error error scan fails =>
      rw [Watched.bind_of_error hfirst]
      exact .error error scan fails

/-- A scan that begins behind more letters, where the reader has come to. -/
theorem after {result : Option (Except Error β × Scan)} (taken : List Char)
    (hknown : ∀ letter ∈ taken, letter ∈ alphabet)
    (hspells : ∀ value more, spellsLeft value more → spells value (taken ++ more))
    (hgoes : read progress before.length (taken ++ left) =
      read later (before ++ taken).length left)
    (h : Matches read later (before ++ taken) left next spellsLeft frames result) :
    Matches read progress before (taken ++ left) next spells frames result := by
  cases h with
  | value value more rest split advanced known spelled goes =>
      rw [List.append_assoc]
      refine .value value (taken ++ more) rest ?_ ?_ ?_ (hspells value more spelled) ?_
      · rw [split, List.append_assoc]
      · exact List.append_ne_nil_of_right_ne_nil _ advanced
      · intro letter hletter
        exact (List.mem_append.mp hletter).elim (hknown letter) (known letter)
      · rw [hgoes, goes, List.append_assoc]
  | error error scan fails => exact .error error scan (hgoes.trans fails)

/-- A scan that begins behind one more letter. -/
theorem behind {result : Option (Except Error β × Scan)} (hletter : letter ∈ alphabet)
    (hspells : ∀ value more, spellsLeft value more → spells value (letter :: more))
    (hgoes : read progress before.length (letter :: left) = read later (before.length + 1) left)
    (h : Matches read later (before ++ [letter]) left next spellsLeft frames result) :
    Matches read progress before (letter :: left) next spells frames result := by
  refine after [letter] (fun other hother => List.mem_singleton.mp hother ▸ hletter) hspells ?_ h
  rw [List.length_append]
  exact hgoes

end Matches

namespace Scanner

variable {text : String} {before earlier taken : List Char} {inner : Scanner BusType} {scan : Scan}
  {outer : List Frame}

theorem position_bind (next : Nat → Scanner β) :
    (position >>= next) (.inside before frames) = next before.length (.inside before frames) :=
  rfl

theorem advance_bind (letter : Char) (next : Unit → Scanner β) :
    (advance >>= next) (.inside before frames) = next () (.inside (before ++ [letter]) frames) := by
  have hscan : (Scan.inside (before ++ [letter]) frames) =
      { Scan.inside before frames with index := before.length + 1 } := by
    rw [Scan.inside, List.length_append]
    rfl
  rw [hscan]
  rfl

theorem lift_ok_bind (value : β) (next : β → Scanner γ) : (lift (.ok value) >>= next) = next value :=
  rfl

theorem lift_error_bind (error : GrammarError) (next : β → Scanner γ) :
    (lift (.error error) >>= next) = fail error :=
  rfl

theorem byteAt_bind {index : Nat} {code : Char} (h : byte? text index = some code)
    (next : Char → Scanner β) : (byteAt text index >>= next) = next code := by
  rw [byteAt, h]
  rfl

theorem slice_bind {start stop : Nat} (hle : start ≤ stop)
    (hstart : String.Pos.Raw.IsValid text ⟨start⟩) (hstop : String.Pos.Raw.IsValid text ⟨stop⟩)
    (next : String → Scanner β) :
    (slice text start stop >>= next) = next (String.Pos.Raw.extract text ⟨start⟩ ⟨stop⟩) := by
  rw [slice, Watched.require_bind ⟨hle, hstart, hstop⟩]
  rfl

/-- The text that is kept for a type is its signature where the letters of the type were
scanned last. -/
theorem node_eq {type : BusType} (h : Scanned text before rest)
    (hbefore : before = earlier ++ type.codes) :
    node text earlier.length type (.inside before frames) =
      some (.ok type, .inside before frames) := by
  subst hbefore
  have hle : earlier.length ≤ (earlier ++ type.codes).length := by simp
  have hkept : String.Pos.Raw.extract text ⟨earlier.length⟩
      ⟨(earlier ++ type.codes).length⟩ = type.signature := h.extract_last
  rw [node, position_bind, slice_bind hle h.of_append.isValid h.isValid,
    Watched.require_bind hkept]
  rfl

section

variable {nesting : Nesting} {deeper : List Frame} {start : Nat}

theorem enter_of_lt (hdepth : (Scan.inside before frames).depth nesting < maxNesting)
    (hdeeper : Deepens nesting frames deeper) :
    enter nesting start (.inside before frames) = some (.ok (), .inside before deeper) := by
  rw [enter, hdeeper before]
  exact if_neg (Nat.not_lt_of_le hdepth)

theorem enter_of_le (hdepth : maxNesting ≤ (Scan.inside before frames).depth nesting)
    (hdeeper : Deepens nesting frames deeper) :
    enter nesting start (.inside before frames) =
      some (.error (.grammar (.tooDeep nesting start)), .inside before deeper) := by
  rw [enter, hdeeper before]
  exact if_pos (Nat.lt_succ_of_le hdepth)

theorem leave_eq (hdeeper : Deepens nesting frames deeper) :
    leave nesting (.inside before deeper) = some (.ok (), .inside before frames) := by
  rw [leave, ← hdeeper before]
  cases nesting <;> rfl

end

/-- A scan that takes letters leaves enough rounds for the letters behind them. -/
theorem length_left_le {rest taken left : List Char} {rounds : Nat} (hsplit : rest = taken ++ left)
    (htaken : taken ≠ []) (hrounds : rest.length ≤ rounds + 1) : left.length ≤ rounds := by
  have hlength := List.length_pos_of_ne_nil htaken
  rw [hsplit, List.length_append] at hrounds
  omega

/-- What a scan of one type has to come to in some containers: from a letter on that begins a
type there, it takes the letters of the type, and the reader adds the type. -/
def Scans (text : String) (read : Progress → Nat → List Char → Except GrammarError α)
    (done : List BusType) (inner : Scanner BusType) (frames : List Frame) : Prop :=
  ∀ before letter rest, Scanned text before (letter :: rest) →
    Progress.Begins letter frames →
      Matches read ⟨frames, done⟩ before (letter :: rest)
        (fun type => .ok (Progress.add type done frames)) (fun type taken => type.codes = taken)
        frames (inner (.inside before frames))

theorem inside_frame (before : List Char) (bracket : Bracket) (offset : Nat)
    (members more : List BusType) (outer : List Frame) :
    Scan.inside before (bracket.frame offset members :: outer) =
      .inside before (bracket.frame offset more :: outer) := by
  cases bracket <;> rfl

theorem matches_collect (hread : Follows read done) {bracket : Bracket}
    (hinner : ∀ members, Scans text read done inner (bracket.frame offset members :: outer))
    {rounds : Nat} {members : List BusType} (h : Scanned text before rest)
    (hrounds : rest.length ≤ rounds) :
    Matches read ⟨bracket.frame offset members :: outer, done⟩ before rest
      (fun members => do
        let type ← bracket.close offset members
        return Progress.add type done outer)
      (fun all taken => codesAll members ++ taken = codesAll all ++ [bracket.closer])
      (bracket.frame offset [] :: outer)
      (collect text inner bracket offset rounds members
        (.inside before (bracket.frame offset [] :: outer))) := by
  induction rounds generalizing before rest members with
  | zero =>
      rw [List.eq_nil_of_length_eq_zero (Nat.le_zero.mp hrounds)] at h ⊢
      rw [collect, position_bind, h.byte?_nil]
      exact .error _ _ (hread.ends Bracket.finish_frame)
  | succ rounds ih =>
      cases rest with
      | nil =>
          rw [collect, position_bind, h.byte?_nil]
          exact .error _ _ (hread.ends Bracket.finish_frame)
      | cons letter rest =>
          obtain ⟨code, hcode, -, hiff⟩ := h.exists_byte?
          rw [collect, position_bind, hcode]
          by_cases hcloser : letter = bracket.closer
          · simp only [if_pos ((hiff _ (Bracket.mem_alphabet bracket).2).mpr hcloser)]
            rw [advance_bind, hcloser]
            refine .value members [bracket.closer] rest rfl (List.cons_ne_nil _ _) ?_ rfl ?_
            · intro letter hletter
              rw [List.mem_singleton.mp hletter]
              exact (Bracket.mem_alphabet bracket).2
            · rw [hread.letter, Bracket.step_closer, List.length_append]
              rfl
          · -- A member takes at least one letter, so there are rounds for the letters behind it.
            simp only [if_neg (mt (hiff _ (Bracket.mem_alphabet bracket).2).mp hcloser)]
            rw [inside_frame before bracket offset [] members outer]
            refine (hinner members before letter rest h ?_).bind ?_
            · cases bracket <;> exact hcloser
            · intro type taken left split advanced known spelled goes
              rw [Bracket.add_frame] at goes
              have hleft := length_left_le split advanced hrounds
              rw [inside_frame _ bracket offset members [] outer]
              rw [split] at h goes ⊢
              refine .after taken known ?_ goes (ih (h.append known) hleft)
              intro all more hall
              rw [← hall, codesAll_append, ← spelled]
              simp [codesAll]

/-- From a bracket on, what is taken is the signature but for what stands before the bracket. -/
theorem matches_bracketed (hread : Follows read done) (bracket : Bracket)
    (harrays : openArrays (bracket.around earlier.length outer) ≤ maxNesting)
    (hinner : openBrackets outer < maxNesting → ∀ members,
      Scans text read done inner (bracket.frame before.length members :: outer))
    (hbefore : before = earlier ++ bracket.leading)
    (h : Scanned text (before ++ [bracket.opener]) rest) :
    Matches read ⟨bracket.around earlier.length outer, done⟩ before (bracket.opener :: rest)
      (fun type => .ok (Progress.add type done outer))
      (fun type taken => type.codes = bracket.leading ++ taken)
      (bracket.around earlier.length outer)
      (bracketed text inner bracket earlier.length before.length
        (.inside (before ++ [bracket.opener]) (bracket.around earlier.length outer))) := by
  have hdeepens := deepens_bracket bracket earlier.length before.length [] outer
  have hstep : Progress.step ⟨bracket.around earlier.length outer, done⟩ before.length
      bracket.opener =
        Progress.openBracket before.length (bracket.frame before.length []) outer done :=
    Progress.step_opener harrays
  rw [Progress.openBracket] at hstep
  have hdepth : (Scan.inside (before ++ [bracket.opener])
      (bracket.around earlier.length outer)).depth .struct = openBrackets outer :=
    Bracket.openBrackets_around
  rw [bracketed]
  by_cases hroom : openBrackets outer < maxNesting
  · rw [Watched.bind_of_ok (enter_of_lt (hdepth ▸ hroom) hdeepens)]
    have hgoes : read ⟨bracket.around earlier.length outer, done⟩ before.length
        (bracket.opener :: rest) =
          read ⟨bracket.frame before.length [] :: outer, done⟩ (before.length + 1) rest :=
      hread.goes (hstep.trans (if_pos hroom))
    have hsize : rest.length ≤ text.utf8ByteSize := by
      have hrest := length_le_utf8Len rest
      have htext := h.utf8ByteSize_eq
      omega
    refine .behind (Bracket.mem_alphabet bracket).1 (fun _ _ => id) hgoes
      ((matches_collect hread (hinner hroom) h hsize).bind ?_)
    intro members taken left split advanced known spelled goes
    rw [Watched.bind_of_ok (leave_eq hdeepens)]
    cases hclose : bracket.close before.length members with
    | error error =>
        rw [lift_error_bind]
        exact .error error _ (by rw [goes, hclose]; rfl)
    | ok type =>
        have hscanned : Scanned text (before ++ [bracket.opener] ++ taken) left :=
          (split ▸ h).append known
        have hcodes : type.codes = bracket.leading ++ bracket.opener :: taken := by
          rw [Bracket.codes_of_close hclose, ← spelled]
          rfl
        have htaken : before ++ [bracket.opener] ++ taken = earlier ++ type.codes := by
          rw [hbefore, hcodes]
          simp
        rw [lift_ok_bind, node_eq hscanned htaken]
        exact .value type taken left split advanced known hcodes (by rw [goes, hclose]; rfl)
  · rw [Watched.bind_of_error (enter_of_le (hdepth ▸ Nat.le_of_not_lt hroom) hdeepens)]
    exact .error _ _ (hread.fails (hstep.trans (if_neg hroom)))

/-- The containers that a type may stand in, when calls are nested no deeper than so many. -/
structure Fits (calls : Nat) (frames : List Frame) : Prop where
  arrays : openArrays frames ≤ maxNesting
  brackets : openBrackets frames ≤ maxNesting
  calls : 2 * maxNesting < calls + openArrays frames + openBrackets frames

theorem Fits.succ {calls : Nat} (h : Fits calls frames) : Fits (calls + 1) frames :=
  ⟨h.arrays, h.brackets, by have hcalls := h.calls; omega⟩

theorem Fits.array {calls start : Nat} (h : Fits (calls + 1) frames)
    (hroom : openArrays frames < maxNesting) : Fits calls (.array start :: frames) := by
  obtain ⟨-, hbrackets, hcalls⟩ := h
  have harrays : openArrays (.array start :: frames) = openArrays frames + 1 :=
    openArrays_cons _ _
  have hsame : openBrackets (.array start :: frames) = openBrackets frames :=
    openBrackets_cons _ _
  exact ⟨by omega, by omega, by omega⟩

theorem Fits.frame {bracket : Bracket} {calls offset : Nat} {members : List BusType}
    (start : Nat) (h : Fits (calls + 1) (bracket.around start outer))
    (hroom : openBrackets outer < maxNesting) :
    Fits calls (bracket.frame offset members :: outer) := by
  obtain ⟨harrays, -, hcalls⟩ := h
  have hsame : openArrays (bracket.frame offset members :: outer) =
      openArrays (bracket.around start outer) := Bracket.openArrays_frame
  have hbrackets : openBrackets (bracket.frame offset members :: outer) =
      openBrackets outer + 1 := Bracket.openBrackets_frame
  rw [Bracket.openBrackets_around] at hcalls
  exact ⟨by omega, by omega, by omega⟩

/-- Behind an array prefix that is not one too many, a bracket of an entry or an element. -/
theorem matches_elementAt (hread : Follows read done) {calls : Nat}
    (hfits : Fits calls (.array earlier.length :: frames))
    (hinner : ∀ frames, Fits calls frames → Scans text read done inner frames)
    (hbefore : before = earlier ++ ['a']) (h : Scanned text before (letter :: rest)) :
    Matches read ⟨.array earlier.length :: frames, done⟩ before (letter :: rest)
      (fun type => .ok (Progress.add type done frames))
      (fun type taken => type.codes = 'a' :: taken) (.array earlier.length :: frames)
      (elementAt text inner earlier.length before.length
        (.inside before (.array earlier.length :: frames))) := by
  obtain ⟨code, hcode, -, hiff⟩ := h.exists_byte?
  rw [elementAt, byteAt_bind hcode]
  have hcurly := hiff _ (Bracket.mem_alphabet .curly).1
  by_cases hletter : letter = Bracket.curly.opener
  · have hscanned : Scanned text (before ++ ['{']) rest :=
      (hletter ▸ h).push (by decide)
    rw [if_pos (hcurly.mpr hletter), advance_bind, hletter]
    exact matches_bracketed hread .curly hfits.arrays
      (fun hroom members => hinner _ (hfits.succ.frame earlier.length hroom)) hbefore hscanned
  · rw [if_neg (mt hcurly.mp hletter)]
    refine (hinner _ hfits before letter rest h hletter).bind ?_
    intro element taken left split advanced known spelled goes
    have hscanned : Scanned text (before ++ taken) left := (split ▸ h).append known
    have hcodes : (BusType.array element).codes = 'a' :: taken :=
      congrArg (List.cons 'a') spelled
    have htaken : before ++ taken = earlier ++ (BusType.array element).codes := by
      rw [hbefore, hcodes]
      simp
    rw [node_eq hscanned htaken]
    exact .value _ taken left split advanced known hcodes goes

theorem matches_array (hread : Follows read done) {calls : Nat} (hfits : Fits (calls + 1) frames)
    (hinner : ∀ frames, Fits calls frames → Scans text read done inner frames)
    (h : Scanned text before ('a' :: rest)) :
    Matches read ⟨frames, done⟩ before ('a' :: rest)
      (fun type => .ok (Progress.add type done frames)) (fun type taken => type.codes = taken)
      frames (array text inner before.length (.inside (before ++ ['a']) frames)) := by
  have hscanned : Scanned text (before ++ ['a']) rest := h.push (by decide)
  have hgoes : ∀ rest, read ⟨frames, done⟩ before.length ('a' :: rest) =
      read ⟨.array before.length :: frames, done⟩ (before.length + 1) rest :=
    fun rest => hread.letter.advance hfits.arrays (.array frames done)
  have hdeepens := deepens_array before.length frames
  rw [array, position_bind]
  cases rest with
  | nil =>
      rw [if_pos (hscanned.le_length_iff.mpr rfl)]
      exact .error _ _ ((hgoes []).trans (hread.ends rfl))
  | cons letter rest =>
      rw [if_neg (mt hscanned.le_length_iff.mp (List.cons_ne_nil _ _))]
      have hdepth : (Scan.inside (before ++ ['a']) frames).depth .array = openArrays frames := rfl
      by_cases hroom : openArrays frames < maxNesting
      · rw [Watched.bind_of_ok (enter_of_lt (hdepth ▸ hroom) hdeepens)]
        refine .behind (by decide) (fun _ _ => id) (hgoes _)
          ((matches_elementAt hread (hfits.array hroom) hinner rfl hscanned).bind ?_)
        intro type taken left split advanced known spelled goes
        rw [Watched.bind_of_ok (leave_eq hdeepens)]
        exact .value type taken left split advanced known spelled goes
      · rw [Watched.bind_of_error (enter_of_le (hdepth ▸ Nat.le_of_not_lt hroom) hdeepens)]
        refine .error _ _ ((hgoes _).trans (hread.fails (Progress.step_of_arrays_full ?_)))
        rw [openArrays_cons]
        exact Nat.lt_succ_of_le (Nat.le_of_not_lt hroom)

theorem typeFrom_code (start : Nat) (type : BasicType) :
    typeFrom text inner start type.code = node text start (.basic type) := by
  cases type <;> rfl

theorem typeFrom_unknown {start : Nat} {code : Char} (h : code ∉ alphabet) :
    typeFrom text inner start code = (do
      let rest ← slice text start text.utf8ByteSize
      fail (.unknownCode (rest.toList.head?.getD '?') start)) := by
  obtain ⟨hbracket, hcode⟩ := not_mem_alphabet_iff.mp h
  rw [typeFrom, hcode]
  all_goals
    rintro rfl
    exact absurd (by decide) hbracket

/-- A call that has so many calls left comes to what the reader comes to. -/
theorem scans_completeType (hread : Follows read done) (calls : Nat) (frames : List Frame)
    (hfits : Fits calls frames) : Scans text read done (completeType text calls) frames := by
  induction calls generalizing frames with
  | zero =>
      -- All arrays and brackets that there may be are open, and there is a call for each.
      obtain ⟨harrays, hbrackets, hcalls⟩ := hfits
      omega
  | succ calls ih =>
      intro before letter rest h hbegins
      obtain ⟨code, hcode, hunknown, hiff⟩ := h.exists_byte?
      rw [completeType, position_bind, byteAt_bind hcode, advance_bind letter]
      by_cases hmem : letter ∈ alphabet
      · rw [(hiff letter hmem).mpr rfl]
        have hleaf : ∀ type : BusType, type.codes = [letter] →
            Matches read ⟨frames, done⟩ before (letter :: rest)
              (fun type => .ok (Progress.add type done frames))
              (fun type taken => type.codes = taken) frames
              (some (.ok type, .inside (before ++ [letter]) frames)) := by
          intro type hcodes
          refine .value type [letter] rest rfl (List.cons_ne_nil _ _) ?_ hcodes ?_
          · intro other hother
            rwa [List.mem_singleton.mp hother]
          · rw [hread.goes (Progress.step_leaf (Progress.arraysFit_of_le hfits.arrays) hcodes),
              List.length_append]
            rfl
        rcases mem_alphabet_iff.mp hmem with hletter | ⟨type, htype⟩
        · simp only [List.mem_cons, List.not_mem_nil, or_false] at hletter
          rcases hletter with rfl | rfl | rfl | rfl | rfl | rfl
          · exact matches_array hread hfits ih h
          · exact hleaf .variant rfl
          · exact matches_bracketed hread .round hfits.arrays
              (fun hroom members => ih _ (hfits.frame before.length hroom))
              (List.append_nil before).symm (h.push hmem)
          · exact .error _ _ (hread.fails
              (Progress.step_unexpected hfits.arrays (.inl rfl) hbegins))
          · exact .error _ _ (hread.fails (Progress.step_outside hfits.arrays hbegins))
          · exact .error _ _ (hread.fails
              (Progress.step_unexpected hfits.arrays (.inr rfl) hbegins))
        · obtain rfl := BasicType.code_of_ofCode? htype
          rw [typeFrom_code, node_eq (h.push hmem) rfl]
          exact hleaf (.basic type) rfl
      · -- The error names the letter, of which only the first byte was looked at.
        rw [typeFrom_unknown (hunknown hmem), slice_bind h.length_le h.isValid
          String.Pos.Raw.isValid_rawEndPos, h.extract_rest, String.toList_ofList]
        exact .error _ _ (hread.fails (Progress.step_unknown hfits.arrays hmem))

theorem fits_maxCalls : Fits maxCalls [] :=
  ⟨Nat.zero_le _, Nat.zero_le _, Nat.lt_succ_self _⟩

end Scanner

end

namespace Scanner

/-- A scan comes to an outcome if it is not stopped. -/
def ComesTo {α : Type} (result : Option (Except Error α × Scan))
    (outcome : Except GrammarError α) : Prop :=
  result.map Prod.fst = some (outcome.mapError .grammar)

theorem comesTo_checkLength {α : Type} {text : String} {scan : Scan} {next : Scanner α}
    {outcome : Except GrammarError α} (h : ComesTo (next scan) outcome) :
    ComesTo ((lift (checkLength text) >>= fun _ => next) scan)
      (checkLength text >>= fun _ => outcome) := by
  unfold checkLength
  split
  · exact h
  · rfl

theorem scanned_start (text : String) : Scanned text [] text.toList :=
  ⟨rfl, fun _ => nofun⟩

/-- The scan of one type is never stopped, and comes to what the parser comes to. -/
theorem comesTo_single (text : String) : ComesTo (single text .start) (BusType.parse text) := by
  by_cases hempty : text = ""
  · rw [hempty]
    rfl
  · have hcond : ¬text.isEmpty = true := by rwa [String.isEmpty_iff]
    rw [single, if_neg hcond]
    refine comesTo_checkLength ?_
    obtain ⟨letter, rest, htext⟩ := List.exists_cons_of_ne_nil
      (mt String.toList_eq_nil_iff.mp hempty)
    have h := scanned_start text
    rw [htext] at h ⊢
    have hstart : Scan.start = .inside [] [] := rfl
    have hmatches := scans_completeType follows_runSingle maxCalls [] fits_maxCalls
      [] letter rest h trivial
    rw [hstart]
    generalize hscan : completeType text maxCalls (.inside [] []) = result at hmatches
    cases hmatches with
    | value type taken left split advanced known spelled goes =>
        have hscanned := (split ▸ h).append known
        rw [Watched.bind_of_ok hscan, position_bind]
        by_cases hleft : left = []
        · have hend := hscanned.length_le.antisymm (hscanned.le_length_iff.mpr hleft)
          rw [if_neg (not_not.mpr hend)]
          rw [hleft] at goes
          exact congrArg (fun outcome => some (outcome.mapError Error.grammar)) goes.symm
        · have hmore := hscanned.length_lt_iff.mpr hleft
          rw [if_pos (Nat.ne_of_lt hmore)]
          obtain ⟨next, left, rfl⟩ := List.exists_cons_of_ne_nil hleft
          exact congrArg (fun outcome => some (outcome.mapError Error.grammar)) goes.symm
    | error error scan fails =>
        rw [Watched.bind_of_error hscan]
        exact congrArg (fun outcome => some (outcome.mapError Error.grammar)) fails.symm

theorem comesTo_types (text : String) {before rest : List Char} {done : List BusType}
    {rounds : Nat} (h : Scanned text before rest) (hrounds : rest.length ≤ rounds) :
    ComesTo (types text rounds done (.inside before []))
      (Progress.run ⟨[], done⟩ before.length rest) := by
  induction rounds generalizing before rest done with
  | zero =>
      have hrest := List.eq_nil_of_length_eq_zero (Nat.le_zero.mp hrounds)
      rw [types, position_bind, if_neg (mt h.length_lt_iff.mp (not_not.mpr hrest)), hrest]
      rfl
  | succ rounds ih =>
      cases rest with
      | nil =>
          rw [types, position_bind, if_neg (mt h.length_lt_iff.mp (not_not.mpr rfl))]
          rfl
      | cons letter rest =>
          rw [types, position_bind, if_pos (h.length_lt_iff.mpr (List.cons_ne_nil _ _))]
          have hmatches := scans_completeType (follows_run done) maxCalls [] fits_maxCalls
            before letter rest h trivial
          generalize hscan : completeType text maxCalls (.inside before []) = result at hmatches
          cases hmatches with
          | value type taken left split advanced known spelled goes =>
              rw [Watched.bind_of_ok hscan, goes]
              exact ih ((split ▸ h).append known) (length_left_le split advanced hrounds)
          | error error scan fails =>
              rw [Watched.bind_of_error hscan, fails]
              rfl

/-- The scan of any number of types is never stopped, and comes to what the parser comes to. -/
theorem comesTo_all (text : String) : ComesTo (all text .start) (BusType.parseAll text) := by
  refine comesTo_checkLength (comesTo_types text (scanned_start text) ?_)
  rw [← String.utf8Len_toList]
  exact length_le_utf8Len _

end Scanner

end Signature

end BusCodec
