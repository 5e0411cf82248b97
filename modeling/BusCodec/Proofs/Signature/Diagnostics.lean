import BusCodec.Proofs.Signature.ScannedText

/-!
What the parser says about a text that is no signature is true of the text.  The letters
before the place where a letter is refused are those of the open containers and of the types
they have received, and each open container knows where it begins; so every error points at
what it names.
-/

namespace BusCodec

namespace Signature

/-- What is open after a complete type, where it completes the arrays that it is the element
of. -/
def completed (opened : List Char) : List Char :=
  opened.dropWhile (· == 'a')

/-- What is open after one more letter, innermost first: array prefixes whose element is not
complete, and brackets that are not closed. -/
def openAfter (opened : List Char) (letter : Char) : List Char :=
  match letter with
  | 'a' | '(' | '{' => letter :: opened
  | ')' | '}' => completed (opened.drop 1)
  | _ => completed opened

/-- What a text leaves open. -/
def opened (text : List Char) : List Char :=
  text.foldl openAfter []

/-- How many array prefixes stand around the end of a text, those of dictionaries included. -/
def arraysAround (text : List Char) : Nat :=
  (opened text).count 'a'

/-- How many brackets stand around the end of a text. -/
def bracketsAround (text : List Char) : Nat :=
  (opened text).countP fun letter => letter == '(' || letter == '{'

end Signature

namespace GrammarError

/-- The place in the text that an error is about. -/
def offset? : GrammarError → Option Nat
  | .empty | .tooLong _ => none
  | .unknownCode _ offset | .unbalanced _ offset | .unexpectedClose _ offset
  | .missingElement offset | .dictEntryArity offset _ | .dictEntryOutsideArray offset
  | .nonBasicKey offset | .emptyStruct offset | .tooDeep _ offset | .trailing offset =>
      some offset

/-- What an error says about the letters before its place and those from there on. -/
def Describes (before after : List Char) : GrammarError → Prop
  | .empty | .tooLong _ => False
  | .unknownCode code _ => after.head? = some code ∧ code ∉ BusType.alphabet
  | .unexpectedClose found _ => after.head? = some found ∧ found ∈ [')', '}']
  | .dictEntryOutsideArray _ => after.head? = some '{' ∧ before.getLast? ≠ some 'a'
  | .missingElement _ => after = ['a']
  | .unbalanced opener _ =>
      opener ∈ ['(', '{'] ∧ ∃ inside types, after = opener :: inside ∧
        BusType.parseAll (String.ofList inside) = .ok types
  | .emptyStruct _ => ['(', ')'] <+: after
  | .dictEntryArity _ count =>
      before.getLast? = some 'a' ∧ ∃ inside types rest,
        after = '{' :: (inside ++ '}' :: rest) ∧
          BusType.parseAll (String.ofList inside) = .ok types ∧
          types.length = count ∧ count ≠ 2
  | .nonBasicKey _ =>
      before.getLast? = some '{' ∧ ∃ key type rest,
        after = key ++ rest ∧ BusType.parse (String.ofList key) = .ok type ∧
          type.basic? = none
  | .tooDeep .array _ => after.head? = some 'a' ∧ Signature.arraysAround before = 32
  | .tooDeep .struct _ =>
      (after.head? = some '(' ∨ after.head? = some '{' ∧ before.getLast? = some 'a') ∧
        Signature.bracketsAround before = 32
  | .trailing _ => ∃ type, BusType.parse (String.ofList before) = .ok type

/-- An error points at a letter of the text, behind nothing but ASCII, and what it says is true
of the text there. -/
def Truthful (text : String) (error : GrammarError) : Prop :=
  ∃ before after : String, text = before ++ after ∧
    error.offset? = some before.utf8ByteSize ∧ before.utf8ByteSize < text.utf8ByteSize ∧
    (∀ letter ∈ before.toList, letter.toNat ≤ 127) ∧
    error.Describes before.toList after.toList

end GrammarError

namespace Signature

open BusType

/-- The letters before the place of an error were read, and what the error says is true of
the text there. -/
structure Located (text : List Char) (error : GrammarError) (before after : List Char) :
    Prop where
  text_eq : text = before ++ after
  offset_eq : error.offset? = some before.length
  after_ne_nil : after ≠ []
  read : ∀ letter ∈ before, letter ∈ alphabet
  describes : error.Describes before after

theorem openAfter_leaf {letter : Char} (h : letter ∉ ['a', '(', '{', ')', '}'])
    (opened : List Char) : openAfter opened letter = completed opened := by
  simp only [List.mem_cons, List.not_mem_nil, or_false, not_or] at h
  obtain ⟨harray, hround, hcurly, hroundClose, hcurlyClose⟩ := h
  rw [openAfter]
  all_goals assumption

theorem code_not_mem_openers (type : BasicType) : type.code ∉ ['a', '(', '{', ')', '}'] := by
  cases type <;> decide

mutual

/-- A complete type leaves open what stands around it. -/
theorem foldl_codes : ∀ (type : BusType) (opened : List Char),
    type.codes.foldl openAfter opened = completed opened
  | .basic type, opened => openAfter_leaf (code_not_mem_openers type) opened
  | .variant, opened => rfl
  | .array element, opened => by
      rw [codes, List.foldl_cons, foldl_codes element]
      rfl
  | .dict key value, opened => by
      rw [codes, List.foldl_cons, List.foldl_cons, List.foldl_cons, List.foldl_append,
        foldl_codes value, openAfter_leaf (code_not_mem_openers key)]
      rfl
  | .struct first rest, opened => by
      rw [codes, List.foldl_cons, List.foldl_append, List.foldl_append, foldl_codes first]
      have hopened : completed (openAfter opened '(') = '(' :: opened := rfl
      rw [hopened, foldl_codesAll rest rfl]
      rfl

theorem foldl_codesAll : ∀ (types : List BusType) {opened : List Char},
    completed opened = opened → (codesAll types).foldl openAfter opened = opened
  | [], _, _ => rfl
  | type :: types, opened, h => by
      rw [codesAll, List.foldl_append, foldl_codes type, h, foldl_codesAll types h]

end

/-- The letters by which a container is opened, the last one first. -/
def Frame.openers : Frame → List Char
  | .array _ => ['a']
  | .struct _ _ => ['(']
  | .dict _ _ => ['{', 'a']

theorem foldl_letters (frame : Frame) (opened : List Char) :
    frame.letters.foldl openAfter opened = frame.openers ++ opened := by
  cases frame with
  | array start => rfl
  | struct start members =>
      rw [Frame.letters, List.foldl_cons, foldl_codesAll members rfl]
      rfl
  | dict start members =>
      rw [Frame.letters, List.foldl_cons, List.foldl_cons, foldl_codesAll members rfl]
      rfl

/-- The text that was read leaves open the containers that the parser keeps. -/
theorem opened_letters (done : List BusType) (frames : List Frame) :
    opened (codesAll done ++ lettersAll frames) = frames.flatMap Frame.openers := by
  induction frames with
  | nil => rw [lettersAll, List.reverse_nil, List.flatMap_nil, List.append_nil, opened,
      foldl_codesAll done rfl, List.flatMap_nil]
  | cons frame outer ih =>
      rw [Progress.lettersAll_cons, ← List.append_assoc, opened, List.foldl_append, foldl_letters,
        List.flatMap_cons, ← ih, opened]

theorem arraysAround_letters (done : List BusType) (frames : List Frame) :
    arraysAround (codesAll done ++ lettersAll frames) = openArrays frames := by
  rw [arraysAround, opened_letters]
  induction frames with
  | nil => rfl
  | cons frame outer ih =>
      rw [List.flatMap_cons, List.count_append, ih, openArrays_cons, Nat.add_comm]
      cases frame <;> rfl

theorem bracketsAround_letters (done : List BusType) (frames : List Frame) :
    bracketsAround (codesAll done ++ lettersAll frames) = openBrackets frames := by
  rw [bracketsAround, opened_letters]
  induction frames with
  | nil => rfl
  | cons frame outer ih =>
      rw [List.flatMap_cons, List.countP_append, ih, openBrackets_cons, Nat.add_comm]
      cases frame <;> rfl

/-- No type ends in an array prefix. -/
theorem getLast?_codes (type : BusType) :
    ∃ letter, type.codes.getLast? = some letter ∧ letter ≠ 'a' := by
  cases type with
  | basic type => exact ⟨type.code, rfl, by cases type <;> decide⟩
  | variant => exact ⟨'v', rfl, by decide⟩
  | array element =>
      obtain ⟨letter, hlast, hletter⟩ := getLast?_codes element
      refine ⟨letter, ?_, hletter⟩
      rw [codes, List.getLast?_cons, hlast]
      rfl
  | dict key value =>
      have hcodes : (BusType.dict key value).codes =
          ('a' :: '{' :: key.code :: value.codes) ++ ['}'] := rfl
      exact ⟨'}', by rw [hcodes, List.getLast?_concat], by decide⟩
  | struct first rest =>
      have hcodes : (BusType.struct first rest).codes =
          ('(' :: (first.codes ++ codesAll rest)) ++ [')'] := by simp [codes]
      exact ⟨')', by rw [hcodes, List.getLast?_concat], by decide⟩

theorem getLast?_codesAll_ne (types : List BusType) : (codesAll types).getLast? ≠ some 'a' := by
  induction types with
  | nil => exact nofun
  | cons type types ih =>
      obtain ⟨letter, hlast, hletter⟩ := getLast?_codes type
      rw [codesAll, List.getLast?_append, hlast]
      cases hrest : (codesAll types).getLast? with
      | none => simpa using hletter
      | some other =>
          rw [hrest] at ih
          simpa using ih

namespace Progress

theorem letters_cons (frame : Frame) (outer : List Frame) (done : List BusType) :
    letters ⟨frame :: outer, done⟩ = letters ⟨outer, done⟩ ++ frame.letters := by
  rw [letters, letters, lettersAll_cons, List.append_assoc]

theorem letters_array (start : Nat) (outer : List Frame) (done : List BusType) :
    letters ⟨.array start :: outer, done⟩ = letters ⟨outer, done⟩ ++ ['a'] :=
  letters_cons _ _ _

/-- Before the bracket of an entry stands the prefix of its array. -/
theorem letters_dict (start : Nat) (members : List BusType) (outer : List Frame)
    (done : List BusType) : letters ⟨.dict start members :: outer, done⟩ =
      letters ⟨.array start :: outer, done⟩ ++ '{' :: codesAll members := by
  rw [letters_cons, letters_array, List.append_assoc]
  rfl

theorem length_letters_array (start : Nat) (outer : List Frame) (done : List BusType) :
    (letters ⟨.array start :: outer, done⟩).length = (letters ⟨outer, done⟩).length + 1 := by
  rw [letters_array, List.length_append]
  rfl

theorem getLast?_letters_array (start : Nat) (outer : List Frame) (done : List BusType) :
    (letters ⟨.array start :: outer, done⟩).getLast? = some 'a' := by
  rw [letters_array, List.getLast?_concat]

/-- The last letter read was an array prefix only if the innermost container is an array. -/
theorem exists_array_of_getLast? {done : List BusType} {frames : List Frame}
    (h : (letters ⟨frames, done⟩).getLast? = some 'a') :
    ∃ start outer, frames = .array start :: outer := by
  have hbracket : ∀ before letter members, letter ≠ 'a' →
      (before ++ letter :: codesAll members).getLast? ≠ some 'a' := by
    intro before letter members hletter
    have hmembers := getLast?_codesAll_ne members
    rw [List.getLast?_append, List.getLast?_cons]
    cases hlast : (codesAll members).getLast? with
    | none => simpa using hletter
    | some last =>
        rw [hlast] at hmembers
        simpa using hmembers
  cases frames with
  | nil =>
      rw [letters, lettersAll, List.reverse_nil, List.flatMap_nil, List.append_nil] at h
      exact absurd h (getLast?_codesAll_ne done)
  | cons frame outer =>
      cases frame with
      | array start => exact ⟨start, outer, rfl⟩
      | struct start members =>
          rw [letters_cons] at h
          exact absurd h (hbracket _ '(' members (by decide))
      | dict start members =>
          rw [letters_dict] at h
          exact absurd h (hbracket _ '{' members (by decide))

theorem mem_alphabet_of_mem_letters {done : List BusType} {frames : List Frame} {letter : Char}
    (h : letter ∈ letters ⟨frames, done⟩) : letter ∈ alphabet := by
  rw [letters, List.mem_append] at h
  rcases h with hdone | hframes
  · exact mem_alphabet_of_mem_codesAll hdone
  · obtain ⟨frame, -, hframe⟩ := List.mem_flatMap.mp hframes
    cases frame with
    | array start =>
        rw [List.mem_singleton.mp hframe]
        decide
    | struct start members =>
        rcases List.mem_cons.mp hframe with rfl | hmembers
        · decide
        · exact mem_alphabet_of_mem_codesAll hmembers
    | dict start members =>
        rcases List.mem_cons.mp hframe with rfl | hrest
        · decide
        · rcases List.mem_cons.mp hrest with rfl | hmembers
          · decide
          · exact mem_alphabet_of_mem_codesAll hmembers

/-- The letters of each open container begin where it says, after those of the containers
around it.  A dictionary names its bracket, behind the array prefix. -/
def Placed (done : List BusType) : List Frame → Prop
  | [] => True
  | .array start :: outer | .struct start _ :: outer =>
      start = (letters ⟨outer, done⟩).length ∧ Placed done outer
  | .dict start _ :: outer => start = (letters ⟨outer, done⟩).length + 1 ∧ Placed done outer

/-- Only the innermost container can be an array nested too deeply. -/
def OuterFits : List Frame → Prop
  | .array _ :: outer => openArrays outer ≤ maxNesting
  | _ => True

/-- What is known where the parser has come to the offset without an error. -/
structure Reached (progress : Progress) (offset : Nat) : Prop where
  offset_eq : offset = progress.letters.length
  within : progress.Within
  placed : Placed progress.done progress.frames
  outerFits : OuterFits progress.frames

theorem reached_start : start.Reached 0 :=
  ⟨rfl, within_start, trivial, trivial⟩

theorem placed_add {done : List BusType} {frames : List Frame} (type : BusType)
    (h : Placed done frames) :
    Placed (add type done frames).done (add type done frames).frames ∧
      OuterFits (add type done frames).frames := by
  induction frames generalizing type with
  | nil => exact ⟨trivial, trivial⟩
  | cons frame outer ih =>
      cases frame with
      | array start => exact ih _ h.2
      | struct start members => exact ⟨h, trivial⟩
      | dict start members => exact ⟨h, trivial⟩

theorem Advances.reached {progress next : Progress} {offset : Nat} {letter : Char}
    (hfit : ArraysFit progress.frames) (h : Advances offset progress letter next)
    (hreached : progress.Reached offset) : next.Reached (offset + 1) := by
  obtain ⟨hoffset, hwithin, hplaced, houter⟩ := hreached
  have hlength : offset + 1 = next.letters.length := by
    rw [h.letters, List.length_append, ← hoffset]
    rfl
  have hlater := h.within hfit hwithin
  cases h with
  | leaf frames done type letter codes nesting =>
      obtain ⟨hadded, hfits⟩ := placed_add type hplaced
      exact ⟨hlength, hlater, hadded, hfits⟩
  | array frames done =>
      exact ⟨hlength, hlater, ⟨hoffset, hplaced⟩, openArrays_le hfit hwithin.frames⟩
  | openStruct frames done room => exact ⟨hlength, hlater, ⟨hoffset, hplaced⟩, trivial⟩
  | openDict start outer done room =>
      refine ⟨hlength, hlater, ⟨?_, hplaced.2⟩, trivial⟩
      rw [hoffset, letters_cons, List.length_append]
      rfl
  | closeStruct start first rest outer done =>
      obtain ⟨hadded, hfits⟩ := placed_add (.struct first rest) hplaced.2
      exact ⟨hlength, hlater, hadded, hfits⟩
  | closeDict start key value outer done =>
      obtain ⟨hadded, hfits⟩ := placed_add (.dict key value) hplaced.2
      exact ⟨hlength, hlater, hadded, hfits⟩

/-- Which letter is refused, and why. -/
inductive Refuses (offset : Nat) : Progress → Char → GrammarError → Prop
  | arraysFull (start : Nat) (outer : List Frame) (done : List BusType) (letter : Char)
      (full : maxNesting < openArrays (.array start :: outer)) :
      Refuses offset ⟨.array start :: outer, done⟩ letter (.tooDeep .array start)
  | structFull (frames : List Frame) (done : List BusType)
      (full : maxNesting ≤ openBrackets frames) :
      Refuses offset ⟨frames, done⟩ '(' (.tooDeep .struct offset)
  | dictFull (start : Nat) (outer : List Frame) (done : List BusType)
      (full : maxNesting ≤ openBrackets outer) :
      Refuses offset ⟨.array start :: outer, done⟩ '{' (.tooDeep .struct offset)
  | dictOutside (frames : List Frame) (done : List BusType)
      (outside : ∀ start outer, frames ≠ .array start :: outer) :
      Refuses offset ⟨frames, done⟩ '{' (.dictEntryOutsideArray offset)
  | emptyStruct (start : Nat) (outer : List Frame) (done : List BusType) :
      Refuses offset ⟨.struct start [] :: outer, done⟩ ')' (.emptyStruct start)
  | entryArity (start : Nat) (members : List BusType) (outer : List Frame)
      (done : List BusType) (arity : members.length ≠ 2) :
      Refuses offset ⟨.dict start members :: outer, done⟩ '}'
        (.dictEntryArity start members.length)
  | entryKey (start : Nat) (key value : BusType) (outer : List Frame) (done : List BusType)
      (container : key.basic? = none) :
      Refuses offset ⟨.dict start [key, value] :: outer, done⟩ '}' (.nonBasicKey (start + 1))
  | close (frames : List Frame) (done : List BusType) (letter : Char)
      (closing : letter ∈ [')', '}']) :
      Refuses offset ⟨frames, done⟩ letter (.unexpectedClose letter offset)
  | unknown (frames : List Frame) (done : List BusType) (letter : Char)
      (code : letter ∉ alphabet) :
      Refuses offset ⟨frames, done⟩ letter (.unknownCode letter offset)

theorem refuses_of_closeDict {start offset : Nat} {members : List BusType}
    {outer : List Frame} {done : List BusType} {error : GrammarError}
    (h : closeDict start members = .error error) :
    Refuses offset ⟨.dict start members :: outer, done⟩ '}' error := by
  unfold closeDict at h
  split at h
  · cases h
  · rename_i key value hbasic
    cases h
    refine .entryKey _ _ _ _ _ ?_
    cases key with
    | basic key => exact absurd rfl (hbasic key)
    | _ => rfl
  · rename_i hpair
    cases h
    refine .entryArity _ _ _ _ fun hlength => ?_
    obtain ⟨key, value, hmembers⟩ := List.length_eq_two.mp hlength
    exact hpair key value hmembers

theorem refuses_of_step {progress : Progress} {offset : Nat} {letter : Char}
    {error : GrammarError} (h : progress.step offset letter = .error error) :
    Refuses offset progress letter error := by
  rcases progress with ⟨frames, done⟩
  unfold step at h
  cases hcheck : checkArrays frames with
  | error refused =>
      simp only [hcheck, bind, Except.bind] at h
      cases h
      unfold checkArrays at hcheck
      split at hcheck
      · split at hcheck
        · cases hcheck
        · cases hcheck
          exact .arraysFull _ _ _ _ (Nat.lt_of_not_le ‹_›)
      · cases hcheck
  | ok checked =>
      simp only [hcheck, bind, Except.bind] at h
      split at h
      · cases h
      · cases h
      · unfold openBracket at h
        split at h
        · cases h
        · cases h
          exact .structFull _ _ (Nat.le_of_not_lt ‹_›)
      · unfold openBracket at h
        split at h
        · cases h
        · cases h
          exact .dictFull _ _ _ (Nat.le_of_not_lt ‹_›)
      · rename_i houtside
        cases h
        exact .dictOutside _ _ houtside
      · rename_i start members outer
        cases members with
        | nil =>
            cases h
            exact .emptyStruct _ _ _
        | cons first rest => cases h
      · rename_i start members outer
        cases hclose : closeDict start members with
        | ok type =>
            simp only [hclose] at h
            cases h
        | error refused =>
            simp only [hclose] at h
            cases h
            exact refuses_of_closeDict hclose
      · cases h
        exact .close _ _ _ (by decide)
      · cases h
        exact .close _ _ _ (by decide)
      · split at h
        · cases h
        · cases h
          rename_i harray hvariant hround hcurly hroundClose hcurlyClose _ _ _ _ hnone
          refine .unknown _ _ _ fun hmem => ?_
          rcases mem_alphabet_iff.mp hmem with hletter | ⟨type, htype⟩
          · simp only [List.mem_cons, List.not_mem_nil, or_false] at hletter
            rcases hletter with hletter | hletter | hletter | hletter | hletter | hletter
            · exact harray hletter
            · exact hvariant hletter
            · exact hround hletter
            · exact hroundClose hletter
            · exact hcurly hletter
            · exact hcurlyClose hletter
          · rw [hnone] at htype
            cases htype

/-- What an open container has received is a signature of its own. -/
theorem withinLimits_members {frame : Frame} {outer : List Frame} {done : List BusType}
    (hwithin : FramesWithin (frame :: outer))
    (hlength : (letters ⟨frame :: outer, done⟩).length ≤ maxLength) :
    WithinLimits frame.members := by
  rw [letters_cons, List.length_append] at hlength
  cases frame with
  | array start => exact ⟨Nat.zero_le _, Nat.zero_le _, Nat.zero_le _⟩
  | struct start members =>
      simp only [Frame.letters, List.length_cons] at hlength
      refine ⟨Nat.le_trans (by rw [Frame.members]; omega) hlength, ?_⟩
      have hfit := hwithin.2
      simp only [FitInside] at hfit ⊢
      omega
  | dict start members =>
      simp only [Frame.letters, List.length_cons] at hlength
      refine ⟨Nat.le_trans (by rw [Frame.members]; omega) hlength, ?_⟩
      have hfit := hwithin.2
      simp only [FitInside] at hfit ⊢
      omega

section

variable {progress : Progress} {offset : Nat} {error : GrammarError} {done : List BusType}

/-- An error that is about the place behind the letters of some containers. -/
theorem exists_located {text : List Char} (frames : List Frame) (done : List BusType)
    (after : List Char) (htext : text = letters ⟨frames, done⟩ ++ after) (hafter : after ≠ [])
    (hoffset : error.offset? = some (letters ⟨frames, done⟩).length)
    (hdescribes : error.Describes (letters ⟨frames, done⟩) after) :
    ∃ before after, Located text error before after :=
  ⟨letters ⟨frames, done⟩, after, htext, hoffset, hafter,
    fun _ => mem_alphabet_of_mem_letters, hdescribes⟩

/-- What is said of a letter that is refused is true of the text around it. -/
theorem Refuses.located {letter : Char} (h : Refuses offset progress letter error)
    (hreached : progress.Reached offset) (hlength : progress.letters.length ≤ maxLength)
    (rest : List Char) :
    ∃ before after, Located (progress.letters ++ letter :: rest) error before after := by
  obtain ⟨hoffset, hwithin, hplaced, houter⟩ := hreached
  cases h with
  | arraysFull start outer done letter full =>
      -- The prefix was read before it was counted, so the arrays around it are not too many.
      have hfull : openArrays outer = maxNesting := by
        rw [openArrays_cons] at full
        exact Nat.le_antisymm houter (Nat.le_of_lt_succ full)
      refine exists_located outer done ('a' :: letter :: rest) ?_ (List.cons_ne_nil _ _)
        (congrArg some hplaced.1) ⟨rfl, (arraysAround_letters done outer).trans hfull⟩
      rw [letters_array, List.append_assoc]
      rfl
  | structFull frames done full =>
      have hfull := Nat.le_antisymm (openBrackets_le hwithin.frames) full
      exact exists_located frames done ('(' :: rest) rfl (List.cons_ne_nil _ _)
        (congrArg some hoffset) ⟨.inl rfl, (bracketsAround_letters done frames).trans hfull⟩
  | dictFull start outer done full =>
      have hfull : openBrackets (.array start :: outer) = maxNesting := by
        refine Nat.le_antisymm (openBrackets_le hwithin.frames) (Nat.le_trans full ?_)
        rw [openBrackets_cons]
        exact Nat.le_add_right _ _
      exact exists_located (.array start :: outer) done ('{' :: rest) rfl
        (List.cons_ne_nil _ _) (congrArg some hoffset)
        ⟨.inr ⟨rfl, getLast?_letters_array _ _ _⟩, (bracketsAround_letters done _).trans hfull⟩
  | dictOutside frames done outside =>
      refine exists_located frames done ('{' :: rest) rfl (List.cons_ne_nil _ _)
        (congrArg some hoffset) ⟨rfl, fun hlast => ?_⟩
      obtain ⟨start, outer, hframes⟩ := exists_array_of_getLast? hlast
      exact outside start outer hframes
  | emptyStruct start outer done =>
      refine exists_located outer done ('(' :: ')' :: rest) ?_ (List.cons_ne_nil _ _)
        (congrArg some hplaced.1) ⟨rest, rfl⟩
      rw [letters_cons, List.append_assoc]
      rfl
  | entryArity start members outer done arity =>
      have hmembers := withinLimits_members hwithin.frames hlength
      refine exists_located (.array start :: outer) done ('{' :: (codesAll members ++ '}' :: rest))
        ?_ (List.cons_ne_nil _ _) ?_ ⟨getLast?_letters_array _ _ _, codesAll members, members,
          rest, rfl, parseAll_eq_ok_iff.mpr ⟨rfl, hmembers⟩, rfl, arity⟩
      · rw [letters_dict, List.append_assoc, List.cons_append]
      · rw [length_letters_array, GrammarError.offset?, hplaced.1]
  | entryKey start key value outer done container =>
      have hmembers := withinLimits_members hwithin.frames hlength
      have hbefore : letters ⟨.dict start [] :: outer, done⟩ =
          letters ⟨.array start :: outer, done⟩ ++ ['{'] := letters_dict _ _ _ _
      refine exists_located (.dict start [] :: outer) done (key.codes ++ (value.codes ++ '}' :: rest))
        ?_ (List.append_ne_nil_of_left_ne_nil (codes_ne_nil key) _) ?_
        ⟨?_, key.codes, key, value.codes ++ '}' :: rest, rfl,
          parse_signature (hmembers.of_mem (List.mem_cons_self ..)), container⟩
      · rw [letters_dict, hbefore]
        simp only [codesAll, List.append_assoc, List.cons_append, List.nil_append]
      · rw [hbefore, List.length_append, length_letters_array, GrammarError.offset?, hplaced.1]
        rfl
      · rw [hbefore, List.getLast?_concat]
  | close frames done letter closing =>
      exact exists_located frames done (letter :: rest) rfl (List.cons_ne_nil _ _)
        (congrArg some hoffset) ⟨rfl, closing⟩
  | unknown frames done letter code =>
      exact exists_located frames done (letter :: rest) rfl (List.cons_ne_nil _ _)
        (congrArg some hoffset) ⟨rfl, code⟩

/-- What is said of a text that ends too early is true of it. -/
theorem located_of_finish (hreached : progress.Reached offset)
    (hlength : progress.letters.length ≤ maxLength) (h : progress.finish = .error error) :
    ∃ before after, Located progress.letters error before after := by
  obtain ⟨-, hwithin, hplaced, -⟩ := hreached
  rcases progress with ⟨frames, done⟩
  cases frames with
  | nil => cases h
  | cons frame outer =>
      have hmembers := parseAll_eq_ok_iff.mpr
        ⟨rfl, withinLimits_members hwithin.frames hlength⟩
      cases frame with
      | array start =>
          cases h
          exact exists_located outer done ['a'] (letters_cons _ _ _) (List.cons_ne_nil _ _)
            (congrArg some hplaced.1) rfl
      | struct start members =>
          cases h
          exact exists_located outer done ('(' :: codesAll members) (letters_cons _ _ _)
            (List.cons_ne_nil _ _) (congrArg some hplaced.1)
            ⟨by decide, codesAll members, members, rfl, hmembers⟩
      | dict start members =>
          cases h
          refine exists_located (.array start :: outer) done ('{' :: codesAll members)
            (letters_dict _ _ _ _) (List.cons_ne_nil _ _) ?_
            ⟨by decide, codesAll members, members, rfl, hmembers⟩
          rw [length_letters_array, GrammarError.offset?, hplaced.1]

theorem located_of_trailing {type : BusType} {letter : Char} {rest : List Char}
    (hreached : Reached ⟨[], [type]⟩ offset)
    (hlength : (letters ⟨[], [type]⟩).length ≤ maxLength) :
    ∃ before after,
      Located (letters ⟨[], [type]⟩ ++ letter :: rest) (.trailing offset) before after := by
  obtain ⟨hoffset, hwithin, -, -⟩ := hreached
  have hletters : letters ⟨[], [type]⟩ = codesAll [type] := List.append_nil _
  refine exists_located [] [type] (letter :: rest) rfl (List.cons_ne_nil _ _)
    (congrArg some hoffset) ⟨type, ?_⟩
  rw [hletters] at hlength ⊢
  exact parse_eq_ok_iff.mpr ⟨(signature_eq_signatureAll type).symm, hlength, hwithin.done⟩

/-- A letter that is refused ends the reading; any other leaves what is known of the
progress as it is. -/
theorem located_of_step {letter : Char} {rest : List Char} (hreached : progress.Reached offset)
    (hlength : (progress.letters ++ letter :: rest).length ≤ maxLength) :
    (∃ next, progress.step offset letter = .ok next ∧ next.Reached (offset + 1) ∧
      progress.letters ++ letter :: rest = next.letters ++ rest) ∨
    (∃ error, progress.step offset letter = .error error ∧ (∀ place, error ≠ .trailing place) ∧
      ∃ before after, Located (progress.letters ++ letter :: rest) error before after) := by
  cases hstep : progress.step offset letter with
  | ok next =>
      obtain ⟨hfit, hadvances⟩ := advances_of_step hstep
      refine .inl ⟨next, rfl, hadvances.reached hfit hreached, ?_⟩
      rw [hadvances.letters, List.append_assoc]
      rfl
  | error error =>
      have hrefuses := refuses_of_step hstep
      rw [List.length_append] at hlength
      refine .inr ⟨error, rfl, ?_, hrefuses.located hreached (by omega) rest⟩
      intro place htrailing
      rw [htrailing] at hrefuses
      cases hrefuses

theorem run_located {rest : List Char} (hreached : progress.Reached offset)
    (hlength : (progress.letters ++ rest).length ≤ maxLength)
    (h : progress.run offset rest = .error error) :
    (∀ place, error ≠ .trailing place) ∧
      ∃ before after, Located (progress.letters ++ rest) error before after := by
  induction rest generalizing progress offset with
  | nil =>
      rw [List.append_nil] at hlength ⊢
      refine ⟨?_, located_of_finish hreached hlength h⟩
      rintro place rfl
      rcases progress with ⟨_ | ⟨_ | _ | _, _⟩, _⟩ <;> cases h
  | cons letter rest ih =>
      rcases located_of_step hreached hlength with ⟨next, hstep, hnext, htext⟩ |
        ⟨refused, hstep, hplain, hlocated⟩
      · rw [htext] at hlength ⊢
        simp only [run, hstep] at h
        exact ih hnext hlength h
      · simp only [run, hstep] at h
        cases h
        exact ⟨hplain, hlocated⟩

theorem runSingle_located {rest : List Char} (hreached : progress.Reached offset)
    (hone : progress.AtMostOne) (hlength : (progress.letters ++ rest).length ≤ maxLength)
    (h : progress.runSingle offset rest = .error error) (hempty : error ≠ .empty) :
    ∃ before after, Located (progress.letters ++ rest) error before after := by
  induction rest generalizing progress offset with
  | nil =>
      rw [List.append_nil] at hlength ⊢
      apply located_of_finish hreached hlength
      simp only [runSingle] at h
      split at h
      · cases h
      · cases h
        exact absurd rfl hempty
      · cases h
        assumption
  | cons letter rest ih =>
      rcases progress with ⟨frames, done⟩
      rcases hone with hdone | ⟨type, hdone⟩
      · cases hdone
        rw [goesOn_runSingle] at h
        rcases located_of_step hreached hlength with ⟨next, hstep, hnext, htext⟩ |
          ⟨refused, hstep, -, hlocated⟩
        · rw [htext] at hlength ⊢
          rw [hstep] at h
          exact ih hnext (advances_of_step hstep).2.atMostOne hlength h
        · rw [hstep] at h
          cases h
          exact hlocated
      · cases hdone
        cases h
        rw [List.length_append] at hlength
        exact located_of_trailing hreached (by omega)

end

end Progress

theorem Located.truthful {text : String} {error : GrammarError} {before after : List Char}
    (h : Located text.toList error before after) : error.Truthful text := by
  obtain ⟨htext, hoffset, hafter, hread, hdescribes⟩ := h
  have hscanned : Scanned text before after := ⟨htext, hread⟩
  have hbefore : (String.ofList before).utf8ByteSize = before.length := by
    rw [String.utf8ByteSize_ofList, utf8Len_eq_length hread]
  refine ⟨String.ofList before, String.ofList after, ?_, ?_, ?_, ?_, ?_⟩
  · rw [← String.ofList_append, ← htext, String.ofList_toList]
  · rw [hbefore, hoffset]
  · rw [hbefore]
    exact hscanned.length_lt_iff.mpr hafter
  · intro letter hletter
    rw [String.toList_ofList] at hletter
    exact (val_of_mem_alphabet letter (hread letter hletter)).2
  · rw [String.toList_ofList, String.toList_ofList]
    exact hdescribes

end Signature

namespace BusType

open Signature

/-- Of a text that is no longer than a signature may be, a scan of its bytes is never stopped
and comes to what the parser comes to; and every error is true of the text, except that
nothing is to be said of an empty one. -/
theorem diagnostics_truthful (text : String) (hlength : text.utf8ByteSize ≤ maxLength) :
    Scanner.ComesTo (Scanner.single text .start) (parse text) ∧
      Scanner.ComesTo (Scanner.all text .start) (parseAll text) ∧
      (∀ error, parse text = .error error → error ≠ .empty → error.Truthful text) ∧
      ∀ error, parseAll text = .error error →
        error.Truthful text ∧ ∀ offset, error ≠ .trailing offset := by
  have hcheck : checkLength text = .ok () := if_pos hlength
  have hletters : (Progress.start.letters ++ text.toList).length ≤ maxLength := by
    have hsize := length_le_utf8Len text.toList
    rw [String.utf8Len_toList] at hsize
    exact Nat.le_trans hsize hlength
  refine ⟨Scanner.comesTo_single text, Scanner.comesTo_all text, ?_, ?_⟩
  · intro error herror hempty
    rw [parse, hcheck] at herror
    obtain ⟨before, after, hlocated⟩ := Progress.runSingle_located Progress.reached_start
      (.inl rfl) hletters herror hempty
    exact hlocated.truthful
  · intro error herror
    rw [parseAll, hcheck] at herror
    obtain ⟨hplain, before, after, hlocated⟩ := Progress.run_located Progress.reached_start
      hletters herror
    exact ⟨hlocated.truthful, hplain⟩

/-- The letter is not ASCII, and stands inside of an entry inside of a struct. -/
theorem diagnostics_truthful_accent :
    "(sa\x7byé\x7d)".utf8ByteSize ≤ maxLength ∧
      parse "(sa\x7byé\x7d)" = .error (.unknownCode 'é' 5) ∧
      GrammarError.Truthful "(sa\x7byé\x7d)" (.unknownCode 'é' 5) := by
  have hlength : "(sa\x7byé\x7d)".utf8ByteSize ≤ maxLength := by decide
  have herror : parse "(sa\x7byé\x7d)" = .error (.unknownCode 'é' 5) := by rfl
  obtain ⟨-, -, hparse, -⟩ := diagnostics_truthful "(sa\x7byé\x7d)" hlength
  exact ⟨hlength, herror, hparse _ herror nofun⟩

end BusType

end BusCodec
