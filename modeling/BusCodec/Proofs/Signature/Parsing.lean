import BusCodec.Proofs.Signature.UniqueReading
import BusCodec.Signature.Parser

/-!
The parser accepts exactly the signatures of the types that are within its
limits, and gives back the types that the text is the signature of.  An
invariant ties the open containers and the complete types to the letters read
so far; conversely, the letters of a type take the parser from any containers
to the same containers with the type added.
-/

namespace BusCodec

namespace BusType

/-- Whether a type may stand inside so many arrays and so many brackets. -/
def FitsInside (arrays brackets : Nat) (type : BusType) : Prop :=
  arrays + type.arrayDepth ≤ Signature.maxNesting ∧
    brackets + type.bracketDepth ≤ Signature.maxNesting

def FitInside (arrays brackets : Nat) (types : List BusType) : Prop :=
  arrays + arrayDepthAll types ≤ Signature.maxNesting ∧
    brackets + bracketDepthAll types ≤ Signature.maxNesting

structure WithinLimits (types : List BusType) : Prop where
  length : (codesAll types).length ≤ Signature.maxLength
  nesting : FitInside 0 0 types

theorem fitInside_cons_iff {arrays brackets : Nat} {type : BusType}
    {types : List BusType} :
    FitInside arrays brackets (type :: types) ↔
      FitsInside arrays brackets type ∧ FitInside arrays brackets types := by
  simp only [FitInside, FitsInside, arrayDepthAll, bracketDepthAll]
  omega

theorem fitInside_append_iff {arrays brackets : Nat} {types more : List BusType} :
    FitInside arrays brackets (types ++ more) ↔
      FitInside arrays brackets types ∧ FitInside arrays brackets more := by
  induction types with
  | nil =>
      simp only [FitInside, List.nil_append, arrayDepthAll, bracketDepthAll]
      omega
  | cons type types ih =>
      rw [List.cons_append, fitInside_cons_iff, fitInside_cons_iff, ih, and_assoc]

theorem fitsInside_array_iff {arrays brackets : Nat} {element : BusType} :
    FitsInside arrays brackets (.array element) ↔
      FitsInside (arrays + 1) brackets element := by
  simp only [FitsInside, arrayDepth, bracketDepth]
  omega

theorem fitsInside_dict_iff {arrays brackets : Nat} {key : BasicType} {value : BusType} :
    FitsInside arrays brackets (.dict key value) ↔
      FitsInside (arrays + 1) (brackets + 1) value := by
  simp only [FitsInside, arrayDepth, bracketDepth]
  omega

theorem fitsInside_struct_iff {arrays brackets : Nat} {first : BusType}
    {rest : List BusType} :
    FitsInside arrays brackets (.struct first rest) ↔
      FitInside arrays (brackets + 1) (first :: rest) := by
  simp only [FitsInside, FitInside, arrayDepth, bracketDepth, arrayDepthAll,
    bracketDepthAll]
  omega

theorem FitInside.left {arrays brackets : Nat} {types : List BusType}
    (h : FitInside arrays brackets types) :
    arrays ≤ Signature.maxNesting ∧ brackets ≤ Signature.maxNesting := by
  simp only [FitInside] at h
  omega

end BusType

namespace Signature

open BusType

namespace Frame

def members : Frame → List BusType
  | .array _ => []
  | .struct _ members | .dict _ members => members

/-- The letters from the start of a container to the place reached in it. -/
def letters : Frame → List Char
  | .array _ => ['a']
  | .struct _ members => '(' :: codesAll members
  | .dict _ members => 'a' :: '{' :: codesAll members

end Frame

def openArrays (frames : List Frame) : Nat :=
  frames.countP Frame.isArray

def openBrackets (frames : List Frame) : Nat :=
  frames.countP Frame.isBracket

theorem openArrays_cons (frame : Frame) (outer : List Frame) :
    openArrays (frame :: outer) = openArrays outer + if frame.isArray then 1 else 0 := by
  simp [openArrays, List.countP_cons]

theorem openBrackets_cons (frame : Frame) (outer : List Frame) :
    openBrackets (frame :: outer) =
      openBrackets outer + if frame.isBracket then 1 else 0 := by
  simp [openBrackets, List.countP_cons]

/-- The types received by the open containers are within the limits.  An array
prefix is checked only when its element begins, so it may be one too many. -/
def FramesWithin : List Frame → Prop
  | [] => True
  | .array _ :: outer => FramesWithin outer
  | frame :: outer =>
      FramesWithin outer ∧
        FitInside (openArrays (frame :: outer)) (openBrackets (frame :: outer))
          frame.members

/-- The letters of the open containers, from the outermost one on. -/
def lettersAll (frames : List Frame) : List Char :=
  frames.reverse.flatMap Frame.letters

namespace Progress

def letters (progress : Progress) : List Char :=
  codesAll progress.done ++ lettersAll progress.frames

structure Within (progress : Progress) : Prop where
  frames : FramesWithin progress.frames
  done : FitInside 0 0 progress.done

/-- What reading one letter does, unless an array is nested too deeply. -/
inductive Advances (offset : Nat) : Progress → Char → Progress → Prop
  | leaf (frames : List Frame) (done : List BusType) (type : BusType) (letter : Char)
      (codes : type.codes = [letter])
      (nesting : type.arrayDepth = 0 ∧ type.bracketDepth = 0) :
      Advances offset ⟨frames, done⟩ letter (add type done frames)
  | array (frames : List Frame) (done : List BusType) :
      Advances offset ⟨frames, done⟩ 'a' ⟨.array offset :: frames, done⟩
  | openStruct (frames : List Frame) (done : List BusType)
      (room : openBrackets frames < maxNesting) :
      Advances offset ⟨frames, done⟩ '(' ⟨.struct offset [] :: frames, done⟩
  | openDict (start : Nat) (outer : List Frame) (done : List BusType)
      (room : openBrackets outer < maxNesting) :
      Advances offset ⟨.array start :: outer, done⟩ '{' ⟨.dict offset [] :: outer, done⟩
  | closeStruct (start : Nat) (first : BusType) (rest : List BusType)
      (outer : List Frame) (done : List BusType) :
      Advances offset ⟨.struct start (first :: rest) :: outer, done⟩ ')'
        (add (.struct first rest) done outer)
  | closeDict (start : Nat) (key : BasicType) (value : BusType)
      (outer : List Frame) (done : List BusType) :
      Advances offset ⟨.dict start [.basic key, value] :: outer, done⟩ '}'
        (add (.dict key value) done outer)

/-- The innermost container is no array nested too deeply. -/
def ArraysFit : List Frame → Prop
  | .array start :: outer => openArrays (.array start :: outer) ≤ maxNesting
  | _ => True

theorem arraysFit_of_le {frames : List Frame} (h : openArrays frames ≤ maxNesting) : ArraysFit frames := by
  cases frames with
  | nil => trivial
  | cons frame outer =>
      cases frame with
      | array start => exact h
      | _ => trivial

theorem checkArrays_of_arraysFit {frames : List Frame} (h : ArraysFit frames) :
    checkArrays frames = .ok () := by
  cases frames with
  | nil => rfl
  | cons frame outer =>
      cases frame with
      | array start =>
          simp only [ArraysFit, openArrays] at h
          simp [checkArrays, h]
      | _ => rfl

theorem arraysFit_of_checkArrays {frames : List Frame}
    (h : checkArrays frames = .ok ()) : ArraysFit frames := by
  cases frames with
  | nil => trivial
  | cons frame outer =>
      cases frame with
      | array start =>
          simp only [checkArrays] at h
          split at h
          · assumption
          · cases h
      | _ => trivial

theorem step_leaf {frames : List Frame} {done : List BusType} {type : BusType}
    {offset : Nat} {letter : Char} (hfit : ArraysFit frames)
    (hcodes : type.codes = [letter]) :
    step ⟨frames, done⟩ offset letter = .ok (add type done frames) := by
  have hcheck := checkArrays_of_arraysFit hfit
  cases type with
  | basic type =>
      simp only [BusType.codes, List.cons.injEq, and_true] at hcodes
      subst hcodes
      simp only [step, hcheck, bind, Except.bind]
      cases type <;> rfl
  | variant =>
      simp only [BusType.codes, List.cons.injEq, and_true] at hcodes
      subst hcodes
      simp only [step, hcheck, bind, Except.bind]
      rfl
  | array element =>
      have hnil := BusType.codes_ne_nil element
      simp only [BusType.codes, List.cons.injEq] at hcodes
      exact absurd hcodes.2 hnil
  | dict key value => simp [BusType.codes] at hcodes
  | struct first rest => simp [BusType.codes] at hcodes

theorem step_of_advances {progress next : Progress} {offset : Nat} {letter : Char}
    (hfit : ArraysFit progress.frames) (h : Advances offset progress letter next) :
    progress.step offset letter = .ok next := by
  cases h with
  | leaf frames done type letter codes nesting => exact step_leaf hfit codes
  | array frames done =>
      simp only [step, checkArrays_of_arraysFit hfit, bind, Except.bind]
      rfl
  | openStruct frames done room =>
      simp only [openBrackets] at room
      simp only [step, checkArrays_of_arraysFit hfit, bind, Except.bind, openBracket,
        room, if_true]
  | openDict start outer done room =>
      simp only [openBrackets] at room
      simp only [step, checkArrays_of_arraysFit hfit, bind, Except.bind, openBracket,
        room, if_true]
  | closeStruct start first rest outer done => rfl
  | closeDict start key value outer done => rfl

theorem closeStruct_eq_ok {start : Nat} {members : List BusType} {type : BusType}
    (h : closeStruct start members = .ok type) :
    ∃ first rest, members = first :: rest ∧ type = .struct first rest := by
  cases members with
  | nil => cases h
  | cons first rest =>
      cases h
      exact ⟨first, rest, rfl, rfl⟩

theorem closeDict_eq_ok {start : Nat} {members : List BusType} {type : BusType}
    (h : closeDict start members = .ok type) :
    ∃ key value, members = [.basic key, value] ∧ type = .dict key value := by
  unfold closeDict at h
  split at h
  · cases h
    exact ⟨_, _, rfl, rfl⟩
  · cases h
  · cases h

theorem advances_of_step {progress next : Progress} {offset : Nat} {letter : Char}
    (h : progress.step offset letter = .ok next) :
    ArraysFit progress.frames ∧ Advances offset progress letter next := by
  rcases progress with ⟨frames, done⟩
  unfold step at h
  cases hcheck : checkArrays frames with
  | error error => simp [hcheck, bind, Except.bind] at h
  | ok checked =>
      refine ⟨arraysFit_of_checkArrays hcheck, ?_⟩
      simp only [hcheck, bind, Except.bind] at h
      split at h
      · cases h
        exact .array _ _
      · cases h
        exact .leaf _ _ .variant _ rfl ⟨rfl, rfl⟩
      · unfold openBracket at h
        split at h
        · cases h
          exact .openStruct _ _ ‹_›
        · cases h
      · unfold openBracket at h
        split at h
        · cases h
          exact .openDict _ _ _ ‹_›
        · cases h
      · cases h
      · rename_i start members outer
        cases hclose : closeStruct start members with
        | error error => simp [hclose] at h
        | ok type =>
            obtain ⟨first, rest, rfl, rfl⟩ := closeStruct_eq_ok hclose
            cases h
            exact .closeStruct _ _ _ _ _
      · rename_i start members outer
        cases hclose : closeDict start members with
        | error error => simp [hclose] at h
        | ok type =>
            obtain ⟨key, value, rfl, rfl⟩ := closeDict_eq_ok hclose
            cases h
            exact .closeDict _ _ _ _ _
      · cases h
      · cases h
      · split at h
        · rename_i type htype
          cases h
          exact .leaf _ _ (.basic type) _ (by simp [BusType.codes,
            BasicType.code_of_ofCode? htype]) ⟨rfl, rfl⟩
        · cases h

theorem lettersAll_cons (frame : Frame) (outer : List Frame) :
    lettersAll (frame :: outer) = lettersAll outer ++ frame.letters := by
  simp [lettersAll]

theorem letters_add (type : BusType) (done : List BusType) (frames : List Frame) :
    (add type done frames).letters = codesAll done ++ lettersAll frames ++ type.codes := by
  induction frames generalizing type with
  | nil => simp [add, letters, lettersAll, codesAll_append, codesAll]
  | cons frame outer ih =>
      cases frame with
      | array start =>
          rw [add, ih, lettersAll_cons]
          simp [Frame.letters, BusType.codes]
      | struct start members =>
          rw [add, letters, lettersAll_cons, lettersAll_cons]
          simp [Frame.letters, codesAll_append, codesAll]
      | dict start members =>
          rw [add, letters, lettersAll_cons, lettersAll_cons]
          simp [Frame.letters, codesAll_append, codesAll]

theorem Advances.letters {progress next : Progress} {offset : Nat} {letter : Char}
    (h : Advances offset progress letter next) :
    next.letters = progress.letters ++ [letter] := by
  cases h with
  | leaf frames done type letter codes nesting =>
      rw [letters_add, codes]
      rfl
  | array frames done => simp [Progress.letters, lettersAll_cons, Frame.letters]
  | openStruct frames done room =>
      simp [Progress.letters, lettersAll_cons, Frame.letters, codesAll]
  | openDict start outer done room =>
      simp [Progress.letters, lettersAll_cons, Frame.letters, codesAll]
  | closeStruct start first rest outer done =>
      rw [letters_add]
      simp [Progress.letters, lettersAll_cons, Frame.letters, codesAll, BusType.codes]
  | closeDict start key value outer done =>
      rw [letters_add]
      simp [Progress.letters, lettersAll_cons, Frame.letters, codesAll, BusType.codes]

theorem openBrackets_le {frames : List Frame} (h : FramesWithin frames) :
    openBrackets frames ≤ maxNesting := by
  induction frames with
  | nil => simp [openBrackets]
  | cons frame outer ih =>
      cases frame with
      | array start => simpa [openBrackets_cons, Frame.isBracket] using ih h
      | struct start members => exact h.2.left.2
      | dict start members => exact h.2.left.2

theorem openArrays_le {frames : List Frame} (hfit : ArraysFit frames)
    (h : FramesWithin frames) : openArrays frames ≤ maxNesting := by
  cases frames with
  | nil => simp [openArrays]
  | cons frame outer =>
      cases frame with
      | array start => exact hfit
      | struct start members => exact h.2.left.1
      | dict start members => exact h.2.left.1

theorem within_add {type : BusType} {done : List BusType} {frames : List Frame}
    (hframes : FramesWithin frames) (hdone : FitInside 0 0 done)
    (htype : FitsInside (openArrays frames) (openBrackets frames) type) :
    (add type done frames).Within := by
  induction frames generalizing type with
  | nil =>
      refine ⟨trivial, ?_⟩
      simp only [add, fitInside_append_iff, fitInside_cons_iff]
      exact ⟨hdone, htype, hdone.left⟩
  | cons frame outer ih =>
      cases frame with
      | array start =>
          apply ih hframes
          rw [fitsInside_array_iff]
          simpa [openArrays_cons, openBrackets_cons, Frame.isArray, Frame.isBracket]
            using htype
      | struct start members =>
          refine ⟨⟨hframes.1, ?_⟩, hdone⟩
          simp only [Frame.members, fitInside_append_iff, fitInside_cons_iff]
          exact ⟨hframes.2, htype, hframes.2.left⟩
      | dict start members =>
          refine ⟨⟨hframes.1, ?_⟩, hdone⟩
          simp only [Frame.members, fitInside_append_iff, fitInside_cons_iff]
          exact ⟨hframes.2, htype, hframes.2.left⟩

theorem Advances.within {progress next : Progress} {offset : Nat} {letter : Char}
    (hfit : ArraysFit progress.frames) (h : Advances offset progress letter next)
    (hwithin : progress.Within) : next.Within := by
  cases h with
  | leaf frames done type letter codes nesting =>
      apply within_add hwithin.frames hwithin.done
      have harrays := openArrays_le hfit hwithin.frames
      have hbrackets := openBrackets_le hwithin.frames
      simpa [FitsInside, nesting.1, nesting.2] using ⟨harrays, hbrackets⟩
  | array frames done => exact ⟨hwithin.frames, hwithin.done⟩
  | openStruct frames done room =>
      have harrays := openArrays_le hfit hwithin.frames
      refine ⟨⟨hwithin.frames, ?_⟩, hwithin.done⟩
      simpa [FitInside, Frame.members, openArrays_cons, openBrackets_cons,
        Frame.isArray, Frame.isBracket, arrayDepthAll, bracketDepthAll]
        using ⟨harrays, Nat.succ_le_of_lt room⟩
  | openDict start outer done room =>
      have harrays := openArrays_le hfit hwithin.frames
      refine ⟨⟨hwithin.frames, ?_⟩, hwithin.done⟩
      rw [openArrays_cons] at harrays
      simpa [FitInside, Frame.members, openArrays_cons, openBrackets_cons,
        Frame.isArray, Frame.isBracket, arrayDepthAll, bracketDepthAll]
        using ⟨harrays, Nat.succ_le_of_lt room⟩
  | closeStruct start first rest outer done =>
      apply within_add hwithin.frames.1 hwithin.done
      rw [fitsInside_struct_iff]
      simpa [openArrays_cons, openBrackets_cons, Frame.isArray, Frame.isBracket,
        Frame.members] using hwithin.frames.2
  | closeDict start key value outer done =>
      apply within_add hwithin.frames.1 hwithin.done
      rw [fitsInside_dict_iff]
      have hmembers := hwithin.frames.2
      simp only [Frame.members, fitInside_cons_iff] at hmembers
      simpa [openArrays_cons, openBrackets_cons, Frame.isArray, Frame.isBracket]
        using hmembers.2.1

theorem run_sound {progress : Progress} {offset : Nat} {rest : List Char}
    {types : List BusType} (hwithin : progress.Within)
    (h : progress.run offset rest = .ok types) :
    codesAll types = progress.letters ++ rest ∧ FitInside 0 0 types := by
  induction rest generalizing progress offset with
  | nil =>
      rcases progress with ⟨frames, done⟩
      simp only [run, finish] at h
      split at h
      · cases h
        exact ⟨by simp [letters, lettersAll], hwithin.done⟩
      all_goals cases h
  | cons letter rest ih =>
      simp only [run, bind, Except.bind] at h
      split at h
      · cases h
      · rename_i next hstep
        obtain ⟨hfit, hadvances⟩ := advances_of_step hstep
        obtain ⟨hcodes, hlimits⟩ := ih (hadvances.within hfit hwithin) h
        refine ⟨?_, hlimits⟩
        rw [hcodes, hadvances.letters, List.append_assoc]
        rfl

/-- At most one type is complete, and then nothing is open. -/
def AtMostOne (progress : Progress) : Prop :=
  progress.done = [] ∨ ∃ type, progress = ⟨[], [type]⟩

theorem atMostOne_add (type : BusType) (frames : List Frame) :
    (add type [] frames).AtMostOne := by
  induction frames generalizing type with
  | nil => exact .inr ⟨type, rfl⟩
  | cons frame outer ih =>
      cases frame with
      | array start => exact ih _
      | struct start members => exact .inl rfl
      | dict start members => exact .inl rfl

theorem Advances.atMostOne {frames : List Frame} {next : Progress} {offset : Nat}
    {letter : Char} (h : Advances offset ⟨frames, []⟩ letter next) : next.AtMostOne := by
  cases h with
  | leaf => exact atMostOne_add _ _
  | array => exact .inl rfl
  | openStruct => exact .inl rfl
  | openDict => exact .inl rfl
  | closeStruct => exact atMostOne_add _ _
  | closeDict => exact atMostOne_add _ _

theorem runSingle_sound {progress : Progress} {offset : Nat} {rest : List Char}
    {type : BusType} (hwithin : progress.Within) (hone : progress.AtMostOne)
    (h : progress.runSingle offset rest = .ok type) :
    type.codes = progress.letters ++ rest ∧ FitsInside 0 0 type := by
  induction rest generalizing progress offset with
  | nil =>
      rcases progress with ⟨frames, done⟩
      rcases hone with hdone | ⟨only, honly⟩
      · cases hdone
        cases frames with
        | nil => cases h
        | cons frame outer => cases frame <;> cases h
      · cases honly
        cases h
        refine ⟨by simp [letters, lettersAll, codesAll], ?_⟩
        exact (fitInside_cons_iff.mp hwithin.done).1
  | cons letter rest ih =>
      rcases progress with ⟨frames, done⟩
      rcases hone with hdone | ⟨only, honly⟩
      · cases hdone
        have hstep : runSingle ⟨frames, []⟩ offset (letter :: rest) =
            (do
              let next ← step ⟨frames, []⟩ offset letter
              next.runSingle (offset + 1) rest) := by
          cases frames <;> rfl
        simp only [hstep, bind, Except.bind] at h
        split at h
        · cases h
        · rename_i next hnext
          obtain ⟨hfit, hadvances⟩ := advances_of_step hnext
          obtain ⟨hcodes, hlimits⟩ :=
            ih (hadvances.within hfit hwithin) hadvances.atMostOne h
          refine ⟨?_, hlimits⟩
          rw [hcodes, hadvances.letters, List.append_assoc]
          rfl
      · cases honly
        cases h

section Completeness

variable {α : Type} {read : Progress → Nat → List Char → Except GrammarError α}
  {done : List BusType}

/-- A reader goes on by one letter whenever the types in `done` are the complete
ones. -/
def GoesOn (read : Progress → Nat → List Char → Except GrammarError α)
    (done : List BusType) : Prop :=
  ∀ frames offset letter rest, read ⟨frames, done⟩ offset (letter :: rest) = (do
    let next ← step ⟨frames, done⟩ offset letter
    read next (offset + 1) rest)

theorem goesOn_run (done : List BusType) : GoesOn run done :=
  fun _ _ _ _ => rfl

theorem goesOn_runSingle : GoesOn runSingle [] := by
  intro frames offset letter rest
  cases frames <;> rfl

theorem GoesOn.advance (hread : GoesOn read done) {frames : List Frame} {next : Progress}
    {offset : Nat} {letter : Char} {rest : List Char}
    (hfit : openArrays frames ≤ maxNesting)
    (h : Advances offset ⟨frames, done⟩ letter next) :
    read ⟨frames, done⟩ offset (letter :: rest) = read next (offset + 1) rest := by
  rw [hread, step_of_advances (arraysFit_of_le hfit) h]
  rfl

mutual

theorem GoesOn.codes (hread : GoesOn read done) : ∀ (type : BusType)
    {frames : List Frame} {offset : Nat} {rest : List Char},
    FitsInside (openArrays frames) (openBrackets frames) type →
      read ⟨frames, done⟩ offset (type.codes ++ rest) =
        read (add type done frames) (offset + type.codes.length) rest
  | .basic type, frames, offset, rest, hfits =>
      hread.advance (Nat.le_trans (Nat.le_add_right _ _) hfits.1)
        (.leaf frames done (.basic type) _ rfl ⟨rfl, rfl⟩)
  | .variant, frames, offset, rest, hfits =>
      hread.advance (Nat.le_trans (Nat.le_add_right _ _) hfits.1)
        (.leaf frames done .variant _ rfl ⟨rfl, rfl⟩)
  | .array element, frames, offset, rest, hfits => by
      have harrays := Nat.le_trans (Nat.le_add_right _ _) hfits.1
      have helement : FitsInside (openArrays (.array offset :: frames))
          (openBrackets (.array offset :: frames)) element := by
        rw [fitsInside_array_iff] at hfits
        simpa [openArrays_cons, openBrackets_cons, Frame.isArray, Frame.isBracket]
          using hfits
      rw [BusType.codes, List.cons_append, hread.advance harrays (.array frames done),
        hread.codes element helement]
      simp only [add, List.length_cons]
      congr 1
      omega
  | .dict key value, frames, offset, rest, hfits => by
      have harrays := Nat.le_trans (Nat.le_add_right _ _) hfits.1
      rw [fitsInside_dict_iff] at hfits
      have hinner : openArrays (.array offset :: frames) ≤ maxNesting := by
        simp only [openArrays_cons, Frame.isArray]
        exact Nat.le_trans (Nat.le_add_right _ _) hfits.1
      have hroom : openBrackets frames < maxNesting :=
        Nat.lt_of_succ_le (Nat.le_trans (Nat.le_add_right _ _) hfits.2)
      have hvalue : ∀ start members,
          FitsInside (openArrays (.dict start members :: frames))
            (openBrackets (.dict start members :: frames)) value := by
        intro start members
        simpa [openArrays_cons, openBrackets_cons, Frame.isArray, Frame.isBracket]
          using hfits
      have hopen : ∀ start members,
          openArrays (.dict start members :: frames) ≤ maxNesting := by
        intro start members
        exact Nat.le_trans (Nat.le_add_right _ _) (hvalue start members).1
      simp only [BusType.codes, List.cons_append, List.append_assoc, List.nil_append]
      rw [hread.advance harrays (.array frames done),
        hread.advance hinner (.openDict offset frames done hroom),
        hread.advance (hopen _ _) (.leaf _ done (.basic key) _ rfl ⟨rfl, rfl⟩)]
      simp only [add, List.nil_append]
      rw [hread.codes value (hvalue _ _)]
      simp only [add, List.cons_append, List.nil_append]
      rw [hread.advance (hopen _ _) (.closeDict _ key value frames done)]
      congr 1
      simp only [List.length_cons, List.length_append, List.length_nil]
      omega
  | .struct first members, frames, offset, rest, hfits => by
      have harrays := Nat.le_trans (Nat.le_add_right _ _) hfits.1
      rw [fitsInside_struct_iff] at hfits
      have hroom : openBrackets frames < maxNesting := Nat.lt_of_succ_le hfits.left.2
      have hopen : ∀ start members,
          openArrays (.struct start members :: frames) ≤ maxNesting := by
        intro start members
        simpa [openArrays_cons, Frame.isArray] using harrays
      have hfirst : ∀ start members,
          FitsInside (openArrays (.struct start members :: frames))
            (openBrackets (.struct start members :: frames)) first := by
        intro start members
        simpa [openArrays_cons, openBrackets_cons, Frame.isArray, Frame.isBracket]
          using (fitInside_cons_iff.mp hfits).1
      simp only [BusType.codes, List.cons_append, List.append_assoc, List.nil_append]
      rw [hread.advance harrays (.openStruct frames done hroom),
        hread.codes first (hfirst _ _)]
      simp only [add, List.nil_append]
      rw [hread.codesAll members (fitInside_cons_iff.mp hfits).2]
      simp only [List.cons_append, List.nil_append]
      rw [hread.advance (hopen _ _) (.closeStruct _ first members frames done)]
      congr 1
      simp only [List.length_cons, List.length_append, List.length_nil]
      omega

theorem GoesOn.codesAll (hread : GoesOn read done) : ∀ (types : List BusType)
    {start : Nat} {members : List BusType} {outer : List Frame} {offset : Nat}
    {rest : List Char},
    FitInside (openArrays outer) (openBrackets outer + 1) types →
      read ⟨.struct start members :: outer, done⟩ offset (BusType.codesAll types ++ rest) =
        read ⟨.struct start (members ++ types) :: outer, done⟩
          (offset + (BusType.codesAll types).length) rest
  | [], start, members, outer, offset, rest, hfits => by simp [BusType.codesAll]
  | type :: types, start, members, outer, offset, rest, hfits => by
      rw [fitInside_cons_iff] at hfits
      have htype : FitsInside (openArrays (.struct start members :: outer))
          (openBrackets (.struct start members :: outer)) type := by
        simpa [openArrays_cons, openBrackets_cons, Frame.isArray, Frame.isBracket]
          using hfits.1
      rw [BusType.codesAll, List.append_assoc, hread.codes type htype, add,
        hread.codesAll types hfits.2]
      simp [Nat.add_assoc]

end

end Completeness

theorem run_codesAll {types done : List BusType} {offset : Nat}
    (hfit : FitInside 0 0 types) :
    run ⟨[], done⟩ offset (codesAll types) = .ok (done ++ types) := by
  induction types generalizing done offset with
  | nil => simp [codesAll, run, finish]
  | cons type types ih =>
      rw [fitInside_cons_iff] at hfit
      have htype : run ⟨[], done⟩ offset (type.codes ++ codesAll types) =
          run (add type done []) (offset + type.codes.length) (codesAll types) :=
        (goesOn_run done).codes type hfit.1
      rw [codesAll, htype, add, ih hfit.2]
      simp

theorem runSingle_codes {type : BusType} {offset : Nat} (hfit : FitsInside 0 0 type) :
    runSingle start offset type.codes = .ok type := by
  have hcodes : runSingle ⟨[], []⟩ offset (type.codes ++ []) =
      runSingle (add type [] []) (offset + type.codes.length) [] :=
    goesOn_runSingle.codes type hfit
  rw [List.append_nil] at hcodes
  exact hcodes

theorem within_start : start.Within := by
  refine ⟨trivial, ?_⟩
  simp [start, FitInside, arrayDepthAll, bracketDepthAll]

end Progress

end Signature

namespace BusType

def alphabet : List Char :=
  ['a', 'v', '(', ')', '{', '}'] ++ BasicType.all.map BasicType.code

theorem code_mem_alphabet (type : BasicType) : type.code ∈ alphabet := by
  cases type <;> decide

theorem mem_alphabet_iff {letter : Char} : letter ∈ alphabet ↔
    letter ∈ ['a', 'v', '(', ')', '{', '}'] ∨ ∃ type, BasicType.ofCode? letter = some type := by
  rw [alphabet, List.mem_append, List.mem_map]
  refine or_congr_right ⟨?_, ?_⟩
  · rintro ⟨type, -, rfl⟩
    exact ⟨type, BasicType.ofCode?_code type⟩
  · rintro ⟨type, htype⟩
    exact ⟨type, by cases type <;> decide, BasicType.code_of_ofCode? htype⟩

theorem not_mem_alphabet_iff {letter : Char} : letter ∉ alphabet ↔
    letter ∉ ['a', 'v', '(', ')', '{', '}'] ∧ BasicType.ofCode? letter = none := by
  rw [mem_alphabet_iff, not_or, not_exists, Option.eq_none_iff_forall_ne_some]

mutual

theorem mem_alphabet_of_mem_codes : ∀ {type : BusType} {letter : Char},
    letter ∈ type.codes → letter ∈ alphabet
  | .basic type, letter, h => by
      simp only [codes, List.mem_singleton] at h
      rw [h]
      exact code_mem_alphabet type
  | .variant, letter, h => by
      simp only [codes, List.mem_singleton] at h
      rw [h]
      decide
  | .array element, letter, h => by
      simp only [codes, List.mem_cons] at h
      rcases h with rfl | h
      · decide
      · exact mem_alphabet_of_mem_codes h
  | .dict key value, letter, h => by
      simp only [codes, List.mem_cons, List.mem_append, List.not_mem_nil, or_false] at h
      rcases h with rfl | rfl | rfl | h | rfl
      · decide
      · decide
      · exact code_mem_alphabet key
      · exact mem_alphabet_of_mem_codes h
      · decide
  | .struct first rest, letter, h => by
      simp only [codes, List.mem_cons, List.mem_append, List.not_mem_nil, or_false] at h
      rcases h with rfl | h | h | rfl
      · decide
      · exact mem_alphabet_of_mem_codes h
      · exact mem_alphabet_of_mem_codesAll h
      · decide

theorem mem_alphabet_of_mem_codesAll : ∀ {types : List BusType} {letter : Char},
    letter ∈ codesAll types → letter ∈ alphabet
  | [], letter, h => by simp [codesAll] at h
  | type :: types, letter, h => by
      rw [codesAll, List.mem_append] at h
      rcases h with h | h
      · exact mem_alphabet_of_mem_codes h
      · exact mem_alphabet_of_mem_codesAll h

end

/-- The letters of signatures are ASCII, and none of them is nul. -/
theorem val_of_mem_alphabet : ∀ letter ∈ alphabet,
    0 < letter.toNat ∧ letter.toNat ≤ 127 := by
  simp [alphabet, BasicType.all, BasicType.code]

theorem bytes_signatureAll (types : List BusType) :
    (signatureAll types).toByteArray =
      ((codesAll types).map fun letter => UInt8.ofNat letter.toNat).toByteArray := by
  have hencode : ∀ letter ∈ codesAll types,
      String.utf8EncodeChar letter = [UInt8.ofNat letter.toNat] := by
    intro letter hletter
    have hascii := (val_of_mem_alphabet letter (mem_alphabet_of_mem_codesAll hletter)).2
    simp only [Char.toNat] at hascii ⊢
    simp only [String.utf8EncodeChar, hascii, if_true]
  rw [signatureAll, String.toByteArray_ofList, List.utf8Encode, List.map_eq_flatMap,
    List.flatMap_def, List.flatMap_def, List.map_congr_left hencode]

theorem utf8ByteSize_signatureAll (types : List BusType) :
    (signatureAll types).utf8ByteSize = (codesAll types).length := by
  have hbytes := congrArg ByteArray.size (bytes_signatureAll types)
  simpa using hbytes

theorem parseAll_eq_ok_iff {text : String} {types : List BusType} :
    parseAll text = .ok types ↔ text = signatureAll types ∧ WithinLimits types := by
  constructor
  · intro h
    simp only [parseAll, bind, Except.bind, Signature.checkLength] at h
    split at h
    · cases h
    · rename_i hlength
      split at hlength
      · rename_i hsize
        obtain ⟨hcodes, hlimits⟩ := Signature.Progress.run_sound
          Signature.Progress.within_start h
        have htext : text = signatureAll types := by
          rw [signatureAll, hcodes]
          simp [Signature.Progress.start, Signature.Progress.letters, codesAll,
            Signature.lettersAll]
        refine ⟨htext, ?_, hlimits⟩
        rw [htext, utf8ByteSize_signatureAll] at hsize
        exact hsize
      · cases hlength
  · rintro ⟨rfl, hlimits⟩
    have hsize : (signatureAll types).utf8ByteSize ≤ Signature.maxLength := by
      rw [utf8ByteSize_signatureAll]
      exact hlimits.length
    simp only [parseAll, bind, Except.bind, Signature.checkLength, hsize, if_true]
    rw [signatureAll, String.toList_ofList]
    exact Signature.Progress.run_codesAll hlimits.nesting

theorem signature_eq_signatureAll (type : BusType) :
    type.signature = signatureAll [type] := by
  simp [signature, signatureAll, codesAll]

theorem parse_eq_ok_iff {text : String} {type : BusType} :
    parse text = .ok type ↔ text = type.signature ∧ WithinLimits [type] := by
  rw [signature_eq_signatureAll]
  constructor
  · intro h
    simp only [parse, bind, Except.bind, Signature.checkLength] at h
    split at h
    · cases h
    · rename_i hlength
      split at hlength
      · rename_i hsize
        obtain ⟨hcodes, hlimits⟩ := Signature.Progress.runSingle_sound
          Signature.Progress.within_start (.inl rfl) h
        have htext : text = signatureAll [type] := by
          rw [← signature_eq_signatureAll, signature, hcodes]
          simp [Signature.Progress.start, Signature.Progress.letters, codesAll,
            Signature.lettersAll]
        refine ⟨htext, ?_, ?_⟩
        · rw [htext, utf8ByteSize_signatureAll] at hsize
          exact hsize
        · rw [fitInside_cons_iff]
          exact ⟨hlimits, by simp [FitInside, arrayDepthAll, bracketDepthAll]⟩
      · cases hlength
  · rintro ⟨rfl, hlimits⟩
    have hsize : (signatureAll [type]).utf8ByteSize ≤ Signature.maxLength := by
      rw [utf8ByteSize_signatureAll]
      exact hlimits.length
    simp only [parse, bind, Except.bind, Signature.checkLength, hsize, if_true]
    rw [← signature_eq_signatureAll, signature, String.toList_ofList]
    exact Signature.Progress.runSingle_codes (fitInside_cons_iff.mp hlimits.nesting).1

/-- A text is the signature of one type exactly if it is one of a sequence of
types that has one member. -/
theorem parse_eq_ok_iff_parseAll {text : String} {type : BusType} :
    parse text = .ok type ↔ parseAll text = .ok [type] := by
  rw [parse_eq_ok_iff, parseAll_eq_ok_iff, signature_eq_signatureAll]

theorem WithinLimits.of_mem {types : List BusType} {type : BusType}
    (h : WithinLimits types) (hmem : type ∈ types) : WithinLimits [type] := by
  obtain ⟨before, after, rfl⟩ := List.append_of_mem hmem
  obtain ⟨hlength, hnesting⟩ := h
  rw [fitInside_append_iff, fitInside_cons_iff] at hnesting
  refine ⟨?_, ?_⟩
  · simp only [codesAll_append, codesAll, List.length_append, List.length_nil] at hlength ⊢
    omega
  · rw [fitInside_cons_iff]
    exact ⟨hnesting.2.1, hnesting.1.left.1, hnesting.1.left.2⟩

theorem withinLimits_singleton_iff {type : BusType} :
    WithinLimits [type] ↔
      type.codes.length ≤ Signature.maxLength ∧ FitsInside 0 0 type := by
  have hempty : FitInside 0 0 [] := by
    simp [FitInside, arrayDepthAll, bracketDepthAll]
  have hcodes : codesAll [type] = type.codes := by
    rw [codesAll, codesAll, List.append_nil]
  constructor
  · rintro ⟨hlength, hnesting⟩
    rw [hcodes] at hlength
    exact ⟨hlength, (fitInside_cons_iff.mp hnesting).1⟩
  · rintro ⟨hlength, hnesting⟩
    rw [← hcodes] at hlength
    exact ⟨hlength, fitInside_cons_iff.mpr ⟨hnesting, hempty⟩⟩

theorem WithinLimits.element {element : BusType} (h : WithinLimits [.array element]) :
    WithinLimits [element] := by
  rw [withinLimits_singleton_iff] at h ⊢
  simp only [codes, List.length_cons, FitsInside, arrayDepth, bracketDepth] at h ⊢
  omega

theorem WithinLimits.value {key : BasicType} {value : BusType}
    (h : WithinLimits [.dict key value]) : WithinLimits [value] := by
  rw [withinLimits_singleton_iff] at h ⊢
  simp only [codes, List.length_cons, List.length_append, FitsInside, arrayDepth,
    bracketDepth] at h ⊢
  omega

theorem WithinLimits.members {first : BusType} {rest : List BusType}
    (h : WithinLimits [.struct first rest]) :
    ∀ type ∈ first :: rest, WithinLimits [type] := by
  have hmembers : WithinLimits (first :: rest) := by
    obtain ⟨hlength, hnesting⟩ := withinLimits_singleton_iff.mp h
    simp only [codes, List.length_cons, List.length_append] at hlength
    simp only [FitsInside, arrayDepth, bracketDepth] at hnesting
    refine ⟨?_, ?_⟩
    · simp only [codesAll, List.length_append]
      omega
    · simp only [FitInside, arrayDepthAll, bracketDepthAll]
      omega
  intro type htype
  exact hmembers.of_mem htype

theorem parse_signature {type : BusType} (h : WithinLimits [type]) :
    parse type.signature = .ok type :=
  parse_eq_ok_iff.mpr ⟨rfl, h⟩

end BusType

end BusCodec
