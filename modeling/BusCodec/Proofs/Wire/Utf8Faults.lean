import BusCodec.Proofs.Wire.Canonical
import Mathlib.Data.List.Forall2

/-!
What is wrong with bytes that are no text.  Bytes are taken one after another as long as they
are the beginning of a text, and what is awaited after them tells how they may go on.  A
fault names the longest text that the bytes begin with, and how much of what comes next is
the beginning of one more letter.
-/

namespace BusCodec

namespace Utf8

/-- Bytes that encode letters. -/
def IsText (bytes : List UInt8) : Prop :=
  ∃ letters : List Char, bytes = letters.flatMap String.utf8EncodeChar

/-- Bytes that more bytes can make a text of. -/
def BeginsText (bytes : List UInt8) : Prop :=
  ∃ more, IsText (bytes ++ more)

variable {first byte : UInt8} {bytes rest before : List UInt8} {awaited : List Bounds}

theorem isText_nil : IsText [] :=
  ⟨[], rfl⟩

section

variable {letter : Char}

theorem continuing_admits_iff :
    continuing.Admits byte ↔ 0x80 ≤ byte.toNat ∧ byte.toNat ≤ 0xbf :=
  Iff.rfl

theorem second_admits_iff :
    (second first).Admits byte ↔ (0x80 ≤ byte.toNat ∧ byte.toNat ≤ 0xbf) ∧
      (first.toNat ≠ 0xe0 ∨ 0xa0 ≤ byte.toNat) ∧ (first.toNat ≠ 0xed ∨ byte.toNat ≤ 0x9f) ∧
      (first.toNat ≠ 0xf0 ∨ 0x90 ≤ byte.toNat) ∧ (first.toNat ≠ 0xf4 ∨ byte.toNat ≤ 0x8f) := by
  rw [second]
  split_ifs <;> simp only [Bounds.Admits, continuing] <;> omega

theorem following?_eq_some_iff :
    following? first = some awaited ↔
      first.toNat < 0x80 ∧ awaited = [] ∨
      (0xc2 ≤ first.toNat ∧ first.toNat < 0xe0) ∧ awaited = [second first] ∨
      (0xe0 ≤ first.toNat ∧ first.toNat < 0xf0) ∧ awaited = [second first, continuing] ∨
      (0xf0 ≤ first.toNat ∧ first.toNat < 0xf5) ∧
        awaited = [second first, continuing, continuing] := by
  constructor
  · intro h
    rw [following?] at h
    split_ifs at h <;> cases h <;> simp <;> omega
  · rintro (⟨_, rfl⟩ | ⟨_, rfl⟩ | ⟨_, rfl⟩ | ⟨_, rfl⟩) <;> rw [following?] <;> split_ifs <;>
      first | rfl | omega

theorem ofNat_eq {n : Nat} (h : n = byte.toNat) : UInt8.ofNat n = byte := by
  rw [h, UInt8.ofNat_toNat]

/-- The bytes behind the first byte of a letter lie between their bounds. -/
theorem exists_following? (h : String.utf8EncodeChar letter = first :: rest) :
    ∃ awaited, following? first = some awaited ∧ List.Forall₂ Bounds.Admits awaited rest := by
  have hvalid : letter.val.toNat < 0xd800 ∨
      0xdfff < letter.val.toNat ∧ letter.val.toNat < 0x110000 := letter.valid
  rw [String.utf8EncodeChar] at h
  generalize letter.val.toNat = number at hvalid h
  have hbyte : ∀ n < 256, (UInt8.ofNat n).toNat = n := fun n hn => UInt8.toNat_ofNat_of_lt' hn
  simp only [following?_eq_some_iff]
  -- Each row of the table is for the numbers that need so many bytes.
  split_ifs at h <;> obtain ⟨rfl, rfl⟩ := h
  · refine ⟨_, .inl ⟨?_, rfl⟩, .nil⟩
    simp (disch := omega) only [hbyte]
    omega
  · refine ⟨_, .inr (.inl ⟨?_, rfl⟩), .cons ?_ .nil⟩
    all_goals
      simp (disch := omega) only [second_admits_iff, hbyte]
      omega
  · refine ⟨_, .inr (.inr (.inl ⟨?_, rfl⟩)), .cons ?_ (.cons ?_ .nil)⟩
    all_goals
      simp (disch := omega) only [second_admits_iff, continuing_admits_iff, hbyte]
      omega
  · refine ⟨_, .inr (.inr (.inr ⟨?_, rfl⟩)), .cons ?_ (.cons ?_ (.cons ?_ .nil))⟩
    all_goals
      simp (disch := omega) only [second_admits_iff, continuing_admits_iff, hbyte]
      omega

theorem exists_letter (number : Nat) (h : number < 0xd800 ∨ 0xdfff < number ∧ number < 0x110000) :
    ∃ letter : Char, letter.val.toNat = number :=
  ⟨Char.ofNatAux number h, rfl⟩

/-- Bytes between their bounds make a letter of the first one. -/
theorem exists_utf8EncodeChar (hfirst : following? first = some awaited)
    (hrest : List.Forall₂ Bounds.Admits awaited rest) :
    ∃ letter, String.utf8EncodeChar letter = first :: rest := by
  -- The number of the letter is put together from what each byte has above its least one.
  rcases following?_eq_some_iff.mp hfirst with
    ⟨hrow, rfl⟩ | ⟨hrow, rfl⟩ | ⟨hrow, rfl⟩ | ⟨hrow, rfl⟩
  all_goals
    simp only [List.forall₂_cons_left_iff, List.forall₂_nil_left_iff, second_admits_iff,
      continuing_admits_iff] at hrest
  · obtain ⟨letter, hletter⟩ := exists_letter first.toNat (by omega)
    refine ⟨letter, ?_⟩
    rw [String.utf8EncodeChar, hletter, if_pos (by omega), ofNat_eq rfl, hrest]
  · obtain ⟨second, _, hsecond, rfl, rfl⟩ := hrest
    obtain ⟨letter, hletter⟩ :=
      exists_letter ((first.toNat - 0xc0) * 64 + (second.toNat - 0x80)) (by omega)
    refine ⟨letter, ?_⟩
    rw [String.utf8EncodeChar, hletter, if_neg (by omega), if_pos (by omega),
      @ofNat_eq first _ (by omega), @ofNat_eq second _ (by omega)]
  · obtain ⟨second, _, hsecond, ⟨third, _, hthird, rfl, rfl⟩, rfl⟩ := hrest
    obtain ⟨letter, hletter⟩ := exists_letter
      ((first.toNat - 0xe0) * 4096 + (second.toNat - 0x80) * 64 + (third.toNat - 0x80)) (by omega)
    refine ⟨letter, ?_⟩
    rw [String.utf8EncodeChar, hletter, if_neg (by omega), if_neg (by omega), if_pos (by omega),
      @ofNat_eq first _ (by omega), @ofNat_eq second _ (by omega), @ofNat_eq third _ (by omega)]
  · obtain ⟨second, _, hsecond, ⟨third, _, hthird, ⟨fourth, _, hfourth, rfl, rfl⟩, rfl⟩, rfl⟩ :=
      hrest
    obtain ⟨letter, hletter⟩ := exists_letter
      ((first.toNat - 0xf0) * 262144 + (second.toNat - 0x80) * 4096 + (third.toNat - 0x80) * 64 +
        (fourth.toNat - 0x80)) (by omega)
    refine ⟨letter, ?_⟩
    rw [String.utf8EncodeChar, hletter, if_neg (by omega), if_neg (by omega), if_neg (by omega),
      @ofNat_eq first _ (by omega), @ofNat_eq second _ (by omega), @ofNat_eq third _ (by omega),
      @ofNat_eq fourth _ (by omega)]

end

/-- Bytes that make a text where some bytes are awaited. -/
def Completes (awaited : List Bounds) (bytes : List UInt8) : Prop :=
  ∃ rest text, bytes = rest ++ text ∧ List.Forall₂ Bounds.Admits awaited rest ∧ IsText text

theorem completes_nil_iff : Completes [] bytes ↔ IsText bytes := by
  constructor
  · rintro ⟨rest, text, rfl, ⟨⟩, htext⟩
    exact htext
  · intro h
    exact ⟨[], bytes, rfl, .nil, h⟩

theorem isText_cons_iff : IsText (first :: bytes) ↔
    ∃ awaited, following? first = some awaited ∧ Completes awaited bytes := by
  constructor
  · rintro ⟨letters, h⟩
    cases letters with
    | nil => cases h
    | cons letter letters =>
        obtain ⟨byte, rest, hletter⟩ :=
          List.exists_cons_of_ne_nil (@String.utf8EncodeChar_ne_nil letter)
        rw [List.flatMap_cons, hletter] at h
        obtain ⟨rfl, rfl⟩ := List.cons.inj h
        obtain ⟨awaited, hfollowing, hrest⟩ := exists_following? hletter
        exact ⟨awaited, hfollowing, rest, _, rfl, hrest, letters, rfl⟩
  · rintro ⟨awaited, hfollowing, rest, text, rfl, hrest, letters, rfl⟩
    obtain ⟨letter, hletter⟩ := exists_utf8EncodeChar hfollowing hrest
    exact ⟨letter :: letters, by rw [List.flatMap_cons, hletter]; rfl⟩

theorem completes_cons_iff : Completes awaited (byte :: bytes) ↔
    ∃ later, step awaited byte = some later ∧ Completes later bytes := by
  cases awaited with
  | nil => rw [completes_nil_iff, isText_cons_iff]; rfl
  | cons bounds awaited =>
      constructor
      · rintro ⟨_, text, h, hrest, htext⟩
        cases hrest with
        | cons hbyte hrest =>
            obtain ⟨rfl, rfl⟩ := List.cons.inj h
            exact ⟨awaited, if_pos hbyte, _, text, rfl, hrest, htext⟩
      · rintro ⟨later, hstep, rest, text, rfl, hrest, htext⟩
        rw [step] at hstep
        split at hstep <;> cases hstep
        rename_i hbyte
        exact ⟨byte :: rest, text, rfl, .cons hbyte hrest, htext⟩

/-- What is awaited after bytes, if they are the beginning of a text. -/
def run (awaited : List Bounds) (bytes : List UInt8) : Option (List Bounds) :=
  bytes.foldlM step awaited

theorem run_cons (awaited : List Bounds) (byte : UInt8) (bytes : List UInt8) :
    run awaited (byte :: bytes) = (step awaited byte).bind fun later => run later bytes :=
  rfl

theorem run_append (awaited : List Bounds) (bytes more : List UInt8) :
    run awaited (bytes ++ more) = (run awaited bytes).bind fun later => run later more :=
  List.foldlM_append

theorem run_eq_some_nil_iff : run awaited bytes = some [] ↔ Completes awaited bytes := by
  induction bytes generalizing awaited with
  | nil =>
      constructor
      · rintro ⟨⟩
        exact completes_nil_iff.mpr isText_nil
      · rintro ⟨rest, text, h, hrest, -⟩
        obtain ⟨rfl, -⟩ := List.append_eq_nil_iff.mp h.symm
        cases hrest
        rfl
  | cons byte bytes ih =>
      rw [completes_cons_iff, run_cons, Option.bind_eq_some_iff]
      exact exists_congr fun later => and_congr_right fun _ => ih

theorem isText_iff : IsText bytes ↔ run [] bytes = some [] := by
  rw [run_eq_some_nil_iff, completes_nil_iff]

/-- What is awaited can come. -/
def Possible (awaited : List Bounds) : Prop :=
  ∀ bounds ∈ awaited, ∃ byte, bounds.Admits byte

theorem Possible.exists_run_eq (h : Possible awaited) : ∃ more, run awaited more = some [] := by
  induction awaited with
  | nil => exact ⟨[], rfl⟩
  | cons bounds awaited ih =>
      obtain ⟨hbounds, hawaited⟩ := List.forall_mem_cons.mp h
      obtain ⟨byte, hbyte⟩ := hbounds
      obtain ⟨more, hmore⟩ := ih hawaited
      refine ⟨byte :: more, ?_⟩
      rw [run_cons, step, if_pos hbyte]
      exact hmore

theorem possible_of_following? (h : following? first = some awaited) : Possible awaited := by
  have hcontinuing : ∃ byte, continuing.Admits byte := ⟨0x80, by decide⟩
  have hsecond : ∃ byte, (second first).Admits byte := by
    rw [second]
    split_ifs
    · exact ⟨0xa0, by decide⟩
    · exact ⟨0x80, by decide⟩
    · exact ⟨0x90, by decide⟩
    · exact ⟨0x80, by decide⟩
    · exact hcontinuing
  rcases following?_eq_some_iff.mp h with ⟨-, rfl⟩ | ⟨-, rfl⟩ | ⟨-, rfl⟩ | ⟨-, rfl⟩ <;>
    simp [Possible, hcontinuing, hsecond]

theorem Possible.step {later : List Bounds} (h : Possible awaited)
    (hstep : step awaited byte = some later) : Possible later := by
  cases awaited with
  | nil => exact possible_of_following? hstep
  | cons bounds awaited =>
      rw [Utf8.step] at hstep
      split at hstep <;> cases hstep
      exact (List.forall_mem_cons.mp h).2

theorem Possible.run {later : List Bounds} (h : Possible awaited)
    (hrun : run awaited bytes = some later) : Possible later := by
  induction bytes generalizing awaited with
  | nil =>
      cases hrun
      exact h
  | cons byte bytes ih =>
      obtain ⟨next, hstep, hrun⟩ := Option.bind_eq_some_iff.mp hrun
      exact ih (h.step hstep) hrun

/-- Bytes begin a text as long as each of them can be taken. -/
theorem beginsText_iff : BeginsText bytes ↔ run [] bytes ≠ none := by
  constructor
  · rintro ⟨more, htext⟩ hrun
    rw [isText_iff, run_append, hrun] at htext
    cases htext
  · intro hrun
    obtain ⟨awaited, hawaited⟩ := Option.ne_none_iff_exists'.mp hrun
    have hpossible : Possible awaited := Possible.run (by simp [Possible]) hawaited
    obtain ⟨more, hmore⟩ := hpossible.exists_run_eq
    refine ⟨more, ?_⟩
    rw [isText_iff, run_append, hawaited]
    exact hmore

theorem IsText.beginsText (h : IsText bytes) : BeginsText bytes :=
  ⟨[], by rwa [List.append_nil]⟩

theorem BeginsText.of_append (h : BeginsText (before ++ bytes)) : BeginsText before := by
  obtain ⟨more, hmore⟩ := h
  exact ⟨bytes ++ more, by rwa [← List.append_assoc]⟩

theorem BeginsText.take_of_le {count limit : Nat} (h : BeginsText (bytes.take limit))
    (hle : count ≤ limit) : BeginsText (bytes.take count) := by
  rw [← Nat.min_eq_left hle, ← List.take_take]
  rw [← List.take_append_drop count (bytes.take limit)] at h
  exact h.of_append

end Utf8

/-- What a fault tells about bytes that are no text. -/
structure Utf8Fault.Describes (fault : Utf8Fault) (bytes : List UInt8) : Prop where
  inside : fault.validUpTo < bytes.length
  valid : Utf8.IsText (bytes.take fault.validUpTo)
  greatest : ∀ count, fault.validUpTo < count → count ≤ bytes.length →
    ¬Utf8.IsText (bytes.take count)
  /-- There is no length if more bytes could complete the letter. -/
  length?_eq_none_iff : fault.length? = none ↔ Utf8.BeginsText bytes
  /-- The length is that of the beginning of one more letter, or 1 if there is none. -/
  beginning : ∀ length, fault.length? = some length →
    length = 1 ∨ 1 < length ∧ Utf8.BeginsText (bytes.take (fault.validUpTo + length))
  misfit : ∀ length, fault.length? = some length →
    ¬Utf8.BeginsText (bytes.take (fault.validUpTo + length + 1))

namespace Utf8

variable {begun : Nat}

/-- What is known of the bytes that were taken, when a letter has begun at an index. -/
structure Reading (begun : Nat) (before : List UInt8) (awaited : List Bounds) : Prop where
  run_eq : run [] before = some awaited
  begun_le : begun ≤ before.length
  valid : IsText (before.take begun)
  greatest : ∀ count, begun < count → count ≤ before.length → ¬IsText (before.take count)

theorem reading_start : Reading 0 [] [] :=
  ⟨rfl, Nat.le_refl 0, isText_nil, fun _ hlt hle => absurd hlt (Nat.not_lt_of_le hle)⟩

namespace Reading

theorem run_push (h : Reading begun before awaited) :
    run [] (before ++ [byte]) = step awaited byte := by
  rw [run_append, h.run_eq, Option.bind_some, run_cons]
  exact Option.bind_fun_some _

theorem push (h : Reading begun before awaited) {bounds : Bounds} {later : List Bounds}
    (hstep : step awaited byte = some (bounds :: later)) :
    Reading begun (before ++ [byte]) (bounds :: later) := by
  have hrun := h.run_push.trans hstep
  refine ⟨hrun, ?_, ?_, ?_⟩
  · rw [List.length_append]
    exact Nat.le_add_right_of_le h.begun_le
  · rw [List.take_append_of_le_length h.begun_le]
    exact h.valid
  · intro count hlt hle
    by_cases hbefore : count ≤ before.length
    · rw [List.take_append_of_le_length hbefore]
      exact h.greatest count hlt hbefore
    · have hwhole : (before ++ [byte]).length ≤ count := by
        rw [List.length_append, List.length_singleton]
        omega
      rw [List.take_of_length_le hwhole, isText_iff, hrun]
      nofun

theorem complete (h : Reading begun before awaited) (hstep : step awaited byte = some []) :
    Reading (before.length + 1) (before ++ [byte]) [] := by
  have hlength : (before ++ [byte]).length = before.length + 1 := by
    rw [List.length_append, List.length_singleton]
  have hrun := h.run_push.trans hstep
  refine ⟨hrun, Nat.le_of_eq hlength.symm, ?_, fun count hlt hle => ?_⟩
  · rw [List.take_of_length_le (Nat.le_of_eq hlength), isText_iff, hrun]
  · omega

/-- A byte that does not fit is not the beginning of a text, whatever follows. -/
theorem not_beginsText (h : Reading begun before awaited) (hstep : step awaited byte = none)
    {count : Nat} (hcount : before.length < count) :
    ¬BeginsText ((before ++ byte :: bytes).take count) := by
  obtain ⟨more, rfl⟩ := Nat.exists_eq_add_of_lt hcount
  intro hbegins
  have hle : before.length + 1 ≤ before.length + more + 1 := by omega
  have hpushed := hbegins.take_of_le hle
  rw [List.take_length_add_append, beginsText_iff] at hpushed
  exact hpushed (h.run_push.trans hstep)

theorem describes_of_misfit (h : Reading begun before awaited) (hstep : step awaited byte = none) :
    (Utf8Fault.mk begun (some (max 1 (before.length - begun)))).Describes
      (before ++ byte :: bytes) := by
  have hle := h.begun_le
  have hmore : before.length < (before ++ byte :: bytes).length := by simp
  have hmisfit : ∀ {count}, before.length < count →
      ¬BeginsText ((before ++ byte :: bytes).take count) := h.not_beginsText hstep
  have htake : ∀ {count}, count ≤ before.length →
      (before ++ byte :: bytes).take count = before.take count :=
    List.take_append_of_le_length
  refine ⟨Nat.lt_of_le_of_lt hle hmore, ?_, ?_, ?_, ?_, ?_⟩
  · rw [htake hle]
    exact h.valid
  · intro count hlt _ htext
    by_cases hbefore : count ≤ before.length
    · rw [htake hbefore] at htext
      exact h.greatest count hlt hbefore htext
    · exact hmisfit (Nat.lt_of_not_le hbefore) htext.beginsText
  · have hwhole := hmisfit hmore
    rw [List.take_length] at hwhole
    exact iff_of_false nofun hwhole
  · rintro _ ⟨⟩
    by_cases hone : before.length - begun ≤ 1
    · exact .inl (Nat.max_eq_left hone)
    · have hmax : max 1 (before.length - begun) = before.length - begun :=
        Nat.max_eq_right (by omega)
      refine .inr ⟨by omega, ?_⟩
      rw [hmax, Nat.add_sub_cancel' hle, htake (Nat.le_refl _), List.take_length, beginsText_iff,
        h.run_eq]
      nofun
  · rintro _ ⟨⟩
    exact hmisfit (show before.length < begun + max 1 (before.length - begun) + 1 by omega)

end Reading

/-- A fault that is found describes the bytes. -/
theorem describes_fault (h : Reading begun before awaited) (hnot : ¬IsText (before ++ bytes)) :
    (fault begun before.length awaited bytes).Describes (before ++ bytes) := by
  induction bytes generalizing begun before awaited with
  | nil =>
      rw [List.append_nil] at hnot ⊢
      have hne : begun ≠ before.length := by
        rintro rfl
        have hvalid := h.valid
        rw [List.take_length] at hvalid
        exact hnot hvalid
      refine ⟨Nat.lt_of_le_of_ne h.begun_le hne, h.valid, h.greatest, ?_, nofun, nofun⟩
      rw [beginsText_iff, h.run_eq]
      simp [fault]
  | cons byte bytes ih =>
      have hsplit : before ++ byte :: bytes = before ++ [byte] ++ bytes := by simp
      have hlength : before.length + 1 = (before ++ [byte]).length := by simp
      rw [fault]
      split
      · rename_i hstep
        exact h.describes_of_misfit hstep
      · rename_i hstep
        rw [hlength, hsplit]
        exact ih (hlength ▸ h.complete hstep) (hsplit ▸ hnot)
      · rename_i later hne hstep
        obtain ⟨bounds, later, rfl⟩ := List.exists_cons_of_ne_nil hne
        rw [hlength, hsplit]
        exact ih (h.push hstep) (hsplit ▸ hnot)

/-- A text is read from its bytes if they are one. -/
theorem fromUTF8?_eq_none_iff {bytes : ByteArray} :
    String.fromUTF8? bytes = none ↔ ¬IsText bytes.data.toList := by
  have hvalid : bytes.IsValidUTF8 ↔ IsText bytes.data.toList := by
    constructor
    · rintro ⟨letters, rfl⟩
      exact ⟨letters, by rw [List.utf8Encode, List.data_toByteArray]⟩
    · rintro ⟨letters, h⟩
      refine ⟨letters, ByteArray.ext (Array.toList_inj.mp ?_)⟩
      rw [h, List.utf8Encode, List.data_toByteArray]
  rw [← hvalid, String.fromUTF8?]
  split
  · rename_i htext
    exact iff_of_false (Option.some_ne_none _) (not_not.mpr htext)
  · rename_i hnot
    exact iff_of_true rfl hnot

end Utf8

namespace Utf8Fault

variable {fault other : Utf8Fault} {bytes : List UInt8}

theorem Describes.validUpTo_le (h : fault.Describes bytes) (hother : other.Describes bytes) :
    other.validUpTo ≤ fault.validUpTo := by
  refine Nat.le_of_not_lt fun hlt => ?_
  exact h.greatest _ hlt (Nat.le_of_lt hother.inside) hother.valid

theorem Describes.length_le {length more : Nat} (h : fault.Describes bytes)
    (hother : other.Describes bytes) (hplace : other.validUpTo = fault.validUpTo)
    (hlength : fault.length? = some length) (hmore : other.length? = some more) :
    more ≤ length := by
  refine Nat.le_of_not_lt fun hlt => ?_
  have hmisfit := h.misfit length hlength
  rcases hother.beginning more hmore with hone | ⟨-, hbegins⟩
  · rcases h.beginning length hlength with hlength | ⟨hlength, -⟩ <;> omega
  · rw [hplace] at hbegins
    exact hmisfit (hbegins.take_of_le (by omega))

theorem Describes.eq (h : fault.Describes bytes) (hother : other.Describes bytes) :
    fault = other := by
  have hplace : fault.validUpTo = other.validUpTo :=
    Nat.le_antisymm (hother.validUpTo_le h) (h.validUpTo_le hother)
  have hlength : fault.length? = other.length? := by
    cases hfault : fault.length? with
    | none => exact (hother.length?_eq_none_iff.mpr (h.length?_eq_none_iff.mp hfault)).symm
    | some length =>
        cases hfound : other.length? with
        | none =>
            have hnone := h.length?_eq_none_iff.mpr (hother.length?_eq_none_iff.mp hfound)
            rw [hfault] at hnone
            cases hnone
        | some more =>
            exact congrArg some (Nat.le_antisymm (hother.length_le h hplace hfound hfault)
              (h.length_le hother hplace.symm hfault hfound))
  cases fault
  cases other
  exact congr (congrArg Utf8Fault.mk hplace) hlength

/-- There is one fault that describes bytes that are no text, and it is the one found. -/
theorem describes_iff {bytes : ByteArray} (h : String.fromUTF8? bytes = none) :
    fault.Describes bytes.data.toList ↔ fault = ofBytes bytes := by
  have hfound : (ofBytes bytes).Describes bytes.data.toList :=
    Utf8.describes_fault Utf8.reading_start (Utf8.fromUTF8?_eq_none_iff.mp h)
  constructor
  · intro hfault
    exact hfault.eq hfound
  · rintro rfl
    exact hfound

/-- A letter that the bytes end inside of, and one that goes on with a byte of no letter. -/
example : ofBytes ⟨#[0x61, 0xe2, 0x82]⟩ = ⟨1, none⟩ ∧
    ofBytes ⟨#[0x61, 0xe2, 0x82, 0x28]⟩ = ⟨1, some 2⟩ := by
  decide

end Utf8Fault

namespace Decode

variable {buffer : Buffer} {cursor reached : Cursor} {error : Error}

theorem moveTo_eq_error {index : Nat} (h : moveTo index buffer cursor = (.error error, reached)) :
    error = .indexOutOfBounds index := by
  rw [moveTo] at h
  split at h <;> cases h
  rfl

theorem take_eq_error {count : Nat} (h : take count buffer cursor = (.error error, reached)) :
    error = .indexOutOfBounds (cursor.position + count) := by
  simp only [take] at h
  split at h <;> cases h
  rfl

theorem word_eq_error {width : Nat} (h : word width buffer cursor = (.error error, reached)) :
    ∃ index, error = .indexOutOfBounds index := by
  rcases Attempt.bind_eq_error h with h | ⟨_, _, -, h⟩
  · exact ⟨_, moveTo_eq_error h⟩
  · rcases Attempt.bind_eq_error h with h | ⟨_, _, -, h⟩
    · exact ⟨_, take_eq_error h⟩
    · cases h

/-- The fault that a reader of texts reports is the one in the bytes behind the length and
before the nul byte. -/
theorem describes_of_text {lengthWidth : Nat} {fault : Utf8Fault} (hwidth : 0 < lengthWidth)
    (h : text lengthWidth buffer cursor = (.error (@Error.invalidUtf8 fault), reached)) :
    fault.Describes (buffer.bytes.extract (alignUp cursor.position lengthWidth + lengthWidth)
      (reached.position - 1)).data.toList := by
  rcases Attempt.bind_eq_error h with h | ⟨length, begun, hlength, h⟩
  · obtain ⟨_, ⟨⟩⟩ := word_eq_error h
  rcases Attempt.bind_eq_error h with h | ⟨bytes, taken, htake, h⟩
  · cases take_eq_error h
  obtain ⟨-, -, hplace⟩ := spells_of_word hwidth hlength
  simp only [take] at htake
  split at htake <;> cases htake
  simp only at h
  split at h
  · cases h
  split at h
  · cases h
  cases hcontent : String.fromUTF8? ((buffer.bytes.extract begun.position
      (begun.position + (length + 1))).extract 0 length) with
  | some content =>
      rw [hcontent] at h
      cases h
  | none =>
      rw [hcontent] at h
      cases h
      have hstop : min (begun.position + length) (begun.position + (length + 1)) =
          begun.position + (length + 1) - 1 := by omega
      have hextract : (buffer.bytes.extract begun.position
          (begun.position + (length + 1))).extract 0 length =
            buffer.bytes.extract begun.position (begun.position + (length + 1) - 1) := by
        rw [ByteArray.extract_extract, Nat.add_zero, hstop]
      rw [← hplace, ← hextract]
      exact (Utf8Fault.describes_iff hcontent).mpr rfl

end Decode

end BusCodec
