import BusCodec.Proofs.Generator.Extent

/-!
Which signatures procedures are generated for, and why not for the others.  Neither depends
on what a generator has generated before, or on whether the procedure is to read or to write.
-/

namespace BusCodec

namespace BusType

theorem eq_of_part_leaf {type part : BusType} (hleaf : type.children = [])
    (hpart : type.Part part) : part = type := by
  cases hpart with
  | whole => rfl
  | within hchild =>
      rw [hleaf] at hchild
      cases hchild

mutual

/-- A type has native counterparts if no dictionary in it, at any depth, is keyed by
doubles. -/
theorem mappable_iff : ∀ type : BusType,
    type.Mappable ↔ ∀ value, ¬ type.Part (.dict .double value)
  | .basic type =>
      iff_of_true trivial fun value hpart => by cases eq_of_part_leaf rfl hpart
  | .variant =>
      iff_of_true trivial fun value hpart => by cases eq_of_part_leaf rfl hpart
  | .array element => by
      rw [Mappable, mappable_iff element]
      refine forall_congr' fun value => not_congr ⟨.within List.mem_cons_self, ?_⟩
      rintro (_ | ⟨hchild, hpart⟩)
      rwa [List.mem_singleton.mp hchild] at hpart
  | .dict key value => by
      rw [Mappable, mappable_iff value]
      constructor
      · rintro ⟨hkey, hvalue⟩ other (_ | ⟨hchild, hpart⟩)
        · exact hkey rfl
        · simp only [children, List.mem_cons, List.not_mem_nil, or_false] at hchild
          rcases hchild with rfl | rfl
          · cases eq_of_part_leaf rfl hpart
          · exact hvalue other hpart
      · intro h
        refine ⟨?_, fun other hpart => h other (.within (List.mem_cons_of_mem _ List.mem_cons_self)
          hpart)⟩
        rintro rfl
        exact h value (.whole _)
  | .struct first rest => by
      rw [Mappable, mappable_iff first, allMappable_iff rest]
      constructor
      · rintro ⟨hfirst, hrest⟩ value (_ | ⟨hchild, hpart⟩)
        rcases List.mem_cons.mp hchild with rfl | hmem
        · exact hfirst value hpart
        · exact hrest _ hmem value hpart
      · intro h
        exact ⟨fun value hpart => h value (.within List.mem_cons_self hpart),
          fun type htype value hpart => h value (.within (List.mem_cons_of_mem _ htype) hpart)⟩

theorem allMappable_iff : ∀ types : List BusType,
    AllMappable types ↔ ∀ type ∈ types, ∀ value, ¬ type.Part (.dict .double value)
  | [] => iff_of_true trivial (List.forall_mem_nil _)
  | type :: types => by
      rw [AllMappable, mappable_iff type, allMappable_iff types, List.forall_mem_cons]

end

end BusType

namespace Generator

/-- A signature has entry procedures: it is one of one type or more, of exactly one if it is
for variants, and no dictionary in it is keyed by doubles. -/
def Accepted (signature : String) (variant : Bool) : Prop :=
  ∃ types, BusType.parseAll signature = .ok types ∧ types ≠ [] ∧
    (variant = true → ∃ type, types = [type]) ∧
    ∀ type ∈ types, ∀ value, ¬ type.Part (.dict .double value)

/-- The error with which a signature has no entry procedures. -/
inductive Refused (signature : String) (variant : Bool) : Error → Prop
  | grammar {error : GrammarError} (hparse : BusType.parseAll signature = .error error) :
      Refused signature variant (.grammar error)
  | empty (hparse : BusType.parseAll signature = .ok []) :
      Refused signature variant (.grammar .empty)
  | trailing {first second : BusType} {rest : List BusType} (hvariant : variant = true)
      (hparse : BusType.parseAll signature = .ok (first :: second :: rest)) :
      Refused signature variant (.grammar (.trailing first.signature.utf8ByteSize))
  | doubleKey {types : List BusType} {type value : BusType}
      (hparse : BusType.parseAll signature = .ok types)
      (hsingle : variant = true → ∃ type, types = [type]) (htype : type ∈ types)
      (hpart : type.Part (.dict .double value)) :
      Refused signature variant .doubleMapKey

variable {generator : Generator} {access : Access} {signature : String} {variant : Bool}

/-- The name of the entry procedure for a signature. -/
def entryName (access : Access) (signature : String) (variant : Bool) : String :=
  procedureName access (if variant then .variantMessage else .message) signature

theorem entryTypes_eq_error_iff {error : GrammarError} :
    entryTypes signature variant = .error error ↔
      Refused signature variant (.grammar error) := by
  constructor
  · intro h
    rw [entryTypes] at h
    cases hparse : BusType.parseAll signature with
    | error other =>
        rw [hparse] at h
        cases h
        exact .grammar hparse
    | ok types =>
        rw [hparse] at h
        cases types with
        | nil =>
            cases h
            exact .empty hparse
        | cons first rest =>
            cases variant with
            | false => cases rest <;> cases h
            | true =>
                cases rest with
                | nil => cases h
                | cons second rest =>
                    cases h
                    exact .trailing rfl hparse
  · intro h
    rw [entryTypes]
    cases h with
    | grammar hparse =>
        rw [hparse]
        rfl
    | empty hparse =>
        rw [hparse]
        rfl
    | trailing hvariant hparse =>
        rw [hparse, hvariant]
        rfl

/-- A signature is refused if it is not one of types for entry procedures, or if one of these
types has no native counterpart. -/
theorem refused_iff {error : Error} :
    Refused signature variant error ↔
      (∃ grammar, error = .grammar grammar ∧ entryTypes signature variant = .error grammar) ∨
        error = .doubleMapKey ∧ ∃ construct types,
          entryTypes signature variant = .ok (construct, types) ∧
            ¬ BusType.AllMappable types := by
  constructor
  · intro h
    cases error with
    | grammar grammar => exact .inl ⟨grammar, rfl, entryTypes_eq_error_iff.mpr h⟩
    | doubleMapKey =>
        cases h with
        | doubleKey hparse hsingle htype hpart =>
            refine .inr ⟨rfl, _, _, entryTypes_eq_ok_iff.mpr
              ⟨hparse, List.ne_nil_of_mem htype, hsingle, rfl⟩, fun hmap => ?_⟩
            exact (BusType.allMappable_iff _).mp hmap _ htype _ hpart
    | _ => cases h
  · rintro (⟨grammar, rfl, htypes⟩ | ⟨rfl, construct, types, htypes, hmap⟩)
    · exact entryTypes_eq_error_iff.mp htypes
    · obtain ⟨hparse, -, hsingle, -⟩ := entryTypes_eq_ok_iff.mp htypes
      simp only [BusType.allMappable_iff, Classical.not_forall, Classical.not_not] at hmap
      obtain ⟨type, htype, value, hpart⟩ := hmap
      exact .doubleKey hparse hsingle htype hpart

theorem accepted_iff : Accepted signature variant ↔ Servable signature variant := by
  constructor
  · rintro ⟨types, hparse, hnonempty, hsingle, hkeys⟩
    exact ⟨_, types, entryTypes_eq_ok_iff.mpr ⟨hparse, hnonempty, hsingle, rfl⟩,
      (BusType.allMappable_iff types).mpr hkeys⟩
  · rintro ⟨construct, types, htypes, hmap⟩
    obtain ⟨hparse, hnonempty, hsingle, -⟩ := entryTypes_eq_ok_iff.mp htypes
    exact ⟨types, hparse, hnonempty, hsingle, (BusType.allMappable_iff types).mp hmap⟩

theorem entry_eq_error_iff (hsound : generator.Sound) {error : Error} :
    (entry access signature variant generator).1 = .error error ↔
      Refused signature variant error := by
  rw [refused_iff]
  cases htypes : entryTypes signature variant with
  | error grammar =>
      have hrun : (entry access signature variant generator).1 = .error (.grammar grammar) := by
        rw [entry, htypes]
        rfl
      rw [hrun]
      constructor
      · intro h
        cases h
        exact .inl ⟨grammar, rfl, rfl⟩
      · rintro (⟨other, rfl, hother⟩ | ⟨-, _, _, hother, -⟩) <;> cases hother
        rfl
  | ok described =>
      obtain ⟨construct, types⟩ := described
      rcases answered_entry access hsound htypes with
        ⟨hmap, reached, hrun, -, -⟩ | ⟨hmap, hrun⟩
      · rw [hrun]
        refine iff_of_false (fun h => by cases h) ?_
        rintro (⟨_, -, hother⟩ | ⟨-, _, _, hother, hnot⟩) <;> cases hother
        exact hnot hmap
      · rw [hrun]
        constructor
        · intro h
          cases h
          exact .inr ⟨rfl, construct, types, rfl, hmap⟩
        · rintro (⟨_, -, hother⟩ | ⟨rfl, -⟩)
          · cases hother
          · rfl

theorem entry_eq_ok_iff (hsound : generator.Sound) {name : String} :
    (entry access signature variant generator).1 = .ok name ↔
      Accepted signature variant ∧ name = entryName access signature variant := by
  rw [accepted_iff, Servable]
  cases htypes : entryTypes signature variant with
  | error grammar =>
      have hrun : (entry access signature variant generator).1 = .error (.grammar grammar) := by
        rw [entry, htypes]
        rfl
      rw [hrun]
      refine iff_of_false (fun h => by cases h) ?_
      rintro ⟨⟨_, _, hother, -⟩, -⟩
      cases hother
  | ok described =>
      obtain ⟨construct, types⟩ := described
      rcases answered_entry access hsound htypes with
        ⟨hmap, reached, hrun, -, -⟩ | ⟨hmap, hrun⟩
      · rw [hrun, entryName, ← construct_of_entryTypes htypes]
        constructor
        · intro h
          cases h
          exact ⟨⟨construct, types, rfl, hmap⟩, rfl⟩
        · rintro ⟨-, rfl⟩
          rfl
      · rw [hrun]
        refine iff_of_false (fun h => by cases h) ?_
        rintro ⟨⟨_, _, hother, hnot⟩, -⟩
        cases hother
        exact hmap hnot

end Generator

end BusCodec
