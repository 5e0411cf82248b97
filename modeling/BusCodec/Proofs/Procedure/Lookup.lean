import BusCodec.Procedure.Registry

/-!
Looking up procedures.  A table has at most one procedure of a name, and adding
procedures never changes what was found before.
-/

namespace BusCodec

namespace ProcedureTable

theorem eq_of_name_eq {procedures : List Procedure}
    (ascending : procedures.Pairwise fun p q => p.name < q.name) {p q : Procedure}
    (hp : p ∈ procedures) (hq : q ∈ procedures) (h : p.name = q.name) : p = q := by
  induction ascending with
  | nil => cases hp
  | @cons first rest hfirst _ ih =>
      rcases List.mem_cons.mp hp with rfl | hprest
      · rcases List.mem_cons.mp hq with rfl | hqrest
        · rfl
        · exact absurd (hfirst q hqrest) (h ▸ String.lt_irrefl _)
      · rcases List.mem_cons.mp hq with rfl | hqrest
        · exact absurd (hfirst p hprest) (h ▸ String.lt_irrefl _)
        · exact ih hprest hqrest

theorem get?_eq_some_iff {table : ProcedureTable} {name : String} {procedure : Procedure} :
    table.get? name = some procedure ↔
      procedure ∈ table.procedures ∧ procedure.name = name := by
  constructor
  · intro h
    have hname := List.find?_some h
    exact ⟨List.mem_of_find?_eq_some h, by simpa using hname⟩
  · rintro ⟨hmem, rfl⟩
    cases hfound : table.get? procedure.name with
    | none =>
        have hnone := List.find?_eq_none.mp hfound procedure hmem
        simp at hnone
    | some found =>
        have hname := List.find?_some hfound
        rw [eq_of_name_eq table.ascending (List.mem_of_find?_eq_some hfound) hmem
          (by simpa using hname)]

theorem ext_get? {first second : ProcedureTable}
    (h : ∀ name procedure,
      first.get? name = some procedure ↔ second.get? name = some procedure) :
    first = second := by
  have hdistinct : ∀ table : ProcedureTable, table.procedures.Nodup := by
    intro table
    refine table.ascending.imp ?_
    rintro p q hlt rfl
    exact String.lt_irrefl _ hlt
  have hmem : ∀ p, p ∈ first.procedures ↔ p ∈ second.procedures := by
    intro p
    simpa [get?_eq_some_iff] using h p.name p
  have hperm := (List.perm_ext_iff_of_nodup (hdistinct first) (hdistinct second)).mpr hmem
  have hequal : first.procedures = second.procedures := by
    refine hperm.eq_of_pairwise ?_ first.ascending second.ascending
    intro p q _ _ hlt hgt
    exact absurd (String.lt_trans hlt hgt) (String.lt_irrefl _)
  cases first
  cases second
  cases hequal
  rfl

theorem contains_eq_true_iff {table : ProcedureTable} {name : String} :
    table.contains name = true ↔ ∃ procedure, table.get? name = some procedure := by
  rw [contains, List.any_eq_true]
  constructor
  · rintro ⟨procedure, hmem, hname⟩
    exact ⟨procedure, get?_eq_some_iff.mpr ⟨hmem, by simpa using hname⟩⟩
  · rintro ⟨procedure, hfound⟩
    obtain ⟨hmem, hname⟩ := get?_eq_some_iff.mp hfound
    exact ⟨procedure, hmem, by simpa using hname⟩

theorem mem_place_of_mem {procedure p : Procedure} {procedures : List Procedure}
    (h : p ∈ procedures) : p ∈ place procedure procedures := by
  induction procedures with
  | nil => cases h
  | cons first rest ih =>
      unfold place
      split
      · exact List.mem_cons_of_mem _ h
      · split
        · rcases List.mem_cons.mp h with rfl | h
          · exact List.mem_cons_self
          · exact List.mem_cons_of_mem _ (ih h)
        · exact h

theorem exists_mem_place (procedure : Procedure) (procedures : List Procedure) :
    ∃ p ∈ place procedure procedures, p.name = procedure.name := by
  induction procedures with
  | nil => exact ⟨procedure, List.mem_cons_self, rfl⟩
  | cons first rest ih =>
      unfold place
      split
      · exact ⟨procedure, List.mem_cons_self, rfl⟩
      · rename_i hbefore
        split
        · obtain ⟨p, hmem, hname⟩ := ih
          exact ⟨p, List.mem_cons_of_mem _ hmem, hname⟩
        · rename_i hafter
          refine ⟨first, List.mem_cons_self, ?_⟩
          exact String.le_antisymm (String.not_lt.mp hbefore) (String.not_lt.mp hafter)

end ProcedureTable

namespace Registry

variable {registry : Registry} {access other : Access} {name : String}
  {procedure added : Procedure}

theorem table_insert (registry : Registry) (access : Access) (added : Procedure) :
    (registry.insert added).table access =
      if added.access = access then (registry.table access).insert added
      else registry.table access := by
  cases hadded : added.access <;> cases access <;> simp [insert, table, hadded]

theorem name_of_get? (h : registry.get? access name = some procedure) :
    procedure.name = name :=
  (ProcedureTable.get?_eq_some_iff.mp h).2

/-- A registry is known by what is found in it. -/
theorem ext_get? {first second : Registry}
    (h : ∀ access name procedure,
      first.get? access name = some procedure ↔ second.get? access name = some procedure) :
    first = second := by
  have hreaders := ProcedureTable.ext_get? (h .read)
  have hwriters := ProcedureTable.ext_get? (h .write)
  cases first
  cases second
  cases hreaders
  cases hwriters
  rfl

theorem contains_eq_true_iff :
    registry.contains access name = true ↔
      ∃ procedure, registry.get? access name = some procedure :=
  ProcedureTable.contains_eq_true_iff

theorem get?_empty (access : Access) (name : String) :
    ({} : Registry).get? access name = none := by
  cases access <;> rfl

/-- A later registry has all procedures of an earlier one. -/
def Extends (before after : Registry) : Prop :=
  ∀ access name procedure, before.get? access name = some procedure →
    after.get? access name = some procedure

theorem Extends.refl (registry : Registry) : registry.Extends registry :=
  fun _ _ _ h => h

theorem Extends.trans {first second third : Registry} (h : first.Extends second)
    (hnext : second.Extends third) : first.Extends third :=
  fun access name procedure hfirst => hnext _ _ _ (h access name procedure hfirst)

theorem extends_insert (registry : Registry) (added : Procedure) :
    registry.Extends (registry.insert added) := by
  intro access name procedure h
  obtain ⟨hmem, hname⟩ := ProcedureTable.get?_eq_some_iff.mp h
  rw [get?, table_insert]
  split
  · exact ProcedureTable.get?_eq_some_iff.mpr
      ⟨ProcedureTable.mem_place_of_mem hmem, hname⟩
  · exact h

theorem get?_insert_cases (h : (registry.insert added).get? access name = some procedure) :
    registry.get? access name = some procedure ∨
      procedure = added ∧ added.access = access := by
  rw [get?, table_insert] at h
  split at h
  · rename_i haccess
    obtain ⟨hmem, hname⟩ := ProcedureTable.get?_eq_some_iff.mp h
    rcases ProcedureTable.mem_place hmem with rfl | hmem
    · exact .inr ⟨rfl, haccess⟩
    · exact .inl (ProcedureTable.get?_eq_some_iff.mpr ⟨hmem, hname⟩)
  · exact .inl h

theorem exists_get?_insert (registry : Registry) (added : Procedure) :
    ∃ procedure,
      (registry.insert added).get? added.access added.name = some procedure := by
  obtain ⟨procedure, hmem, hname⟩ :=
    ProcedureTable.exists_mem_place added (registry.table added.access).procedures
  refine ⟨procedure, ?_⟩
  rw [get?, table_insert, if_pos rfl]
  exact ProcedureTable.get?_eq_some_iff.mpr ⟨hmem, hname⟩

theorem find_eq_ok (h : registry.get? access name = some procedure) :
    registry.find access name = .ok procedure := by
  rw [find, h]

end Registry

end BusCodec
