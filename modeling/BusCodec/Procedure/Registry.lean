import BusCodec.Procedure.Basic

/-!
The procedures generated so far.  A name, once registered, keeps its procedure,
and procedures are listed in the order of their names.
-/

namespace BusCodec

/-- Procedures of one access, in ascending order of their names. -/
structure ProcedureTable where
  procedures : List Procedure
  ascending : procedures.Pairwise fun p q => p.name < q.name

namespace ProcedureTable

def empty : ProcedureTable :=
  ⟨[], List.Pairwise.nil⟩

instance : Inhabited ProcedureTable :=
  ⟨empty⟩

/-- Puts a procedure at its place in an ascending list, unless its name is
taken. -/
def place (procedure : Procedure) : List Procedure → List Procedure
  | [] => [procedure]
  | first :: rest =>
      if procedure.name < first.name then procedure :: first :: rest
      else if first.name < procedure.name then first :: place procedure rest
      else first :: rest

theorem mem_place {procedure p : Procedure} {procedures : List Procedure}
    (h : p ∈ place procedure procedures) : p = procedure ∨ p ∈ procedures := by
  induction procedures with
  | nil => simpa [place] using h
  | cons first rest ih =>
      unfold place at h
      split at h
      · simpa using h
      · split at h
        · rcases List.mem_cons.mp h with rfl | h
          · simp
          · rcases ih h with rfl | h
            · simp
            · simp [h]
        · exact Or.inr h

theorem place_ascending (procedure : Procedure) {procedures : List Procedure}
    (h : procedures.Pairwise fun p q => p.name < q.name) :
    (place procedure procedures).Pairwise fun p q => p.name < q.name := by
  induction procedures with
  | nil => simp [place]
  | cons first rest ih =>
      rw [List.pairwise_cons] at h
      unfold place
      split
      · rename_i hlt
        refine List.Pairwise.cons ?_ (List.Pairwise.cons h.1 h.2)
        intro p hp
        rcases List.mem_cons.mp hp with rfl | hp
        · exact hlt
        · exact String.lt_trans hlt (h.1 p hp)
      · split
        · rename_i hlt
          refine List.Pairwise.cons ?_ (ih h.2)
          intro p hp
          rcases mem_place hp with rfl | hp
          · exact hlt
          · exact h.1 p hp
        · exact List.Pairwise.cons h.1 h.2

/-- Adds a procedure, unless its name is taken. -/
def insert (table : ProcedureTable) (procedure : Procedure) : ProcedureTable :=
  ⟨place procedure table.procedures, place_ascending procedure table.ascending⟩

def get? (table : ProcedureTable) (name : String) : Option Procedure :=
  table.procedures.find? fun procedure => procedure.name == name

def contains (table : ProcedureTable) (name : String) : Bool :=
  table.procedures.any fun procedure => procedure.name == name

def size (table : ProcedureTable) : Nat :=
  table.procedures.length

end ProcedureTable

/-- The readers and the writers that have been generated. -/
structure Registry where
  readers : ProcedureTable := .empty
  writers : ProcedureTable := .empty
  deriving Inhabited

namespace Registry

def empty : Registry :=
  {}

def table (registry : Registry) : Access → ProcedureTable
  | .read => registry.readers
  | .write => registry.writers

def get? (registry : Registry) (access : Access) (name : String) : Option Procedure :=
  (registry.table access).get? name

def contains (registry : Registry) (access : Access) (name : String) : Bool :=
  (registry.table access).contains name

/-- Adds a procedure, unless its name is taken. -/
def insert (registry : Registry) (procedure : Procedure) : Registry :=
  match procedure.access with
  | .read => { registry with readers := registry.readers.insert procedure }
  | .write => { registry with writers := registry.writers.insert procedure }

/-- All procedures, the readers first. -/
def toList (registry : Registry) : List Procedure :=
  registry.readers.procedures ++ registry.writers.procedures

def size (registry : Registry) : Nat :=
  registry.readers.size + registry.writers.size

/-- The procedure of a name, which must be registered. -/
def find (registry : Registry) (access : Access) (name : String) :
    Except Error Procedure :=
  match registry.get? access name with
  | some procedure => .ok procedure
  | none => .error (.unknownProcedure name)

/-- The procedure of a name, which must handle whole message bodies. -/
def findEntry (registry : Registry) (access : Access) (name : String) :
    Except Error Procedure := do
  let procedure ← registry.find access name
  if procedure.isEntry then return procedure else throw (.unknownProcedure name)

end Registry

end BusCodec
