import BusCodec.Proofs.Generator.Requests

/-!
How far a request reaches.  The procedure under a name is the same in every registry
that requests have filled, and a request adds the procedures for the containers in its
types and no others.
-/

namespace BusCodec

namespace Procedure

variable {policy : MapPolicy} {access : Access} {p q : Procedure}

theorem Handles.eq {type : BusType} (hp : p.Handles policy access type)
    (hq : q.Handles policy access type) : p = q := by
  obtain ⟨pname, paccess, psignature, ⟨pnative, hpnative, hpnatives⟩, phandling⟩ := hp
  obtain ⟨qname, qaccess, qsignature, ⟨qnative, hqnative, hqnatives⟩, qhandling⟩ := hq
  rw [phandling] at qhandling
  rw [hpnative] at hqnative
  cases p
  cases q
  cases qhandling
  cases hqnative
  rw [Procedure.mk.injEq]
  exact ⟨pname.trans qname.symm, paccess.trans qaccess.symm, rfl,
    psignature.trans qsignature.symm, hpnatives.trans hqnatives.symm, rfl⟩

theorem HandlesMessage.eq {signature : String} {variant : Bool} {types : List BusType}
    (hp : p.HandlesMessage policy access signature variant types)
    (hq : q.HandlesMessage policy access signature variant types) : p = q := by
  obtain ⟨pname, paccess, psignature, ptypes, ⟨pnatives, hpnatives, pnative⟩, pbody⟩ := hp
  obtain ⟨qname, qaccess, qsignature, qtypes, ⟨qnatives, hqnatives, qnative⟩, qbody⟩ := hq
  rw [ptypes] at qtypes
  rw [hpnatives] at hqnatives
  cases p
  cases q
  cases qtypes
  cases hqnatives
  rw [Procedure.mk.injEq]
  exact ⟨pname.trans qname.symm, paccess.trans qaccess.symm, rfl,
    psignature.trans qsignature.symm, pnative.trans qnative.symm, pbody.trans qbody.symm⟩

end Procedure

namespace BusType

/-- A type is another one or is nested in it. -/
inductive Part : BusType → BusType → Prop
  | whole (type : BusType) : Part type type
  | within {whole child part : BusType} (hchild : child ∈ whole.children)
      (hpart : Part child part) : Part whole part

theorem exists_handling_of_child {type child : BusType} (access : Access)
    (hchild : child ∈ type.children) :
    ∃ construct body, type.handling? access = some (construct, body) := by
  cases type with
  | basic type => simp [children] at hchild
  | variant => simp [children] at hchild
  | _ => exact ⟨_, _, rfl⟩

/-- A name is that of the procedure for a container in a type. -/
def NamesPart (access : Access) (type : BusType) (name : String) : Prop :=
  ∃ part construct, type.Part part ∧ part.callee access = .procedure name construct

theorem NamesPart.within {access : Access} {type child : BusType} {name : String}
    (h : child.NamesPart access name) (hchild : child ∈ type.children) :
    type.NamesPart access name := by
  obtain ⟨part, construct, hpart, hcallee⟩ := h
  exact ⟨part, construct, .within hchild hpart, hcallee⟩

end BusType

namespace Registry

variable {policy : MapPolicy} {registry other : Registry} {access : Access} {name : String}

/-- A name stands for the same procedure in all registries. -/
theorem Closed.eq_of_get? (h : Closed policy registry) (hother : Closed policy other)
    {p q : Procedure} (hp : registry.get? access name = some p)
    (hq : other.get? access name = some q) : p = q := by
  have hname := name_of_get? hp
  rcases h _ _ _ hp with ⟨type, -, hhandles, -⟩ | ⟨signature, variant, types, hhandles, -⟩
  · rw [← hname, hhandles.name_eq] at hq
    exact hhandles.eq (hother.handles_of_get? hhandles.handling_eq hq).1
  · rw [← hname, hhandles.name_eq] at hq
    exact hhandles.eq (hother.handlesMessage_of_get? hhandles.types_eq hq).1

theorem Closed.provides_part (h : Closed policy registry) {type part : BusType}
    (hpart : type.Part part) (hprovides : registry.Provides access type) :
    registry.Provides access part := by
  induction hpart with
  | whole type => exact hprovides
  | within hchild _ ih =>
      obtain ⟨construct, body, hhandling⟩ := BusType.exists_handling_of_child access hchild
      obtain ⟨procedure, hget⟩ := hprovides _ _ (BusType.callee_of_handling hhandling)
      exact ih ((h.handles_of_get? hhandling hget).2 _ hchild)

theorem Closed.exists_get?_of_namesPart (h : Closed policy registry) {type : BusType}
    (hprovides : registry.Provides access type) (hname : type.NamesPart access name) :
    ∃ procedure, registry.get? access name = some procedure := by
  obtain ⟨part, construct, hpart, hcallee⟩ := hname
  exact h.provides_part hpart hprovides name construct hcallee

end Registry

namespace Generator

variable {α β : Type} {access : Access} {names : String → Prop}

/-- What a computation registers is of the given access and under the given names. -/
def RegistersOnly (access : Access) (names : String → Prop) (request : Generate α) : Prop :=
  ∀ generator other name procedure,
    (request generator).2.registry.get? other name = some procedure →
      generator.registry.get? other name = some procedure ∨ other = access ∧ names name

theorem registersOnly_of_kept {request : Generate α}
    (h : ∀ generator, (request generator).2 = generator) :
    RegistersOnly access names request := by
  intro generator other name procedure hget
  rw [h] at hget
  exact .inl hget

theorem registersOnly_pure (value : α) :
    RegistersOnly access names (pure value : Generate α) :=
  registersOnly_of_kept fun _ => rfl

theorem registersOnly_register {procedure : Procedure} (haccess : procedure.access = access)
    (hname : names procedure.name) : RegistersOnly access names (register procedure) := by
  intro generator other name found hget
  rcases Registry.get?_insert_cases hget with hold | ⟨rfl, hown⟩
  · exact .inl hold
  · rw [Registry.name_of_get? hget] at hname
    exact .inr ⟨hown.symm.trans haccess, hname⟩

theorem RegistersOnly.bind {first : Generate α} {next : α → Generate β}
    (hfirst : RegistersOnly access names first)
    (hnext : ∀ value, RegistersOnly access names (next value)) :
    RegistersOnly access names (first >>= next) := by
  intro generator other name procedure hget
  rw [Attempt.bind_apply] at hget
  have hearlier := hfirst generator other name procedure
  generalize first generator = ran at hget hearlier
  obtain ⟨outcome, reached⟩ := ran
  cases outcome with
  | error error => exact hearlier hget
  | ok value =>
      rcases hnext value reached other name procedure hget with hmiddle | hnew
      · exact hearlier hmiddle
      · exact .inr hnew

theorem RegistersOnly.container {construct : Construct} {type : BusType}
    {body : Generate Body} (hbody : RegistersOnly access names body)
    (hname : names (procedureName access construct type.signature)) :
    RegistersOnly access names (container access construct type body) := by
  rw [Generator.container]
  refine (registersOnly_of_kept fun _ => rfl).bind fun registered => ?_
  split
  · exact registersOnly_pure _
  · refine (registersOnly_of_kept fun _ => rfl).bind fun native => hbody.bind fun body => ?_
    exact (registersOnly_register rfl hname).bind fun _ => registersOnly_pure _

mutual

theorem registersOnly_callee : ∀ {type : BusType},
    (∀ name, type.NamesPart access name → names name) →
      RegistersOnly access names (callee access type)
  | .basic _, _ => registersOnly_pure _
  | .variant, _ => registersOnly_pure _
  | .array element, hnames => by
      refine RegistersOnly.container ?_ (hnames _ ⟨_, _, .whole _, rfl⟩)
      refine (registersOnly_callee fun name hname => ?_).bind fun _ => registersOnly_pure _
      exact hnames name (hname.within List.mem_cons_self)
  | .dict key value, hnames => by
      refine RegistersOnly.container ?_ (hnames _ ⟨_, _, .whole _, rfl⟩)
      refine (registersOnly_callee fun name hname => ?_).bind fun _ => registersOnly_pure _
      exact hnames name (hname.within (List.mem_cons_of_mem _ List.mem_cons_self))
  | .struct first rest, hnames => by
      refine RegistersOnly.container ?_ (hnames _ ⟨_, _, .whole _, rfl⟩)
      refine (registersOnly_callee fun name hname => ?_).bind fun _ =>
        (registersOnly_callees fun type htype name hname => ?_).bind fun _ =>
          registersOnly_pure _
      · exact hnames name (hname.within List.mem_cons_self)
      · exact hnames name (hname.within (List.mem_cons_of_mem _ htype))

theorem registersOnly_callees : ∀ {types : List BusType},
    (∀ type ∈ types, ∀ name, type.NamesPart access name → names name) →
      RegistersOnly access names (callees access types)
  | [], _ => registersOnly_pure _
  | type :: types, hnames => by
      rw [List.forall_mem_cons] at hnames
      exact (registersOnly_callee hnames.1).bind fun _ =>
        (registersOnly_callees hnames.2).bind fun _ => registersOnly_pure _

end

theorem registersOnly_entry {signature : String} {variant : Bool} {construct : Construct}
    {types : List BusType} (htypes : entryTypes signature variant = .ok (construct, types))
    (hown : names (procedureName access construct signature))
    (hnames : ∀ type ∈ types, ∀ name, type.NamesPart access name → names name) :
    RegistersOnly access names (entry access signature variant) := by
  rw [entry, htypes, Attempt.liftGrammar_ok_bind]
  refine (registersOnly_of_kept fun _ => rfl).bind fun registered => ?_
  split
  · exact registersOnly_pure _
  · refine (registersOnly_of_kept fun generator => ?_).bind fun natives =>
      (registersOnly_callees hnames).bind fun values => ?_
    · rw [natives_apply]
    · exact (registersOnly_register rfl hown).bind fun _ => registersOnly_pure _

end Generator

end BusCodec
