import BusCodec.Proofs.Procedure.Runs

/-!
How generated procedures refer to one another.  Each one is what its name says, its body
is that of the types in its signature, and what it calls is registered beside it for the
very types nested in its own.  So no procedure calls itself, over however many others,
and no run looks for a procedure that is missing.
-/

namespace BusCodec

namespace Body

/-- What a body calls, in the order in which it does. -/
def callees : Body → List Callee
  | array _ item => [item]
  | dictionary key value => [key, value]
  | struct members => members
  | message _ values => values

end Body

namespace Procedure

/-- What a procedure is: the one for the containers of a type, of which it hands on the
children, or the one for the message bodies of a sequence of types. -/
inductive StandsFor (access : Access) (procedure : Procedure) : List BusType → Prop
  | container {type : BusType} (parses : BusType.parse procedure.signature = .ok type)
      (handling : type.handling? access = some (procedure.construct, procedure.body)) :
      StandsFor access procedure type.children
  | message {types : List BusType} (variant : Bool)
      (parses : BusType.parseAll procedure.signature = .ok types) (nonempty : types ≠ [])
      (single : variant = true → ∃ type, types = [type])
      (construct : procedure.construct = if variant then .variantMessage else .message)
      (body : procedure.body = .message (if variant then some procedure.signature else none)
        (types.map (BusType.callee access))) :
      StandsFor access procedure types

variable {policy : MapPolicy} {access : Access} {type : BusType} {types : List BusType}
  {procedure : Procedure}

theorem Handles.standsFor (h : procedure.Handles policy access type)
    (hlimits : BusType.WithinLimits [type]) : procedure.StandsFor access type.children :=
  .container (by rw [h.signature_eq, BusType.parse_signature hlimits]) h.handling_eq

theorem HandlesMessage.standsFor {signature : String} {variant : Bool}
    (h : procedure.HandlesMessage policy access signature variant types) :
    procedure.StandsFor access types := by
  obtain ⟨hparse, hnonempty, hsingle, hconstruct⟩ := Generator.entryTypes_eq_ok_iff.mp h.types_eq
  have hbody := h.body_eq
  rw [← h.signature_eq] at hparse hbody
  exact .message variant hparse hnonempty hsingle hconstruct hbody

/-- A procedure calls one other for each of the types that it hands on. -/
theorem StandsFor.callees_eq (h : procedure.StandsFor access types) :
    procedure.body.callees = types.map (BusType.callee access) := by
  cases h with
  | @container type parses handling =>
      generalize procedure.construct = construct at handling
      generalize procedure.body = body at handling
      cases type <;> cases handling <;> rfl
  | message variant parses nonempty single construct body => rw [body, Body.callees]

theorem Handles.isEntry (h : procedure.Handles policy access type) :
    procedure.isEntry = false := by
  have hhandling := h.handling_eq
  rw [Procedure.isEntry]
  generalize procedure.construct = construct at hhandling
  generalize procedure.body = body at hhandling
  cases type <;> cases hhandling <;> rfl

end Procedure

namespace Registry

/-- One name calls another: it is registered, and the other is in its body. -/
def Calls (registry : Registry) (access : Access) (caller called : String) : Prop :=
  ∃ procedure construct, registry.get? access caller = some procedure ∧
    .procedure called construct ∈ procedure.body.callees

/-- The length of a signature, where a message body comes after the one value in it. -/
def rank (registry : Registry) (access : Access) (name : String) : Nat :=
  match registry.get? access name with
  | some procedure => 2 * procedure.signature.length + if procedure.isEntry then 1 else 0
  | none => 0

variable {policy : MapPolicy} {registry : Registry} {access : Access} {type : BusType}
  {procedure : Procedure} {name : String}

/-- What is called for a type that is provided is the procedure for the type. -/
theorem Closed.handles_called {called : String} {construct : Construct}
    (h : Closed policy registry) (hprovides : registry.Provides access type)
    (hcallee : type.callee access = .procedure called construct) :
    called = procedureName access construct type.signature ∧
      ∃ procedure, registry.get? access called = some procedure ∧
        procedure.construct = construct ∧ procedure.Handles policy access type := by
  obtain ⟨procedure, hget⟩ := hprovides called construct hcallee
  have hhandling : ∃ body, type.handling? access = some (construct, body) := by
    cases type <;> cases hcallee <;> exact ⟨_, rfl⟩
  obtain ⟨body, hhandling⟩ := hhandling
  have hname := BusType.callee_of_handling hhandling
  rw [hcallee] at hname
  cases hname
  obtain ⟨hhandles, -⟩ := h.handles_of_get? hhandling hget
  have hown := hhandles.handling_eq
  rw [hhandling] at hown
  cases hown
  exact ⟨rfl, procedure, hget, rfl, hhandles⟩

/-- A registered procedure hands on types whose own procedures are registered. -/
theorem Closed.exists_standsFor (h : Closed policy registry)
    (hget : registry.get? access name = some procedure) :
    procedure.name = procedureName access procedure.construct procedure.signature ∧
      procedure.access = access ∧ ∃ types, procedure.StandsFor access types ∧
        (∀ type ∈ types, registry.Provides access type) ∧
        ∀ type ∈ types, 2 * type.codes.length < registry.rank access name := by
  rcases h _ _ _ hget with
    ⟨type, hlimits, hhandles, hchildren⟩ | ⟨signature, variant, types, hhandles, hall⟩
  · refine ⟨?_, hhandles.access_eq, type.children, hhandles.standsFor hlimits, hchildren, ?_⟩
    · rw [hhandles.signature_eq, hhandles.name_eq]
    · intro child hchild
      have hshorter := BusType.length_codes_lt_of_child hchild
      simp only [rank, hget]
      rw [hhandles.signature_eq, BusType.length_signature]
      omega
  · refine ⟨?_, hhandles.access_eq, types, hhandles.standsFor, hall, ?_⟩
    · rw [hhandles.signature_eq, hhandles.name_eq]
    · intro type htype
      have hlength := BusType.length_codes_le_of_mem htype
      have hsignature := (Generator.signature_of_entryTypes hhandles.types_eq).1
      simp only [rank, hget, hhandles.isEntry, if_true]
      rw [hhandles.signature_eq, hsignature, BusType.signatureAll, String.length_ofList]
      omega

theorem rank_of_handles {called : String} (hget : registry.get? access called = some procedure)
    (hhandles : procedure.Handles policy access type) :
    registry.rank access called = 2 * type.codes.length := by
  simp only [rank, hget, hhandles.isEntry]
  rw [hhandles.signature_eq, BusType.length_signature]
  rfl

theorem rank_lt_of_calls {caller called : String} (h : Closed policy registry)
    (hcalls : registry.Calls access caller called) :
    registry.rank access called < registry.rank access caller := by
  obtain ⟨procedure, construct, hget, hmem⟩ := hcalls
  obtain ⟨-, -, types, hstands, hprovides, hlower⟩ := h.exists_standsFor hget
  rw [hstands.callees_eq] at hmem
  obtain ⟨type, htype, hcallee⟩ := List.mem_map.mp hmem
  obtain ⟨-, other, hother, -, hhandles⟩ := h.handles_called (hprovides type htype) hcallee
  rw [rank_of_handles hother hhandles]
  exact hlower type htype

theorem not_calls_itself (h : Closed policy registry) (name : String) :
    ¬ Relation.TransGen (registry.Calls access) name name := by
  -- The rank falls along every call, so a chain of calls never comes back.
  have hlower : ∀ called, Relation.TransGen (registry.Calls access) name called →
      registry.rank access called < registry.rank access name := by
    intro called hchain
    induction hchain with
    | single hcalls => exact rank_lt_of_calls h hcalls
    | tail _ hcalls ih => exact Nat.lt_trans (rank_lt_of_calls h hcalls) ih
  exact fun hcircle => Nat.lt_irrefl _ (hlower name hcircle)

end Registry

namespace Generator

variable {generator : Generator} {access : Access} {name : String} {procedure : Procedure}

/-- Every registered procedure is the one that its name says, with the body of the types in
its signature.  What it calls is registered for those types, it is not called by what it
calls, and running it fails only because of the data. -/
theorem references_of_get? (hreachable : generator.Reachable)
    (hget : generator.registry.get? access name = some procedure) :
    procedure.name = name ∧
      name = procedureName procedure.access procedure.construct procedure.signature ∧
      procedure.access = access ∧
      (∃ types, procedure.StandsFor access types ∧
        procedure.body.callees = types.map (BusType.callee access) ∧
        ∀ type ∈ types, ∀ called construct, type.callee access = .procedure called construct →
          called = procedureName access construct type.signature ∧
          ∃ registered, generator.registry.get? access called = some registered ∧
            registered.construct = construct ∧ registered.signature = type.signature) ∧
      ¬ Relation.TransGen (generator.registry.Calls access) name name ∧
      (access = .read → ∀ buffer cursor error reached,
        generator.registry.readValue name buffer cursor = (.error error, reached) →
          error.OfData) ∧
      (access = .write → ∀ value body error reached,
        generator.registry.writeValue name value body = (.error error, reached) →
          error.OfData) := by
  have hclosed := hreachable.sound
  have hname := Registry.name_of_get? hget
  obtain ⟨hown, haccess, types, hstands, hprovides, -⟩ := hclosed.exists_standsFor hget
  refine ⟨hname, ?_, haccess, ⟨types, hstands, hstands.callees_eq, ?_⟩,
    Registry.not_calls_itself hclosed name, ?_, ?_⟩
  · rw [← hname, haccess, hown]
  · intro type htype called construct hcallee
    obtain ⟨hcalled, registered, hother, hconstruct, hhandles⟩ :=
      hclosed.handles_called (hprovides type htype) hcallee
    exact ⟨hcalled, registered, hother, hconstruct, hhandles.signature_eq⟩
  · rintro rfl buffer cursor error reached hrun
    exact Registry.blamesData_readValue hclosed hget buffer cursor error reached hrun
  · rintro rfl value body error reached hrun
    exact Registry.blamesData_writeValue hclosed hget value body error reached hrun

/-- The entry reader of arrays of arrays calls the reader of arrays, and that one the reader
of the arrays in them. -/
theorem references_of_get?_nested :
    ¬ Relation.TransGen ((performAll {} [.entry .read "aai" false]).2.registry.Calls .read)
        "read_message_aai" "read_message_aai" ∧
      ∀ buffer cursor error reached,
        (performAll {} [.entry .read "aai" false]).2.registry.readValue "read_message_aai"
          buffer cursor = (.error error, reached) → error.OfData := by
  have hreachable : Reachable (performAll {} [.entry .read "aai" false]).2 :=
    ⟨fun _ => .hashed, [.entry .read "aai" false], rfl⟩
  have hget : (performAll {} [.entry .read "aai" false]).2.registry.get? .read
      "read_message_aai" =
        some ⟨"read_message_aai", .read, .message, "aai", [.vec (.vec (.basic .int32))],
          .message none [.procedure "read_array_aai" .array]⟩ := by
    rfl
  obtain ⟨-, -, -, -, hcycle, hread, -⟩ := references_of_get? hreachable hget
  exact ⟨hcycle, hread rfl⟩

end Generator

end BusCodec
