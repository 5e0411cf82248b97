import BusCodec.Generator.Basic
import BusCodec.Proofs.Procedure.Lookup
import BusCodec.Proofs.Procedure.Naming

/-!
What stands in a registry that requests have filled.  Every procedure in it is
the one for a type or for a message body, and what it calls is there too.
-/

namespace BusCodec

namespace BusType

mutual

/-- Whether a type has native counterparts: no dictionary in it is keyed by
doubles. -/
def Mappable : BusType → Prop
  | .basic _ | .variant => True
  | .array element => Mappable element
  | .dict key value => key ≠ .double ∧ Mappable value
  | .struct first rest => Mappable first ∧ AllMappable rest
termination_by structural type => type

def AllMappable : List BusType → Prop
  | [] => True
  | type :: types => Mappable type ∧ AllMappable types
termination_by structural types => types

end

/-- What a procedure calls for a value of a type. -/
def callee (access : Access) : BusType → Callee
  | .basic type => .primitive type
  | .variant => .variant
  | .array element =>
      .procedure (procedureName access .array (BusType.array element).signature) .array
  | .dict key value =>
      .procedure (procedureName access .dictionary (BusType.dict key value).signature)
        .dictionary
  | .struct first rest =>
      .procedure (procedureName access .struct (BusType.struct first rest).signature) .struct

/-- What the procedure for a container is called and does. -/
def handling? (access : Access) : BusType → Option (Construct × Body)
  | .basic _ | .variant => none
  | .array element => some (.array, .array element.wireKind (callee access element))
  | .dict key value => some (.dictionary, .dictionary (.primitive key) (callee access value))
  | .struct first rest =>
      some (.struct, .struct (callee access first :: rest.map (callee access)))

theorem callee_of_handling {access : Access} {type : BusType} {construct : Construct}
    {body : Body} (h : type.handling? access = some (construct, body)) :
    type.callee access =
      .procedure (procedureName access construct type.signature) construct := by
  cases type <;> cases h <;> rfl

theorem construct_of_handling {access : Access} {type : BusType} {construct : Construct}
    {body : Body} (h : type.handling? access = some (construct, body)) :
    construct ≠ .message ∧ construct ≠ .variantMessage := by
  cases type <;> cases h <;> exact ⟨by decide, by decide⟩

end BusType

namespace NativeType

mutual

theorem owned_cases (policy : MapPolicy) : ∀ type : BusType,
    (type.Mappable ∧ ∃ native, owned policy type = .ok native) ∨
      (¬ type.Mappable ∧ owned policy type = .error .doubleMapKey)
  | .basic type => .inl ⟨trivial, _, rfl⟩
  | .variant => .inl ⟨trivial, _, rfl⟩
  | .array element => by
      rcases owned_cases policy element with ⟨hmap, native, hnative⟩ | ⟨hmap, herror⟩
      · refine .inl ⟨hmap, .vec native, ?_⟩
        rw [owned, hnative]
        rfl
      · refine .inr ⟨hmap, ?_⟩
        rw [owned, herror]
        rfl
  | .dict key value => by
      rcases owned_cases policy value with ⟨hmap, native, hnative⟩ | ⟨hmap, herror⟩
      · by_cases hkey : key = .double
        · subst hkey
          exact .inr ⟨fun h => h.1 rfl, rfl⟩
        · refine .inl ⟨⟨hkey, hmap⟩,
            .map (policy (BusType.dict key value).signature) (.basic key) native, ?_⟩
          cases key with
          | double => exact absurd rfl hkey
          | _ => rw [owned, hnative] <;> first | rfl | (intro h; cases h)
      · refine .inr ⟨fun h => hmap h.2, ?_⟩
        cases key with
        | double => rfl
        | _ => rw [owned, herror] <;> first | rfl | (intro h; cases h)
  | .struct first rest => by
      rcases owned_cases policy first with ⟨hmap, native, hnative⟩ | ⟨hmap, herror⟩
      · rcases ownedAll_cases policy rest with ⟨hrest, natives, hnatives⟩ | ⟨hrest, herror⟩
        · refine .inl ⟨⟨hmap, hrest⟩, .tuple (native :: natives), ?_⟩
          rw [owned, hnative, hnatives]
          rfl
        · refine .inr ⟨fun h => hrest h.2, ?_⟩
          rw [owned, hnative, herror]
          rfl
      · refine .inr ⟨fun h => hmap h.1, ?_⟩
        rw [owned, herror]
        rfl

theorem ownedAll_cases (policy : MapPolicy) : ∀ types : List BusType,
    (BusType.AllMappable types ∧ ∃ natives, ownedAll policy types = .ok natives) ∨
      (¬ BusType.AllMappable types ∧ ownedAll policy types = .error .doubleMapKey)
  | [] => .inl ⟨trivial, [], rfl⟩
  | type :: types => by
      rcases owned_cases policy type with ⟨hmap, native, hnative⟩ | ⟨hmap, herror⟩
      · rcases ownedAll_cases policy types with ⟨hrest, natives, hnatives⟩ | ⟨hrest, herror⟩
        · refine .inl ⟨⟨hmap, hrest⟩, native :: natives, ?_⟩
          rw [ownedAll, hnative, hnatives]
          rfl
        · refine .inr ⟨fun h => hrest h.2, ?_⟩
          rw [ownedAll, hnative, herror]
          rfl
      · refine .inr ⟨fun h => hmap h.1, ?_⟩
        rw [ownedAll, herror]
        rfl

end

/-- A type has a native counterpart under every policy or under none. -/
theorem ofBusType_cases (policy : MapPolicy) (access : Access) (nullable : Bool)
    (type : BusType) :
    (type.Mappable ∧ ∃ native, ofBusType policy access nullable type = .ok native) ∨
      (¬ type.Mappable ∧ ofBusType policy access nullable type = .error .doubleMapKey) := by
  rcases owned_cases policy type with ⟨hmap, native, hnative⟩ | ⟨hmap, herror⟩
  · refine .inl ⟨hmap, ?_⟩
    rw [ofBusType, hnative]
    cases access <;> exact ⟨_, rfl⟩
  · refine .inr ⟨hmap, ?_⟩
    rw [ofBusType, herror]
    rfl

end NativeType

namespace Procedure

/-- A procedure is the one for the containers of a type. -/
structure Handles (policy : MapPolicy) (access : Access) (type : BusType)
    (procedure : Procedure) : Prop where
  name_eq : procedure.name = procedureName access procedure.construct type.signature
  access_eq : procedure.access = access
  signature_eq : procedure.signature = type.signature
  native_eq : ∃ native, NativeType.ofBusType policy access (access == .write) type = .ok native ∧
    procedure.native = [native]
  handling_eq : type.handling? access = some (procedure.construct, procedure.body)

/-- A procedure is the one for the message bodies of a signature. -/
structure HandlesMessage (policy : MapPolicy) (access : Access) (signature : String)
    (variant : Bool) (types : List BusType) (procedure : Procedure) : Prop where
  name_eq : procedure.name = procedureName access procedure.construct signature
  access_eq : procedure.access = access
  signature_eq : procedure.signature = signature
  types_eq : Generator.entryTypes signature variant = .ok (procedure.construct, types)
  native_eq : ∃ natives,
    types.mapM (NativeType.ofBusType policy access (access == .write)) = .ok natives ∧
      procedure.native = Generator.entryNative access natives
  body_eq : procedure.body =
    .message (if variant then some signature else none) (types.map (BusType.callee access))

variable {policy : MapPolicy} {access : Access} {type : BusType} {types : List BusType}
  {procedure : Procedure}

theorem Handles.mappable (h : procedure.Handles policy access type) : type.Mappable := by
  obtain ⟨native, hnative, -⟩ := h.native_eq
  rcases NativeType.ofBusType_cases policy access (access == .write) type with
    ⟨hmap, -⟩ | ⟨-, herror⟩
  · exact hmap
  · rw [herror] at hnative
    cases hnative

end Procedure

namespace Generator

theorem entryTypes_eq_ok_iff {signature : String} {variant : Bool} {construct : Construct}
    {types : List BusType} :
    entryTypes signature variant = .ok (construct, types) ↔
      BusType.parseAll signature = .ok types ∧ types ≠ [] ∧
        (variant = true → ∃ type, types = [type]) ∧
        construct = if variant then .variantMessage else .message := by
  rw [entryTypes]
  cases BusType.parseAll signature with
  | error error =>
      constructor
      · intro h
        cases h
      · rintro ⟨hparse, -⟩
        cases hparse
  | ok parsed =>
      match parsed, variant with
      | [], _ =>
          constructor
          · intro h
            cases h
          · rintro ⟨hparse, hempty, -⟩
            cases hparse
            exact absurd rfl hempty
      | [type], true =>
          constructor
          · intro h
            cases h
            exact ⟨rfl, List.cons_ne_nil _ _, fun _ => ⟨type, rfl⟩, rfl⟩
          · rintro ⟨hparse, -, -, rfl⟩
            cases hparse
            rfl
      | first :: second :: rest, true =>
          constructor
          · intro h
            cases h
          · rintro ⟨hparse, -, hsingle, -⟩
            cases hparse
            obtain ⟨type, htype⟩ := hsingle rfl
            cases htype
      | first :: rest, false =>
          constructor
          · intro h
            cases rest <;> cases h <;>
              exact ⟨rfl, List.cons_ne_nil _ _, fun h => (by cases h), rfl⟩
          · rintro ⟨hparse, -, -, rfl⟩
            cases hparse
            cases rest <;> rfl

theorem signature_of_entryTypes {signature : String} {variant : Bool} {construct : Construct}
    {types : List BusType} (h : entryTypes signature variant = .ok (construct, types)) :
    signature = BusType.signatureAll types ∧ BusType.WithinLimits types :=
  BusType.parseAll_eq_ok_iff.mp (entryTypes_eq_ok_iff.mp h).1

theorem construct_of_entryTypes {signature : String} {variant : Bool} {construct : Construct}
    {types : List BusType} (h : entryTypes signature variant = .ok (construct, types)) :
    construct = if variant then .variantMessage else .message :=
  (entryTypes_eq_ok_iff.mp h).2.2.2

end Generator

namespace Registry

/-- What is called for a type is in the registry. -/
def Provides (registry : Registry) (access : Access) (type : BusType) : Prop :=
  ∀ name construct, type.callee access = .procedure name construct →
    ∃ procedure, registry.get? access name = some procedure

/-- A procedure is one that a request asks for, and what it calls is in the
registry. -/
def Accounted (policy : MapPolicy) (registry : Registry) (access : Access)
    (procedure : Procedure) : Prop :=
  (∃ type, BusType.WithinLimits [type] ∧ procedure.Handles policy access type ∧
      ∀ child ∈ type.children, registry.Provides access child) ∨
    ∃ signature variant types, procedure.HandlesMessage policy access signature variant types ∧
      ∀ type ∈ types, registry.Provides access type

/-- Every procedure in a registry is accounted for. -/
def Closed (policy : MapPolicy) (registry : Registry) : Prop :=
  ∀ access name procedure, registry.get? access name = some procedure →
    Accounted policy registry access procedure

variable {policy : MapPolicy} {registry before after : Registry} {access : Access}
  {type : BusType} {types : List BusType} {procedure added : Procedure}

theorem provides_of_get? {name : String} {construct : Construct}
    (hcallee : type.callee access = .procedure name construct)
    (hget : ∃ procedure, registry.get? access name = some procedure) :
    registry.Provides access type := by
  intro other otherConstruct hother
  rw [hcallee] at hother
  cases hother
  exact hget

theorem Provides.extend (h : before.Provides access type) (hextends : before.Extends after) :
    after.Provides access type := by
  intro name construct hcallee
  obtain ⟨procedure, hget⟩ := h name construct hcallee
  exact ⟨procedure, hextends _ _ _ hget⟩

theorem Accounted.extend (h : Accounted policy before access procedure)
    (hextends : before.Extends after) : Accounted policy after access procedure := by
  rcases h with ⟨type, hlimits, hhandles, hchildren⟩ | ⟨signature, variant, types, hhandles, hall⟩
  · exact .inl ⟨type, hlimits, hhandles, fun child hchild =>
      (hchildren child hchild).extend hextends⟩
  · exact .inr ⟨signature, variant, types, hhandles, fun type htype =>
      (hall type htype).extend hextends⟩

theorem closed_empty (policy : MapPolicy) : Closed policy {} := by
  intro access name procedure h
  rw [get?_empty] at h
  cases h

theorem Closed.insert (h : Closed policy registry)
    (hadded : Accounted policy registry added.access added) :
    Closed policy (registry.insert added) := by
  intro access name procedure hget
  have hextends := extends_insert registry added
  rcases get?_insert_cases hget with hold | ⟨rfl, rfl⟩
  · exact (h access name procedure hold).extend hextends
  · exact hadded.extend hextends

/-- The procedure under the name for a container is the procedure for it. -/
theorem Closed.handles_of_get? (h : Closed policy registry) {construct : Construct}
    {body : Body} (hhandling : type.handling? access = some (construct, body))
    (hget : registry.get? access (procedureName access construct type.signature) =
      some procedure) :
    procedure.Handles policy access type ∧
      ∀ child ∈ type.children, registry.Provides access child := by
  have hname := name_of_get? hget
  rw [BusType.signature_eq_signatureAll] at hname
  rcases h access _ procedure hget with
    ⟨other, -, hhandles, hchildren⟩ | ⟨signature, variant, types, hhandles, -⟩
  · rw [hhandles.name_eq, BusType.signature_eq_signatureAll] at hname
    obtain ⟨-, htypes⟩ := procedureName_inj hname
    cases htypes
    exact ⟨hhandles, hchildren⟩
  · have htypes := hhandles.types_eq
    rw [hhandles.name_eq, (Generator.signature_of_entryTypes htypes).1] at hname
    obtain ⟨hconstruct, -⟩ := procedureName_inj hname
    have hmessage := Generator.construct_of_entryTypes htypes
    have hcontainer := BusType.construct_of_handling hhandling
    rw [hconstruct] at hmessage
    cases variant with
    | true => exact absurd hmessage hcontainer.2
    | false => exact absurd hmessage hcontainer.1

theorem Closed.handlesMessage_of_get? (h : Closed policy registry) {signature : String}
    {variant : Bool} {construct : Construct}
    (htypes : Generator.entryTypes signature variant = .ok (construct, types))
    (hget : registry.get? access (procedureName access construct signature) =
      some procedure) :
    procedure.HandlesMessage policy access signature variant types ∧
      ∀ type ∈ types, registry.Provides access type := by
  have hname := name_of_get? hget
  have hsignature := (Generator.signature_of_entryTypes htypes).1
  have hmessage := Generator.construct_of_entryTypes htypes
  rw [hsignature] at hname
  rcases h access _ procedure hget with
    ⟨type, -, hhandles, -⟩ | ⟨other, otherVariant, others, hhandles, hall⟩
  · rw [hhandles.name_eq, BusType.signature_eq_signatureAll] at hname
    obtain ⟨hconstruct, -⟩ := procedureName_inj hname
    have hcontainer := BusType.construct_of_handling hhandles.handling_eq
    rw [hconstruct, hmessage] at hcontainer
    cases variant with
    | true => exact absurd rfl hcontainer.2
    | false => exact absurd rfl hcontainer.1
  · have hothers := hhandles.types_eq
    have hotherSignature := (Generator.signature_of_entryTypes hothers).1
    have hotherMessage := Generator.construct_of_entryTypes hothers
    rw [hhandles.name_eq, hotherSignature] at hname
    obtain ⟨hconstruct, rfl⟩ := procedureName_inj hname
    rw [← hsignature] at hotherSignature
    rw [hconstruct, hmessage] at hotherMessage
    subst hotherSignature
    have hvariant : variant = otherVariant := by
      cases variant <;> cases otherVariant <;> first | rfl | cases hotherMessage
    subst hvariant
    exact ⟨hhandles, hall⟩

end Registry

namespace Procedure

/-- A registered procedure for a type is what is called for the type. -/
theorem Handles.called {policy : MapPolicy} {access : Access} {type : BusType}
    {procedure : Procedure} (h : procedure.Handles policy access type) {registry : Registry}
    {name : String} (hget : registry.get? access name = some procedure) :
    type.callee access = .procedure name procedure.construct ∧
      registry.Provides access type := by
  have hcallee := BusType.callee_of_handling h.handling_eq
  rw [← h.name_eq, Registry.name_of_get? hget] at hcallee
  exact ⟨hcallee, Registry.provides_of_get? hcallee ⟨procedure, hget⟩⟩

end Procedure

end BusCodec
