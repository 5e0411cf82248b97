import BusCodec.Proofs.Generator.Acceptance
import BusCodec.Proofs.Generator.References
import BusCodec.SourceText.Module
import Mathlib.Data.List.Forall2

/-!
Prototypes of procedures.  What a procedure calls returns the very type that stands at its
place in the caller's result, or takes the part at its place in the caller's parameter the way
the caller passes it.  Both are found from the type that a procedure is for, and what stands
for a type is the same wherever the type occurs.
-/

namespace BusCodec

namespace NativeType

/-- What a writer takes for a value of an owned type: the value itself if it is copied, or
else a reference to it, which may be left out for vectors and maps. -/
def passed : NativeType → NativeType
  | .basic type => if type.isCopy then .basic type else .ref (.basic type)
  | .vec item => .option (.ref (.vec item))
  | .map style key value => .option (.ref (.map style key value))
  | native => .ref native

variable {policy : MapPolicy} {access : Access} {nullable : Bool} {type : BusType}
  {types : List BusType} {native whole : NativeType} {natives : List NativeType}

theorem forall₂_of_mapM_eq_ok {α β : Type} {f : α → Except Error β} {items : List α}
    {results : List β} (h : items.mapM f = .ok results) :
    List.Forall₂ (fun item result => f item = .ok result) items results := by
  induction items generalizing results with
  | nil =>
      cases h
      exact .nil
  | cons item items ih =>
      rw [List.mapM_cons] at h
      cases hfirst : f item with
      | error error =>
          rw [hfirst] at h
          cases h
      | ok first =>
          cases hrest : items.mapM f with
          | error error =>
              rw [hfirst, hrest] at h
              cases h
          | ok rest =>
              rw [hfirst, hrest] at h
              cases h
              exact .cons hfirst (ih hrest)

theorem ownedAll_eq_mapM (policy : MapPolicy) (types : List BusType) :
    ownedAll policy types = types.mapM (owned policy) := by
  induction types with
  | nil => rfl
  | cons type types ih => rw [ownedAll, List.mapM_cons, ih]

theorem owned_array_eq_ok {element : BusType} (h : owned policy (.array element) = .ok whole) :
    ∃ item, owned policy element = .ok item ∧ whole = .vec item := by
  rw [owned] at h
  cases helement : owned policy element with
  | error error =>
      rw [helement] at h
      cases h
  | ok item =>
      rw [helement] at h
      cases h
      exact ⟨item, rfl, rfl⟩

theorem owned_dict_eq_ok {key : BasicType} {value : BusType}
    (h : owned policy (.dict key value) = .ok whole) :
    ∃ native, owned policy value = .ok native ∧
      whole = .map (policy (BusType.dict key value).signature) (.basic key) native := by
  have hkey : key ≠ .double := by
    rintro rfl
    cases h
  rw [owned] at h
  · cases hvalue : owned policy value with
    | error error =>
        rw [hvalue] at h
        cases h
    | ok native =>
        rw [hvalue] at h
        cases h
        exact ⟨native, rfl, rfl⟩
  · exact hkey

theorem owned_struct_eq_ok {first : BusType} {rest : List BusType}
    (h : owned policy (.struct first rest) = .ok whole) :
    ∃ members, (first :: rest).mapM (owned policy) = .ok members ∧ whole = .tuple members := by
  rw [owned, ownedAll_eq_mapM] at h
  rw [List.mapM_cons]
  cases hfirst : owned policy first with
  | error error =>
      rw [hfirst] at h
      cases h
  | ok native =>
      cases hrest : rest.mapM (owned policy) with
      | error error =>
          rw [hfirst, hrest] at h
          cases h
      | ok natives =>
          rw [hfirst, hrest] at h
          cases h
          exact ⟨_, rfl, rfl⟩

theorem ofBusType_eq_ok (h : ofBusType policy access nullable type = .ok native) :
    ∃ whole, owned policy type = .ok whole ∧ native = match access with
      | .read => whole
      | .write => borrowed nullable type whole := by
  rw [ofBusType] at h
  cases howned : owned policy type with
  | error error =>
      rw [howned] at h
      cases h
  | ok whole =>
      rw [howned] at h
      cases access <;> cases h <;> exact ⟨_, rfl, rfl⟩

theorem ofBusType_read (h : owned policy type = .ok whole) :
    ofBusType policy .read nullable type = .ok whole := by
  rw [ofBusType, h]
  rfl

theorem borrowed_eq_passed (h : owned policy type = .ok whole) :
    borrowed true type whole = whole.passed := by
  cases type with
  | basic type =>
      cases h
      rfl
  | variant =>
      cases h
      rfl
  | array element =>
      obtain ⟨item, -, rfl⟩ := owned_array_eq_ok h
      rfl
  | dict key value =>
      obtain ⟨native, -, rfl⟩ := owned_dict_eq_ok h
      rfl
  | struct first rest =>
      obtain ⟨members, -, rfl⟩ := owned_struct_eq_ok h
      rfl

/-- What a writer takes for a type is known from what owns the values of the type. -/
theorem ofBusType_write (h : owned policy type = .ok whole) :
    ofBusType policy .write true type = .ok whole.passed := by
  rw [ofBusType, h, ← borrowed_eq_passed h]
  rfl

end NativeType

/-- The parts of a value of a native type that a body handles, each at the place of one
callee: the items of a vector, the keys and values of a map, the members of a tuple, and the
values of a message, which are in a tuple unless there is one. -/
def Body.parts : Body → NativeType → List NativeType
  | .array _ _, .vec item => [item]
  | .dictionary _ _, .map _ key value => [key, value]
  | .struct _, .tuple members => members
  | .message _ [_], native => [native]
  | .message _ _, .tuple members => members
  | _, _ => []

/-- What a callee returns to a reader, or takes from a writer.  The writers of basic types
take copies, apart from those of texts, and the writer of variants takes a reference. -/
def Registry.prototype? (registry : Registry) : Access → Callee → Option NativeType
  | .read, .primitive type => some (.basic type)
  | .read, .variant => some .anyValue
  | .write, .primitive type => some (NativeType.basic type).passed
  | .write, .variant => some (.ref .anyValue)
  | access, .procedure name _ =>
      match registry.get? access name with
      | some ⟨_, _, _, _, [native], _⟩ => some native
      | _ => none

/-- The prototype of a procedure fits the prototypes of what its body calls. -/
inductive Procedure.Fits (registry : Registry) (procedure : Procedure) : Access → Prop
  | reader {native : NativeType} (result : procedure.native = [native])
      (parts : List.Forall₂ (fun callee part => registry.prototype? .read callee = some part)
        procedure.body.callees (procedure.body.parts native)) :
      Fits registry procedure .read
  | writer {native : NativeType} (container : procedure.isEntry = false)
      (parameter : procedure.native = [native.passed])
      (parts : List.Forall₂
        (fun callee part => registry.prototype? .write callee = some part.passed)
        procedure.body.callees (procedure.body.parts native)) :
      Fits registry procedure .write
  | entryWriter (entry : procedure.isEntry = true)
      (parameters : List.Forall₂
        (fun callee parameter => registry.prototype? .write callee = some parameter)
        procedure.body.callees procedure.native) :
      Fits registry procedure .write

namespace Registry

variable {policy : MapPolicy} {registry : Registry} {access : Access} {type : BusType}
  {types : List BusType} {procedure : Procedure} {native whole : NativeType}

/-- The prototype of what is called for a type is what stands for the type. -/
theorem Closed.prototype?_callee (h : Closed policy registry)
    (hprovides : registry.Provides access type)
    (hnative : NativeType.ofBusType policy access (access == .write) type = .ok native) :
    registry.prototype? access (type.callee access) = some native := by
  cases hcallee : type.callee access with
  | primitive basic =>
      cases type <;> cases hcallee
      cases access <;> cases hnative <;> rfl
  | variant =>
      cases type <;> cases hcallee
      cases access <;> cases hnative <;> rfl
  | procedure name construct =>
      obtain ⟨-, procedure, hget, -, hhandles⟩ := h.handles_called hprovides hcallee
      obtain ⟨other, hother, hnatives⟩ := hhandles.native_eq
      rw [hnative] at hother
      cases hother
      cases procedure
      cases hnatives
      cases access <;> rw [prototype?, hget]

/-- The parts of what stands for a type stand for the children of the type. -/
theorem parts_of_handling {construct : Construct} {body : Body}
    (hhandling : type.handling? access = some (construct, body))
    (howned : NativeType.owned policy type = .ok whole) :
    List.Forall₂ (fun child part => NativeType.owned policy child = .ok part) type.children
      (body.parts whole) := by
  cases type with
  | basic type => cases hhandling
  | variant => cases hhandling
  | array element =>
      obtain ⟨item, hitem, rfl⟩ := NativeType.owned_array_eq_ok howned
      cases hhandling
      exact .cons hitem .nil
  | dict key value =>
      obtain ⟨native, hvalue, rfl⟩ := NativeType.owned_dict_eq_ok howned
      cases hhandling
      exact .cons rfl (.cons hvalue .nil)
  | struct first rest =>
      obtain ⟨members, hmembers, rfl⟩ := NativeType.owned_struct_eq_ok howned
      cases hhandling
      exact NativeType.forall₂_of_mapM_eq_ok hmembers

/-- What is called for the types that stand at some places fits these places. -/
theorem Closed.forall₂_prototypes (h : Closed policy registry) {parts : List NativeType}
    (form : NativeType → NativeType)
    (hprovides : ∀ type ∈ types, registry.Provides access type)
    (hparts : List.Forall₂ (fun type part =>
      NativeType.ofBusType policy access (access == .write) type = .ok (form part)) types parts) :
    List.Forall₂ (fun callee part => registry.prototype? access callee = some (form part))
      (types.map (BusType.callee access)) parts := by
  induction hparts with
  | nil => exact .nil
  | cons hpart _ ih =>
      rw [List.forall_mem_cons] at hprovides
      exact .cons (h.prototype?_callee hprovides.1 hpart) (ih hprovides.2)

theorem Closed.fits_of_handles (h : Closed policy registry)
    (hhandles : procedure.Handles policy access type)
    (hstands : procedure.StandsFor access type.children)
    (hchildren : ∀ child ∈ type.children, registry.Provides access child) :
    procedure.Fits registry access := by
  obtain ⟨native, hnative, hnatives⟩ := hhandles.native_eq
  obtain ⟨whole, howned, hform⟩ := NativeType.ofBusType_eq_ok hnative
  have hparts := parts_of_handling hhandles.handling_eq howned
  cases access with
  | read =>
      subst hform
      refine .reader hnatives ?_
      rw [hstands.callees_eq]
      exact h.forall₂_prototypes id hchildren
        (hparts.imp fun _ _ hpart => NativeType.ofBusType_read hpart)
  | write =>
      have hparameter : procedure.native = [whole.passed] := by
        rw [hnatives, hform, ← NativeType.borrowed_eq_passed howned]
        rfl
      refine .writer hhandles.isEntry hparameter ?_
      rw [hstands.callees_eq]
      exact h.forall₂_prototypes NativeType.passed hchildren
        (hparts.imp fun _ _ hpart => NativeType.ofBusType_write hpart)

/-- The result of an entry reader has a part for each value. -/
theorem exists_entryNative {values : List Callee} {natives : List NativeType}
    {related : Callee → NativeType → Prop} (h : List.Forall₂ related values natives)
    (hvalues : values ≠ []) (variant : Option String) :
    ∃ native, Generator.entryNative .read natives = [native] ∧
      (Body.message variant values).parts native = natives := by
  cases h with
  | nil => exact absurd rfl hvalues
  | cons hfirst hrest =>
      cases hrest with
      | nil => exact ⟨_, rfl, rfl⟩
      | cons hsecond hmore => exact ⟨.tuple _, rfl, rfl⟩

theorem Closed.fits_of_handlesMessage (h : Closed policy registry) {signature : String}
    {variant : Bool} (hhandles : procedure.HandlesMessage policy access signature variant types)
    (hprovides : ∀ type ∈ types, registry.Provides access type) :
    procedure.Fits registry access := by
  obtain ⟨natives, hnatives, hnative⟩ := hhandles.native_eq
  have hparts := h.forall₂_prototypes id hprovides
    (NativeType.forall₂_of_mapM_eq_ok hnatives)
  have hcallees : procedure.body.callees = types.map (BusType.callee access) := by
    rw [hhandles.body_eq, Body.callees]
  cases access with
  | write =>
      refine .entryWriter (by rw [Procedure.isEntry, hhandles.body_eq]) ?_
      rw [hcallees, hnative]
      exact hparts
  | read =>
      have hnonempty : types.map (BusType.callee .read) ≠ [] := by
        rw [Ne, List.map_eq_nil_iff]
        exact (Generator.entryTypes_eq_ok_iff.mp hhandles.types_eq).2.1
      obtain ⟨native, hresult, hplaces⟩ := exists_entryNative hparts hnonempty
        (if variant then some signature else none)
      refine .reader (hnative.trans hresult) ?_
      rw [hcallees, hhandles.body_eq, hplaces]
      exact hparts

theorem Closed.fits_of_get? (h : Closed policy registry) {name : String}
    (hget : registry.get? access name = some procedure) : procedure.Fits registry access := by
  rcases h _ _ _ hget with
    ⟨type, hlimits, hhandles, hchildren⟩ | ⟨signature, variant, types, hhandles, hall⟩
  · exact h.fits_of_handles hhandles (hhandles.standsFor hlimits) hchildren
  · exact h.fits_of_handlesMessage hhandles hall

/-- The types that a registered procedure hands on have native counterparts. -/
theorem Closed.exists_mappable (h : Closed policy registry) {name : String}
    (hget : registry.get? access name = some procedure) :
    ∃ types : List BusType, procedure.body.callees = types.map (BusType.callee access) ∧
      ∀ type ∈ types, registry.Provides access type ∧ type.Mappable := by
  rcases h _ _ _ hget with
    ⟨type, hlimits, hhandles, hchildren⟩ | ⟨signature, variant, types, hhandles, hall⟩
  · refine ⟨type.children, (hhandles.standsFor hlimits).callees_eq, fun child hchild => ?_⟩
    refine ⟨hchildren child hchild, (BusType.mappable_iff child).mpr fun value hpart => ?_⟩
    exact (BusType.mappable_iff type).mp hhandles.mappable value (.within hchild hpart)
  · refine ⟨types, hhandles.standsFor.callees_eq, fun type htype => ⟨hall type htype, ?_⟩⟩
    obtain ⟨natives, hnatives, -⟩ := hhandles.native_eq
    rcases Generator.mapM_ofBusType_cases policy access (access == .write) types with
      ⟨hmap, -⟩ | ⟨-, herror⟩
    · exact (BusType.mappable_iff type).mpr ((BusType.allMappable_iff types).mp hmap type htype)
    · rw [herror] at hnatives
      cases hnatives

end Registry

namespace SourceText

/-- Whether a parameter of a native type takes arguments of a form. -/
inductive TakenAs : NativeType → ArgumentForm → Prop
  | copied {type : BasicType} (copy : type.isCopy = true) : TakenAs (.basic type) .copied
  | referenced (target : NativeType) : TakenAs (.ref target) .referenced
  | optionalSlice (item : NativeType) : TakenAs (.option (.ref (.vec item))) .optionalSlice
  | optionalMap (style : MapStyle) (key value : NativeType) :
      TakenAs (.option (.ref (.map style key value))) .optionalMap

/-- The expression for a value that a loop variable refers to, in each form. -/
def referenceIn (name : String) : ArgumentForm → String
  | .copied => "*" ++ name
  | .referenced => name
  | .optionalSlice => "Some(" ++ name ++ ".as_slice())"
  | .optionalMap => "Some(" ++ name ++ ")"

/-- The expression for a value at a place of its own, in each form. -/
def placeIn (place : String) : ArgumentForm → String
  | .copied => place
  | .referenced => "&" ++ place
  | .optionalSlice => "Some(" ++ place ++ ".as_slice())"
  | .optionalMap => "Some(&" ++ place ++ ")"

/-- What a writer is passed has the form of its parameter, and no other form. -/
structure ArgumentFits (callee : Callee) (parameter : NativeType) : Prop where
  taken : ∃ form, TakenAs parameter form
  reference_iff : ∀ name form,
    writeArgument callee (.reference name) = referenceIn name form ↔ TakenAs parameter form
  place_iff : ∀ place form,
    writeArgument callee (.place place) = placeIn place form ↔ TakenAs parameter form
  parameter_eq : ∀ name, writeArgument callee (.parameter name) = name

/-- Forms that put different numbers of letters around a text are told apart by what is
written. -/
theorem injective_of_lengths {write : String → ArgumentForm → String}
    (hadd : ∀ text form, (write text form).length = text.length + (write "" form).length)
    (hdistinct : Function.Injective fun form => (write "" form).length) (text : String) :
    Function.Injective (write text) := by
  intro first second h
  have hlength := congrArg String.length h
  rw [hadd text first, hadd text second, Nat.add_right_inj] at hlength
  exact hdistinct hlength

theorem referenceIn_injective (name : String) : Function.Injective (referenceIn name) := by
  refine injective_of_lengths (fun text form => ?_) ?_ name
  · cases form <;> simp only [referenceIn, String.length_append, String.length_empty] <;> omega
  · intro first second
    cases first <;> cases second <;> decide

theorem placeIn_injective (place : String) : Function.Injective (placeIn place) := by
  refine injective_of_lengths (fun text form => ?_) ?_ place
  · cases form <;> simp only [placeIn, String.length_append, String.length_empty] <;> omega
  · intro first second
    cases first <;> cases second <;> decide

theorem TakenAs.unique {parameter : NativeType} {form other : ArgumentForm}
    (h : TakenAs parameter form) (hother : TakenAs parameter other) : form = other := by
  cases h <;> cases hother <;> rfl

theorem argumentFits_of_taken {callee : Callee} {parameter : NativeType}
    (h : TakenAs parameter (argumentForm callee)) : ArgumentFits callee parameter := by
  have hreference : ∀ name, writeArgument callee (.reference name) =
      referenceIn name (argumentForm callee) := by
    intro name
    rw [writeArgument]
    cases argumentForm callee <;> rfl
  have hplace : ∀ place, writeArgument callee (.place place) =
      placeIn place (argumentForm callee) := by
    intro place
    rw [writeArgument]
    cases argumentForm callee <;> rfl
  refine ⟨⟨_, h⟩, fun name form => ?_, fun place form => ?_, fun name => rfl⟩
  · rw [hreference, (referenceIn_injective name).eq_iff]
    exact ⟨fun hform => hform ▸ h, h.unique⟩
  · rw [hplace, (placeIn_injective place).eq_iff]
    exact ⟨fun hform => hform ▸ h, h.unique⟩

/-- What is called for a type takes its value in the form of what stands for the type. -/
theorem taken_passed {policy : MapPolicy} {type : BusType} {whole : NativeType}
    (h : NativeType.owned policy type = .ok whole) :
    TakenAs whole.passed (argumentForm (type.callee .write)) := by
  cases type with
  | basic type =>
      cases h
      rw [NativeType.passed, BusType.callee, argumentForm]
      split
      · exact .copied ‹_›
      · exact .referenced _
  | variant =>
      cases h
      exact .referenced _
  | array element =>
      obtain ⟨item, -, rfl⟩ := NativeType.owned_array_eq_ok h
      exact .optionalSlice item
  | dict key value =>
      obtain ⟨native, -, rfl⟩ := NativeType.owned_dict_eq_ok h
      exact .optionalMap _ _ native
  | struct first rest =>
      obtain ⟨members, -, rfl⟩ := NativeType.owned_struct_eq_ok h
      exact .referenced _

/-- A reader of dictionaries fills a map of the style that it returns. -/
theorem emptyMap_eq {registry : Registry} {procedure : Procedure} {key value : Callee}
    (h : procedure.Fits registry .read) (hbody : procedure.body = .dictionary key value) :
    ∃ style keyType valueType, procedure.native = [.map style keyType valueType] ∧
      emptyMap procedure = style.name ++ "::new()" := by
  cases h with
  | @reader native result parts =>
      rw [hbody] at parts
      cases native with
      | map style keyType valueType =>
          exact ⟨style, keyType, valueType, result, by rw [emptyMap, result]⟩
      | _ => cases parts

end SourceText

namespace Generator

variable {generator : Generator} {access : Access} {name : String} {procedure : Procedure}

/-- The prototypes of a registered procedure and of what it calls fit together.  Writers take
each part as the mapping to native types has it when absent input is allowed, and the
generated code passes it in this form. -/
theorem prototypes_fit (hreachable : generator.Reachable)
    (hget : generator.registry.get? access name = some procedure) :
    procedure.Fits generator.registry access ∧
      (∀ type whole, NativeType.owned generator.policy type = .ok whole →
        NativeType.ofBusType generator.policy .write true type = .ok whole.passed) ∧
      (access = .write → ∀ callee ∈ procedure.body.callees, ∃ parameter,
        generator.registry.prototype? .write callee = some parameter ∧
          SourceText.ArgumentFits callee parameter) ∧
      (access = .read → ∀ key value, procedure.body = .dictionary key value →
        ∃ style keyType valueType, procedure.native = [.map style keyType valueType] ∧
          SourceText.emptyMap procedure = style.name ++ "::new()") := by
  have hclosed := hreachable.sound
  have hfits := Registry.Closed.fits_of_get? hclosed hget
  refine ⟨hfits, fun type whole howned => NativeType.ofBusType_write howned, ?_, ?_⟩
  · rintro rfl callee hcallee
    obtain ⟨types, hcallees, htypes⟩ := Registry.Closed.exists_mappable hclosed hget
    rw [hcallees] at hcallee
    obtain ⟨type, htype, rfl⟩ := List.mem_map.mp hcallee
    obtain ⟨hprovides, hmap⟩ := htypes type htype
    rcases NativeType.owned_cases generator.policy type with ⟨-, whole, howned⟩ | ⟨hnot, -⟩
    · refine ⟨whole.passed, ?_, ?_⟩
      · exact Registry.Closed.prototype?_callee hclosed hprovides
          (NativeType.ofBusType_write howned)
      · exact SourceText.argumentFits_of_taken (SourceText.taken_passed howned)
    · exact absurd hmap hnot
  · rintro rfl key value hbody
    exact SourceText.emptyMap_eq hfits hbody

/-- A struct of a text, a dictionary and an array, whose writer passes a reference and two
values that could be absent. -/
theorem prototypes_fit_struct :
    let reached := (performAll {} [.entry .write "(sa\x7bsv\x7dai)" false]).2
    ∃ procedure, reached.registry.get? .write "write_struct_rsaesvzaiz" = some procedure ∧
      procedure.Fits reached.registry .write ∧
      ∀ callee ∈ procedure.body.callees, ∃ parameter,
        reached.registry.prototype? .write callee = some parameter ∧
          SourceText.ArgumentFits callee parameter := by
  have hget : (performAll {} [.entry .write "(sa\x7bsv\x7dai)" false]).2.registry.get? .write
      "write_struct_rsaesvzaiz" = some ⟨"write_struct_rsaesvzaiz", .write, .struct,
        "(sa\x7bsv\x7dai)",
        [.ref (.tuple [.basic .string, .map .hashed (.basic .string) .anyValue,
          .vec (.basic .int32)])],
        .struct [.primitive .string, .procedure "write_dictionary_aesvz" .dictionary,
          .procedure "write_array_ai" .array]⟩ := by
    rfl
  intro reached
  have hreachable : reached.Reachable := ⟨fun _ => .hashed, _, rfl⟩
  obtain ⟨hfits, -, harguments, -⟩ := prototypes_fit hreachable hget
  exact ⟨_, hget, hfits, harguments rfl⟩

end Generator

end BusCodec
