import BusCodec.Proofs.Generator.Accounts

/-!
What a request to a generator does.  It succeeds exactly if the signature is one
and no dictionary in it is keyed by doubles, whatever was asked for before; and
when it fails it leaves the generator as it was.
-/

namespace BusCodec

namespace Generator

/-- Every procedure of a generator is accounted for. -/
def Sound (generator : Generator) : Prop :=
  generator.registry.Closed generator.policy

/-- A later state of a sound generator. -/
structure Grows (before after : Generator) : Prop where
  policy_eq : after.policy = before.policy
  keeps : before.registry.Extends after.registry
  sound : after.Sound

variable {generator first second third : Generator} {access : Access} {type : BusType}
  {types : List BusType} {construct : Construct} {body : Body}

theorem Sound.grows (h : generator.Sound) : generator.Grows generator :=
  ⟨rfl, Registry.Extends.refl _, h⟩

theorem Grows.trans (h : first.Grows second) (hnext : second.Grows third) :
    first.Grows third :=
  ⟨hnext.policy_eq.trans h.policy_eq, h.keeps.trans hnext.keeps, hnext.sound⟩

theorem native_apply (access : Access) (type : BusType) (generator : Generator) :
    native access type generator =
      (NativeType.ofBusType generator.policy access (access == .write) type, generator) :=
  rfl

theorem natives_apply (access : Access) (types : List BusType) (generator : Generator) :
    natives access types generator =
      (types.mapM (NativeType.ofBusType generator.policy access (access == .write)),
        generator) := by
  induction types with
  | nil => rfl
  | cons type types ih =>
      rw [natives, List.mapM_cons, Attempt.bind_apply, native_apply]
      cases NativeType.ofBusType generator.policy access (access == .write) type with
      | error error => rfl
      | ok native =>
          change (natives access types >>= fun rest => pure (native :: rest)) generator = _
          rw [Attempt.bind_apply, ih]
          cases types.mapM (NativeType.ofBusType generator.policy access (access == .write)) <;>
            rfl

theorem mapM_ofBusType_cases (policy : MapPolicy) (access : Access) (nullable : Bool)
    (types : List BusType) :
    (BusType.AllMappable types ∧
        ∃ natives, types.mapM (NativeType.ofBusType policy access nullable) = .ok natives) ∨
      (¬ BusType.AllMappable types ∧
        types.mapM (NativeType.ofBusType policy access nullable) = .error .doubleMapKey) := by
  induction types with
  | nil => exact .inl ⟨trivial, [], rfl⟩
  | cons type types ih =>
      rw [List.mapM_cons]
      rcases NativeType.ofBusType_cases policy access nullable type with
        ⟨hmap, native, hnative⟩ | ⟨hmap, herror⟩
      · rw [hnative]
        rcases ih with ⟨hall, natives, hnatives⟩ | ⟨hall, herror⟩
        · rw [hnatives]
          exact .inl ⟨⟨hmap, hall⟩, native :: natives, rfl⟩
        · rw [herror]
          exact .inr ⟨fun h => hall h.2, rfl⟩
      · rw [herror]
        exact .inr ⟨fun h => hmap h.1, rfl⟩

/-- What happens to a request for something that has or has not a native
counterpart. -/
def Answered {α : Type} (generator : Generator) (request : Generate α) (possible : Prop)
    (answer : α) (provided : Registry → Prop) : Prop :=
  (possible ∧ ∃ reached, request generator = (.ok answer, reached) ∧
      generator.Grows reached ∧ provided reached.registry) ∨
    (¬ possible ∧ request generator = (.error .doubleMapKey, generator))

theorem Answered.ok {α : Type} {request : Generate α} {possible : Prop} {answer : α}
    {provided : Registry → Prop}
    (h : generator.Answered request possible answer provided) (hpossible : possible) :
    ∃ reached, request generator = (.ok answer, reached) ∧
      generator.Grows reached ∧ provided reached.registry := by
  rcases h with ⟨-, hreached⟩ | ⟨hnot, -⟩
  · exact hreached
  · exact absurd hpossible hnot

theorem isRegistered_apply (access : Access) (name : String) (generator : Generator) :
    isRegistered access name generator =
      (.ok (generator.registry.contains access name), generator) :=
  rfl

theorem container_of_registered {generate : Generate Body}
    (h : generator.registry.contains access
      (procedureName access construct type.signature) = true) :
    container access construct type generate generator =
      (.ok (.procedure (procedureName access construct type.signature) construct),
        generator) := by
  rw [container, Attempt.bind_of_ok (isRegistered_apply _ _ _), if_pos h]
  rfl

theorem Sound.register (h : generator.Sound) (procedure : Procedure)
    (haccounted : Registry.Accounted generator.policy generator.registry procedure.access
      procedure) :
    generator.Grows
      { generator with registry := generator.registry.insert procedure } :=
  ⟨rfl, Registry.extends_insert _ _, Registry.Closed.insert h haccounted⟩

/-- A container is generated if its type has a native counterpart and its body is
generated then. -/
theorem answered_container (hsound : generator.Sound)
    (hlimits : BusType.WithinLimits [type])
    (hhandling : type.handling? access = some (construct, body))
    {generate : Generate Body}
    (hgenerate : type.Mappable → ∃ reached, generate generator = (.ok body, reached) ∧
      generator.Grows reached ∧ ∀ child ∈ type.children, reached.registry.Provides access child) :
    generator.Answered (container access construct type generate) type.Mappable
      (type.callee access) (fun registry => registry.Provides access type) := by
  have hcallee := BusType.callee_of_handling hhandling
  by_cases hregistered : generator.registry.contains access
      (procedureName access construct type.signature) = true
  · obtain ⟨procedure, hget⟩ := Registry.contains_eq_true_iff.mp hregistered
    obtain ⟨hhandles, -⟩ := hsound.handles_of_get? hhandling hget
    refine .inl ⟨hhandles.mappable, generator, ?_, hsound.grows, ?_⟩
    · rw [container_of_registered hregistered, hcallee]
    · exact Registry.provides_of_get? hcallee ⟨procedure, hget⟩
  · have hunregistered : container access construct type generate generator =
        (native access type >>= fun native => generate >>= fun body =>
          register ⟨procedureName access construct type.signature, access, construct,
            type.signature, [native], body⟩ >>= fun _ =>
          pure (.procedure (procedureName access construct type.signature) construct))
            generator := by
      rw [container, Attempt.bind_of_ok (isRegistered_apply _ _ _), if_neg hregistered]
    rcases NativeType.ofBusType_cases generator.policy access (access == .write) type with
      ⟨hmap, native, hnative⟩ | ⟨hmap, herror⟩
    · obtain ⟨reached, hbody, hgrows, hchildren⟩ := hgenerate hmap
      have hregister := hgrows.sound.register
        ⟨procedureName access construct type.signature, access, construct, type.signature,
          [native], body⟩ (by
        refine .inl ⟨type, hlimits, ⟨rfl, rfl, rfl, ⟨native, ?_, rfl⟩, hhandling⟩, hchildren⟩
        rw [hgrows.policy_eq]
        exact hnative)
      refine .inl ⟨hmap, _, ?_, hgrows.trans hregister, ?_⟩
      · rw [hunregistered, Attempt.bind_of_ok (by rw [native_apply, hnative]),
          Attempt.bind_of_ok hbody, hcallee]
        rfl
      · exact Registry.provides_of_get? hcallee (Registry.exists_get?_insert _ _)
    · refine .inr ⟨hmap, ?_⟩
      rw [hunregistered, Attempt.bind_of_error (by rw [native_apply, herror])]

mutual

/-- What is called for a value of a type is generated if the type has a native
counterpart. -/
theorem answered_callee (access : Access) : ∀ (type : BusType) {generator : Generator},
    generator.Sound → BusType.WithinLimits [type] →
    generator.Answered (callee access type) type.Mappable (type.callee access)
      (fun registry => registry.Provides access type)
  | .basic type, generator, hsound, _ => by
      refine .inl ⟨trivial, generator, rfl, hsound.grows, ?_⟩
      intro name construct h
      cases h
  | .variant, generator, hsound, _ => by
      refine .inl ⟨trivial, generator, rfl, hsound.grows, ?_⟩
      intro name construct h
      cases h
  | .array element, generator, hsound, hlimits => by
      refine answered_container hsound hlimits rfl fun hmap => ?_
      obtain ⟨reached, hrun, hgrows, hprovides⟩ :=
        (answered_callee access element hsound hlimits.element).ok hmap
      refine ⟨reached, ?_, hgrows, ?_⟩
      · rw [Attempt.bind_of_ok hrun]
        rfl
      · intro child hchild
        rw [List.mem_singleton.mp hchild]
        exact hprovides
  | .dict key value, generator, hsound, hlimits => by
      refine answered_container hsound hlimits rfl fun hmap => ?_
      obtain ⟨reached, hrun, hgrows, hprovides⟩ :=
        (answered_callee access value hsound hlimits.value).ok hmap.2
      refine ⟨reached, ?_, hgrows, ?_⟩
      · rw [Attempt.bind_of_ok hrun]
        rfl
      · intro child hchild
        simp only [BusType.children, List.mem_cons, List.not_mem_nil, or_false] at hchild
        rcases hchild with rfl | rfl
        · intro name construct h
          cases h
        · exact hprovides
  | .struct first rest, generator, hsound, hlimits => by
      refine answered_container hsound hlimits rfl fun hmap => ?_
      obtain ⟨hfirst, hrest⟩ := List.forall_mem_cons.mp hlimits.members
      obtain ⟨middle, hrun, hgrows, hprovides⟩ :=
        (answered_callee access first hsound hfirst).ok hmap.1
      obtain ⟨reached, hrunRest, hgrowsRest, hprovidesRest⟩ :=
        callees_eq_ok access rest hgrows.sound hrest hmap.2
      refine ⟨reached, ?_, hgrows.trans hgrowsRest, ?_⟩
      · rw [Attempt.bind_of_ok hrun, Attempt.bind_of_ok hrunRest]
        rfl
      · intro child hchild
        rcases List.mem_cons.mp hchild with rfl | hmem
        · exact hprovides.extend hgrowsRest.keeps
        · exact hprovidesRest child hmem

theorem callees_eq_ok (access : Access) : ∀ (types : List BusType) {generator : Generator},
    generator.Sound → (∀ type ∈ types, BusType.WithinLimits [type]) →
    BusType.AllMappable types →
    ∃ reached, callees access types generator =
        (.ok (types.map (BusType.callee access)), reached) ∧
      generator.Grows reached ∧ ∀ type ∈ types, reached.registry.Provides access type
  | [], generator, hsound, _, _ => ⟨generator, rfl, hsound.grows, by simp⟩
  | type :: types, generator, hsound, hlimits, hmap => by
      rw [List.forall_mem_cons] at hlimits
      obtain ⟨middle, hrun, hgrows, hprovides⟩ :=
        (answered_callee access type hsound hlimits.1).ok hmap.1
      obtain ⟨reached, hrunRest, hgrowsRest, hprovidesRest⟩ :=
        callees_eq_ok access types hgrows.sound hlimits.2 hmap.2
      refine ⟨reached, ?_, hgrows.trans hgrowsRest, ?_⟩
      · rw [callees, Attempt.bind_of_ok hrun, Attempt.bind_of_ok hrunRest]
        rfl
      · rw [List.forall_mem_cons]
        exact ⟨hprovides.extend hgrowsRest.keeps, hprovidesRest⟩

end

theorem withinLimits_of_entryTypes {signature : String} {variant : Bool}
    (h : entryTypes signature variant = .ok (construct, types)) :
    ∀ type ∈ types, BusType.WithinLimits [type] :=
  fun _ htype => (signature_of_entryTypes h).2.of_mem htype

/-- An entry procedure is generated if the types in its signature have native
counterparts. -/
theorem answered_entry (access : Access) (hsound : generator.Sound) {signature : String}
    {variant : Bool}
    (htypes : entryTypes signature variant = .ok (construct, types)) :
    generator.Answered (entry access signature variant) (BusType.AllMappable types)
      (procedureName access construct signature)
      (fun registry => registry.contains access
        (procedureName access construct signature) = true) := by
  have hentry : entry access signature variant =
      (isRegistered access (procedureName access construct signature) >>= fun registered =>
        if registered = true then pure (procedureName access construct signature)
        else natives access types >>= fun natives => callees access types >>= fun values =>
          register ⟨procedureName access construct signature, access, construct, signature,
            entryNative access natives,
            .message (if variant then some signature else none) values⟩ >>= fun _ =>
          pure (procedureName access construct signature)) := by
    rw [entry, htypes]
    rfl
  by_cases hregistered : generator.registry.contains access
      (procedureName access construct signature) = true
  · obtain ⟨procedure, hget⟩ := Registry.contains_eq_true_iff.mp hregistered
    obtain ⟨hhandles, -⟩ := hsound.handlesMessage_of_get? htypes hget
    obtain ⟨natives, hnatives, -⟩ := hhandles.native_eq
    refine .inl ⟨?_, generator, ?_, hsound.grows, hregistered⟩
    · rcases mapM_ofBusType_cases generator.policy access (access == .write) types with
        ⟨hmap, -⟩ | ⟨-, herror⟩
      · exact hmap
      · rw [herror] at hnatives
        cases hnatives
    · rw [hentry, Attempt.bind_of_ok (isRegistered_apply _ _ _), if_pos hregistered]
      rfl
  · rw [Answered, hentry, Attempt.bind_of_ok (isRegistered_apply _ _ _), if_neg hregistered]
    rcases mapM_ofBusType_cases generator.policy access (access == .write) types with
      ⟨hmap, natives, hnatives⟩ | ⟨hmap, herror⟩
    · obtain ⟨reached, hrun, hgrows, hprovides⟩ :=
        callees_eq_ok access types hsound (withinLimits_of_entryTypes htypes) hmap
      have hregister := hgrows.sound.register
        ⟨procedureName access construct signature, access, construct, signature,
          entryNative access natives, .message (if variant then some signature else none)
            (types.map (BusType.callee access))⟩ (by
        refine .inr ⟨signature, variant, types,
          ⟨rfl, rfl, rfl, htypes, ⟨natives, ?_, rfl⟩, rfl⟩, hprovides⟩
        rw [hgrows.policy_eq]
        exact hnatives)
      refine .inl ⟨hmap, _, ?_, hgrows.trans hregister, ?_⟩
      · rw [Attempt.bind_of_ok (by rw [natives_apply, hnatives]), Attempt.bind_of_ok hrun]
        rfl
      · exact Registry.contains_eq_true_iff.mpr (Registry.exists_get?_insert _ _)
    · refine .inr ⟨hmap, ?_⟩
      rw [Attempt.bind_of_error (by rw [natives_apply, herror])]

/-- Whether a request for an entry procedure can be served. -/
def Servable (signature : String) (variant : Bool) : Prop :=
  ∃ construct types, entryTypes signature variant = .ok (construct, types) ∧
    BusType.AllMappable types

/-- A request for an entry procedure is served or leaves the generator as it
was. -/
theorem entry_cases (hsound : generator.Sound) (access : Access) (signature : String)
    (variant : Bool) :
    (Servable signature variant ∧ ∃ name reached,
        entry access signature variant generator = (.ok name, reached) ∧
          generator.Grows reached) ∨
      (¬ Servable signature variant ∧ ∃ error,
        entry access signature variant generator = (.error error, generator)) := by
  cases htypes : entryTypes signature variant with
  | error error =>
      refine .inr ⟨?_, .grammar error, ?_⟩
      · rintro ⟨construct, types, hok, -⟩
        rw [htypes] at hok
        cases hok
      · rw [entry, htypes]
        rfl
  | ok described =>
      obtain ⟨construct, types⟩ := described
      rcases answered_entry access hsound htypes with
        ⟨hmap, reached, hrun, hgrows, -⟩ | ⟨hmap, hrun⟩
      · exact .inl ⟨⟨construct, types, htypes, hmap⟩, _, reached, hrun, hgrows⟩
      · refine .inr ⟨?_, .doubleMapKey, hrun⟩
        rintro ⟨otherConstruct, others, hok, hothers⟩
        rw [htypes] at hok
        cases hok
        exact hmap hothers

end Generator

end BusCodec
