import BusCodec.Proofs.Generator.Extent
import BusCodec.Proofs.Generator.Session

/-!
Requests that do not depend on the requests before.
-/

namespace BusCodec

namespace Generator

def fresh (policy : MapPolicy) : Generator :=
  ⟨policy, {}⟩

@[simp] theorem policy_fresh (policy : MapPolicy) : (fresh policy).policy = policy :=
  rfl

theorem sound_fresh (policy : MapPolicy) : (fresh policy).Sound :=
  sound_start policy

@[simp] theorem get?_fresh (policy : MapPolicy) (access : Access) (name : String) :
    (fresh policy).registry.get? access name = none :=
  Registry.get?_empty access name

/-- A step that gives the same result whatever was generated before, and adds to it what
a new generator generates. -/
structure Independent {ρ : Type} (step : Generator → ρ × Generator) : Prop where
  result_eq : ∀ {generator : Generator}, generator.Sound →
    (step generator).1 = (step (fresh generator.policy)).1
  get?_iff : ∀ {generator : Generator}, generator.Sound → ∀ access name procedure,
    (step generator).2.registry.get? access name = some procedure ↔
      generator.registry.get? access name = some procedure ∨
        (step (fresh generator.policy)).2.registry.get? access name = some procedure

variable {ρ τ : Type} {step : Generator → ρ × Generator}

theorem independent_keep (result : ρ) : Independent fun generator => (result, generator) where
  result_eq _ := rfl
  get?_iff := by simp

theorem Independent.map (h : Independent step) (f : ρ → τ) :
    Independent fun generator => (f (step generator).1, (step generator).2) where
  result_eq hsound := congrArg f (h.result_eq hsound)
  get?_iff := h.get?_iff

/-- A step is independent if it registers the same names every time, because a name
stands for the same procedure in all registries. -/
theorem independent_of_added (result : ρ) (added : Access → String → Prop)
    (hgrows : ∀ {generator : Generator}, generator.Sound → generator.Grows (step generator).2)
    (hresult : ∀ {generator : Generator}, generator.Sound → (step generator).1 = result)
    (honly : ∀ {generator : Generator}, generator.Sound → ∀ access name procedure,
      (step generator).2.registry.get? access name = some procedure →
        generator.registry.get? access name = some procedure ∨ added access name)
    (hadded : ∀ {generator : Generator}, generator.Sound → ∀ access name, added access name →
      ∃ procedure, (step generator).2.registry.get? access name = some procedure) :
    Independent step where
  result_eq hsound := by rw [hresult hsound, hresult (sound_fresh _)]
  get?_iff := by
    intro generator hsound access name procedure
    have hstart := sound_fresh generator.policy
    have hlater := (hgrows hsound).sound
    have hfirst := (hgrows hstart).sound
    rw [Sound, (hgrows hsound).policy_eq] at hlater
    rw [Sound, (hgrows hstart).policy_eq] at hfirst
    constructor
    · intro hget
      rcases honly hsound access name procedure hget with hold | hname
      · exact .inl hold
      · obtain ⟨found, hfound⟩ := hadded hstart access name hname
        rw [hlater.eq_of_get? hfirst hget hfound]
        exact .inr hfound
    · rintro (hold | hget)
      · exact (hgrows hsound).keeps _ _ _ hold
      · rcases honly hstart access name procedure hget with hnone | hname
        · simp at hnone
        · obtain ⟨found, hfound⟩ := hadded hsound access name hname
          rw [hfirst.eq_of_get? hlater hget hfound]
          exact hfound

theorem independent_of_answered {α : Type} {request : Generate α} {access : Access}
    {names : String → Prop} {possible : Prop} {answer : α} {provided : Registry → Prop}
    (hanswered : ∀ {generator : Generator}, generator.Sound →
      generator.Answered request possible answer provided)
    (honly : RegistersOnly access names request)
    (hnamed : ∀ {policy registry}, Registry.Closed policy registry → provided registry →
      ∀ name, names name → ∃ procedure, registry.get? access name = some procedure) :
    Independent fun generator => request generator := by
  by_cases hpossible : possible
  · have hrun : ∀ {generator : Generator}, generator.Sound → ∃ reached,
        request generator = (.ok answer, reached) ∧ generator.Grows reached ∧
          provided reached.registry := fun hsound => (hanswered hsound).ok hpossible
    refine independent_of_added (.ok answer) (fun other name => other = access ∧ names name)
      ?_ ?_ (fun _ => honly _) ?_
    · intro generator hsound
      obtain ⟨reached, hreached, hgrows, -⟩ := hrun hsound
      rw [hreached]
      exact hgrows
    · intro generator hsound
      obtain ⟨reached, hreached, -⟩ := hrun hsound
      rw [hreached]
    · rintro generator hsound other name ⟨rfl, hname⟩
      obtain ⟨reached, hreached, hgrows, hprovided⟩ := hrun hsound
      rw [hreached]
      exact hnamed hgrows.sound hprovided name hname
  · have hrun : ∀ {generator : Generator}, generator.Sound →
        request generator = (.error .doubleMapKey, generator) := by
      intro generator hsound
      rcases hanswered hsound with ⟨h, -⟩ | ⟨-, hrun⟩
      · exact absurd h hpossible
      · exact hrun
    constructor
    · intro generator hsound
      rw [hrun hsound, hrun (sound_fresh generator.policy)]
    · intro generator hsound other name procedure
      rw [hrun hsound, hrun (sound_fresh generator.policy)]
      simp

theorem independent_callee (access : Access) {type : BusType}
    (hlimits : BusType.WithinLimits [type]) :
    Independent fun generator => callee access type generator := by
  refine independent_of_answered (fun hsound => answered_callee access type hsound hlimits)
    (registersOnly_callee fun name hname => hname) ?_
  intro policy registry hclosed hprovides name hname
  exact hclosed.exists_get?_of_namesPart hprovides hname

theorem independent_entry (access : Access) (signature : String) (variant : Bool) :
    Independent fun generator => entry access signature variant generator := by
  cases htypes : entryTypes signature variant with
  | error error =>
      have hrun : entry access signature variant = Attempt.fail (.grammar error) := by
        rw [entry, htypes]
        rfl
      rw [hrun]
      exact independent_keep _
  | ok described =>
      obtain ⟨construct, types⟩ := described
      have honly : RegistersOnly access
          (fun name => name = procedureName access construct signature ∨
            ∃ type ∈ types, type.NamesPart access name) (entry access signature variant) :=
        registersOnly_entry htypes (.inl rfl) fun type htype name hname =>
          .inr ⟨type, htype, hname⟩
      refine independent_of_answered (fun hsound => answered_entry access hsound htypes)
        honly ?_
      intro policy registry hclosed hprovided name hname
      obtain ⟨procedure, hget⟩ := Registry.contains_eq_true_iff.mp hprovided
      rcases hname with rfl | ⟨type, htype, hname⟩
      · exact ⟨procedure, hget⟩
      · obtain ⟨-, hprovides⟩ := hclosed.handlesMessage_of_get? htypes hget
        exact hclosed.exists_get?_of_namesPart (hprovides type htype) hname

theorem independent_perform_entry (access : Access) (signature : String) (variant : Bool) :
    Independent fun generator => generator.perform (.entry access signature variant) :=
  (independent_entry access signature variant).map Answer.entry

theorem independent_perform_callee (access : Access) (signature : String) :
    Independent fun generator => generator.perform (.callee access signature) := by
  simp only [perform]
  cases hparse : BusType.parse signature with
  | error error => exact independent_keep (Answer.callee (.error (.grammar error)))
  | ok type =>
      have hlimits := (BusType.parse_eq_ok_iff.mp hparse).2
      exact (independent_callee access hlimits).map Answer.callee

end Generator

end BusCodec
