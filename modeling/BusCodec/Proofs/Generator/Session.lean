import BusCodec.Generator.Interfaces
import BusCodec.Proofs.Generator.Requests

/-!
Sessions: any requests to a generator in any order.  All of them keep it sound,
and whatever one of them was answered still holds at the end.
-/

namespace BusCodec

/-- A request to a generator. -/
inductive Action
  | entry (access : Access) (signature : String) (variant : Bool)
  /-- What to call for the one type that a text is the signature of. -/
  | callee (access : Access) (signature : String)
  | interfaces (interfaces : List Interface)

inductive Answer
  | entry (outcome : Except Error String)
  | callee (outcome : Except Error Callee)
  | interfaces (reports : List InterfaceReport)

namespace Generator

def perform (generator : Generator) : Action → Answer × Generator
  | .entry access signature variant =>
      let (outcome, reached) := entry access signature variant generator
      (.entry outcome, reached)
  | .callee access signature =>
      let request := Attempt.liftGrammar (BusType.parse signature) >>= callee access
      let (outcome, reached) := request generator
      (.callee outcome, reached)
  | .interfaces interfaces =>
      let (reports, reached) := generator.processInterfaces interfaces
      (.interfaces reports, reached)

/-- Answers requests one after the other.  The transcript lists each of them with
its answer. -/
def performAll (generator : Generator) : List Action → List (Action × Answer) × Generator
  | [] => ([], generator)
  | action :: actions =>
      let (answer, reached) := generator.perform action
      let (transcript, last) := reached.performAll actions
      ((action, answer) :: transcript, last)

/-- A generator that has answered some requests since it was made. -/
def Reachable (generator : Generator) : Prop :=
  ∃ policy actions, generator = (performAll ⟨policy, {}⟩ actions).2

variable {generator : Generator}

theorem fulfil_grows (hsound : generator.Sound) (requests : List Request) :
    generator.Grows (generator.fulfil requests).2 := by
  induction requests generalizing generator with
  | nil => exact hsound.grows
  | cons request requests ih =>
      rw [fulfil]
      rcases entry_cases hsound request.access request.signature request.variant with
        ⟨-, name, reached, hrun, hgrows⟩ | ⟨-, error, hrun⟩
      · rw [hrun]
        exact hgrows.trans (ih hgrows.sound)
      · rw [hrun]
        exact hsound.grows

theorem processMember_grows (hsound : generator.Sound) (member : Member) :
    generator.Grows (generator.processMember member).2 := by
  rw [processMember]
  cases member.requests with
  | error error => exact hsound.grows
  | ok requests => exact fulfil_grows hsound requests

theorem processMembers_grows (hsound : generator.Sound) (members : List Member) :
    generator.Grows (generator.processMembers members).2 := by
  induction members generalizing generator with
  | nil => exact hsound.grows
  | cons member members ih =>
      have hgrows := processMember_grows hsound member
      exact hgrows.trans (ih hgrows.sound)

theorem processInterfaces_grows (hsound : generator.Sound) (interfaces : List Interface) :
    generator.Grows (generator.processInterfaces interfaces).2 := by
  induction interfaces generalizing generator with
  | nil => exact hsound.grows
  | cons interface interfaces ih =>
      have hgrows : generator.Grows (generator.processInterface interface).2 :=
        processMembers_grows hsound interface.members
      exact hgrows.trans (ih hgrows.sound)

theorem perform_grows (hsound : generator.Sound) (action : Action) :
    generator.Grows (generator.perform action).2 := by
  cases action with
  | entry access signature variant =>
      rcases entry_cases hsound access signature variant with
        ⟨-, name, reached, hrun, hgrows⟩ | ⟨-, error, hrun⟩
      · rw [perform, hrun]
        exact hgrows
      · rw [perform, hrun]
        exact hsound.grows
  | callee access signature =>
      rw [perform]
      cases hparse : BusType.parse signature with
      | error error => exact hsound.grows
      | ok type =>
          have hlimits := (BusType.parse_eq_ok_iff.mp hparse).2
          rw [Attempt.liftGrammar_ok_bind]
          rcases answered_callee access type hsound hlimits with
            ⟨-, reached, hrun, hgrows, -⟩ | ⟨-, hrun⟩
          · rw [hrun]
            exact hgrows
          · rw [hrun]
            exact hsound.grows
  | interfaces interfaces => exact processInterfaces_grows hsound interfaces

theorem performAll_grows (hsound : generator.Sound) (actions : List Action) :
    generator.Grows (generator.performAll actions).2 := by
  induction actions generalizing generator with
  | nil => exact hsound.grows
  | cons action actions ih =>
      have hgrows := perform_grows hsound action
      exact hgrows.trans (ih hgrows.sound)

theorem sound_start (policy : MapPolicy) : Sound ⟨policy, {}⟩ :=
  Registry.closed_empty policy

theorem Reachable.sound (h : generator.Reachable) : generator.Sound := by
  obtain ⟨policy, actions, rfl⟩ := h
  exact (performAll_grows (sound_start policy) actions).sound

/-- Every answer in a transcript was given by a sound generator that has only
grown since. -/
theorem exists_perform_of_mem {actions : List Action} (hsound : generator.Sound)
    {action : Action} {answer : Answer}
    (hmem : (action, answer) ∈ (generator.performAll actions).1) :
    ∃ asked : Generator, asked.Sound ∧ (asked.perform action).1 = answer ∧
      (asked.perform action).2.Grows (generator.performAll actions).2 := by
  induction actions generalizing generator with
  | nil => cases hmem
  | cons first actions ih =>
      have hgrows := perform_grows hsound first
      rcases List.mem_cons.mp hmem with heq | hrest
      · cases heq
        exact ⟨generator, hsound, rfl, performAll_grows hgrows.sound actions⟩
      · exact ih hgrows.sound hrest

/-- An entry procedure that was named in an answer is registered at the end of the
session, with all that it calls. -/
theorem handlesMessage_of_mem {actions : List Action} (hsound : generator.Sound)
    {access : Access} {signature name : String} {variant : Bool}
    (hmem : (Action.entry access signature variant, Answer.entry (.ok name)) ∈
      (generator.performAll actions).1) :
    ∃ construct types procedure,
      entryTypes signature variant = .ok (construct, types) ∧
      (generator.performAll actions).2.registry.get? access name = some procedure ∧
      procedure.HandlesMessage (generator.performAll actions).2.policy access signature
        variant types ∧
      ∀ type ∈ types, (generator.performAll actions).2.registry.Provides access type := by
  obtain ⟨asked, hasked, hanswer, hgrows⟩ := exists_perform_of_mem hsound hmem
  cases htypes : entryTypes signature variant with
  | error error =>
      have hrun : entry access signature variant asked = (.error (.grammar error), asked) := by
        rw [entry, htypes]
        rfl
      rw [perform, hrun] at hanswer
      cases hanswer
  | ok described =>
      obtain ⟨construct, types⟩ := described
      rcases answered_entry access hasked htypes with
        ⟨hmap, reached, hrun, -, hregistered⟩ | ⟨-, hrun⟩
      · rw [perform, hrun] at hanswer hgrows
        cases hanswer
        obtain ⟨procedure, hget⟩ := Registry.contains_eq_true_iff.mp hregistered
        have hlast := hgrows.keeps _ _ _ hget
        obtain ⟨hhandles, hprovides⟩ := hgrows.sound.handlesMessage_of_get? htypes hlast
        exact ⟨construct, types, procedure, rfl, hlast, hhandles, hprovides⟩
      · rw [perform, hrun] at hanswer
        cases hanswer

end Generator

end BusCodec
