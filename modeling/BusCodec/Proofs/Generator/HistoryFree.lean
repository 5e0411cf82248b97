import BusCodec.CommandLine
import BusCodec.Proofs.Generator.Independence

/-!
Sessions have no history.  What a request is answered does not depend on the requests
before it, and what is registered in the end is the union of what each of them registers
by itself.
-/

namespace BusCodec

/-- Whether what was requested has been generated.  Of interfaces, the reports say it. -/
def Answer.isMet : Answer → Bool
  | .entry (.error _) | .callee (.error _) => false
  | _ => true

namespace Action

/-- The answer of a new generator. -/
def answer (policy : MapPolicy) (action : Action) : Answer :=
  ((Generator.fresh policy).perform action).1

/-- What a new generator has registered when it has answered. -/
def registered (policy : MapPolicy) (action : Action) : Registry :=
  ((Generator.fresh policy).perform action).2.registry

def isMet (policy : MapPolicy) (action : Action) : Bool :=
  (action.answer policy).isMet

end Action

namespace Request

def action (request : Request) : Action :=
  .entry request.access request.signature request.variant

/-- The requests that are made one after the other, up to the first one that fails. -/
def upToFailure (policy : MapPolicy) : List Request → List Action
  | [] => []
  | request :: requests =>
      request.action :: if request.action.isMet policy then upToFailure policy requests else []

end Request

def Member.actions (policy : MapPolicy) (member : Member) : List Action :=
  match member.requests with
  | .error _ => []
  | .ok requests => Request.upToFailure policy requests

/-- The single requests that a request comes down to. -/
def Action.singles (policy : MapPolicy) : Action → List Action
  | .interfaces described =>
      described.flatMap fun interface => interface.members.flatMap (Member.actions policy)
  | action => [action]

namespace Request

/-- What a new generator makes of a request. -/
def outcome (policy : MapPolicy) (request : Request) : Except Error String :=
  (Generator.entry request.access request.signature request.variant (Generator.fresh policy)).1

/-- The names that new generators give to requests, up to the first one that fails, and
the error of that one. -/
def outcomes (policy : MapPolicy) : List Request → List String × Option Error
  | [] => ([], none)
  | request :: requests =>
      match request.outcome policy with
      | .error error => ([], some error)
      | .ok name => (name :: (outcomes policy requests).1, (outcomes policy requests).2)

end Request

def Member.outcomes (policy : MapPolicy) (member : Member) : List String × Option Error :=
  match member.requests with
  | .error error => ([], some (.grammar error))
  | .ok requests => Request.outcomes policy requests

/-- The report on an interface for whose every request there is a new generator. -/
def Interface.report (policy : MapPolicy) (interface : Interface) : InterfaceReport where
  interface := interface.name
  entryPoints := interface.members.flatMap fun member => (member.outcomes policy).1
  failures := interface.members.flatMap fun member =>
    (member.outcomes policy).2.toList.map fun error => ⟨member.name, error⟩

namespace Generator

variable {generator : Generator} {policy : MapPolicy}

theorem performAll_cons (generator : Generator) (action : Action) (actions : List Action) :
    generator.performAll (action :: actions) =
      ((action, (generator.perform action).1) ::
          ((generator.perform action).2.performAll actions).1,
        ((generator.perform action).2.performAll actions).2) :=
  rfl

theorem performAll_append (generator : Generator) (actions others : List Action) :
    generator.performAll (actions ++ others) =
      ((generator.performAll actions).1 ++
          ((generator.performAll actions).2.performAll others).1,
        ((generator.performAll actions).2.performAll others).2) := by
  induction actions generalizing generator with
  | nil => rfl
  | cons action actions ih => simp only [List.cons_append, performAll_cons, ih]

/-- A request that is not met leaves the generator as it was. -/
theorem perform_of_not_met (hsound : generator.Sound) {action : Action}
    (hnot : (generator.perform action).1.isMet = false) :
    (generator.perform action).2 = generator := by
  cases action with
  | entry access signature variant =>
      rw [perform] at hnot ⊢
      rcases entry_cases hsound access signature variant with
        ⟨-, name, reached, hrun, -⟩ | ⟨-, error, hrun⟩
      · rw [hrun] at hnot
        cases hnot
      · rw [hrun]
  | callee access signature =>
      rw [perform] at hnot ⊢
      cases hparse : BusType.parse signature with
      | error error => rfl
      | ok type =>
          rw [hparse, Attempt.liftGrammar_ok_bind] at hnot
          rw [Attempt.liftGrammar_ok_bind]
          rcases answered_callee access type hsound (BusType.parse_eq_ok_iff.mp hparse).2 with
            ⟨-, reached, hrun, -⟩ | ⟨-, hrun⟩
          · rw [hrun] at hnot
            cases hnot
          · rw [hrun]
  | interfaces interfaces => cases hnot

theorem entry_fst (hsound : generator.Sound) (hpolicy : generator.policy = policy)
    (request : Request) :
    (entry request.access request.signature request.variant generator).1 =
      request.outcome policy := by
  have hresult :=
    (independent_entry request.access request.signature request.variant).result_eq hsound
  rw [hpolicy] at hresult
  exact hresult

theorem fulfil_eq (hsound : generator.Sound) (hpolicy : generator.policy = policy)
    (requests : List Request) :
    generator.fulfil requests = (Request.outcomes policy requests,
      (generator.performAll (Request.upToFailure policy requests)).2) := by
  induction requests generalizing generator with
  | nil => rfl
  | cons request requests ih =>
      have houtcome := entry_fst hsound hpolicy request
      have hgrows := perform_grows hsound request.action
      have hmet : request.action.isMet policy = (Answer.entry (request.outcome policy)).isMet :=
        rfl
      rw [Request.action, perform] at hgrows
      rw [Request.upToFailure, performAll_cons, hmet, Request.action, perform]
      simp only [fulfil, Request.outcomes]
      cases hrun : entry request.access request.signature request.variant generator with
      | mk outcome reached =>
          rw [hrun] at houtcome hgrows
          rw [← houtcome]
          cases outcome with
          | error error => rfl
          | ok name =>
              simp only [ih hgrows.sound (hgrows.policy_eq.trans hpolicy)]
              rfl

theorem processMember_eq (hsound : generator.Sound) (hpolicy : generator.policy = policy)
    (member : Member) :
    generator.processMember member = (member.outcomes policy,
      (generator.performAll (member.actions policy)).2) := by
  rw [processMember, Member.outcomes, Member.actions]
  cases member.requests with
  | error error => rfl
  | ok requests => exact fulfil_eq hsound hpolicy requests

theorem processMembers_eq (hsound : generator.Sound) (hpolicy : generator.policy = policy)
    (members : List Member) :
    generator.processMembers members =
      ((members.flatMap fun member => (member.outcomes policy).1,
        members.flatMap fun member =>
          (member.outcomes policy).2.toList.map fun error => ⟨member.name, error⟩),
        (generator.performAll (members.flatMap (Member.actions policy))).2) := by
  induction members generalizing generator with
  | nil => rfl
  | cons member members ih =>
      have hgrows := performAll_grows hsound (member.actions policy)
      have hrest := ih hgrows.sound (hgrows.policy_eq.trans hpolicy)
      simp only [processMembers, processMember_eq hsound hpolicy, hrest, List.flatMap_cons,
        performAll_append]

theorem processInterfaces_eq (hsound : generator.Sound) (hpolicy : generator.policy = policy)
    (interfaces : List Interface) :
    generator.processInterfaces interfaces = (interfaces.map (Interface.report policy),
      (generator.performAll (Action.singles policy (.interfaces interfaces))).2) := by
  induction interfaces generalizing generator with
  | nil => rfl
  | cons interface interfaces ih =>
      have hgrows := performAll_grows hsound
        (interface.members.flatMap (Member.actions policy))
      have hrest := ih hgrows.sound (hgrows.policy_eq.trans hpolicy)
      simp only [Action.singles] at hrest ⊢
      simp only [processInterfaces, processInterface, processMembers_eq hsound hpolicy, hrest,
        List.flatMap_cons, performAll_append, List.map_cons]
      rfl

/-- A request is answered as by a new generator, and leads where its single requests lead. -/
theorem perform_eq (hsound : generator.Sound) (hpolicy : generator.policy = policy)
    (action : Action) :
    generator.perform action = (action.answer policy,
      (generator.performAll (action.singles policy)).2) := by
  cases action with
  | entry access signature variant =>
      have houtcome := entry_fst hsound hpolicy ⟨access, signature, variant⟩
      exact Prod.ext (congrArg Answer.entry houtcome) rfl
  | callee access signature =>
      have hresult := (independent_perform_callee access signature).result_eq hsound
      rw [hpolicy] at hresult
      exact Prod.ext hresult rfl
  | interfaces interfaces =>
      rw [Action.answer, perform, perform, processInterfaces_eq hsound hpolicy,
        processInterfaces_eq (sound_fresh policy) (policy_fresh policy)]

theorem performAll_eq (hsound : generator.Sound) (hpolicy : generator.policy = policy)
    (actions : List Action) :
    generator.performAll actions = (actions.map fun action => (action, action.answer policy),
      (generator.performAll (actions.flatMap (Action.singles policy))).2) := by
  induction actions generalizing generator with
  | nil => rfl
  | cons action actions ih =>
      have hgrows := performAll_grows hsound (action.singles policy)
      have hrest := ih hgrows.sound (hgrows.policy_eq.trans hpolicy)
      simp only [performAll_cons, perform_eq hsound hpolicy, hrest, List.flatMap_cons,
        performAll_append, List.map_cons]

theorem exists_of_mem_upToFailure {requests : List Request} {action : Action}
    (h : action ∈ Request.upToFailure policy requests) :
    ∃ request : Request, action = request.action := by
  induction requests with
  | nil => cases h
  | cons request requests ih =>
      rw [Request.upToFailure] at h
      rcases List.mem_cons.mp h with rfl | hrest
      · exact ⟨request, rfl⟩
      · split at hrest
        · exact ih hrest
        · cases hrest

theorem independent_of_mem_singles {action single : Action}
    (h : single ∈ action.singles policy) :
    Independent fun generator => generator.perform single := by
  cases action with
  | entry access signature variant =>
      rw [List.mem_singleton.mp h]
      exact independent_perform_entry access signature variant
  | callee access signature =>
      rw [List.mem_singleton.mp h]
      exact independent_perform_callee access signature
  | interfaces interfaces =>
      obtain ⟨interface, -, hinterface⟩ := List.mem_flatMap.mp h
      obtain ⟨member, -, hmember⟩ := List.mem_flatMap.mp hinterface
      rw [Member.actions] at hmember
      split at hmember
      · cases hmember
      · obtain ⟨request, rfl⟩ := exists_of_mem_upToFailure hmember
        exact independent_perform_entry request.access request.signature request.variant

theorem get?_performAll_iff {actions : List Action} (hsound : generator.Sound)
    (hpolicy : generator.policy = policy)
    (hactions : ∀ action ∈ actions, Independent fun generator => generator.perform action)
    (access : Access) (name : String) (procedure : Procedure) :
    (generator.performAll actions).2.registry.get? access name = some procedure ↔
      generator.registry.get? access name = some procedure ∨
        ∃ action ∈ actions, (action.registered policy).get? access name = some procedure := by
  induction actions generalizing generator with
  | nil => simp [performAll]
  | cons action actions ih =>
      have hgrows := perform_grows hsound action
      rw [List.forall_mem_cons] at hactions
      have hfirst := hactions.1.get?_iff hsound access name procedure
      rw [hpolicy] at hfirst
      rw [performAll_cons, ih hgrows.sound (hgrows.policy_eq.trans hpolicy) hactions.2, hfirst]
      simp [Action.registered, or_assoc]

/-- A new generator and what it answers to requests, one after the other. -/
def session (policy : MapPolicy) (actions : List Action) : List (Action × Answer) × Generator :=
  performAll (fresh policy) actions

/-- Two sequences of requests come down to the same single requests, apart from their order,
from repetitions and from requests that fail. -/
def SameRequests (policy : MapPolicy) (actions others : List Action) : Prop :=
  ∀ action : Action, action.isMet policy = true →
    (action ∈ actions.flatMap (Action.singles policy) ↔
      action ∈ others.flatMap (Action.singles policy))

/-- What comes of the requests of a session does not depend on one another. -/
structure HistoryFree (policy : MapPolicy) (actions : List Action) : Prop where
  /-- Each request is answered as by a new generator. -/
  answers_eq : (session policy actions).1 =
    actions.map fun action => (action, action.answer policy)
  /-- So is each single request made for an interface, and the report is put together
  from the answers. -/
  reports_eq : ∀ interfaces, Action.answer policy (.interfaces interfaces) =
    .interfaces (interfaces.map (Interface.report policy))
  /-- Making the single requests one by one ends in the same state. -/
  singles_eq : session policy (actions.flatMap (Action.singles policy)) =
    ((actions.flatMap (Action.singles policy)).map fun action =>
      (action, action.answer policy), (session policy actions).2)
  /-- An entry request registers the procedure that it names, unless its signature is none
  or has no native counterpart. -/
  served : ∀ access signature variant,
    (∃ name procedure,
      Action.answer policy (.entry access signature variant) = .entry (.ok name) ∧
        (Action.registered policy (.entry access signature variant)).get? access name =
          some procedure) ↔ Servable signature variant
  /-- A request that fails leaves the generator as it was. -/
  keeps : ∀ action : Action, action.isMet policy = false →
    ((session policy actions).2.perform action).2 = (session policy actions).2
  /-- Registered is what new generators register that are asked for one of the single
  requests and do not fail. -/
  get?_iff : ∀ access name procedure,
    (session policy actions).2.registry.get? access name = some procedure ↔
      ∃ action ∈ actions.flatMap (Action.singles policy), action.isMet policy = true ∧
        (action.registered policy).get? access name = some procedure
  /-- New generators never register different procedures under one name. -/
  agree : ∀ (first second : Action) access name p q,
    (first.registered policy).get? access name = some p →
      (second.registered policy).get? access name = some q → p = q
  /-- Order, repetition and requests that fail do not matter. -/
  unordered : ∀ others, SameRequests policy actions others →
    (session policy others).2 = (session policy actions).2

theorem session_eq (policy : MapPolicy) (actions : List Action) :
    session policy actions = (actions.map fun action => (action, action.answer policy),
      (session policy (actions.flatMap (Action.singles policy))).2) :=
  performAll_eq (sound_fresh policy) (policy_fresh policy) actions

theorem session_grows (policy : MapPolicy) (actions : List Action) :
    (fresh policy).Grows (session policy actions).2 :=
  performAll_grows (sound_fresh policy) actions

theorem eq_of_registry_eq {first second : Generator} (hpolicy : first.policy = second.policy)
    (hregistry : first.registry = second.registry) : first = second := by
  cases first
  cases second
  cases hpolicy
  cases hregistry
  rfl

theorem registered_of_not_met {action : Action} (hnot : action.isMet policy = false) :
    action.registered policy = {} := by
  rw [Action.registered, perform_of_not_met (sound_fresh policy) hnot]
  rfl

theorem served_iff (policy : MapPolicy) (access : Access) (signature : String)
    (variant : Bool) :
    (∃ name procedure,
      Action.answer policy (.entry access signature variant) = .entry (.ok name) ∧
        (Action.registered policy (.entry access signature variant)).get? access name =
          some procedure) ↔ Servable signature variant := by
  constructor
  · rintro ⟨name, procedure, hanswer, -⟩
    rcases entry_cases (sound_fresh policy) access signature variant with
      ⟨hservable, -⟩ | ⟨-, error, hrun⟩
    · exact hservable
    · rw [Action.answer, perform, hrun] at hanswer
      cases hanswer
  · rintro ⟨construct, types, htypes, hmap⟩
    obtain ⟨reached, hrun, -, hregistered⟩ :=
      (answered_entry access (sound_fresh policy) htypes).ok hmap
    obtain ⟨procedure, hget⟩ := Registry.contains_eq_true_iff.mp hregistered
    refine ⟨procedureName access construct signature, procedure, ?_, ?_⟩
    · rw [Action.answer, perform, hrun]
    · rw [Action.registered, perform, hrun]
      exact hget

theorem closed_registered (policy : MapPolicy) (action : Action) :
    Registry.Closed policy (action.registered policy) := by
  have hgrows := perform_grows (sound_fresh policy) action
  have hsound := hgrows.sound
  rw [Sound, hgrows.policy_eq] at hsound
  exact hsound

theorem get?_session_iff (policy : MapPolicy) (actions : List Action) (access : Access)
    (name : String) (procedure : Procedure) :
    (session policy actions).2.registry.get? access name = some procedure ↔
      ∃ action ∈ actions.flatMap (Action.singles policy), action.isMet policy = true ∧
        (action.registered policy).get? access name = some procedure := by
  have hlast := congrArg Prod.snd (session_eq policy actions)
  have hsingles : ∀ action ∈ actions.flatMap (Action.singles policy),
      Independent fun generator => generator.perform action := by
    intro action hmem
    obtain ⟨whole, -, hwhole⟩ := List.mem_flatMap.mp hmem
    exact independent_of_mem_singles hwhole
  rw [hlast, session,
    get?_performAll_iff (sound_fresh policy) (policy_fresh policy) hsingles]
  constructor
  · rintro (hnone | ⟨action, hmem, hget⟩)
    · simp at hnone
    · refine ⟨action, hmem, ?_, hget⟩
      -- A new generator is still empty when a request has failed.
      cases hmet : action.isMet policy with
      | true => rfl
      | false =>
          rw [registered_of_not_met hmet, Registry.get?_empty] at hget
          cases hget
  · rintro ⟨action, hmem, -, hget⟩
    exact .inr ⟨action, hmem, hget⟩

theorem historyFree (policy : MapPolicy) (actions : List Action) :
    HistoryFree policy actions where
  answers_eq := congrArg Prod.fst (session_eq policy actions)
  reports_eq := by
    intro interfaces
    rw [Action.answer, perform, processInterfaces_eq (sound_fresh policy) (policy_fresh policy)]
  singles_eq := by
    have hfirst := congrArg Prod.fst
      (session_eq policy (actions.flatMap (Action.singles policy)))
    have hlast := congrArg Prod.snd (session_eq policy actions)
    exact Prod.ext hfirst hlast.symm
  served := served_iff policy
  keeps := by
    intro action hnot
    have hgrows := session_grows policy actions
    apply perform_of_not_met hgrows.sound
    rw [perform_eq hgrows.sound hgrows.policy_eq]
    exact hnot
  get?_iff := get?_session_iff policy actions
  agree := by
    intro first second access name p q hp hq
    exact (closed_registered policy first).eq_of_get? (closed_registered policy second) hp hq
  unordered := by
    intro others hsame
    have hregistry : (session policy others).2.registry = (session policy actions).2.registry := by
      apply Registry.ext_get?
      intro access name procedure
      rw [get?_session_iff, get?_session_iff]
      constructor
      · rintro ⟨action, hmem, hmet, hget⟩
        exact ⟨action, (hsame action hmet).mpr hmem, hmet, hget⟩
      · rintro ⟨action, hmem, hmet, hget⟩
        exact ⟨action, (hsame action hmet).mp hmem, hmet, hget⟩
    have hpolicy := (session_grows policy others).policy_eq.trans
      (session_grows policy actions).policy_eq.symm
    exact eq_of_registry_eq hpolicy hregistry

end Generator

namespace CommandLine

open Generator (session SameRequests)

/-- The requests of a run, in their order. -/
def actions (options : Options) (interfaces : List Interface) : List Action :=
  options.reads.map (Action.entry .read · false) ++
    options.writes.map (Action.entry .write · false) ++ [.interfaces interfaces]

/-- What a run says about a request and its answer. -/
def messages : Action × Answer → List String
  | (.entry access signature _, .entry (.error error)) =>
      [s!"[ERROR] --{access.word} {signature}: {error.message}"]
  | (_, .interfaces reports) => reports.flatMap reportMessages
  | _ => []

/-- What a run does when its requests have been answered. -/
def conclude (answered : List (Action × Answer) × Generator) : Outcome :=
  let messages := answered.1.flatMap messages
  let module := SourceText.module answered.2.registry
  if messages.isEmpty then ⟨0, [], some module⟩
  else
    let summary := s!"Error: {messages.length} signatures could not be generated"
    ⟨1, messages ++ [summary], some module⟩

theorem generateAll_eq (access : Access) (generator : Generator) (signatures : List String) :
    generateAll access generator signatures =
      ((generator.performAll (signatures.map (Action.entry access · false))).1.flatMap messages,
        (generator.performAll (signatures.map (Action.entry access · false))).2) := by
  induction signatures generalizing generator with
  | nil => rfl
  | cons signature signatures ih =>
      rw [List.map_cons, Generator.performAll_cons, List.flatMap_cons]
      simp only [generateAll, ih, Generator.perform]
      cases generator.entry access signature false with
      | mk outcome reached => cases outcome <;> rfl

/-- A run asks its generator for what the command line says, and for nothing else. -/
theorem generate_eq (options : Options) (interfaces : List Interface) :
    generate options interfaces =
      conclude (session (mapPolicy options.orderedMaps) (actions options interfaces)) := by
  have hreports : ∀ generator : Generator,
      generator.performAll [.interfaces interfaces] =
        ([(.interfaces interfaces, .interfaces (generator.processInterfaces interfaces).1)],
          (generator.processInterfaces interfaces).2) := fun _ => rfl
  rw [generate, session, actions]
  simp only [Generator.performAll_append, generateAll_eq, hreports, conclude,
    List.flatMap_append, List.flatMap_singleton, messages]
  rfl

theorem module_conclude (answered : List (Action × Answer) × Generator) :
    (conclude answered).module = some (SourceText.module answered.2.registry) := by
  simp only [conclude]
  split <;> rfl

end CommandLine

/-- The outcome of a session, and of a run of the command, does not depend on the order of
the requests, on their repetition or on those that fail. -/
theorem sessions_historyFree :
    (∀ policy actions, Generator.HistoryFree policy actions) ∧
      (∀ options interfaces, CommandLine.generate options interfaces =
        CommandLine.conclude (Generator.session (CommandLine.mapPolicy options.orderedMaps)
          (CommandLine.actions options interfaces))) ∧
      ∀ options other interfaces others, other.orderedMaps = options.orderedMaps →
        Generator.SameRequests (CommandLine.mapPolicy options.orderedMaps)
          (CommandLine.actions options interfaces) (CommandLine.actions other others) →
        (CommandLine.generate other others).module =
          (CommandLine.generate options interfaces).module := by
  refine ⟨Generator.historyFree, CommandLine.generate_eq, ?_⟩
  intro options other interfaces others hmaps hsame
  have hlast := (Generator.historyFree _ _).unordered _ hsame
  rw [CommandLine.generate_eq, CommandLine.generate_eq, CommandLine.module_conclude,
    CommandLine.module_conclude, hmaps, hlast]

end BusCodec
