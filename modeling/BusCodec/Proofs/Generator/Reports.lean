import BusCodec.Proofs.Generator.Acceptance
import BusCodec.Proofs.Generator.HistoryFree
import Mathlib.Data.List.Forall2

/-!
Reports on interfaces.  A report is put together from what each member yields by itself in
a new session, whatever the session has generated before and whichever maps it prefers.
What a report names is registered, and asking for the same interfaces again gives the same
reports and registers nothing.
-/

namespace BusCodec

/-- What a member yields by itself in a new session: the names of its entry procedures, and
its failure if there is one. -/
def Member.alone (policy : MapPolicy) (member : Member) :
    List String × List MemberFailure :=
  ((Generator.fresh policy).processMembers [member]).1

/-- A report on an interface that lists what each of its members yields by itself, the
methods first, then the signals and the properties. -/
structure InterfaceReport.Composed (policy : MapPolicy) (interface : Interface)
    (report : InterfaceReport) : Prop where
  name_eq : report.interface = interface.name
  entryPoints_eq : report.entryPoints =
    (interface.methods.map Member.method ++ interface.signals.map Member.signal ++
      interface.properties.map Member.property).flatMap fun member => (member.alone policy).1
  failures_eq : report.failures =
    (interface.methods.map Member.method ++ interface.signals.map Member.signal ++
      interface.properties.map Member.property).flatMap fun member => (member.alone policy).2

namespace Generator

variable {generator other : Generator} {policy : MapPolicy}

/-- The procedure that a request asks for is registered under a name. -/
def Serves (generator : Generator) (request : Request) (name : String) : Prop :=
  name = entryName request.access request.signature request.variant ∧
    ∃ types procedure, generator.registry.get? request.access name = some procedure ∧
      procedure.HandlesMessage generator.policy request.access request.signature
        request.variant types

/-- Neither what was generated before nor the choice of maps decides what a request for an
entry procedure is answered. -/
theorem entry_fst_eq (hsound : generator.Sound) (hother : other.Sound) (request : Request) :
    (entry request.access request.signature request.variant generator).1 =
      (entry request.access request.signature request.variant other).1 := by
  cases hrun : (entry request.access request.signature request.variant generator).1 with
  | ok name => exact ((entry_eq_ok_iff hother).mpr ((entry_eq_ok_iff hsound).mp hrun)).symm
  | error error =>
      exact ((entry_eq_error_iff hother).mpr ((entry_eq_error_iff hsound).mp hrun)).symm

theorem fulfil_fst_eq (hsound : generator.Sound) (hother : other.Sound)
    (requests : List Request) : (generator.fulfil requests).1 = (other.fulfil requests).1 := by
  induction requests generalizing generator other with
  | nil => rfl
  | cons request requests ih =>
      have hentry := entry_fst_eq hsound hother request
      rw [fulfil, fulfil]
      rcases entry_cases hsound request.access request.signature request.variant with
        ⟨-, name, reached, hrun, hgrows⟩ | ⟨-, error, hrun⟩
      · rcases entry_cases hother request.access request.signature request.variant with
          ⟨-, otherName, last, hotherRun, hotherGrows⟩ | ⟨-, error, hotherRun⟩
        · rw [hrun, hotherRun] at hentry
          cases hentry
          rw [hrun, hotherRun]
          simp only [ih hgrows.sound hotherGrows.sound]
        · rw [hrun, hotherRun] at hentry
          cases hentry
      · rcases entry_cases hother request.access request.signature request.variant with
          ⟨-, otherName, last, hotherRun, -⟩ | ⟨-, otherError, hotherRun⟩
        · rw [hrun, hotherRun] at hentry
          cases hentry
        · rw [hrun, hotherRun] at hentry
          cases hentry
          rw [hrun, hotherRun]

theorem processMember_fst_eq (hsound : generator.Sound) (hother : other.Sound)
    (member : Member) :
    (generator.processMember member).1 = (other.processMember member).1 := by
  rw [processMember, processMember]
  cases member.requests with
  | error error => rfl
  | ok requests => exact fulfil_fst_eq hsound hother requests

/-- Members contribute to a report, one after the other, what they yield by themselves. -/
theorem processMembers_fst_eq (hsound : generator.Sound) (policy : MapPolicy)
    (members : List Member) :
    (generator.processMembers members).1 =
      (members.flatMap fun member => (member.alone policy).1,
        members.flatMap fun member => (member.alone policy).2) := by
  induction members generalizing generator with
  | nil => rfl
  | cons member members ih =>
      have hgrows := processMember_grows hsound member
      have hown := processMember_fst_eq hsound (sound_fresh policy) member
      simp only [processMembers, ih hgrows.sound, List.flatMap_cons, Member.alone, hown,
        List.append_nil]

theorem composed_processInterfaces (hsound : generator.Sound) (policy : MapPolicy)
    (interfaces : List Interface) :
    List.Forall₂ (InterfaceReport.Composed policy) interfaces
      (generator.processInterfaces interfaces).1 := by
  induction interfaces generalizing generator with
  | nil => exact .nil
  | cons interface interfaces ih =>
      have hmembers := processMembers_fst_eq hsound policy interface.members
      have hgrows := processMembers_grows hsound interface.members
      refine .cons ⟨rfl, ?_, ?_⟩ (ih hgrows.sound)
      · exact congrArg Prod.fst hmembers
      · exact congrArg Prod.snd hmembers

theorem exists_request_of_mem_outcomes {requests : List Request} {name : String}
    (h : name ∈ (Request.outcomes policy requests).1) :
    ∃ request ∈ requests, request.outcome policy = .ok name ∧
      request.action ∈ Request.upToFailure policy requests := by
  induction requests with
  | nil => cases h
  | cons request requests ih =>
      rw [Request.outcomes] at h
      rw [Request.upToFailure]
      cases houtcome : request.outcome policy with
      | error error =>
          rw [houtcome] at h
          cases h
      | ok first =>
          rw [houtcome] at h
          have hmet : request.action.isMet policy = true := by
            change (Answer.entry (request.outcome policy)).isMet = true
            rw [houtcome]
            rfl
          rcases List.mem_cons.mp h with rfl | hrest
          · exact ⟨request, List.mem_cons_self, houtcome, List.mem_cons_self⟩
          · obtain ⟨later, hlater, hname, haction⟩ := ih hrest
            refine ⟨later, List.mem_cons_of_mem _ hlater, hname, ?_⟩
            rw [hmet, if_pos rfl]
            exact List.mem_cons_of_mem _ haction

/-- What single requests are answered with a name for is registered when all of them have
been made. -/
theorem serves_of_mem {actions : List Action} {request : Request} {name : String}
    (hsound : generator.Sound) (hpolicy : generator.policy = policy)
    (hmem : request.action ∈ actions) (hname : request.outcome policy = .ok name) :
    (generator.performAll actions).2.Serves request name := by
  have hanswer : request.action.answer policy = .entry (.ok name) :=
    congrArg Answer.entry hname
  have htranscript : (request.action, Answer.entry (.ok name)) ∈
      (generator.performAll actions).1 := by
    rw [performAll_eq hsound hpolicy, List.mem_map]
    exact ⟨request.action, hmem, by rw [hanswer]⟩
  obtain ⟨construct, types, procedure, -, hget, hhandles, -⟩ :=
    handlesMessage_of_mem hsound htranscript
  exact ⟨((entry_eq_ok_iff (sound_fresh policy)).mp hname).2, types, procedure, hget, hhandles⟩

theorem serves_of_mem_report (hsound : generator.Sound) (hpolicy : generator.policy = policy)
    {interfaces : List Interface} {interface : Interface} (hinterface : interface ∈ interfaces)
    {name : String} (hname : name ∈ (Interface.report policy interface).entryPoints) :
    ∃ member ∈ interface.members, ∃ requests request, member.requests = .ok requests ∧
      request ∈ requests ∧ (generator.processInterfaces interfaces).2.Serves request name := by
  obtain ⟨member, hmember, hyields⟩ := List.mem_flatMap.mp hname
  rw [Member.outcomes] at hyields
  cases hrequests : member.requests with
  | error error =>
      rw [hrequests] at hyields
      cases hyields
  | ok requests =>
      rw [hrequests] at hyields
      obtain ⟨request, hrequest, houtcome, haction⟩ := exists_request_of_mem_outcomes hyields
      refine ⟨member, hmember, requests, request, hrequests, hrequest, ?_⟩
      rw [processInterfaces_eq hsound hpolicy]
      refine serves_of_mem hsound hpolicy ?_ houtcome
      refine List.mem_flatMap.mpr ⟨interface, hinterface, ?_⟩
      refine List.mem_flatMap.mpr ⟨member, hmember, ?_⟩
      rwa [Member.actions, hrequests]

/-- Making the same independent requests again changes nothing. -/
theorem performAll_again (hsound : generator.Sound) {actions : List Action}
    (hactions : ∀ action ∈ actions, Independent fun generator => generator.perform action) :
    ((generator.performAll actions).2.performAll actions).2 =
      (generator.performAll actions).2 := by
  have hgrows := performAll_grows hsound actions
  have hagain := performAll_grows hgrows.sound actions
  refine eq_of_registry_eq hagain.policy_eq (Registry.ext_get? fun access name procedure => ?_)
  rw [get?_performAll_iff hgrows.sound hgrows.policy_eq hactions,
    get?_performAll_iff hsound rfl hactions, or_assoc, or_self]

/-- The reports on interfaces are, one by one, what their members yield by themselves in new
sessions, whatever was generated before.  The entry procedures that a report names are
registered for the requests of its members, and generating the same interfaces again gives
the same reports and leaves the generator as it is. -/
theorem processInterfaces_composed (hreachable : generator.Reachable)
    (interfaces : List Interface) :
    (∀ policy, List.Forall₂ (InterfaceReport.Composed policy) interfaces
        (generator.processInterfaces interfaces).1) ∧
      List.Forall₂ (fun interface report => ∀ name ∈ report.entryPoints,
          ∃ member ∈ interface.members, ∃ requests request, member.requests = .ok requests ∧
            request ∈ requests ∧ (generator.processInterfaces interfaces).2.Serves request name)
        interfaces (generator.processInterfaces interfaces).1 ∧
      (generator.processInterfaces interfaces).2.processInterfaces interfaces =
        generator.processInterfaces interfaces := by
  have hsound := hreachable.sound
  have hgrows := processInterfaces_grows hsound interfaces
  have hrun := processInterfaces_eq hsound rfl interfaces
  refine ⟨fun policy => composed_processInterfaces hsound policy interfaces, ?_, ?_⟩
  · rw [congrArg Prod.fst hrun, List.forall₂_map_right_iff, List.forall₂_same]
    intro interface hinterface name hname
    exact serves_of_mem_report hsound rfl hinterface hname
  · have hindependent : ∀ action ∈ Action.singles generator.policy (.interfaces interfaces),
        Independent fun generator => generator.perform action :=
      fun action hmem => independent_of_mem_singles hmem
    rw [processInterfaces_eq hgrows.sound hgrows.policy_eq, hrun]
    exact Prod.ext rfl (performAll_again hsound hindependent)

/-- An interface described twice, one of whose methods fails when its input has been
generated. -/
theorem processInterfaces_composed_split :
    let reached := (performAll {} [.entry .read "u" true]).2
    let interface : Interface := ⟨"org.example.Split", [⟨"Split",
      [⟨none, "i", some .input⟩, ⟨none, "a\x7bdi\x7d", some .output⟩]⟩], [],
      [⟨"Level", "u", .readWrite⟩]⟩
    let report : InterfaceReport := ⟨"org.example.Split",
      ["write_message_i", "read_message_v_u", "write_message_v_u"], [⟨"Split", .doubleMapKey⟩]⟩
    (∀ policy, List.Forall₂ (InterfaceReport.Composed policy) [interface, interface]
        [report, report]) ∧
      (reached.processInterfaces [interface, interface]).2.processInterfaces
          [interface, interface] = reached.processInterfaces [interface, interface] := by
  intro reached interface report
  have hreachable : reached.Reachable := ⟨fun _ => .hashed, [.entry .read "u" true], rfl⟩
  have hreports : (reached.processInterfaces [interface, interface]).1 = [report, report] := by
    rfl
  obtain ⟨hcomposed, -, hagain⟩ := processInterfaces_composed hreachable [interface, interface]
  rw [hreports] at hcomposed
  exact ⟨hcomposed, hagain⟩

end Generator

end BusCodec
