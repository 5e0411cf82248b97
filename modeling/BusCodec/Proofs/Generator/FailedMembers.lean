import BusCodec.Proofs.Generator.Session

/-!
Members that cannot be generated.  A member that fails leaves nothing behind, with
one exception: of a method whose outputs fail, the procedure for its inputs has been
generated by then, and it stays.
-/

namespace BusCodec

def Request.Servable (request : Request) : Prop :=
  Generator.Servable request.signature request.variant

/-- The inputs of a method can be generated and its outputs cannot, although each of
its arguments is one complete type. -/
def Member.HalfFails : Member → Prop
  | .method m => ∃ inputs outputs,
      Argument.bodySignature (m.arguments.filter fun a => !a.isOutput) = .ok inputs ∧
      Argument.bodySignature (m.arguments.filter Argument.isOutput) = .ok outputs ∧
      Generator.Servable inputs false ∧ outputs ≠ "" ∧ ¬ Generator.Servable outputs false
  | .signal _ | .property _ => False

namespace Generator

variable {generator : Generator}

theorem fulfil_failed_iff (hsound : generator.Sound) (requests : List Request) :
    (∃ error, (generator.fulfil requests).1.2 = some error) ↔
      ∃ request ∈ requests, ¬ request.Servable := by
  induction requests generalizing generator with
  | nil => simp [fulfil]
  | cons request requests ih =>
      rw [fulfil]
      rcases entry_cases hsound request.access request.signature request.variant with
        ⟨hservable, name, reached, hrun, hgrows⟩ | ⟨hnot, error, hrun⟩
      · rw [hrun]
        refine (ih hgrows.sound).trans ?_
        constructor
        · rintro ⟨other, hmem, hother⟩
          exact ⟨other, List.mem_cons_of_mem _ hmem, hother⟩
        · rintro ⟨other, hmem, hother⟩
          rcases List.mem_cons.mp hmem with rfl | hrest
          · exact absurd hservable hother
          · exact ⟨other, hrest, hother⟩
      · rw [hrun]
        exact ⟨fun _ => ⟨request, List.mem_cons_self, hnot⟩, fun _ => ⟨error, rfl⟩⟩

/-- Requests contribute nothing if the first of them cannot be served. -/
theorem fulfil_nothing_iff (hsound : generator.Sound) (request : Request)
    (requests : List Request) :
    ((generator.fulfil (request :: requests)).1.1 = [] ∧
        (generator.fulfil (request :: requests)).2.registry = generator.registry) ↔
      ¬ request.Servable := by
  rw [fulfil]
  rcases entry_cases hsound request.access request.signature request.variant with
    ⟨hservable, name, reached, hrun, -⟩ | ⟨hnot, error, hrun⟩
  · rw [hrun]
    constructor
    · rintro ⟨hnames, -⟩
      cases hnames
    · intro hnot
      exact absurd hservable hnot
  · rw [hrun]
    exact ⟨fun _ => hnot, fun _ => ⟨rfl, rfl⟩⟩

theorem not_servable_empty (variant : Bool) : ¬ Servable "" variant := by
  rintro ⟨construct, types, htypes, -⟩
  obtain ⟨hparse, hne, -⟩ := entryTypes_eq_ok_iff.mp htypes
  have hempty : BusType.parseAll "" = .ok [] := rfl
  rw [hempty] at hparse
  cases hparse
  exact hne rfl

theorem forBody_of_servable {signature : String} (access : Access)
    (h : Servable signature false) :
    Request.forBody access signature = [⟨access, signature, false⟩] := by
  rw [Request.forBody, if_neg]
  rintro rfl
  exact not_servable_empty false h

theorem mem_forBody_iff {access : Access} {signature : String} {request : Request} :
    request ∈ Request.forBody access signature ↔
      signature ≠ "" ∧ request = ⟨access, signature, false⟩ := by
  rw [Request.forBody]
  split <;> simp [*]

end Generator

theorem Method.requests_eq_ok {method : Method} {requested : List Request}
    (h : method.requests = .ok requested) : ∃ inputs outputs,
      Argument.bodySignature (method.arguments.filter fun a => !a.isOutput) = .ok inputs ∧
      Argument.bodySignature (method.arguments.filter Argument.isOutput) = .ok outputs ∧
      requested = Request.forBody .write inputs ++ Request.forBody .read outputs := by
  rw [requests] at h
  cases hinputs : Argument.bodySignature (method.arguments.filter fun a => !a.isOutput) with
  | error error =>
      rw [hinputs] at h
      cases h
  | ok inputs =>
      cases houtputs : Argument.bodySignature (method.arguments.filter Argument.isOutput) with
      | error error =>
          rw [hinputs, houtputs] at h
          cases h
      | ok outputs =>
          rw [hinputs, houtputs] at h
          exact ⟨inputs, outputs, rfl, rfl, (Except.ok.inj h).symm⟩

theorem Method.halfFails_iff {method : Method} {first : Request} {rest : List Request}
    (h : method.requests = .ok (first :: rest)) :
    (Member.method method).HalfFails ↔
      first.Servable ∧ ∃ request ∈ first :: rest, ¬ request.Servable := by
  have hfirstMem : first ∈ first :: rest := List.mem_cons_self
  obtain ⟨inputs, outputs, hinputs, houtputs, hrequests⟩ := Method.requests_eq_ok h
  constructor
  · rintro ⟨_, _, hin, hout, hservable, hne, hnot⟩
    rw [hinputs] at hin
    rw [houtputs] at hout
    cases hin
    cases hout
    rw [Generator.forBody_of_servable .write hservable] at hrequests
    cases hrequests
    refine ⟨hservable, ⟨.read, outputs, false⟩, ?_, hnot⟩
    exact List.mem_cons_of_mem _ (Generator.mem_forBody_iff.mpr ⟨hne, rfl⟩)
  · rintro ⟨hfirst, request, hmem, hnot⟩
    rw [hrequests, List.mem_append, Generator.mem_forBody_iff,
      Generator.mem_forBody_iff] at hmem
    refine ⟨inputs, outputs, hinputs, houtputs, ?_⟩
    by_cases hempty : inputs = ""
    · rw [hempty, Request.forBody, if_pos rfl, List.nil_append] at hrequests
      rw [hrequests, Generator.mem_forBody_iff] at hfirstMem
      rcases hmem with ⟨hne, -⟩ | ⟨-, rfl⟩
      · exact absurd hempty hne
      · rw [hfirstMem.2] at hfirst
        exact absurd hfirst hnot
    · rw [Request.forBody, if_neg hempty] at hrequests
      cases hrequests
      rcases hmem with ⟨-, rfl⟩ | ⟨hne, rfl⟩
      · exact absurd hfirst hnot
      · exact ⟨hfirst, hne, hnot⟩

/-- Requests for the same values can be served all or none. -/
theorem Request.not_servable_in_part {first : Request} {requests : List Request}
    (h : ∀ request ∈ requests,
      request.signature = first.signature ∧ request.variant = first.variant) :
    ¬ (first.Servable ∧ ∃ request ∈ requests, ¬ request.Servable) := by
  rintro ⟨hfirst, request, hmem, hnot⟩
  obtain ⟨hsignature, hvariant⟩ := h request hmem
  rw [Request.Servable, hsignature, hvariant] at hnot
  exact hnot hfirst

theorem Signal.requests_alike {signal : Signal} {requested : List Request}
    (h : signal.requests = .ok requested) {first request : Request}
    (hfirst : first ∈ requested) (hrequest : request ∈ requested) :
    request.signature = first.signature ∧ request.variant = first.variant := by
  rw [requests] at h
  cases hbody : Argument.bodySignature signal.arguments with
  | error error =>
      rw [hbody] at h
      cases h
  | ok signature =>
      rw [hbody] at h
      have hrequests : Request.forBody .read signature = requested := Except.ok.inj h
      rw [← hrequests, Generator.mem_forBody_iff] at hfirst hrequest
      rw [hfirst.2, hrequest.2]
      exact ⟨rfl, rfl⟩

theorem Property.mem_requests {property : Property} {request : Request}
    (h : request ∈ property.requests) :
    request.signature = property.signature ∧ request.variant = true := by
  rw [requests] at h
  split at h <;> simp at h <;> grind

/-- A member half fails if the first procedure that it needs can be generated and
another one cannot. -/
theorem Member.halfFails_iff {member : Member} {first : Request} {rest : List Request}
    (h : member.requests = .ok (first :: rest)) :
    member.HalfFails ↔ first.Servable ∧ ∃ request ∈ first :: rest, ¬ request.Servable := by
  cases member with
  | method method => exact Method.halfFails_iff h
  | signal signal =>
      refine iff_of_false id (Request.not_servable_in_part fun request hmem => ?_)
      exact Signal.requests_alike h List.mem_cons_self hmem
  | property property =>
      have hrequests : property.requests = first :: rest := Except.ok.inj h
      refine iff_of_false id (Request.not_servable_in_part fun request hmem => ?_)
      rw [← hrequests] at hmem
      obtain ⟨hsignature, hvariant⟩ := Property.mem_requests hmem
      have hfirst : first ∈ property.requests := by
        rw [hrequests]
        exact List.mem_cons_self
      obtain ⟨hfirstSignature, hfirstVariant⟩ := Property.mem_requests hfirst
      rw [hsignature, hvariant, hfirstSignature, hfirstVariant]
      exact ⟨rfl, rfl⟩

namespace Generator

variable {generator : Generator}

/-- A member that fails contributes nothing unless it half fails. -/
theorem processMember_nothing_iff (hsound : generator.Sound) {member : Member} {error : Error}
    (hfailed : (generator.processMember member).1.2 = some error) :
    ((generator.processMember member).1.1 = [] ∧
        (generator.processMember member).2.registry = generator.registry) ↔
      ¬ member.HalfFails := by
  cases hrequests : member.requests with
  | error error =>
      have hhalf : ¬ member.HalfFails := by
        intro hhalf
        cases member with
        | method method =>
            obtain ⟨inputs, outputs, hinputs, houtputs, -⟩ := hhalf
            rw [Member.requests, Method.requests, hinputs, houtputs] at hrequests
            cases hrequests
        | _ => cases hhalf
      rw [processMember, hrequests]
      exact ⟨fun _ => hhalf, fun _ => ⟨rfl, rfl⟩⟩
  | ok requests =>
      rw [processMember, hrequests] at hfailed ⊢
      cases requests with
      | nil => cases hfailed
      | cons first rest =>
          have hunserved := (fulfil_failed_iff hsound (first :: rest)).mp ⟨error, hfailed⟩
          rw [Member.halfFails_iff hrequests]
          refine (fulfil_nothing_iff hsound first rest).trans ?_
          exact ⟨fun hnot h => hnot h.1, fun hnot h => hnot ⟨h, hunserved⟩⟩

theorem processMembers_append (generator : Generator) (members more : List Member) :
    generator.processMembers (members ++ more) =
      let (before, reached) := generator.processMembers members
      let (after, last) := reached.processMembers more
      ((before.1 ++ after.1, before.2 ++ after.2), last) := by
  induction members generalizing generator with
  | nil => simp [processMembers]
  | cons member members ih =>
      simp only [List.cons_append, processMembers, ih, List.append_assoc]

/-- What each member of an interface contributes to its report.  A member that is
reported as failed contributes no procedure, and leaves the registry as it was,
exactly if it does not half fail. -/
theorem processInterface_failed_iff (hreachable : generator.Reachable) {interface : Interface}
    {before after : List Member} {member : Member}
    (hmembers : interface.members = before ++ member :: after) :
    let earlier := generator.processMembers before
    let own := earlier.2.processMember member
    let later := own.2.processMembers after
    (generator.processInterface interface).1 =
        ⟨interface.name, earlier.1.1 ++ (own.1.1 ++ later.1.1), earlier.1.2 ++
          ((own.1.2.toList.map fun error => ⟨member.name, error⟩) ++ later.1.2)⟩ ∧
      (generator.processInterface interface).2 = later.2 ∧
      ∀ error, own.1.2 = some error →
        ((own.1.1 = [] ∧ own.2.registry = earlier.2.registry) ↔ ¬ member.HalfFails) := by
  intro earlier own later
  have hinterface : generator.processInterface interface =
      (⟨interface.name, earlier.1.1 ++ (own.1.1 ++ later.1.1), earlier.1.2 ++
        ((own.1.2.toList.map fun error => ⟨member.name, error⟩) ++ later.1.2)⟩, later.2) := by
    rw [processInterface, hmembers, processMembers_append]
    rfl
  rw [hinterface]
  refine ⟨rfl, rfl, ?_⟩
  intro error hfailed
  have hsound := (processMembers_grows hreachable.sound before).sound
  exact processMember_nothing_iff hsound hfailed

theorem processInterface_failed_input :
    (processMember {} (.method ⟨"Flipped",
        [⟨none, "a\x7bdi\x7d", some .input⟩, ⟨none, "i", some .output⟩]⟩)).1.1 = [] ∧
      (processMember {} (.method ⟨"Flipped",
        [⟨none, "a\x7bdi\x7d", some .input⟩, ⟨none, "i", some .output⟩]⟩)).2.registry = {} := by
  have hreachable : Reachable {} := ⟨fun _ => .hashed, [], rfl⟩
  have hmembers : Interface.members ⟨"org.example.Flipped", [⟨"Flipped",
      [⟨none, "a\x7bdi\x7d", some .input⟩, ⟨none, "i", some .output⟩]⟩], [], []⟩ =
        [] ++ [.method ⟨"Flipped",
          [⟨none, "a\x7bdi\x7d", some .input⟩, ⟨none, "i", some .output⟩]⟩] := rfl
  refine ((processInterface_failed_iff hreachable hmembers).2.2 .doubleMapKey (by rfl)).mpr ?_
  rintro ⟨inputs, outputs, hinputs, -, ⟨construct, types, htypes, hmap⟩, -⟩
  have hsignature : inputs = "a\x7bdi\x7d" := by
    cases hinputs
    rfl
  have hentry : entryTypes "a\x7bdi\x7d" false =
      .ok (.message, [.dict .double (.basic .int32)]) := by
    rfl
  rw [hsignature, hentry] at htypes
  cases htypes
  exact hmap.1.1 rfl

/-- A method whose output has no native counterpart is reported as failed, and yet
its report names the procedure for its input, which has been registered. -/
theorem processInterface_failed_output :
    (processInterface {} ⟨"org.example.Split", [⟨"Split",
        [⟨none, "i", some .input⟩, ⟨none, "a\x7bdi\x7d", some .output⟩]⟩], [], []⟩).1 =
        ⟨"org.example.Split", ["write_message_i"], [⟨"Split", .doubleMapKey⟩]⟩ ∧
      (processInterface {} ⟨"org.example.Split", [⟨"Split",
        [⟨none, "i", some .input⟩, ⟨none, "a\x7bdi\x7d", some .output⟩]⟩], [],
          []⟩).2.registry.contains .write "write_message_i" = true := by
  constructor <;> rfl

end Generator

end BusCodec
