import BusCodec.Proofs.Generator.References
import BusCodec.Proofs.Generator.Session
import BusCodec.Proofs.Signature.Grammar
import Mathlib.Algebra.GroupWithZero.Nat
import Mathlib.Data.List.Forall2

/-!
Arguments inside a message body.  The signature of the body is that of its arguments, one
after the other, and it is read back as the types of the arguments, so the procedure for the
body handles them one by one.  Fragments of types are no arguments, even if they make up a
type together.
-/

namespace BusCodec

namespace BusType

theorem withinLimits_of_forall {types : List BusType}
    (h : ∀ type ∈ types, WithinLimits [type])
    (hlength : (codesAll types).length ≤ Signature.maxLength) : WithinLimits types := by
  refine ⟨hlength, ?_⟩
  clear hlength
  induction types with
  | nil => simp [FitInside, arrayDepthAll, bracketDepthAll]
  | cons type types ih =>
      rw [List.forall_mem_cons] at h
      exact fitInside_cons_iff.mpr ⟨(withinLimits_singleton_iff.mp h.1).2, ih h.2⟩

theorem utf8ByteSize_signature (type : BusType) :
    type.signature.utf8ByteSize = type.codes.length := by
  rw [signature_eq_signatureAll, utf8ByteSize_signatureAll, codesAll, codesAll, List.append_nil]

theorem sum_utf8ByteSize_signature (types : List BusType) :
    (types.map fun type => type.signature.utf8ByteSize).sum = (codesAll types).length := by
  induction types with
  | nil => rfl
  | cons type types ih =>
      rw [List.map_cons, List.sum_cons, ih, codesAll, List.length_append, utf8ByteSize_signature]

end BusType

namespace Argument

/-- Arguments and the one complete type that each of them is. -/
def HaveTypes (arguments : List Argument) (types : List BusType) : Prop :=
  List.Forall₂ (fun argument type => BusType.parse argument.signature = .ok type) arguments types

variable {arguments before after : List Argument} {argument : Argument} {types : List BusType}

theorem HaveTypes.signatures_eq (h : HaveTypes arguments types) :
    arguments.map Argument.signature = types.map BusType.signature := by
  induction h with
  | nil => rfl
  | cons hparse _ ih =>
      rw [List.map_cons, List.map_cons, ih, (BusType.parse_eq_ok_iff.mp hparse).1]

theorem HaveTypes.withinLimits (h : HaveTypes arguments types) :
    ∀ type ∈ types, BusType.WithinLimits [type] := by
  induction h with
  | nil => exact List.forall_mem_nil _
  | cons hparse _ ih =>
      exact List.forall_mem_cons.mpr ⟨(BusType.parse_eq_ok_iff.mp hparse).2, ih⟩

theorem HaveTypes.bodySignature_eq (h : HaveTypes arguments types) :
    bodySignature arguments = .ok (String.join (arguments.map Argument.signature)) := by
  induction h with
  | nil => rfl
  | cons hparse _ ih =>
      rw [bodySignature, hparse, ih, List.map_cons, String.join_cons]
      rfl

/-- The boundaries between arguments are found again in the signature of the body. -/
theorem HaveTypes.parseAll_eq (h : HaveTypes arguments types)
    (hlength : (arguments.map fun argument => argument.signature.utf8ByteSize).sum ≤
      Signature.maxLength) :
    BusType.parseAll (String.join (arguments.map Argument.signature)) = .ok types := by
  have hsizes : (arguments.map fun argument => argument.signature.utf8ByteSize) =
      types.map fun type => type.signature.utf8ByteSize := by
    have hmap := congrArg (List.map String.utf8ByteSize) h.signatures_eq
    rwa [List.map_map, List.map_map] at hmap
  rw [hsizes, BusType.sum_utf8ByteSize_signature] at hlength
  rw [h.signatures_eq, BusType.join_signature, BusType.parseAll_eq_ok_iff]
  exact ⟨rfl, BusType.withinLimits_of_forall h.withinLimits hlength⟩

/-- An argument that is not one complete type fails the body, if those before it are. -/
theorem bodySignature_eq_error {error : GrammarError}
    (hbefore : ∀ earlier ∈ before, ∃ type, BusType.parse earlier.signature = .ok type)
    (herror : BusType.parse argument.signature = .error error) :
    bodySignature (before ++ argument :: after) = .error error := by
  induction before with
  | nil =>
      rw [List.nil_append, bodySignature, herror]
      rfl
  | cons first before ih =>
      rw [List.forall_mem_cons] at hbefore
      obtain ⟨⟨type, htype⟩, hrest⟩ := hbefore
      rw [List.cons_append, bodySignature, htype, ih hrest]
      rfl

theorem bodySignature_append (arguments more : List Argument) :
    bodySignature (arguments ++ more) = (do
      let body ← bodySignature arguments
      let rest ← bodySignature more
      return body ++ rest) := by
  induction arguments with
  | nil =>
      rw [List.nil_append]
      cases bodySignature more with
      | error error => rfl
      | ok rest => exact congrArg Except.ok (String.empty_append).symm
  | cons argument arguments ih =>
      rw [List.cons_append, bodySignature, bodySignature, ih]
      cases BusType.parse argument.signature with
      | error error => rfl
      | ok type =>
          cases bodySignature arguments with
          | error error => rfl
          | ok body =>
              cases bodySignature more with
              | error error => rfl
              | ok rest => exact congrArg Except.ok String.append_assoc.symm

/-- Arguments are one complete type each, or there is a first one that is not. -/
theorem forall_parse_or_exists_first (arguments : List Argument) :
    (∀ argument ∈ arguments, ∃ type, BusType.parse argument.signature = .ok type) ∨
      ∃ before argument after error, arguments = before ++ argument :: after ∧
        (∀ earlier ∈ before, ∃ type, BusType.parse earlier.signature = .ok type) ∧
        BusType.parse argument.signature = .error error := by
  induction arguments with
  | nil => exact .inl (List.forall_mem_nil _)
  | cons first rest ih =>
      cases hparse : BusType.parse first.signature with
      | error error => exact .inr ⟨[], first, rest, error, rfl, List.forall_mem_nil _, hparse⟩
      | ok type =>
          rcases ih with hall | ⟨before, argument, after, error, rfl, hbefore, herror⟩
          · exact .inl (List.forall_mem_cons.mpr ⟨⟨type, hparse⟩, hall⟩)
          · refine .inr ⟨first :: before, argument, after, error, rfl, ?_, herror⟩
            exact List.forall_mem_cons.mpr ⟨⟨type, hparse⟩, hbefore⟩

end Argument

/-- The arguments of a member in the order in which their signatures are read, the inputs of
a method before its outputs. -/
def Member.arguments : Member → List Argument
  | .method m => m.arguments.filter (fun a => !a.isOutput) ++ m.arguments.filter Argument.isOutput
  | .signal s => s.arguments
  | .property _ => []

/-- A member whose arguments make up no body asks for nothing. -/
theorem Member.requests_eq_error {member : Member} {error : GrammarError}
    (h : Argument.bodySignature member.arguments = .error error) :
    member.requests = .error error := by
  cases member with
  | property property => cases h
  | signal signal =>
      rw [arguments] at h
      rw [requests, Signal.requests, h]
      rfl
  | method method =>
      rw [arguments, Argument.bodySignature_append] at h
      rw [requests, Method.requests]
      cases hinputs : Argument.bodySignature (method.arguments.filter fun a => !a.isOutput) with
      | error first =>
          rw [hinputs] at h
          cases h
          rfl
      | ok inputs =>
          rw [hinputs] at h
          cases houtputs :
              Argument.bodySignature (method.arguments.filter Argument.isOutput) with
          | error first =>
              rw [houtputs] at h
              cases h
              rfl
          | ok outputs =>
              rw [houtputs] at h
              cases h

/-- A callee handles values of a signature: it is the reader or writer of a basic type or of
variants, or a registered procedure for values of this signature. -/
def Registry.CalleeHandles (registry : Registry) (access : Access) (signature : String) :
    Callee → Prop
  | .primitive type => signature = type.signatureText
  | .variant => signature = "v"
  | .procedure name construct => ∃ procedure, registry.get? access name = some procedure ∧
      procedure.construct = construct ∧ procedure.signature = signature ∧
      procedure.isEntry = false

theorem Registry.Closed.calleeHandles {policy : MapPolicy} {registry : Registry}
    {access : Access} {type : BusType} (h : Registry.Closed policy registry)
    (hprovides : registry.Provides access type) :
    registry.CalleeHandles access type.signature (type.callee access) := by
  cases hcallee : type.callee access with
  | primitive basic =>
      cases type <;> cases hcallee
      rfl
  | variant =>
      cases type <;> cases hcallee
      rfl
  | procedure name construct =>
      obtain ⟨-, procedure, hget, hconstruct, hhandles⟩ := h.handles_called hprovides hcallee
      exact ⟨procedure, hget, hconstruct, hhandles.signature_eq, hhandles.isEntry⟩

namespace Generator

variable {generator : Generator} {types : List BusType} {arguments : List Argument}

theorem allMappable_of_owned {policy : MapPolicy}
    (h : ∀ type ∈ types, ∃ native, NativeType.owned policy type = .ok native) :
    BusType.AllMappable types := by
  induction types with
  | nil => trivial
  | cons type types ih =>
      rw [List.forall_mem_cons] at h
      obtain ⟨⟨native, hnative⟩, hrest⟩ := h
      rcases NativeType.owned_cases policy type with ⟨hmap, -⟩ | ⟨-, herror⟩
      · exact ⟨hmap, ih hrest⟩
      · rw [herror] at hnative
        cases hnative

/-- The entry procedure for the body of arguments calls one other for each of them. -/
theorem entry_of_haveTypes (hsound : generator.Sound) (access : Access)
    (harguments : arguments ≠ []) (htypes : Argument.HaveTypes arguments types) {body : String}
    (hparse : BusType.parseAll body = .ok types) (hmap : BusType.AllMappable types) :
    ∃ name reached procedure values,
      entry access body false generator = (.ok name, reached) ∧
      reached.registry.get? access name = some procedure ∧
      procedure.body = .message none values ∧
      List.Forall₂ (fun argument callee =>
        reached.registry.CalleeHandles access argument.signature callee) arguments values := by
  have hnonempty : types ≠ [] := by
    rintro rfl
    cases htypes
    exact harguments rfl
  have hentryTypes : entryTypes body false = .ok (.message, types) :=
    entryTypes_eq_ok_iff.mpr ⟨hparse, hnonempty, nofun, rfl⟩
  obtain ⟨reached, hrun, hgrows, hregistered⟩ :=
    (answered_entry access hsound hentryTypes).ok hmap
  obtain ⟨procedure, hget⟩ := Registry.contains_eq_true_iff.mp hregistered
  obtain ⟨hhandles, hprovides⟩ := hgrows.sound.handlesMessage_of_get? hentryTypes hget
  refine ⟨_, reached, procedure, _, hrun, hget, hhandles.body_eq, ?_⟩
  have hhandled : List.Forall₂ (reached.registry.CalleeHandles access)
      (arguments.map Argument.signature) (types.map (BusType.callee access)) := by
    rw [htypes.signatures_eq, List.forall₂_map_left_iff, List.forall₂_map_right_iff,
      List.forall₂_same]
    exact fun type htype => hgrows.sound.calleeHandles (hprovides type htype)
  exact List.forall₂_map_left_iff.mp hhandled

/-- The arguments of a message body are told apart in its signature, and the entry procedure
for the body calls one other for each of them.  A member with an argument that is not one
complete type fails with what is wrong with the first such argument, and nothing is
generated for it. -/
theorem arguments_kept_apart (hreachable : generator.Reachable) :
    (∀ arguments types, arguments ≠ [] → Argument.HaveTypes arguments types →
      (arguments.map fun argument => argument.signature.utf8ByteSize).sum ≤ 255 →
      ∃ body, Argument.bodySignature arguments = .ok body ∧
        body = String.join (arguments.map Argument.signature) ∧
        BusType.parseAll body = .ok types ∧
        ((∀ type ∈ types, ∃ native, NativeType.owned generator.policy type = .ok native) →
          ∀ access, ∃ name reached procedure values,
            entry access body false generator = (.ok name, reached) ∧
            reached.registry.get? access name = some procedure ∧
            procedure.body = .message none values ∧
            List.Forall₂ (fun argument callee =>
              reached.registry.CalleeHandles access argument.signature callee)
              arguments values)) ∧
      ∀ member : Member,
        (∃ argument ∈ member.arguments, ∀ type,
          BusType.parse argument.signature ≠ .ok type) →
        ∃ before argument after error, member.arguments = before ++ argument :: after ∧
          (∀ earlier ∈ before, ∃ type, BusType.parse earlier.signature = .ok type) ∧
          BusType.parse argument.signature = .error error ∧
          generator.processMember member = (([], some (.grammar error)), generator) := by
  constructor
  · intro arguments types hnonempty htypes hlength
    have hparse := htypes.parseAll_eq hlength
    refine ⟨_, htypes.bodySignature_eq, rfl, hparse, fun hnative access => ?_⟩
    exact entry_of_haveTypes hreachable.sound access hnonempty htypes hparse
      (allMappable_of_owned hnative)
  · rintro member ⟨bad, hmem, hbad⟩
    rcases Argument.forall_parse_or_exists_first member.arguments with
      hall | ⟨before, argument, after, error, harguments, hbefore, herror⟩
    · obtain ⟨type, htype⟩ := hall bad hmem
      exact absurd htype (hbad type)
    · refine ⟨before, argument, after, error, harguments, hbefore, herror, ?_⟩
      have hbody : Argument.bodySignature member.arguments = .error error := by
        rw [harguments, Argument.bodySignature_eq_error hbefore herror]
      rw [processMember, Member.requests_eq_error hbody]

/-- A dictionary and an array are handled one by one, and two fragments of a struct fail,
although their signatures joined are one of a struct. -/
theorem arguments_kept_apart_fragments :
    (∃ name reached procedure values,
      entry .write "a\x7bsv\x7dai" false {} = (.ok name, reached) ∧
      reached.registry.get? .write name = some procedure ∧
      procedure.body = .message none values ∧
      List.Forall₂ (fun (argument : Argument) callee =>
          reached.registry.CalleeHandles .write argument.signature callee)
        [⟨none, "a\x7bsv\x7d", none⟩, ⟨none, "ai", some .input⟩] values) ∧
      BusType.parseAll "(is)" = .ok [.struct (.basic .int32) [.basic .string]] ∧
      ∃ error, processMember {} (.method ⟨"Halved",
          [⟨none, "s", some .output⟩, ⟨none, "(i", none⟩, ⟨none, "s)", some .input⟩]⟩) =
        (([], some (.grammar error)), {}) := by
  have hreachable : Reachable {} := ⟨fun _ => .hashed, [], rfl⟩
  obtain ⟨hkept, hfails⟩ := arguments_kept_apart hreachable
  refine ⟨?_, rfl, ?_⟩
  · have htypes : Argument.HaveTypes
        [⟨none, "a\x7bsv\x7d", none⟩, ⟨none, "ai", some .input⟩]
        [.dict .string .variant, .array (.basic .int32)] := .cons rfl (.cons rfl .nil)
    obtain ⟨body, -, hbody, -, hentry⟩ := hkept _ _ (List.cons_ne_nil _ _) htypes (by decide)
    have hnatives : ∀ type ∈ [BusType.dict .string .variant, .array (.basic .int32)],
        ∃ native, NativeType.owned ({} : Generator).policy type = .ok native :=
      List.forall_mem_cons.mpr ⟨⟨_, rfl⟩, List.forall_mem_singleton.mpr ⟨_, rfl⟩⟩
    have hjoined : body = "a\x7bsv\x7dai" := hbody.trans (by rfl)
    rw [hjoined] at hentry
    exact hentry hnatives .write
  · obtain ⟨-, -, -, error, -, -, -, hrun⟩ := hfails (.method ⟨"Halved",
        [⟨none, "s", some .output⟩, ⟨none, "(i", none⟩, ⟨none, "s)", some .input⟩]⟩)
      ⟨⟨none, "(i", none⟩, List.mem_cons_self, fun type htype => by cases htype⟩
    exact ⟨error, hrun⟩

end Generator

end BusCodec
