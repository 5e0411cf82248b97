import BusCodec.Procedure.Reading
import BusCodec.Proofs.Generator.Accounts
import BusCodec.Proofs.Wire.Reading

/-!
Generated readers.  What is called for a type reads exactly what the reader of
values reads for it, errors and the cursor included.  Calls are nested no deeper
than there are readers, as a reader only calls readers of shorter signatures.
-/

namespace BusCodec

namespace BusType

theorem length_signature (type : BusType) : type.signature.length = type.codes.length := by
  rw [signature, String.length_ofList]

theorem length_codes_pos (type : BusType) : 0 < type.codes.length :=
  List.length_pos_iff.mpr type.codes_ne_nil

theorem length_codes_le_of_mem {types : List BusType} {type : BusType} (h : type ∈ types) :
    type.codes.length ≤ (codesAll types).length := by
  obtain ⟨before, after, rfl⟩ := List.append_of_mem h
  rw [codesAll_append, codesAll, List.length_append, List.length_append]
  omega

theorem length_codes_lt_of_child {type child : BusType} (h : child ∈ type.children) :
    child.codes.length < type.codes.length := by
  cases type with
  | basic type => simp [children] at h
  | variant => simp [children] at h
  | array element =>
      rw [List.mem_singleton.mp h, codes, List.length_cons]
      omega
  | dict key value =>
      simp only [children, List.mem_cons, List.not_mem_nil, or_false] at h
      rcases h with rfl | rfl
      · simp only [codes, List.length_cons, List.length_append, List.length_nil]
        omega
      · simp only [codes, List.length_cons, List.length_append, List.length_nil]
        omega
  | struct first rest =>
      have hle := length_codes_le_of_mem h
      rw [children, codesAll, List.length_append] at hle
      simp only [codes, List.length_cons, List.length_append, List.length_nil]
      omega

end BusType

namespace Region

/-- The elements of a region of structs are aligned before they are read. -/
theorem collect_alignStruct {α : Type} {region : Region} (h : region.element = .struct)
    (reader : Decode α) :
    (region.collect (Decode.alignStruct >>= fun _ => reader) : Decode (List α)) =
      region.collect reader := by
  funext buffer cursor
  apply collect_congr
  intro position reached hposition hle
  rw [h] at hposition
  have halign : Decode.alignStruct buffer reached = (.ok (), reached) := by
    rw [Decode.alignStruct, Decode.align, hposition,
      alignUp_alignUp position WireKind.struct.alignment_pos, ← hposition]
    exact if_pos hle
  rw [Decode.bind_apply, Attempt.bind_of_ok halign]

end Region

namespace Callee

theorem readAll_eq_values {run : String → Decode Value} {types : List BusType}
    (h : ∀ type ∈ types, (type.callee .read).read run = Decode.value type) :
    readAll run (types.map (BusType.callee .read)) =
      Decode.valuesWith Decode.variant types := by
  induction types with
  | nil => rfl
  | cons type types ih =>
      rw [List.forall_mem_cons] at h
      rw [List.map_cons, readAll, h.1, ih h.2]
      rfl

end Callee

namespace Body

/-- The body for a type reads what the reader of values reads, if the callees in it do. -/
theorem read_eq_value {run : String → Decode Value} {type : BusType} {construct : Construct}
    {body : Body} (hhandling : type.handling? .read = some (construct, body))
    (hchildren : ∀ child ∈ type.children, (child.callee .read).read run = Decode.value child) :
    body.read run type.signature = Decode.value type := by
  cases type with
  | basic type => cases hhandling
  | variant => cases hhandling
  | array element =>
      cases hhandling
      rw [Body.read, hchildren element List.mem_cons_self]
      rfl
  | dict key value =>
      cases hhandling
      rw [Body.read, hchildren value (List.mem_cons_of_mem _ List.mem_cons_self)]
      apply Region.start_bind_congr
      intro region helement
      exact congrArg (· >>= fun entries =>
        pure (Value.dict (BusType.dict key value).signature (Entries.ofList entries)))
        (Region.collect_alignStruct helement _).symm
  | struct first rest =>
      cases hhandling
      have hmembers := Callee.readAll_eq_values hchildren
      rw [BusType.children, List.map_cons] at hmembers
      rw [Body.read, hmembers, Decode.valuesWith]
      simp only [bind_assoc, pure_bind]
      rfl

end Body

namespace Registry

/-- How many readers have a signature that is no longer than the given length. -/
def readersUpTo (registry : Registry) (length : Nat) : Nat :=
  registry.readers.procedures.countP fun procedure => procedure.signature.length ≤ length

theorem readersUpTo_le_size (registry : Registry) (length : Nat) :
    registry.readersUpTo length ≤ registry.readers.size :=
  List.countP_le_length

theorem readersUpTo_lt {registry : Registry} {procedure : Procedure} {length : Nat}
    (hmem : procedure ∈ registry.readers.procedures)
    (h : length < procedure.signature.length) :
    registry.readersUpTo length < registry.readersUpTo procedure.signature.length := by
  obtain ⟨before, after, hsplit⟩ := List.append_of_mem hmem
  have hmono : ∀ procedures : List Procedure,
      procedures.countP (fun p => p.signature.length ≤ length) ≤
        procedures.countP (fun p => p.signature.length ≤ procedure.signature.length) := by
    intro procedures
    apply List.countP_mono_left
    intro p _ hp
    rw [decide_eq_true_eq] at hp ⊢
    omega
  have hbefore := hmono before
  have hafter := hmono after
  rw [readersUpTo, readersUpTo, hsplit, List.countP_append, List.countP_append,
    List.countP_cons_of_neg (by simpa using h), List.countP_cons_of_pos (by simp)]
  omega

variable {policy : MapPolicy} {registry : Registry} {type : BusType} {levels : Nat}

/-- Whether the readers that a type needs are registered and can be called when calls
may be nested so many levels deep. -/
def Readable (registry : Registry) (levels : Nat) (type : BusType) : Prop :=
  registry.Provides .read type ∧ registry.readersUpTo type.codes.length ≤ levels

/-- Calling the reader of a container reads its body, whose parts can be read in the
levels that are left. -/
theorem exists_read_body (hclosed : Closed policy registry) {construct : Construct}
    {body : Body} (hhandling : type.handling? .read = some (construct, body))
    (h : registry.Readable levels type) :
    ∃ left, (type.callee .read).read (registry.readWithin levels) =
        body.read (registry.readWithin left) type.signature ∧
      ∀ child ∈ type.children, registry.Readable left child := by
  have hcallee := BusType.callee_of_handling hhandling
  obtain ⟨procedure, hget⟩ := h.1 _ _ hcallee
  obtain ⟨hhandles, hchildren⟩ := hclosed.handles_of_get? hhandling hget
  have hbody := hhandles.handling_eq
  rw [hhandling] at hbody
  cases hbody
  have hlength : procedure.signature.length = type.codes.length := by
    rw [hhandles.signature_eq, BusType.length_signature]
  have hfewer : ∀ child ∈ type.children,
      registry.readersUpTo child.codes.length < registry.readersUpTo type.codes.length := by
    intro child hchild
    rw [← hlength]
    apply readersUpTo_lt (ProcedureTable.get?_eq_some_iff.mp hget).1
    rw [hlength]
    exact BusType.length_codes_lt_of_child hchild
  have hpositive : 0 < registry.readersUpTo type.codes.length := by
    apply Nat.lt_of_le_of_lt (Nat.zero_le (registry.readersUpTo 0))
    rw [← hlength]
    apply readersUpTo_lt (ProcedureTable.get?_eq_some_iff.mp hget).1
    rw [hlength]
    exact type.length_codes_pos
  obtain ⟨left, rfl⟩ := Nat.exists_eq_add_of_lt (Nat.lt_of_lt_of_le hpositive h.2)
  refine ⟨left, ?_, ?_⟩
  · rw [hcallee, Nat.zero_add]
    change registry.readWithin (left + 1) _ = _
    rw [readWithin, find_eq_ok hget, ← hhandles.signature_eq]
    rfl
  · intro child hchild
    have hless := hfewer child hchild
    have hall := h.2
    exact ⟨hchildren child hchild, by omega⟩

/-- Calling the reader of a type reads what the reader of values reads. -/
theorem read_callee (hclosed : Closed policy registry) (h : registry.Readable levels type) :
    (type.callee .read).read (registry.readWithin levels) = Decode.value type := by
  -- Calls go to the readers of the types nested in a type, whose signatures are shorter.
  induction hlength : type.codes.length using Nat.strongRecOn generalizing type levels with
  | ind length ih =>
      cases hhandling : type.handling? .read with
      | none =>
          cases type with
          | basic type => rfl
          | variant => rfl
          | _ => cases hhandling
      | some handling =>
          obtain ⟨left, hread, hchildren⟩ := exists_read_body hclosed hhandling h
          rw [hread]
          refine Body.read_eq_value hhandling fun child hchild => ?_
          exact ih _ (hlength ▸ BusType.length_codes_lt_of_child hchild)
            (hchildren child hchild) rfl

theorem readAll_callees (hclosed : Closed policy registry) {types : List BusType}
    (h : ∀ type ∈ types, registry.Readable levels type) :
    Callee.readAll (registry.readWithin levels) (types.map (BusType.callee .read)) =
      Decode.valuesWith Decode.variant types :=
  Callee.readAll_eq_values fun type htype => read_callee hclosed (h type htype)

end Registry

end BusCodec
