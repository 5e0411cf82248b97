import BusCodec.Procedure.Writing
import BusCodec.Proofs.Generator.Accounts
import BusCodec.Proofs.Wire.Writing

/-!
Generated writers.  What is called for a type writes the values of the type exactly
as the writer of values does.  Calls are nested no deeper than the containers in the
value that is written.
-/

namespace BusCodec

namespace Procedure

variable {run : String → Option Value → Encode Unit} {procedure : Procedure}

theorem write_array {element : WireKind} {item : Callee}
    (h : procedure.body = .array element item) (value : Value) :
    procedure.write run (some value) =
      (Attempt.lift (value.checkShape procedure.signature) >>= fun _ =>
        Encode.openArray element >>= fun array =>
        (match value with
          | .array _ items => Callee.writeItems run item items
          | _ => pure ()) >>= fun _ =>
        Encode.closeArray array) := by
  obtain ⟨name, access, construct, signature, native, body⟩ := procedure
  cases h
  cases value <;> rfl

theorem write_dictionary {key entry : Callee} (h : procedure.body = .dictionary key entry)
    (value : Value) :
    procedure.write run (some value) =
      (Attempt.lift (value.checkShape procedure.signature) >>= fun _ =>
        Encode.openArray .struct >>= fun array =>
        (match value with
          | .dict _ entries => Callee.writeEntries run key entry entries
          | _ => pure ()) >>= fun _ =>
        Encode.closeArray array) := by
  obtain ⟨name, access, construct, signature, native, body⟩ := procedure
  cases h
  cases value <;> rfl

theorem write_struct {members : List Callee} (h : procedure.body = .struct members)
    (value : Value) :
    procedure.write run (some value) =
      (Attempt.lift (value.checkShape procedure.signature) >>= fun _ =>
        match value with
        | .struct values => Encode.alignStruct >>= fun _ =>
            Callee.writeAll run members values
        | value => Attempt.fail (.valueShape procedure.signature value.signature)) := by
  obtain ⟨name, access, construct, signature, native, body⟩ := procedure
  cases h
  cases value <;> rfl

end Procedure

namespace Registry

variable {policy : MapPolicy} {registry : Registry} {type : BusType} {levels : Nat}

theorem lt_writeLevels {name : String} {procedure : Procedure}
    (hget : registry.get? .write name = some procedure) (height : Nat) :
    height < registry.writeLevels height := by
  have hsize : 0 < registry.writers.size :=
    List.length_pos_of_mem (ProcedureTable.get?_eq_some_iff.mp hget).1
  have hmul := Nat.le_mul_of_pos_left (height + 1) hsize
  rw [writeLevels]
  omega

/-- Calling the writer of a container runs a procedure that knows the type and whose
own calls can be made. -/
theorem exists_writer (hclosed : Closed policy registry) {construct : Construct}
    {body : Body} (hhandling : type.handling? .write = some (construct, body))
    (hprovides : registry.Provides .write type) :
    ∃ procedure : Procedure, procedure.body = body ∧ procedure.signature = type.signature ∧
      (∀ left value, (type.callee .write).write (registry.writeWithin (left + 1)) value =
        procedure.write (registry.writeWithin left) (some value)) ∧
      ∀ child ∈ type.children, registry.Provides .write child := by
  have hcallee := BusType.callee_of_handling hhandling
  obtain ⟨procedure, hget⟩ := hprovides _ _ hcallee
  obtain ⟨hhandles, hchildren⟩ := hclosed.handles_of_get? hhandling hget
  have hbody := hhandles.handling_eq
  rw [hhandling] at hbody
  cases hbody
  refine ⟨procedure, rfl, hhandles.signature_eq, ?_, hchildren⟩
  intro left value
  rw [hcallee]
  change registry.writeWithin (left + 1) _ (some value) = _
  rw [writeWithin, find_eq_ok hget, Attempt.lift_ok_bind]

mutual

theorem write_callee (hclosed : Closed policy registry) : ∀ {value : Value} {type : BusType}
    {levels : Nat}, Value.HasType value type → BusType.WithinLimits [type] →
    registry.Provides .write type → value.height < levels →
    (type.callee .write).write (registry.writeWithin levels) value = Encode.value value
  | .basic value, type, levels, h, _, _, _ => by
      cases type with
      | basic type => exact if_pos h
      | _ => cases h
  | .variant inner, type, levels, h, _, _, _ => by
      cases type with
      | variant => rfl
      | _ => cases h
  | .array signature items, type, levels, h, hlimits, hprovides, hheight => by
      cases type with
      | array element =>
          obtain ⟨left, rfl⟩ := Nat.exists_eq_add_of_lt hheight
          obtain ⟨procedure, hbody, hsignature, hrun, hchildren⟩ :=
            exists_writer hclosed rfl hprovides
          have hitems := writeItems_callee hclosed h.2
            hlimits.element (hchildren element List.mem_cons_self)
            (show Value.heightAll items < (Value.array signature items).height + left by
              rw [Value.height]; omega)
          rw [hrun, Procedure.write_array hbody, hsignature, Encode.checkShape_of_hasType h,
            Attempt.lift_ok_bind, Encode.value, h.1, BusType.parse_signature hlimits,
            Attempt.liftGrammar_ok_bind, ← h.1]
          simp only
          rw [hitems]
      | _ => cases h
  | .dict signature entries, type, levels, h, hlimits, hprovides, hheight => by
      cases type with
      | dict key value =>
          obtain ⟨left, rfl⟩ := Nat.exists_eq_add_of_lt hheight
          obtain ⟨procedure, hbody, hsignature, hrun, hchildren⟩ :=
            exists_writer hclosed rfl hprovides
          have hentries := writeEntries_callee hclosed h.2 hlimits.value
            (hchildren value (List.mem_cons_of_mem _ List.mem_cons_self))
            (show Value.heightEntries entries < (Value.dict signature entries).height + left by
              rw [Value.height]; omega)
          rw [hrun, Procedure.write_dictionary hbody, hsignature,
            Encode.checkShape_of_hasType h, Attempt.lift_ok_bind, Encode.value, h.1,
            BusType.parse_signature hlimits, Attempt.liftGrammar_ok_bind, ← h.1]
          simp only
          rw [hentries]
      | _ => cases h
  | .struct members, type, levels, h, hlimits, hprovides, hheight => by
      cases type with
      | struct first rest =>
          cases members with
          | nil => cases h
          | cons member members =>
              obtain ⟨left, rfl⟩ := Nat.exists_eq_add_of_lt hheight
              obtain ⟨procedure, hbody, hsignature, hrun, hchildren⟩ :=
                exists_writer hclosed rfl hprovides
              have hheights : Value.heightAll (member :: members) <
                  (Value.struct (member :: members)).height + left := by
                rw [Value.height]
                omega
              rw [Value.heightAll, Nat.max_lt] at hheights
              obtain ⟨hfirst, hrest⟩ := List.forall_mem_cons.mp hlimits.members
              obtain ⟨hfirstProvided, hrestProvided⟩ := List.forall_mem_cons.mp hchildren
              have hmember := write_callee hclosed h.1 hfirst hfirstProvided hheights.1
              have hmembers := writeAll_callees hclosed h.2 hrest hrestProvided hheights.2
              rw [hrun, Procedure.write_struct hbody, hsignature,
                Encode.checkShape_of_hasType h, Attempt.lift_ok_bind]
              simp only
              rw [Callee.writeAll, hmember, hmembers, Encode.value]
      | _ => cases h

theorem writeAll_callees (hclosed : Closed policy registry) : ∀ {values : List Value}
    {types : List BusType} {levels : Nat}, Value.HaveTypes values types →
    (∀ type ∈ types, BusType.WithinLimits [type]) →
    (∀ type ∈ types, registry.Provides .write type) → Value.heightAll values < levels →
    Callee.writeAll (registry.writeWithin levels) (types.map (BusType.callee .write)) values =
      Encode.values values
  | [], types, levels, h, _, _, _ => by
      cases types with
      | nil => rfl
      | cons type types => cases h
  | value :: values, types, levels, h, hlimits, hprovides, hheight => by
      cases types with
      | nil => cases h
      | cons type types =>
          rw [List.forall_mem_cons] at hlimits hprovides
          rw [Value.heightAll, Nat.max_lt] at hheight
          rw [List.map_cons, Callee.writeAll, Encode.values,
            write_callee hclosed h.1 hlimits.1 hprovides.1 hheight.1,
            writeAll_callees hclosed h.2 hlimits.2 hprovides.2 hheight.2]

theorem writeItems_callee (hclosed : Closed policy registry) : ∀ {items : List Value}
    {element : BusType} {levels : Nat}, Value.ItemsHaveType items element →
    BusType.WithinLimits [element] → registry.Provides .write element →
    Value.heightAll items < levels →
    Callee.writeItems (registry.writeWithin levels) (element.callee .write) items =
      Encode.itemsOf element.signature items
  | [], _, _, _, _, _, _ => rfl
  | item :: items, element, levels, h, hlimits, hprovides, hheight => by
      rw [Value.heightAll, Nat.max_lt] at hheight
      rw [Callee.writeItems, Encode.itemsOf, Encode.checkShape_of_hasType h.1,
        Attempt.lift_ok_bind, write_callee hclosed h.1 hlimits hprovides hheight.1,
        writeItems_callee hclosed h.2 hlimits hprovides hheight.2]

theorem writeEntries_callee (hclosed : Closed policy registry) :
    ∀ {entries : List (Key × Value)} {key : BasicType} {type : BusType} {levels : Nat},
    Value.EntriesHaveType entries key type → BusType.WithinLimits [type] →
    registry.Provides .write type → Value.heightEntries entries < levels →
    Callee.writeEntries (registry.writeWithin levels) (.primitive key) (type.callee .write)
        entries =
      Encode.entriesOf key.signatureText type.signature entries
  | [], _, _, _, _, _, _, _ => rfl
  | (key, entry) :: entries, keyType, type, levels, h, hlimits, hprovides, hheight => by
      obtain ⟨hkey, hentry, hrest⟩ := h
      subst hkey
      rw [Value.heightEntries, Nat.max_lt] at hheight
      have hkeyShape : (Value.basic key.value).checkShape key.value.type.signatureText =
          .ok () := if_pos rfl
      have hkeyWrite : Callee.write (registry.writeWithin levels)
          (.primitive key.value.type) (.basic key.value) = Encode.basic key.value := if_pos rfl
      rw [Callee.writeEntries, Encode.entriesOf, hkeyShape, Attempt.lift_ok_bind, hkeyWrite,
        Encode.checkShape_of_hasType hentry, Attempt.lift_ok_bind,
        write_callee hclosed hentry hlimits hprovides hheight.1,
        writeEntries_callee hclosed hrest hlimits hprovides hheight.2]

end

end Registry

end BusCodec
