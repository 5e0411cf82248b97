import BusCodec.Proofs.Procedure.MessageRoundTrip
import BusCodec.Proofs.Procedure.ReadersAgree

/-!
Running generated procedures.  A run finds every procedure that it calls and comes to an
end: if it fails, then because of the bytes that it reads or the value that it writes.
-/

namespace BusCodec

namespace Encode

open Attempt

theorem blamesData_word (width value : Nat) : (word width value).BlamesData :=
  (failsOnly_update _).bind fun _ => failsOnly_update _

theorem blamesData_text (lengthWidth : Nat) (value : String) :
    (text lengthWidth value).BlamesData := by
  rw [text]
  split
  · exact failsOnly_fail (by exact trivial)
  · split
    · exact (blamesData_word _ _).bind fun _ => (failsOnly_update _).bind fun _ =>
        failsOnly_update _
    · exact failsOnly_fail (by exact trivial)

theorem blamesData_signature (value : String) : (signature value).BlamesData :=
  (failsOnly_liftGrammar (fun _ => trivial) _).bind fun _ => blamesData_text 1 value

theorem blamesData_basic (value : BasicValue) : (basic value).BlamesData := by
  cases value with
  | string value => exact blamesData_text 4 value
  | objectPath path =>
      rw [basic, objectPath]
      split
      · exact blamesData_text 4 path
      · exact failsOnly_fail (by exact trivial)
  | signature value => exact blamesData_signature value
  | _ => exact blamesData_word _ _

theorem blamesData_openArray (element : WireKind) : (openArray element).BlamesData :=
  (failsOnly_update _).bind fun _ => failsOnly_state.bind fun _ =>
    (failsOnly_update _).bind fun _ => (failsOnly_update _).bind fun _ =>
      failsOnly_state.bind fun _ => failsOnly_pure _

theorem blamesData_closeArray (array : OpenArray) : (closeArray array).BlamesData := by
  refine failsOnly_state.bind fun body => ?_
  simp only
  split
  · exact failsOnly_fail (by exact trivial)
  · exact failsOnly_update _

theorem blamesData_checkShape (expected : String) (value : Value) :
    (lift (value.checkShape expected) : Encode Unit).BlamesData := by
  apply failsOnly_lift
  intro error herror
  rw [Value.checkShape] at herror
  split at herror <;> cases herror
  trivial

theorem blamesData_array (element : WireKind) {items : Encode Unit} (h : items.BlamesData) :
    (openArray element >>= fun array => items >>= fun _ => closeArray array).BlamesData :=
  (blamesData_openArray element).bind fun array => h.bind fun _ => blamesData_closeArray array

mutual

theorem blamesData_value : ∀ value : Value, (Encode.value value).BlamesData
  | .basic value => blamesData_basic value
  | .variant inner =>
      (failsOnly_liftGrammar (fun _ => trivial) _).bind fun _ =>
        (blamesData_signature _).bind fun _ => blamesData_value inner
  | .array signature items => by
      refine (failsOnly_liftGrammar (fun _ => trivial) _).bind fun type => ?_
      cases type with
      | array element => exact blamesData_array _ (blamesData_itemsOf _ items)
      | _ => exact failsOnly_fail (by exact trivial)
  | .dict signature entries => by
      refine (failsOnly_liftGrammar (fun _ => trivial) _).bind fun type => ?_
      cases type with
      | dict key type => exact blamesData_array _ (blamesData_entriesOf _ _ entries)
      | _ => exact failsOnly_fail (by exact trivial)
  | .struct [] => failsOnly_fail (by exact trivial)
  | .struct (first :: rest) =>
      (failsOnly_update _).bind fun _ => (blamesData_value first).bind fun _ =>
        blamesData_values rest

theorem blamesData_values : ∀ values : List Value, (Encode.values values).BlamesData
  | [] => failsOnly_pure ()
  | first :: rest => (blamesData_value first).bind fun _ => blamesData_values rest

theorem blamesData_itemsOf (signature : String) :
    ∀ items : List Value, (itemsOf signature items).BlamesData
  | [] => failsOnly_pure ()
  | item :: items =>
      (blamesData_checkShape signature item).bind fun _ => (blamesData_value item).bind fun _ =>
        blamesData_itemsOf signature items

theorem blamesData_entriesOf (key value : String) :
    ∀ entries : List (Key × Value), (entriesOf key value entries).BlamesData
  | [] => failsOnly_pure ()
  | (entryKey, entry) :: entries =>
      (failsOnly_update _).bind fun _ => (blamesData_checkShape key _).bind fun _ =>
        (blamesData_basic entryKey.value).bind fun _ => (blamesData_checkShape value entry).bind
          fun _ => (blamesData_value entry).bind fun _ => blamesData_entriesOf key value entries

end

end Encode

namespace Value

theorem height_le_of_mem {value : Value} {values : List Value} (h : value ∈ values) :
    value.height ≤ heightAll values := by
  induction values with
  | nil => cases h
  | cons first rest ih =>
      rw [heightAll]
      rcases List.mem_cons.mp h with rfl | hrest
      · exact Nat.le_max_left _ _
      · exact Nat.le_trans (ih hrest) (Nat.le_max_right _ _)

theorem height_le_of_mem_entries {entry : Key × Value} {entries : List (Key × Value)}
    (h : entry ∈ entries) : entry.2.height ≤ heightEntries entries := by
  induction entries with
  | nil => cases h
  | cons first rest ih =>
      rw [heightEntries]
      rcases List.mem_cons.mp h with rfl | hrest
      · exact Nat.le_max_left _ _
      · exact Nat.le_trans (ih hrest) (Nat.le_max_right _ _)

end Value

namespace Callee

open Attempt

variable {run : String → Option Value → Encode Unit}

theorem blamesData_primitive (type : BasicType) (value : Value) :
    (Callee.write run (.primitive type) value).BlamesData := by
  cases value with
  | basic value =>
      rw [Callee.write]
      split
      · exact Encode.blamesData_basic value
      · exact failsOnly_fail (by exact trivial)
  | _ => exact failsOnly_fail (by exact trivial)

theorem blamesData_variant (value : Value) : (Callee.write run .variant value).BlamesData := by
  cases value with
  | variant inner => exact Encode.blamesData_value (.variant inner)
  | _ => exact failsOnly_fail (by exact trivial)

theorem blamesData_writeAll {callees : List Callee} {values : List Value}
    (h : ∀ callee ∈ callees, ∀ value ∈ values, (callee.write run value).BlamesData) :
    (writeAll run callees values).BlamesData := by
  induction callees generalizing values with
  | nil => exact failsOnly_pure ()
  | cons callee callees ih =>
      cases values with
      | nil => exact failsOnly_pure ()
      | cons value values =>
          refine (h callee List.mem_cons_self value List.mem_cons_self).bind fun _ => ?_
          exact ih fun other hother inner hinner =>
            h other (List.mem_cons_of_mem _ hother) inner (List.mem_cons_of_mem _ hinner)

theorem blamesData_writeItems {item : Callee} {values : List Value}
    (h : ∀ value ∈ values, (item.write run value).BlamesData) :
    (writeItems run item values).BlamesData := by
  induction values with
  | nil => exact failsOnly_pure ()
  | cons value values ih =>
      refine (h value List.mem_cons_self).bind fun _ => ?_
      exact ih fun other hother => h other (List.mem_cons_of_mem _ hother)

theorem blamesData_writeEntries {key : BasicType} {item : Callee}
    {entries : List (Key × Value)}
    (h : ∀ entry ∈ entries, (item.write run entry.2).BlamesData) :
    (writeEntries run (.primitive key) item entries).BlamesData := by
  induction entries with
  | nil => exact failsOnly_pure ()
  | cons entry entries ih =>
      refine (failsOnly_update _).bind fun _ => (blamesData_primitive key _).bind fun _ =>
        (h entry List.mem_cons_self).bind fun _ => ?_
      exact ih fun other hother => h other (List.mem_cons_of_mem _ hother)

end Callee

namespace Procedure

open Attempt

variable {run : String → Option Value → Encode Unit}

theorem blamesData_write_none (procedure : Procedure) :
    (procedure.write run none).BlamesData := by
  obtain ⟨name, access, construct, signature, native, body⟩ := procedure
  cases body with
  | array element item =>
      exact (failsOnly_pure ()).bind fun _ => Encode.blamesData_array _ (failsOnly_pure ())
  | dictionary key value =>
      exact (failsOnly_pure ()).bind fun _ => Encode.blamesData_array _ (failsOnly_pure ())
  | struct members => exact (failsOnly_pure ()).bind fun _ => failsOnly_fail (by exact trivial)
  | message variant values =>
      -- The clauses for messages ask for one value or for several before they ask for any.
      rcases values with _ | ⟨first, _ | ⟨second, rest⟩⟩ <;>
        exact (failsOnly_pure ()).bind fun _ => failsOnly_fail (by exact trivial)

/-- An entry writer takes a value as the only one of a body, or its members as all of
them. -/
theorem write_message (procedure : Procedure) {variant : Option String} {callees : List Callee}
    (h : procedure.body = .message variant callees) (value : Value) :
    ∃ values, (∀ inner ∈ values, inner.height ≤ value.height) ∧
      procedure.write run (some value) = procedure.writeBody run values := by
  obtain ⟨name, access, construct, signature, native, body⟩ := procedure
  cases h
  have hmembers : ∀ members, ∀ inner ∈ members, inner.height ≤ (Value.struct members).height := by
    intro members inner hinner
    rw [Value.height]
    exact Nat.le_succ_of_le (Value.height_le_of_mem hinner)
  have hself : ∀ inner ∈ [value], inner.height ≤ value.height := by
    intro inner hinner
    exact Nat.le_of_eq (congrArg Value.height (List.mem_singleton.mp hinner))
  rcases callees with _ | ⟨first, _ | ⟨second, rest⟩⟩
  · cases value with
    | struct members => exact ⟨members, hmembers members, rfl⟩
    | _ => exact ⟨_, hself, rfl⟩
  · exact ⟨[value], hself, rfl⟩
  · cases value with
    | struct members => exact ⟨members, hmembers members, rfl⟩
    | _ => exact ⟨_, hself, rfl⟩

end Procedure

namespace Registry

open Attempt

variable {policy : MapPolicy} {registry : Registry} {access : Access} {name : String}
  {procedure : Procedure} {type : BusType}

/-- What is called for a type writes a value or blames it, when calls may be nested as
deeply as the containers in the value. -/
theorem blamesData_write_callee (hclosed : Closed policy registry) {levels : Nat}
    {value : Value} (hprovides : registry.Provides .write type) (hheight : value.height < levels) :
    ((type.callee .write).write (registry.writeWithin levels) value).BlamesData := by
  induction levels generalizing type value with
  | zero => exact absurd hheight (Nat.not_lt_zero _)
  | succ left ih =>
      have hbelow : value.height ≤ left := Nat.le_of_lt_succ hheight
      cases type with
      | basic type => exact Callee.blamesData_primitive type value
      | variant => exact Callee.blamesData_variant value
      | array element =>
          obtain ⟨procedure, hbody, -, hrun, hchildren⟩ :=
            exists_writer hclosed rfl hprovides
          rw [hrun, Procedure.write_array hbody]
          refine (Encode.blamesData_checkShape _ value).bind fun _ =>
            Encode.blamesData_array _ ?_
          cases value with
          | array signature items =>
              refine Callee.blamesData_writeItems fun item hitem => ?_
              have hitemHeight := Value.height_le_of_mem hitem
              rw [Value.height] at hbelow
              exact ih (hchildren element List.mem_cons_self) (by omega)
          | _ => exact failsOnly_pure ()
      | dict key entryType =>
          obtain ⟨procedure, hbody, -, hrun, hchildren⟩ :=
            exists_writer hclosed rfl hprovides
          rw [hrun, Procedure.write_dictionary hbody]
          refine (Encode.blamesData_checkShape _ value).bind fun _ =>
            Encode.blamesData_array _ ?_
          cases value with
          | dict signature entries =>
              refine Callee.blamesData_writeEntries fun entry hentry => ?_
              have hentryHeight := Value.height_le_of_mem_entries hentry
              rw [Value.height] at hbelow
              exact ih (hchildren entryType (List.mem_cons_of_mem _ List.mem_cons_self)) (by omega)
          | _ => exact failsOnly_pure ()
      | struct first rest =>
          obtain ⟨procedure, hbody, -, hrun, hchildren⟩ :=
            exists_writer hclosed rfl hprovides
          rw [hrun, Procedure.write_struct hbody]
          refine (Encode.blamesData_checkShape _ value).bind fun _ => ?_
          cases value with
          | struct members =>
              refine (failsOnly_update _).bind fun _ => Callee.blamesData_writeAll ?_
              intro callee hcallee member hmember
              have hmemberHeight := Value.height_le_of_mem hmember
              rw [Value.height] at hbelow
              rw [← List.map_cons, List.mem_map] at hcallee
              obtain ⟨child, hchild, rfl⟩ := hcallee
              exact ih (hchildren child hchild) (by omega)
          | _ => exact failsOnly_fail (by exact trivial)

theorem blamesData_writeBody {run : String → Option Value → Encode Unit} {signature : String}
    {variant : Bool} {types : List BusType} {values : List Value}
    (hhandles : procedure.HandlesMessage policy .write signature variant types)
    (h : ∀ type ∈ types, ∀ value ∈ values, ((type.callee .write).write run value).BlamesData) :
    (procedure.writeBody run values).BlamesData := by
  have hvalues : (Callee.writeAll run (types.map (BusType.callee .write)) values).BlamesData := by
    apply Callee.blamesData_writeAll
    intro callee hcallee value hvalue
    obtain ⟨type, htype, rfl⟩ := List.mem_map.mp hcallee
    exact h type htype value hvalue
  rw [Procedure.writeBody, hhandles.body_eq]
  simp only
  split
  · exact failsOnly_fail (by exact trivial)
  · cases variant with
    | false => exact (failsOnly_pure ()).bind fun _ => hvalues
    | true => exact (Encode.blamesData_signature signature).bind fun _ => hvalues

/-- A registered writer writes what it is given or blames it. -/
theorem blamesData_writeValue (hclosed : Closed policy registry)
    (hget : registry.get? .write name = some procedure) (value : Option Value) :
    (registry.writeValue name value).BlamesData := by
  have hsize : 0 < registry.writers.size :=
    List.length_pos_of_mem (ProcedureTable.get?_eq_some_iff.mp hget).1
  have hrun : registry.writeValue name value =
      procedure.write (registry.writeWithin
        (registry.writers.size * (value.elim 0 Value.height + 1))) value := by
    rw [writeValue, writeLevels, writeWithin, find_eq_ok hget, lift_ok_bind]
  cases value with
  | none =>
      rw [hrun]
      exact procedure.blamesData_write_none
  | some value =>
      have hlevels : value.height < registry.writers.size * (value.height + 1) :=
        Nat.lt_of_lt_of_le (Nat.lt_succ_self _) (Nat.le_mul_of_pos_left _ hsize)
      rcases hclosed _ _ _ hget with
        ⟨type, hlimits, hhandles, -⟩ | ⟨signature, variant, types, hhandles, hall⟩
      · obtain ⟨hcallee, hprovides⟩ := hhandles.called hget
        have hwrite := blamesData_write_callee hclosed hprovides
          (Nat.lt_of_lt_of_le hlevels (Nat.le_succ _))
        rw [hcallee] at hwrite
        exact hwrite
      · obtain ⟨values, hvalues, hbody⟩ := procedure.write_message hhandles.body_eq value
        rw [hrun, hbody]
        refine blamesData_writeBody hhandles fun type htype inner hinner => ?_
        exact blamesData_write_callee hclosed (hall type htype)
          (Nat.lt_of_le_of_lt (hvalues inner hinner) hlevels)

/-- A registered reader reads a value of a byte or more, or blames the buffer. -/
theorem proceeds_readValue (hclosed : Closed policy registry)
    (hget : registry.get? .read name = some procedure) :
    Decode.Proceeds 1 (registry.readValue name) := by
  rcases hclosed _ _ _ hget with
    ⟨type, hlimits, hhandles, -⟩ | ⟨signature, variant, types, hhandles, hall⟩
  · obtain ⟨hcallee, hprovides⟩ := hhandles.called hget
    have hread := readCallee_callee hclosed hprovides
    rw [hcallee] at hread
    change registry.readValue name = _ at hread
    rw [hread]
    exact Decode.proceeds_value type
  · rw [readValue_eq hclosed hget hhandles hall]
    obtain ⟨-, hnonempty, -⟩ := Generator.entryTypes_eq_ok_iff.mp hhandles.types_eq
    obtain ⟨first, rest, rfl⟩ := List.exists_cons_of_ne_nil hnonempty
    have hvalues : Decode.Proceeds 1 (Decode.valuesWith Decode.variant (first :: rest)) :=
      (Decode.proceeds_value first).andThen fun value =>
        (Decode.proceeds_valuesWith Decode.proceeds_variant rest).map fun values =>
          value :: values
    cases variant with
    | false => exact hvalues.map Body.messageValue
    | true =>
        have hmessage := (Decode.proceeds_expectSignature signature).andThen fun _ =>
          hvalues.mono (Nat.zero_le 1)
        exact hmessage.map Body.messageValue

theorem blamesData_readValue (hclosed : Closed policy registry)
    (hget : registry.get? .read name = some procedure) (buffer : Buffer) :
    Attempt.BlamesData (registry.readValue name buffer) :=
  ((proceeds_readValue hclosed hget).blames buffer).mono fun _ => Error.OfBytes.ofData

end Registry

end BusCodec
