import BusCodec.Proofs.Generator.Session
import BusCodec.Proofs.Procedure.Writers

/-!
What generated writers check.  A writer compares the signature that a value names
with its own, and then takes the parts of the value that it knows.  It does not ask
whether the value is built as its signature says, and passes over an array that
pretends to be a dictionary, or over a member too many that names no signature.
-/

namespace BusCodec

namespace Value

mutual

/-- Whether a value has the form of a type: an array where the type has one, a
dictionary where it has one, and a struct of as many members. -/
def HasShape : Value → BusType → Prop
  | _, .basic _ | _, .variant => True
  | .array _ items, .array element => ItemsHaveShape items element
  | .dict _ entries, .dict _ type => EntriesHaveShape entries type
  | .struct members, .struct first rest => HaveShapes members (first :: rest)
  | _, _ => False
termination_by structural value => value

def ItemsHaveShape : List Value → BusType → Prop
  | [], _ => True
  | item :: items, element => HasShape item element ∧ ItemsHaveShape items element
termination_by structural items => items

def EntriesHaveShape : List (Key × Value) → BusType → Prop
  | [], _ => True
  | (_, entry) :: entries, type => HasShape entry type ∧ EntriesHaveShape entries type
termination_by structural entries => entries

def HaveShapes : List Value → List BusType → Prop
  | [], [] => True
  | value :: values, type :: types => HasShape value type ∧ HaveShapes values types
  | _, _ => False
termination_by structural values => values

end

mutual

theorem hasShape_of_hasType : ∀ {value : Value} {type : BusType},
    HasType value type → HasShape value type
  | .basic _, .basic _, _ => trivial
  | .variant _, .variant, _ => trivial
  | .array _ _, .array _, h => itemsHaveShape_of_itemsHaveType h.2
  | .dict _ _, .dict _ _, h => entriesHaveShape_of_entriesHaveType h.2
  | .struct _, .struct _ _, h => haveShapes_of_haveTypes h

theorem itemsHaveShape_of_itemsHaveType : ∀ {items : List Value} {element : BusType},
    ItemsHaveType items element → ItemsHaveShape items element
  | [], _, _ => trivial
  | _ :: _, _, h => ⟨hasShape_of_hasType h.1, itemsHaveShape_of_itemsHaveType h.2⟩

theorem entriesHaveShape_of_entriesHaveType : ∀ {entries : List (Key × Value)}
    {key : BasicType} {type : BusType},
    EntriesHaveType entries key type → EntriesHaveShape entries type
  | [], _, _, _ => trivial
  | (_, _) :: _, _, _, h =>
      ⟨hasShape_of_hasType h.2.1, entriesHaveShape_of_entriesHaveType h.2.2⟩

theorem haveShapes_of_haveTypes : ∀ {values : List Value} {types : List BusType},
    HaveTypes values types → HaveShapes values types
  | [], [], _ => trivial
  | _ :: _, _ :: _, h => ⟨hasShape_of_hasType h.1, haveShapes_of_haveTypes h.2⟩

end

end Value

namespace Registry

variable {policy : MapPolicy} {registry : Registry} {type : BusType} {levels : Nat}

/-- A writer that comes to an end has been found in the registry and run. -/
theorem exists_writer_of_ok (hclosed : Closed policy registry) {construct : Construct}
    {body : Body} (hhandling : type.handling? .write = some (construct, body))
    (hprovides : registry.Provides .write type) {value : Value} {before written : ByteArray}
    (h : (type.callee .write).write (registry.writeWithin levels) value before =
      (.ok (), written)) :
    ∃ (left : Nat) (procedure : Procedure), procedure.body = body ∧
      procedure.signature = type.signature ∧
      procedure.write (registry.writeWithin left) (some value) before = (.ok (), written) ∧
      ∀ child ∈ type.children, registry.Provides .write child := by
  obtain ⟨procedure, hbody, hsignature, hrun, hchildren⟩ :=
    exists_writer hclosed hhandling hprovides
  cases levels with
  | zero =>
      rw [BusType.callee_of_handling hhandling] at h
      cases h
  | succ left =>
      rw [hrun] at h
      exact ⟨left, procedure, hbody, hsignature, h, hchildren⟩

mutual

/-- A value of the form of a type that a generated writer accepts is of the type. -/
theorem hasType_of_write_callee (hclosed : Closed policy registry) :
    ∀ {value : Value} {type : BusType} {levels : Nat} {body written : ByteArray},
    registry.Provides .write type → Value.HasShape value type →
    (type.callee .write).write (registry.writeWithin levels) value body =
      (.ok (), written) → Value.HasType value type
  | .basic value, type, levels, body, written, hprovides, hshape, h => by
      cases type with
      | basic type =>
          rw [BusType.callee, Callee.write] at h
          split at h
          · assumption
          · cases h
      | variant => cases h
      | _ => cases hshape
  | .variant inner, type, levels, body, written, hprovides, hshape, h => by
      cases type with
      | basic type => cases h
      | variant => exact Encode.hasType_of_variant h
      | _ => cases hshape
  | .array signature items, type, levels, body, written, hprovides, hshape, h => by
      cases type with
      | basic type => cases h
      | variant => cases h
      | array element =>
          obtain ⟨left, procedure, hbody, hsignature, hrun, hchildren⟩ :=
            exists_writer_of_ok hclosed rfl hprovides h
          rw [Procedure.write_array hbody, hsignature] at hrun
          obtain ⟨_, _, hcheck, hrun⟩ := Attempt.bind_eq_ok hrun
          obtain ⟨_, _, -, hrun⟩ := Attempt.bind_eq_ok hrun
          obtain ⟨_, _, hitems, -⟩ := Attempt.bind_eq_ok hrun
          exact ⟨Encode.eq_of_checkShape_ok (congrArg Prod.fst hcheck),
            itemsHaveType_of_writeItems hclosed (hchildren element List.mem_cons_self)
              hshape hitems⟩
      | _ => cases hshape
  | .dict signature entries, type, levels, body, written, hprovides, hshape, h => by
      cases type with
      | basic type => cases h
      | variant => cases h
      | dict key type =>
          obtain ⟨left, procedure, hbody, hsignature, hrun, hchildren⟩ :=
            exists_writer_of_ok hclosed rfl hprovides h
          rw [Procedure.write_dictionary hbody, hsignature] at hrun
          obtain ⟨_, _, hcheck, hrun⟩ := Attempt.bind_eq_ok hrun
          obtain ⟨_, _, -, hrun⟩ := Attempt.bind_eq_ok hrun
          obtain ⟨_, _, hentries, -⟩ := Attempt.bind_eq_ok hrun
          exact ⟨Encode.eq_of_checkShape_ok (congrArg Prod.fst hcheck),
            entriesHaveType_of_writeEntries hclosed
              (hchildren type (List.mem_cons_of_mem _ List.mem_cons_self)) hshape hentries⟩
      | _ => cases hshape
  | .struct members, type, levels, body, written, hprovides, hshape, h => by
      cases type with
      | basic type => cases h
      | variant => cases h
      | struct first rest =>
          obtain ⟨left, procedure, hbody, hsignature, hrun, hchildren⟩ :=
            exists_writer_of_ok hclosed rfl hprovides h
          rw [Procedure.write_struct hbody, hsignature] at hrun
          obtain ⟨_, _, -, hrun⟩ := Attempt.bind_eq_ok hrun
          obtain ⟨_, _, -, hmembers⟩ := Attempt.bind_eq_ok hrun
          exact haveTypes_of_writeAll hclosed hchildren hshape hmembers
      | _ => cases hshape

theorem itemsHaveType_of_writeItems (hclosed : Closed policy registry) :
    ∀ {items : List Value} {element : BusType} {levels : Nat} {body written : ByteArray},
    registry.Provides .write element → Value.ItemsHaveShape items element →
    Callee.writeItems (registry.writeWithin levels) (element.callee .write) items body =
      (.ok (), written) → Value.ItemsHaveType items element
  | [], _, _, _, _, _, _, _ => trivial
  | item :: items, element, levels, body, written, hprovides, hshape, h => by
      rw [Callee.writeItems] at h
      obtain ⟨_, _, hitem, hitems⟩ := Attempt.bind_eq_ok h
      exact ⟨hasType_of_write_callee hclosed hprovides hshape.1 hitem,
        itemsHaveType_of_writeItems hclosed hprovides hshape.2 hitems⟩

theorem entriesHaveType_of_writeEntries (hclosed : Closed policy registry) :
    ∀ {entries : List (Key × Value)} {key : BasicType} {type : BusType} {levels : Nat}
      {body written : ByteArray},
    registry.Provides .write type → Value.EntriesHaveShape entries type →
    Callee.writeEntries (registry.writeWithin levels) (.primitive key) (type.callee .write)
      entries body = (.ok (), written) → Value.EntriesHaveType entries key type
  | [], _, _, _, _, _, _, _, _ => trivial
  | (key, entry) :: entries, keyType, type, levels, body, written, hprovides, hshape, h => by
      rw [Callee.writeEntries] at h
      obtain ⟨_, _, -, h⟩ := Attempt.bind_eq_ok h
      obtain ⟨_, _, hkey, h⟩ := Attempt.bind_eq_ok h
      obtain ⟨_, _, hentry, hentries⟩ := Attempt.bind_eq_ok h
      refine ⟨?_, hasType_of_write_callee hclosed hprovides hshape.1 hentry,
        entriesHaveType_of_writeEntries hclosed hprovides hshape.2 hentries⟩
      simp only [Callee.write] at hkey
      split at hkey
      · assumption
      · cases hkey

theorem haveTypes_of_writeAll (hclosed : Closed policy registry) :
    ∀ {values : List Value} {types : List BusType} {levels : Nat} {body written : ByteArray},
    (∀ type ∈ types, registry.Provides .write type) → Value.HaveShapes values types →
    Callee.writeAll (registry.writeWithin levels) (types.map (BusType.callee .write)) values
      body = (.ok (), written) → Value.HaveTypes values types
  | [], [], _, _, _, _, _, _ => trivial
  | value :: values, type :: types, levels, body, written, hprovides, hshape, h => by
      rw [List.forall_mem_cons] at hprovides
      rw [List.map_cons, Callee.writeAll] at h
      obtain ⟨_, _, hvalue, hvalues⟩ := Attempt.bind_eq_ok h
      exact ⟨hasType_of_write_callee hclosed hprovides.1 hshape.1 hvalue,
        haveTypes_of_writeAll hclosed hprovides.2 hshape.2 hvalues⟩

end

theorem exists_type_of_get? (hclosed : Closed policy registry) {name : String}
    {procedure : Procedure} (hget : registry.get? .write name = some procedure)
    (hcontainer : procedure.isEntry = false) :
    ∃ type construct, BusType.WithinLimits [type] ∧ procedure.signature = type.signature ∧
      registry.Provides .write type ∧ type.callee .write = .procedure name construct := by
  rcases hclosed _ _ _ hget with
    ⟨type, hlimits, hhandles, -⟩ | ⟨signature, variant, types, hhandles, -⟩
  · obtain ⟨hcallee, hprovides⟩ := hhandles.called hget
    exact ⟨type, procedure.construct, hlimits, hhandles.signature_eq, hprovides, hcallee⟩
  · rw [Procedure.isEntry, hhandles.body_eq] at hcontainer
    cases hcontainer

end Registry

namespace Generator

variable {generator : Generator}

/-- A generated writer accepts what the writer of values accepts, and writes the same.
Of what else it accepts, nothing has the form of its type. -/
theorem value_eq_ok_iff_writeValue (hreachable : generator.Reachable) {name : String}
    {procedure : Procedure} (hget : generator.registry.get? .write name = some procedure)
    (hcontainer : procedure.isEntry = false) :
    ∃ type, BusType.parse procedure.signature = .ok type ∧
      ∀ (value : Value) (body written : ByteArray), value.signature = procedure.signature →
        (Encode.value value body = (.ok (), written) ↔
          Value.HasShape value type ∧
            generator.registry.writeValue name (some value) body = (.ok (), written)) := by
  have hclosed := hreachable.sound
  obtain ⟨type, construct, hlimits, hsignature, hprovides, hcallee⟩ :=
    Registry.exists_type_of_get? hclosed hget hcontainer
  refine ⟨type, by rw [hsignature, BusType.parse_signature hlimits], ?_⟩
  intro value body written hvalue
  rw [hsignature] at hvalue
  have hrun : generator.registry.writeValue name (some value) =
      (type.callee .write).write
        (generator.registry.writeWithin (generator.registry.writeLevels value.height))
        value := by
    rw [hcallee]
    rfl
  have hsame : Value.HasType value type →
      generator.registry.writeValue name (some value) = Encode.value value := by
    intro htype
    rw [hrun]
    exact Registry.write_callee hclosed htype hlimits hprovides
      (Registry.lt_writeLevels hget value.height)
  constructor
  · intro hwritten
    obtain ⟨own, hown⟩ := Encode.exists_hasType_of_value hwritten
    have heq : own = type := by
      apply BusType.signature_injective
      rw [← Value.signature_eq_of_hasType hown, hvalue]
    subst heq
    exact ⟨Value.hasShape_of_hasType hown, by rw [hsame hown, hwritten]⟩
  · rintro ⟨hshape, hwritten⟩
    rw [hrun] at hwritten
    have htype := Registry.hasType_of_write_callee hclosed hprovides hshape hwritten
    rw [← hsame htype, hrun]
    exact hwritten

theorem writeValue_array :
    (performAll {} [.callee .write "ai"]).2.registry.writeValue "write_array_ai"
        (some (.array "ai" [.basic (.int32 7)])) .empty =
      (.ok (), ⟨#[4, 0, 0, 0, 7, 0, 0, 0]⟩) := by
  have hreachable : Reachable (performAll {} [.callee .write "ai"]).2 :=
    ⟨fun _ => .hashed, [.callee .write "ai"], rfl⟩
  have hget : (performAll {} [.callee .write "ai"]).2.registry.get? .write "write_array_ai" =
      some ⟨"write_array_ai", .write, .array, "ai", [.option (.ref (.vec (.basic .int32)))],
        .array (.basic .int32) (.primitive .int32)⟩ := by
    rfl
  obtain ⟨type, -, hwrite⟩ := value_eq_ok_iff_writeValue hreachable hget rfl
  refine ((hwrite (.array "ai" [.basic (.int32 7)]) .empty _ rfl).mp ?_).2
  rfl

/-- A dictionary that names the signature of an array is written as an empty array.
Its entry is left out. -/
theorem writeValue_pretended_array :
    (performAll {} [.callee .write "ai"]).2.registry.writeValue "write_array_ai"
        (some (.dict "ai" [(⟨.byte 1, by decide⟩, .basic (.byte 2))])) .empty =
          (.ok (), ⟨#[0, 0, 0, 0]⟩) ∧
      Encode.value (.dict "ai" [(⟨.byte 1, by decide⟩, .basic (.byte 2))]) .empty =
        (.error (.valueShape "dictionary" "ai"), .empty) := by
  constructor <;> rfl

end Generator

end BusCodec
