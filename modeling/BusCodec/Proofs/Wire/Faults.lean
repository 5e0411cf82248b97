import BusCodec.Proofs.Value.Settled
import BusCodec.Proofs.Wire.Layout

/-!
Why a value has no encoding: a text in it breaks a rule, or an array in it is too
long.  There is no other reason.
-/

namespace BusCodec

namespace Value

mutual

/-- The basic values in a value, keys of dictionaries included. -/
def basics : Value → List BasicValue
  | .basic value => [value]
  | .variant inner => basics inner
  | .array _ items => basicsAll items
  | .dict _ entries => basicsEntries entries
  | .struct members => basicsAll members
termination_by structural value => value

def basicsAll : List Value → List BasicValue
  | [] => []
  | value :: values => basics value ++ basicsAll values
termination_by structural values => values

def basicsEntries : List (Key × Value) → List BasicValue
  | [] => []
  | (key, entry) :: entries => key.value :: (basics entry ++ basicsEntries entries)
termination_by structural entries => entries

end

theorem mem_basicsEntries_iff {entries : List (Key × Value)} {value : BasicValue} :
    value ∈ basicsEntries entries ↔
      ∃ entry ∈ entries, value = entry.1.value ∨ value ∈ basics entry.2 := by
  induction entries with
  | nil => simp [basicsEntries]
  | cons entry entries ih =>
      simp only [basicsEntries, List.mem_cons, List.mem_append, ih, or_and_right, exists_or,
        exists_eq_left, or_assoc]

mutual

theorem basics_settled_subset : ∀ value : Value, basics value.settled ⊆ basics value
  | .basic _ => fun _ h => h
  | .variant inner => basics_settled_subset inner
  | .array _ items => basicsAll_settled_subset items
  | .dict _ entries => by
      intro value hvalue
      obtain ⟨entry, hentry, hmem⟩ := mem_basicsEntries_iff.mp hvalue
      exact basicsEntries_settled_subset entries
        (mem_basicsEntries_iff.mpr ⟨entry, Entries.mem_of_mem_ofList hentry, hmem⟩)
  | .struct members => basicsAll_settled_subset members

theorem basicsAll_settled_subset : ∀ values : List Value,
    basicsAll (settledAll values) ⊆ basicsAll values
  | [] => fun _ h => h
  | value :: values => by
      intro found hfound
      rw [settledAll, basicsAll, List.mem_append] at hfound
      exact List.mem_append.mpr (hfound.imp (fun h => basics_settled_subset value h)
        fun h => basicsAll_settled_subset values h)

theorem basicsEntries_settled_subset : ∀ entries : List (Key × Value),
    basicsEntries (settledEntries entries) ⊆ basicsEntries entries
  | [] => fun _ h => h
  | (key, entry) :: entries => by
      intro found hfound
      rw [settledEntries, basicsEntries, List.mem_cons, List.mem_append] at hfound
      rw [basicsEntries, List.mem_cons, List.mem_append]
      exact hfound.imp_right (Or.imp (fun h => basics_settled_subset entry h)
        fun h => basicsEntries_settled_subset entries h)

end

mutual

/-- The number of bytes that the elements of each array take in the encoding of a value
that begins at an offset.  A dictionary is an array of its entries. -/
def arrayLengths (order : ByteOrder) : Value → BusType → Nat → List Nat
  | .basic _, _, _ => []
  | .variant inner, _, offset =>
      match BusType.parse inner.signature with
      | .ok type =>
          arrayLengths order inner type
            (offset + ((Layout.text order 1 inner.signature).bytes offset).size)
      | .error _ => []
  | .array _ items, .array element, offset =>
      let start := Layout.regionStart element.wireKind offset
      ((itemsLayout order items element).bytes start).size ::
        itemsArrayLengths order items element start
  | .dict _ entries, .dict _ type, offset =>
      let start := Layout.regionStart .struct offset
      ((entriesLayout order entries type).bytes start).size ::
        entriesArrayLengths order entries type start
  | .struct members, .struct first rest, offset =>
      arrayLengthsAll order members (first :: rest) (alignUp offset WireKind.struct.alignment)
  | _, _, _ => []
termination_by structural value => value

def arrayLengthsAll (order : ByteOrder) : List Value → List BusType → Nat → List Nat
  | value :: values, type :: types, offset =>
      arrayLengths order value type offset ++
        arrayLengthsAll order values types
          (offset + ((layout order value type).bytes offset).size)
  | _, _, _ => []
termination_by structural values => values

def itemsArrayLengths (order : ByteOrder) : List Value → BusType → Nat → List Nat
  | [], _, _ => []
  | item :: items, element, offset =>
      arrayLengths order item element offset ++
        itemsArrayLengths order items element
          (offset + ((layout order item element).bytes offset).size)
termination_by structural items => items

def entriesArrayLengths (order : ByteOrder) : List (Key × Value) → BusType → Nat → List Nat
  | [], _, _ => []
  | (key, entry) :: entries, type, offset =>
      let start := alignUp offset WireKind.struct.alignment
      let keyed := start + ((Layout.basic order key.value).bytes start).size
      arrayLengths order entry type keyed ++
        entriesArrayLengths order entries type
          (keyed + ((layout order entry type).bytes keyed).size)
termination_by structural entries => entries

end

/-- An error that one of the basic values causes, or one of the array lengths. -/
def CausedBy (values : List BasicValue) (lengths : List Nat) (error : Error) : Prop :=
  (∃ value ∈ values, value.fault? = some error) ∨
    ∃ length ∈ lengths, maxArrayLength < length ∧ error = .arrayTooLong length

theorem not_causedBy_nil (error : Error) : ¬ CausedBy [] [] error := by
  simp [CausedBy]

theorem causedBy_append_iff {values more : List BasicValue} {lengths others : List Nat}
    {error : Error} :
    CausedBy (values ++ more) (lengths ++ others) error ↔
      CausedBy values lengths error ∨ CausedBy more others error := by
  simp only [CausedBy, List.mem_append, or_and_right, exists_or]
  exact or_or_or_comm

theorem causedBy_cons_iff {value : BasicValue} {values : List BasicValue} {lengths : List Nat}
    {error : Error} :
    CausedBy (value :: values) lengths error ↔
      value.fault? = some error ∨ CausedBy values lengths error := by
  simp only [CausedBy, List.mem_cons, or_and_right, exists_or, exists_eq_left, or_assoc]

theorem causedBy_length_iff {length : Nat} {values : List BasicValue} {lengths : List Nat}
    {error : Error} :
    CausedBy values (length :: lengths) error ↔
      CausedBy values lengths error ∨
        maxArrayLength < length ∧ error = .arrayTooLong length := by
  simp only [CausedBy, List.mem_cons, or_and_right, exists_or, exists_eq_left, or_assoc]
  exact or_congr_right Or.comm

mutual

/-- What keeps a value from having an encoding is one of its basic values or arrays. -/
theorem fault_iff {order : ByteOrder} {error : Error} : ∀ {value : Value} {type : BusType}
    {offset : Nat}, HasType value type →
    ((layout order value type).fault offset error ↔
      CausedBy (basics value) (arrayLengths order value type offset) error)
  | .basic value, type, offset, h => by
      simp only [layout, basics, arrayLengths, causedBy_cons_iff, not_causedBy_nil, or_false]
      rfl
  | .variant inner, type, offset, h => by
      cases type with
      | variant =>
          obtain ⟨type, hparse, hinner⟩ := hasType_variant_iff.mp h
          simp only [layout, basics, arrayLengths, hparse]
          rw [← fault_iff hinner]
          exact or_iff_right (Layout.not_fault_text order 1 inner.signature offset error)
      | _ => cases h
  | .array signature items, type, offset, h => by
      cases type with
      | array element =>
          rw [basics, arrayLengths, causedBy_length_iff, ← itemsFault_iff h.2]
          rfl
      | _ => cases h
  | .dict signature entries, type, offset, h => by
      cases type with
      | dict key type =>
          rw [basics, arrayLengths, causedBy_length_iff, ← entriesFault_iff h.2]
          rfl
      | _ => cases h
  | .struct members, type, offset, h => by
      cases type with
      | struct first rest =>
          rw [basics, arrayLengths, ← faultAll_iff h,
            ← Layout.add_size_padding offset WireKind.struct.alignment_pos]
          exact or_iff_right id
      | _ => cases h

theorem faultAll_iff {order : ByteOrder} {error : Error} : ∀ {values : List Value}
    {types : List BusType} {offset : Nat}, HaveTypes values types →
    ((layoutAll order values types).fault offset error ↔
      CausedBy (basicsAll values) (arrayLengthsAll order values types offset) error)
  | [], types, offset, h => by
      cases types with
      | nil => exact iff_of_false id (not_causedBy_nil error)
      | cons type types => cases h
  | value :: values, types, offset, h => by
      cases types with
      | nil => cases h
      | cons type types =>
          rw [basicsAll, arrayLengthsAll, causedBy_append_iff, ← fault_iff h.1,
            ← faultAll_iff h.2]
          rfl

theorem itemsFault_iff {order : ByteOrder} {error : Error} : ∀ {items : List Value}
    {element : BusType} {offset : Nat}, ItemsHaveType items element →
    ((itemsLayout order items element).fault offset error ↔
      CausedBy (basicsAll items) (itemsArrayLengths order items element offset) error)
  | [], element, offset, h => iff_of_false id (not_causedBy_nil error)
  | item :: items, element, offset, h => by
      rw [basicsAll, itemsArrayLengths, causedBy_append_iff, ← fault_iff h.1,
        ← itemsFault_iff h.2]
      rfl

theorem entriesFault_iff {order : ByteOrder} {error : Error} :
    ∀ {entries : List (Key × Value)} {key : BasicType} {type : BusType} {offset : Nat},
    EntriesHaveType entries key type →
    ((entriesLayout order entries type).fault offset error ↔
      CausedBy (basicsEntries entries) (entriesArrayLengths order entries type offset) error)
  | [], key, type, offset, h => iff_of_false id (not_causedBy_nil error)
  | (key, entry) :: entries, keyType, type, offset, h => by
      rw [basicsEntries, entriesArrayLengths, causedBy_cons_iff, causedBy_append_iff,
        ← fault_iff h.2.1, ← entriesFault_iff h.2.2,
        ← Layout.add_size_padding offset WireKind.struct.alignment_pos]
      exact or_iff_right id

end

/-- An error that a basic value among the given ones causes, or a too long array. -/
def Explained (values : List BasicValue) (error : Error) : Prop :=
  (∃ value ∈ values, value.fault? = some error) ∨
    ∃ length, maxArrayLength < length ∧ error = .arrayTooLong length

theorem CausedBy.explained {values : List BasicValue} {lengths : List Nat} {error : Error}
    (h : CausedBy values lengths error) : Explained values error := by
  rcases h with hvalue | ⟨length, -, hlong⟩
  · exact .inl hvalue
  · exact .inr ⟨length, hlong⟩

end Value

end BusCodec
