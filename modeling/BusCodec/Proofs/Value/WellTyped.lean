import BusCodec.Proofs.Signature.Parsing
import BusCodec.Value.Basic

/-!
Values that are what their signatures say.  The constructors of such a value
follow its type, and the signatures that its arrays and dictionaries name are
the right ones at every depth, also inside variants.
-/

namespace BusCodec

namespace BusType

theorem signature_struct (first : BusType) (rest : List BusType) :
    (BusType.struct first rest).signature =
      "(" ++ signatureAll (first :: rest) ++ ")" := by
  apply String.toList_injective
  simp [signature, signatureAll, codes, codesAll]

theorem signatureAll_cons (type : BusType) (types : List BusType) :
    signatureAll (type :: types) = type.signature ++ signatureAll types := by
  apply String.toList_injective
  simp [signature, signatureAll, codesAll]

theorem signature_basic (type : BasicType) :
    (BusType.basic type).signature = type.signatureText :=
  rfl

end BusType

namespace Value

mutual

/-- Whether a value is one of the type. -/
def HasType : Value → BusType → Prop
  | .basic value, .basic type => value.type = type
  | .variant inner, .variant =>
      match BusType.parse inner.signature with
      | .ok type => HasType inner type
      | .error _ => False
  | .array signature items, .array element =>
      signature = (BusType.array element).signature ∧ ItemsHaveType items element
  | .dict signature entries, .dict key value =>
      signature = (BusType.dict key value).signature ∧ EntriesHaveType entries key value
  | .struct members, .struct first rest => HaveTypes members (first :: rest)
  | _, _ => False
termination_by structural value => value

def ItemsHaveType : List Value → BusType → Prop
  | [], _ => True
  | item :: items, element => HasType item element ∧ ItemsHaveType items element
termination_by structural items => items

def EntriesHaveType : List (Key × Value) → BasicType → BusType → Prop
  | [], _, _ => True
  | (key, entry) :: entries, keyType, valueType =>
      key.value.type = keyType ∧ HasType entry valueType ∧
        EntriesHaveType entries keyType valueType
termination_by structural entries => entries

def HaveTypes : List Value → List BusType → Prop
  | [], [] => True
  | value :: values, type :: types => HasType value type ∧ HaveTypes values types
  | _, _ => False
termination_by structural values => values

end

mutual

/-- Whether no dictionary in a value lists a key twice, as a dictionary is a map. -/
def DistinctKeys : Value → Prop
  | .basic _ => True
  | .variant inner => DistinctKeys inner
  | .array _ items => AllDistinctKeys items
  | .dict _ entries => (entries.map Prod.fst).Nodup ∧ EntriesDistinctKeys entries
  | .struct members => AllDistinctKeys members
termination_by structural value => value

def AllDistinctKeys : List Value → Prop
  | [] => True
  | value :: values => DistinctKeys value ∧ AllDistinctKeys values
termination_by structural values => values

def EntriesDistinctKeys : List (Key × Value) → Prop
  | [] => True
  | (_, entry) :: entries => DistinctKeys entry ∧ EntriesDistinctKeys entries
termination_by structural entries => entries

end

mutual

/-- The number of variants that are nested in one another on the longest path
into a value. -/
def variantDepth : Value → Nat
  | .basic _ => 0
  | .variant inner => variantDepth inner + 1
  | .array _ items => variantDepthAll items
  | .dict _ entries => variantDepthEntries entries
  | .struct members => variantDepthAll members
termination_by structural value => value

def variantDepthAll : List Value → Nat
  | [] => 0
  | value :: values => max (variantDepth value) (variantDepthAll values)
termination_by structural values => values

def variantDepthEntries : List (Key × Value) → Nat
  | [] => 0
  | (_, entry) :: entries => max (variantDepth entry) (variantDepthEntries entries)
termination_by structural entries => entries

end

mutual

/-- A value in which a dictionary that lists a key more than once has only its
last value for it. -/
def settled : Value → Value
  | .basic value => .basic value
  | .variant inner => .variant (settled inner)
  | .array signature items => .array signature (settledAll items)
  | .dict signature entries => .dict signature (Entries.ofList (settledEntries entries))
  | .struct members => .struct (settledAll members)
termination_by structural value => value

def settledAll : List Value → List Value
  | [] => []
  | value :: values => settled value :: settledAll values
termination_by structural values => values

def settledEntries : List (Key × Value) → List (Key × Value)
  | [] => []
  | (key, entry) :: entries => (key, settled entry) :: settledEntries entries
termination_by structural entries => entries

end

theorem hasType_variant_iff {inner : Value} :
    HasType (.variant inner) .variant ↔
      ∃ type, BusType.parse inner.signature = .ok type ∧ HasType inner type := by
  rw [HasType]
  cases BusType.parse inner.signature with
  | ok type => simp
  | error error => simp

theorem hasType_basic_cases {value : Value} {type : BasicType}
    (h : HasType value (.basic type)) :
    ∃ basic, value = .basic basic ∧ basic.type = type := by
  cases value with
  | basic basic => exact ⟨basic, rfl, h⟩
  | _ => cases h

theorem hasType_variant_cases {value : Value} (h : HasType value .variant) :
    ∃ inner, value = .variant inner := by
  cases value with
  | variant inner => exact ⟨inner, rfl⟩
  | _ => cases h

theorem hasType_array_cases {value : Value} {element : BusType}
    (h : HasType value (.array element)) :
    ∃ items, value = .array (BusType.array element).signature items ∧
      ItemsHaveType items element := by
  cases value with
  | array signature items => exact ⟨items, by rw [h.1], h.2⟩
  | _ => cases h

theorem hasType_dict_cases {value : Value} {key : BasicType} {type : BusType}
    (h : HasType value (.dict key type)) :
    ∃ entries, value = .dict (BusType.dict key type).signature entries ∧
      EntriesHaveType entries key type := by
  cases value with
  | dict signature entries => exact ⟨entries, by rw [h.1], h.2⟩
  | _ => cases h

theorem hasType_struct_cases {value : Value} {first : BusType} {rest : List BusType}
    (h : HasType value (.struct first rest)) :
    ∃ member members, value = .struct (member :: members) ∧ HasType member first ∧
      HaveTypes members rest := by
  cases value with
  | struct members =>
      cases members with
      | nil => cases h
      | cons member members => exact ⟨member, members, rfl, h.1, h.2⟩
  | _ => cases h

mutual

theorem signature_eq_of_hasType : ∀ {value : Value} {type : BusType},
    HasType value type → value.signature = type.signature
  | .basic value, type, h => by
      cases type with
      | basic type => rw [signature, BusType.signature_basic, show value.type = type from h]
      | _ => cases h
  | .variant inner, type, h => by
      cases type with
      | variant => rfl
      | _ => cases h
  | .array signature items, type, h => by
      cases type with
      | array element => exact h.1
      | _ => cases h
  | .dict signature entries, type, h => by
      cases type with
      | dict key value => exact h.1
      | _ => cases h
  | .struct members, type, h => by
      cases type with
      | struct first rest =>
          rw [signature, BusType.signature_struct, signatureAll_eq_of_haveTypes h]
      | _ => cases h

theorem signatureAll_eq_of_haveTypes : ∀ {values : List Value} {types : List BusType},
    HaveTypes values types → signatureAll values = BusType.signatureAll types
  | [], types, h => by
      cases types with
      | nil => rfl
      | cons type types => cases h
  | value :: values, types, h => by
      cases types with
      | nil => cases h
      | cons type types =>
          rw [signatureAll, BusType.signatureAll_cons, signature_eq_of_hasType h.1,
            signatureAll_eq_of_haveTypes h.2]

end

theorem length_eq_of_haveTypes {values : List Value} {types : List BusType}
    (h : HaveTypes values types) : values.length = types.length := by
  induction values generalizing types with
  | nil =>
      cases types with
      | nil => rfl
      | cons type types => cases h
  | cons value values ih =>
      cases types with
      | nil => cases h
      | cons type types => rw [List.length_cons, List.length_cons, ih h.2]

end Value

namespace Entries

theorem insert_of_not_mem {key : Key} {value : Value} {entries : Entries}
    (h : key ∉ entries.map Prod.fst) :
    insert key value entries = entries ++ [(key, value)] := by
  induction entries with
  | nil => rfl
  | cons entry entries ih =>
      simp only [List.map_cons, List.mem_cons, not_or] at h
      rw [insert, if_neg (Ne.symm h.1), ih h.2, List.cons_append]

theorem ofList_of_nodup {entries : List (Key × Value)}
    (h : (entries.map Prod.fst).Nodup) : ofList entries = entries := by
  have hfold : ∀ before : Entries, ((before ++ entries).map Prod.fst).Nodup →
      entries.foldl (fun dict entry => insert entry.1 entry.2 dict) before =
        before ++ entries := by
    clear h
    intro before
    induction entries generalizing before with
    | nil => simp
    | cons entry entries ih =>
        intro h
        have hnew : entry.1 ∉ before.map Prod.fst := by
          simp only [List.map_append, List.map_cons, List.nodup_append,
            List.mem_cons] at h
          intro hmem
          exact h.2.2 _ hmem _ (.inl rfl) rfl
        rw [List.foldl_cons, insert_of_not_mem hnew, ih]
        · simp
        · simpa using h
  exact hfold [] h

end Entries

namespace Value

mutual

theorem settled_eq_self : ∀ {value : Value}, DistinctKeys value → settled value = value
  | .basic _, _ => rfl
  | .variant inner, h => by
      have hinner : DistinctKeys inner := h
      rw [settled, settled_eq_self hinner]
  | .array signature items, h => by
      have hitems : AllDistinctKeys items := h
      rw [settled, settledAll_eq_self hitems]
  | .dict signature entries, h => by
      rw [settled, settledEntries_eq_self h.2, Entries.ofList_of_nodup h.1]
  | .struct members, h => by
      have hmembers : AllDistinctKeys members := h
      rw [settled, settledAll_eq_self hmembers]

theorem settledAll_eq_self : ∀ {values : List Value}, AllDistinctKeys values →
    settledAll values = values
  | [], _ => rfl
  | value :: values, h => by
      rw [settledAll, settled_eq_self h.1, settledAll_eq_self h.2]

theorem settledEntries_eq_self : ∀ {entries : List (Key × Value)},
    EntriesDistinctKeys entries → settledEntries entries = entries
  | [], _ => rfl
  | (key, entry) :: entries, h => by
      rw [settledEntries, settled_eq_self h.1, settledEntries_eq_self h.2]

end

theorem variantDepthAll_le_iff {values : List Value} {limit : Nat} :
    variantDepthAll values ≤ limit ↔ ∀ value ∈ values, value.variantDepth ≤ limit := by
  induction values with
  | nil => simp [variantDepthAll]
  | cons value values ih => rw [variantDepthAll, Nat.max_le, ih, List.forall_mem_cons]

theorem variantDepthEntries_le_iff {entries : List (Key × Value)} {limit : Nat} :
    variantDepthEntries entries ≤ limit ↔ ∀ entry ∈ entries, entry.2.variantDepth ≤ limit := by
  induction entries with
  | nil => simp [variantDepthEntries]
  | cons entry entries ih => rw [variantDepthEntries, Nat.max_le, ih, List.forall_mem_cons]

end Value

end BusCodec
