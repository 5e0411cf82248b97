import BusCodec.Proofs.Value.WellTyped
import BusCodec.Value.ObjectPath
import BusCodec.Wire.ByteOrder

/-!
The wire format as a function of the value.  The bytes of a value depend on the
offset at which they begin, because everything is padded to a boundary.  A value
that breaks a rule of the format, such as a text with a nul byte in it, has no
bytes but a fault.
-/

namespace BusCodec

theorem alignUp_eq_self {index alignment : Nat} (h : 0 < alignment)
    (hdvd : alignment ∣ index) : alignUp index alignment = index := by
  obtain ⟨quotient, rfl⟩ := hdvd
  have hle := le_alignUp (alignment * quotient) h
  have hlt := alignUp_lt (alignment * quotient) h
  obtain ⟨other, hother⟩ := dvd_alignUp (alignment * quotient) alignment
  rw [hother] at hle hlt ⊢
  have hquotient : quotient ≤ other := Nat.le_of_mul_le_mul_left hle h
  have hother : other < quotient + 1 := by
    apply Nat.lt_of_mul_lt_mul_left (a := alignment)
    rw [Nat.mul_succ]
    exact hlt
  rw [Nat.le_antisymm (Nat.le_of_lt_succ hother) hquotient]

theorem alignUp_alignUp (index : Nat) {alignment : Nat} (h : 0 < alignment) :
    alignUp (alignUp index alignment) alignment = alignUp index alignment :=
  alignUp_eq_self h (dvd_alignUp index alignment)

namespace BasicValue

/-- Why a text cannot stand behind a length field of the given width. -/
def textFault? (lengthWidth : Nat) (text : String) : Option Error :=
  if text.toByteArray.data.contains 0 then some .interiorNul
  else if text.toByteArray.size < Word.limit lengthWidth then none
  else some (.textTooLong text.toByteArray.size)

/-- Why a value has no encoding. -/
def fault? : BasicValue → Option Error
  | string text => textFault? 4 text
  | objectPath path =>
      if ObjectPath.isValid path then textFault? 4 path else some (.invalidObjectPath path)
  | signature text =>
      match BusType.parseAll text with
      | .ok _ => textFault? 1 text
      | .error error => some (.grammar error)
  | _ => none

theorem textFault?_signatureAll {types : List BusType} (h : BusType.WithinLimits types) :
    textFault? 1 (BusType.signatureAll types) = none := by
  have hbytes := BusType.bytes_signatureAll types
  have hlength := h.length
  have hnul : (BusType.signatureAll types).toByteArray.data.contains 0 = false := by
    rw [hbytes, List.data_toByteArray, List.contains_toArray, List.contains_eq_mem]
    rw [decide_eq_false_iff_not, List.mem_map]
    rintro ⟨letter, hletter, hzero⟩
    have hcode := BusType.val_of_mem_alphabet letter
      (BusType.mem_alphabet_of_mem_codesAll hletter)
    have hbyte := congrArg UInt8.toNat hzero
    rw [UInt8.toNat_ofNat'] at hbyte
    simp only [UInt8.reduceToNat] at hbyte
    omega
  have hsize : (BusType.signatureAll types).toByteArray.size < Word.limit 1 := by
    rw [hbytes, List.size_toByteArray, List.length_map]
    exact Nat.lt_of_le_of_lt hlength (by decide)
  rw [textFault?, hnul, if_neg Bool.false_ne_true, if_pos hsize]

theorem textFault?_signature {type : BusType} (h : BusType.WithinLimits [type]) :
    textFault? 1 type.signature = none := by
  rw [BusType.signature_eq_signatureAll]
  exact textFault?_signatureAll h

end BasicValue

/-- The encoding of something: its bytes when it begins at an offset, and the
reasons for which it cannot begin there. -/
@[ext]
structure Layout where
  bytes : Nat → ByteArray
  fault : Nat → Error → Prop

namespace Layout

def empty : Layout where
  bytes _ := .empty
  fault _ _ := False

/-- One encoding after another. -/
def append (first second : Layout) : Layout where
  bytes offset := first.bytes offset ++ second.bytes (offset + (first.bytes offset).size)
  fault offset error :=
    first.fault offset error ∨ second.fault (offset + (first.bytes offset).size) error

def raw (bytes : ByteArray) : Layout where
  bytes _ := bytes
  fault _ _ := False

def padding (alignment : Nat) : Layout where
  bytes offset := ⟨Array.replicate (alignUp offset alignment - offset) 0⟩
  fault _ _ := False

def word (order : ByteOrder) (width value : Nat) : Layout :=
  append (padding width) (raw ⟨(order.encode width value).toArray⟩)

/-- A text behind a length field and before a nul byte. -/
def text (order : ByteOrder) (lengthWidth : Nat) (text : String) : Layout :=
  append (word order lengthWidth text.toByteArray.size)
    (append (raw text.toByteArray) (raw ⟨#[0]⟩))

def basicBytes (order : ByteOrder) : BasicValue → Layout
  | .byte value => word order 1 value.toNat
  | .boolean value => word order 4 (if value then 1 else 0)
  | .int16 value => word order 2 value.toUInt16.toNat
  | .uint16 value => word order 2 value.toNat
  | .int32 value => word order 4 value.toUInt32.toNat
  | .uint32 value => word order 4 value.toNat
  | .int64 value => word order 8 value.toUInt64.toNat
  | .uint64 value => word order 8 value.toNat
  | .double bits => word order 8 bits.toNat
  | .string value => text order 4 value
  | .objectPath value => text order 4 value
  | .signature value => text order 1 value
  | .unixFd index => word order 4 index.toNat

def basic (order : ByteOrder) (value : BasicValue) : Layout where
  bytes := (basicBytes order value).bytes
  fault _ error := value.fault? = some error

theorem not_fault_word (order : ByteOrder) (width value offset : Nat) (error : Error) :
    ¬ (word order width value).fault offset error := by
  simp [word, append, padding, raw]

theorem not_fault_text (order : ByteOrder) (lengthWidth : Nat) (value : String)
    (offset : Nat) (error : Error) :
    ¬ (text order lengthWidth value).fault offset error := by
  simp [text, word, append, padding, raw]

theorem not_fault_basicBytes (order : ByteOrder) (value : BasicValue) (offset : Nat)
    (error : Error) : ¬ (basicBytes order value).fault offset error := by
  cases value with
  | string value => exact not_fault_text order 4 value offset error
  | objectPath value => exact not_fault_text order 4 value offset error
  | signature value => exact not_fault_text order 1 value offset error
  | _ => exact not_fault_word order _ _ offset error

theorem append_assoc (first second third : Layout) :
    append (append first second) third = append first (append second third) := by
  have hbytes : (append (append first second) third).bytes =
      (append first (append second third)).bytes := by
    funext offset
    simp only [append, ByteArray.size_append, ByteArray.append_assoc, Nat.add_assoc]
  have hfault : (append (append first second) third).fault =
      (append first (append second third)).fault := by
    funext offset error
    simp only [append, ByteArray.size_append, Nat.add_assoc, or_assoc]
  exact Layout.ext hbytes hfault

theorem add_size_padding (offset : Nat) {alignment : Nat} (h : 0 < alignment) :
    offset + ((padding alignment).bytes offset).size = alignUp offset alignment := by
  have hle := le_alignUp offset h
  simp only [padding, ByteArray.size, Array.size_replicate]
  omega

theorem bytes_padding_alignUp (offset : Nat) {alignment : Nat} (h : 0 < alignment) :
    (padding alignment).bytes (alignUp offset alignment) = .empty := by
  simp only [padding, alignUp_alignUp offset h, Nat.sub_self, Array.replicate_zero]
  rfl

theorem size_word (order : ByteOrder) {width : Nat} (h : 0 < width) (value offset : Nat) :
    offset + ((word order width value).bytes offset).size = alignUp offset width + width := by
  have hpadding := add_size_padding offset h
  simp only [word, append, raw, ByteArray.size_append]
  simp only [ByteArray.size, List.size_toArray, ByteOrder.length_encode] at hpadding ⊢
  omega

theorem bytes_word_one (value offset : Nat) :
    (word .little 1 value).bytes offset = ⟨#[UInt8.ofNat value]⟩ := by
  have hpadding : alignUp offset 1 - offset = 0 := by
    rw [alignUp_eq_self Nat.one_pos (Nat.one_dvd offset), Nat.sub_self]
  simp only [word, append, padding, raw, hpadding]
  rfl

/-- A text behind a length of one byte is not padded. -/
theorem bytes_text_one (value : String) (offset : Nat) :
    (text .little 1 value).bytes offset =
      ⟨#[UInt8.ofNat value.utf8ByteSize]⟩ ++ value.toByteArray ++ ⟨#[0]⟩ := by
  rw [ByteArray.append_assoc]
  exact congrArg (· ++ (value.toByteArray ++ ⟨#[0]⟩)) (bytes_word_one _ offset)

/-- An encoding takes some bytes, and what comes before the boundary in it is
padding only. -/
structure StartsAt (layout : Layout) (alignment : Nat) : Prop where
  bytes : ∀ offset, layout.bytes offset =
    (padding alignment).bytes offset ++ layout.bytes (alignUp offset alignment)
  fault : ∀ offset error,
    layout.fault offset error ↔ layout.fault (alignUp offset alignment) error
  nonempty : ∀ offset, 0 < (layout.bytes (alignUp offset alignment)).size

theorem StartsAt.size_pos {layout : Layout} {alignment : Nat}
    (h : layout.StartsAt alignment) (offset : Nat) : 0 < (layout.bytes offset).size := by
  rw [h.bytes offset, ByteArray.size_append]
  exact Nat.add_pos_right _ (h.nonempty offset)

theorem StartsAt.append {first : Layout} {alignment : Nat} (h : first.StartsAt alignment)
    (halignment : 0 < alignment) (second : Layout) :
    (append first second).StartsAt alignment := by
  have hnext : ∀ offset, offset + (first.bytes offset).size =
      alignUp offset alignment + (first.bytes (alignUp offset alignment)).size := by
    intro offset
    rw [h.bytes offset, ByteArray.size_append, ← Nat.add_assoc,
      add_size_padding offset halignment]
  refine ⟨?_, ?_, ?_⟩
  · intro offset
    simp only [Layout.append]
    rw [hnext, h.bytes offset, ByteArray.append_assoc]
  · intro offset error
    simp only [Layout.append]
    rw [hnext, h.fault]
  · intro offset
    simp only [Layout.append, ByteArray.size_append]
    exact Nat.add_pos_left (h.nonempty offset) _

theorem startsAt_padding_append {alignment : Nat} (halignment : 0 < alignment)
    {second : Layout} (h : ∀ offset, 0 < (second.bytes offset).size) :
    (append (padding alignment) second).StartsAt alignment := by
  have hnext : ∀ offset,
      alignUp offset alignment +
          ((padding alignment).bytes (alignUp offset alignment)).size =
        alignUp offset alignment := by
    intro offset
    rw [bytes_padding_alignUp offset halignment]
    rfl
  refine ⟨?_, ?_, ?_⟩
  · intro offset
    simp only [Layout.append]
    rw [hnext, add_size_padding offset halignment, bytes_padding_alignUp offset halignment,
      ByteArray.empty_append]
  · intro offset error
    simp only [Layout.append]
    rw [hnext, add_size_padding offset halignment]
    rfl
  · intro offset
    simp only [Layout.append, ByteArray.size_append]
    exact Nat.add_pos_right _ (h _)

theorem startsAt_word (order : ByteOrder) {width : Nat} (h : 0 < width) (value : Nat) :
    (word order width value).StartsAt width := by
  apply startsAt_padding_append h
  intro offset
  simpa [raw, ByteArray.size, ByteOrder.length_encode] using h

theorem startsAt_text (order : ByteOrder) {lengthWidth : Nat} (h : 0 < lengthWidth)
    (value : String) : (text order lengthWidth value).StartsAt lengthWidth :=
  (startsAt_word order h _).append h _

theorem startsAt_basic (order : ByteOrder) (value : BasicValue) :
    (basic order value).StartsAt value.type.alignment := by
  have hbytes : (basicBytes order value).StartsAt value.type.alignment := by
    cases value with
    | string value => exact startsAt_text order (by decide) value
    | objectPath value => exact startsAt_text order (by decide) value
    | signature value => exact startsAt_text order (by decide) value
    | _ => exact startsAt_word order (by decide) _
  exact ⟨hbytes.bytes, fun _ _ => Iff.rfl, hbytes.nonempty⟩

/-- Where the elements of an array begin if its padding begins at the offset. -/
def regionStart (element : WireKind) (offset : Nat) : Nat :=
  alignUp (alignUp offset 4 + 4) element.alignment

/-- The elements of an array behind their length in bytes, which does not count
the padding between the two. -/
def region (order : ByteOrder) (element : WireKind) (body : Layout) : Layout where
  bytes offset :=
    let length := (body.bytes (regionStart element offset)).size
    (append (word order 4 length) (append (padding element.alignment) body)).bytes offset
  fault offset error :=
    let length := (body.bytes (regionStart element offset)).size
    body.fault (regionStart element offset) error ∨
      maxArrayLength < length ∧ error = .arrayTooLong length

theorem bytes_region (order : ByteOrder) (element : WireKind) (body : Layout)
    (offset : Nat) :
    (region order element body).bytes offset =
      (word order 4 (body.bytes (regionStart element offset)).size).bytes offset ++
        ((padding element.alignment).bytes (alignUp offset 4 + 4) ++
          body.bytes (regionStart element offset)) := by
  have hpadding := add_size_padding (alignUp offset 4 + 4) element.alignment_pos
  simp only [region, append]
  rw [size_word order (by decide), hpadding, regionStart]

theorem add_size_region (order : ByteOrder) (element : WireKind) (body : Layout)
    (offset : Nat) :
    offset + ((region order element body).bytes offset).size =
      regionStart element offset + (body.bytes (regionStart element offset)).size := by
  have hpadding := add_size_padding (alignUp offset 4 + 4) element.alignment_pos
  rw [bytes_region, ByteArray.size_append, ByteArray.size_append, ← Nat.add_assoc,
    size_word order (by decide), ← Nat.add_assoc, hpadding, regionStart]

theorem startsAt_region (order : ByteOrder) (element : WireKind) (body : Layout) :
    (region order element body).StartsAt 4 := by
  have hstart : ∀ offset,
      regionStart element (alignUp offset 4) = regionStart element offset := by
    intro offset
    rw [regionStart, alignUp_alignUp offset (by decide), regionStart]
  have hlayout : ∀ length, (append (word order 4 length)
      (append (padding element.alignment) body)).StartsAt 4 := by
    intro length
    exact (startsAt_word order (by decide) length).append (by decide) _
  refine ⟨?_, ?_, ?_⟩
  · intro offset
    simp only [region, hstart]
    exact (hlayout _).bytes offset
  · intro offset error
    simp only [region, hstart]
  · intro offset
    simp only [region]
    exact (hlayout _).nonempty offset

end Layout

namespace Value

mutual

/-- The encoding of a value of a type. -/
def layout (order : ByteOrder) : Value → BusType → Layout
  | .basic value, _ => .basic order value
  | .variant inner, _ =>
      match BusType.parse inner.signature with
      | .ok type => .append (.text order 1 inner.signature) (layout order inner type)
      | .error _ => .empty
  | .array _ items, .array element =>
      .region order element.wireKind (itemsLayout order items element)
  | .dict _ entries, .dict _ type => .region order .struct (entriesLayout order entries type)
  | .struct members, .struct first rest =>
      .append (.padding WireKind.struct.alignment)
        (layoutAll order members (first :: rest))
  | _, _ => .empty
termination_by structural value => value

def itemsLayout (order : ByteOrder) : List Value → BusType → Layout
  | [], _ => .empty
  | item :: items, element =>
      .append (layout order item element) (itemsLayout order items element)
termination_by structural items => items

def entriesLayout (order : ByteOrder) : List (Key × Value) → BusType → Layout
  | [], _ => .empty
  | (key, entry) :: entries, type =>
      .append (.padding WireKind.struct.alignment)
        (.append (.basic order key.value)
          (.append (layout order entry type) (entriesLayout order entries type)))
termination_by structural entries => entries

def layoutAll (order : ByteOrder) : List Value → List BusType → Layout
  | value :: values, type :: types =>
      .append (layout order value type) (layoutAll order values types)
  | _, _ => .empty
termination_by structural values => values

end

theorem startsAt_layout (order : ByteOrder) : ∀ {type : BusType} {value : Value},
    HasType value type → (layout order value type).StartsAt type.wireKind.alignment
  | .basic type, value, h => by
      obtain ⟨basic, rfl, rfl⟩ := hasType_basic_cases h
      exact Layout.startsAt_basic order basic
  | .variant, value, h => by
      obtain ⟨inner, rfl⟩ := hasType_variant_cases h
      obtain ⟨type, hparse, -⟩ := hasType_variant_iff.mp h
      rw [layout, hparse]
      exact (Layout.startsAt_text order (by decide) _).append (by decide) _
  | .array element, value, h => by
      obtain ⟨items, rfl, -⟩ := hasType_array_cases h
      exact Layout.startsAt_region order _ _
  | .dict key type, value, h => by
      obtain ⟨entries, rfl, -⟩ := hasType_dict_cases h
      exact Layout.startsAt_region order _ _
  | .struct first rest, value, h => by
      obtain ⟨member, members, rfl, hfirst, -⟩ := hasType_struct_cases h
      apply Layout.startsAt_padding_append (by decide)
      intro offset
      rw [layoutAll, Layout.append, ByteArray.size_append]
      exact Nat.add_pos_left ((startsAt_layout order hfirst).size_pos offset) _

end Value

end BusCodec
