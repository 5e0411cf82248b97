import BusCodec.Proofs.Wire.Layout
import BusCodec.Wire.DecodeValue

/-!
Which bytes of an encoding carry data.  The others are padding, which a writer fills
with zeros and a reader passes over.  A buffer spells out a value where its bytes are
those of the encoding, whatever stands in the padding.
-/

namespace BusCodec

/-- For each byte of an encoding whether it carries data, when the encoding begins at an
offset. -/
def Mask : Type :=
  Nat → List Bool

theorem Layout.bytes_append (first second : Layout) (offset : Nat) :
    (append first second).bytes offset =
      first.bytes offset ++ second.bytes (offset + (first.bytes offset).size) :=
  rfl

namespace Mask

def empty : Mask :=
  fun _ => []

def append (first second : Mask) : Mask :=
  fun offset => first offset ++ second (offset + (first offset).length)

def padding (alignment : Nat) : Mask :=
  fun offset => List.replicate (alignUp offset alignment - offset) false

def data (count : Nat) : Mask :=
  fun _ => List.replicate count true

def word (width : Nat) : Mask :=
  append (padding width) (data width)

/-- A text behind a length field of the given width, and the nul byte after it. -/
def text (lengthWidth : Nat) (text : String) : Mask :=
  append (word lengthWidth) (data (text.toByteArray.size + 1))

def basic : BasicValue → Mask
  | .string value | .objectPath value => text 4 value
  | .signature value => text 1 value
  | value => word value.type.alignment

def region (element : WireKind) (body : Mask) : Mask :=
  append (word 4) (append (padding element.alignment) body)

theorem append_assoc (first second third : Mask) :
    append (append first second) third = append first (append second third) := by
  funext offset
  simp only [append, List.length_append, List.append_assoc, Nat.add_assoc]

theorem add_length_padding (offset : Nat) {alignment : Nat} (h : 0 < alignment) :
    offset + (padding alignment offset).length = alignUp offset alignment := by
  have hle := le_alignUp offset h
  rw [padding, List.length_replicate]
  omega

theorem padding_alignUp (offset : Nat) {alignment : Nat} (h : 0 < alignment) :
    padding alignment (alignUp offset alignment) = [] := by
  rw [padding, alignUp_alignUp offset h, Nat.sub_self, List.replicate_zero]

/-- What comes before the boundary is padding. -/
def StartsAt (mask : Mask) (alignment : Nat) : Prop :=
  ∀ offset, mask offset = padding alignment offset ++ mask (alignUp offset alignment)

theorem startsAt_padding_append {alignment : Nat} (h : 0 < alignment) (second : Mask) :
    (append (padding alignment) second).StartsAt alignment := by
  intro offset
  simp only [append]
  rw [add_length_padding offset h, add_length_padding _ h, padding_alignUp offset h,
    alignUp_alignUp offset h, List.nil_append]

theorem StartsAt.append {first : Mask} {alignment : Nat} (h : first.StartsAt alignment)
    (halignment : 0 < alignment) (second : Mask) :
    (append first second).StartsAt alignment := by
  intro offset
  have hnext : offset + (first offset).length =
      alignUp offset alignment + (first (alignUp offset alignment)).length := by
    rw [h offset, List.length_append, ← Nat.add_assoc, add_length_padding offset halignment]
  simp only [Mask.append]
  rw [hnext, h offset, List.append_assoc]

theorem startsAt_word {width : Nat} (h : 0 < width) : (word width).StartsAt width :=
  startsAt_padding_append h _

theorem startsAt_basic (value : BasicValue) : (basic value).StartsAt value.type.alignment := by
  have hpositive := WireKind.alignment_pos (.basic value.type)
  cases value with
  | string value => exact (startsAt_word (by decide)).append (by decide) _
  | objectPath value => exact (startsAt_word (by decide)).append (by decide) _
  | signature value => exact (startsAt_word (by decide)).append (by decide) _
  | _ => exact startsAt_word hpositive

end Mask

namespace Value

mutual

/-- Which bytes of the encoding of a value of a type carry data. -/
def mask : Value → BusType → Mask
  | .basic value, _ => .basic value
  | .variant inner, _ =>
      match BusType.parse inner.signature with
      | .ok type => .append (.text 1 inner.signature) (mask inner type)
      | .error _ => .empty
  | .array _ items, .array element => .region element.wireKind (itemsMask items element)
  | .dict _ entries, .dict _ type => .region .struct (entriesMask entries type)
  | .struct members, .struct first rest =>
      .append (.padding WireKind.struct.alignment) (maskAll members (first :: rest))
  | _, _ => .empty
termination_by structural value => value

def itemsMask : List Value → BusType → Mask
  | [], _ => .empty
  | item :: items, element => .append (mask item element) (itemsMask items element)
termination_by structural items => items

def entriesMask : List (Key × Value) → BusType → Mask
  | [], _ => .empty
  | (key, entry) :: entries, type =>
      .append (.padding WireKind.struct.alignment)
        (.append (.basic key.value) (.append (mask entry type) (entriesMask entries type)))
termination_by structural entries => entries

def maskAll : List Value → List BusType → Mask
  | value :: values, type :: types => .append (mask value type) (maskAll values types)
  | _, _ => .empty
termination_by structural values => values

end

theorem startsAt_mask {type : BusType} {value : Value} (h : HasType value type) :
    (mask value type).StartsAt type.wireKind.alignment := by
  cases type with
  | basic type =>
      obtain ⟨basic, rfl, rfl⟩ := hasType_basic_cases h
      exact Mask.startsAt_basic basic
  | variant =>
      obtain ⟨inner, rfl⟩ := hasType_variant_cases h
      obtain ⟨type, hparse, -⟩ := hasType_variant_iff.mp h
      rw [mask, hparse]
      exact ((Mask.startsAt_word (by decide)).append (by decide) _).append (by decide) _
  | array element =>
      obtain ⟨items, rfl, -⟩ := hasType_array_cases h
      exact (Mask.startsAt_word (by decide)).append (by decide) _
  | dict key type =>
      obtain ⟨entries, rfl, -⟩ := hasType_dict_cases h
      exact (Mask.startsAt_word (by decide)).append (by decide) _
  | struct first rest =>
      obtain ⟨member, members, rfl, -, -⟩ := hasType_struct_cases h
      exact Mask.startsAt_padding_append (by decide) _

end Value

/-- The bytes with the padding among them set to zero. -/
def blank (mask : List Bool) (bytes : List UInt8) : List UInt8 :=
  List.zipWith (fun carriesData byte => if carriesData then byte else 0) mask bytes

theorem blank_append {mask more : List Bool} {bytes others : List UInt8}
    (h : mask.length = bytes.length) :
    blank (mask ++ more) (bytes ++ others) = blank mask bytes ++ blank more others :=
  List.zipWith_append h

theorem blank_padding (bytes : List UInt8) :
    blank (List.replicate bytes.length false) bytes = List.replicate bytes.length 0 := by
  induction bytes with
  | nil => rfl
  | cons byte bytes ih => simpa [blank, List.replicate_succ] using ih

theorem blank_data (bytes : List UInt8) :
    blank (List.replicate bytes.length true) bytes = bytes := by
  induction bytes with
  | nil => rfl
  | cons byte bytes ih => simpa [blank, List.replicate_succ] using ih

namespace Buffer

/-- The bytes between two places of the buffer are an encoding, whatever stands in its
padding. -/
structure Spells (buffer : Buffer) (start stop : Cursor) (layout : Layout) (mask : Mask) :
    Prop where
  depth_eq : stop.variantDepth = start.variantDepth
  stop_eq : stop.position = start.position + (mask start.position).length
  stop_le : stop.position ≤ buffer.bytes.size
  bytes_eq : (layout.bytes start.position).data.toList =
    blank (mask start.position)
      (buffer.bytes.extract start.position stop.position).data.toList
  clean : ∀ error, ¬ layout.fault start.position error

variable {buffer : Buffer} {start middle stop : Cursor} {layout more : Layout}
  {mask moreMask : Mask}

theorem length_extract (first : Nat) {last : Nat} (h : last ≤ buffer.bytes.size) :
    (buffer.bytes.extract first last).data.toList.length = last - first := by
  have hsize := ByteArray.size_extract (a := buffer.bytes) (b := first) (e := last)
  rw [Nat.min_eq_left h] at hsize
  exact hsize

theorem Spells.le (h : buffer.Spells start stop layout mask) :
    start.position ≤ stop.position := by
  rw [h.stop_eq]
  exact Nat.le_add_right _ _

theorem Spells.length_mask (h : buffer.Spells start stop layout mask) :
    (mask start.position).length =
      (buffer.bytes.extract start.position stop.position).data.toList.length := by
  rw [length_extract start.position h.stop_le, h.stop_eq, Nat.add_sub_cancel_left]

theorem Spells.size_bytes (h : buffer.Spells start stop layout mask) :
    start.position + (layout.bytes start.position).size = stop.position := by
  have hlength := congrArg List.length h.bytes_eq
  rw [blank, List.length_zipWith, ← h.length_mask, Nat.min_self] at hlength
  rw [h.stop_eq, ← hlength]
  rfl

theorem Spells.append (h : buffer.Spells start middle layout mask)
    (hmore : buffer.Spells middle stop more moreMask) :
    buffer.Spells start stop (layout.append more) (mask.append moreMask) := by
  have hmiddle := h.stop_eq
  refine ⟨hmore.depth_eq.trans h.depth_eq, ?_, hmore.stop_le, ?_, ?_⟩
  · rw [hmore.stop_eq, Mask.append, List.length_append, ← hmiddle, hmiddle, Nat.add_assoc]
  · rw [ByteArray.extract_eq_extract_append_extract middle.position h.le hmore.le,
      ByteArray.data_append, Array.toList_append, Mask.append, blank_append h.length_mask,
      ← h.bytes_eq, ← hmiddle, ← hmore.bytes_eq, Layout.bytes_append, h.size_bytes,
      ByteArray.data_append, Array.toList_append]
  · rintro error (hfault | hfault)
    · exact h.clean error hfault
    · rw [h.size_bytes] at hfault
      exact hmore.clean error hfault

/-- Where an encoding is spelled depends on its bytes at that place alone. -/
theorem Spells.congr (h : buffer.Spells start stop layout mask)
    (hbytes : more.bytes start.position = layout.bytes start.position)
    (hfault : ∀ error, more.fault start.position error → layout.fault start.position error)
    (hmask : moreMask start.position = mask start.position) :
    buffer.Spells start stop more moreMask := by
  refine ⟨h.depth_eq, ?_, h.stop_le, ?_, fun error herror => h.clean error (hfault error herror)⟩
  · rw [hmask, h.stop_eq]
  · rw [hmask, hbytes, h.bytes_eq]

theorem spells_empty (h : start.position ≤ buffer.bytes.size) :
    buffer.Spells start start .empty .empty :=
  ⟨rfl, rfl, h, rfl, fun _ hfault => hfault⟩

theorem spells_padding {alignment : Nat} (halignment : 0 < alignment)
    (h : alignUp start.position alignment ≤ buffer.bytes.size) :
    buffer.Spells start { start with position := alignUp start.position alignment }
      (.padding alignment) (.padding alignment) := by
  have hlength := length_extract start.position h
  refine ⟨rfl, (Mask.add_length_padding start.position halignment).symm, h, ?_,
    fun _ hfault => hfault⟩
  rw [Mask.padding, ← hlength, blank_padding, hlength, Layout.padding, Array.toList_replicate]

theorem spells_raw {count : Nat} (h : start.position + count ≤ buffer.bytes.size) :
    buffer.Spells start { start with position := start.position + count }
      (.raw (buffer.bytes.extract start.position (start.position + count)))
      (.data count) := by
  have hlength := length_extract start.position h
  rw [Nat.add_sub_cancel_left] at hlength
  refine ⟨rfl, ?_, h, ?_, fun _ hfault => hfault⟩
  · rw [Mask.data, List.length_replicate]
  · have hdata := blank_data
      (buffer.bytes.extract start.position (start.position + count)).data.toList
    rw [hlength] at hdata
    exact hdata.symm

/-- What is spelled inside one more variant is spelled outside of it too. -/
theorem Spells.leaveVariant
    (h : buffer.Spells { start with variantDepth := start.variantDepth + 1 } stop layout mask) :
    buffer.Spells start { stop with variantDepth := stop.variantDepth - 1 } layout mask := by
  refine ⟨?_, h.stop_eq, h.stop_le, h.bytes_eq, h.clean⟩
  simp only [h.depth_eq, Nat.add_sub_cancel]

/-- Padding before an encoding that starts at a boundary is part of it. -/
theorem Spells.padded {alignment : Nat} (halignment : 0 < alignment)
    (hlayout : layout.StartsAt alignment) (hmask : mask.StartsAt alignment)
    (h : buffer.Spells { start with position := alignUp start.position alignment } stop
      layout mask) :
    buffer.Spells start stop layout mask := by
  have hpadding := spells_padding halignment (Nat.le_trans h.le h.stop_le)
  refine (hpadding.append h).congr ?_ ?_ ?_
  · rw [Layout.bytes_append, Layout.add_size_padding start.position halignment]
    exact hlayout.bytes start.position
  · intro error hfault
    refine .inr ?_
    rw [Layout.add_size_padding start.position halignment]
    exact (hlayout.fault start.position error).mp hfault
  · rw [Mask.append, Mask.add_length_padding start.position halignment]
    exact hmask start.position

end Buffer

end BusCodec
