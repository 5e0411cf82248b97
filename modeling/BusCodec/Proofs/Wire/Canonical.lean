import BusCodec.Proofs.Wire.Mask
import BusCodec.Proofs.Wire.Verbatim

/-!
A reader accepts encodings only.  Where it has read a value, the buffer spells out the
value: all bytes but those in the padding are the ones that the value has as its
encoding, and the value obeys every rule that a writer checks.
-/

namespace BusCodec

namespace Decode

open Buffer

variable {buffer : Buffer} {cursor reached : Cursor}

theorem spells_of_align {alignment : Nat} (halignment : 0 < alignment)
    (h : align alignment buffer cursor = (.ok (), reached)) :
    buffer.Spells cursor reached (.padding alignment) (.padding alignment) ∧
      reached.position = alignUp cursor.position alignment := by
  rw [align, moveTo] at h
  split at h
  · rename_i hle
    cases h
    exact ⟨spells_padding halignment hle, rfl⟩
  · cases h

theorem spells_of_take {count : Nat} {bytes : ByteArray}
    (h : take count buffer cursor = (.ok bytes, reached)) :
    buffer.Spells cursor reached (.raw bytes) (.data count) ∧ bytes.size = count := by
  simp only [take] at h
  split at h
  · rename_i hle
    cases h
    refine ⟨spells_raw hle, ?_⟩
    rw [ByteArray.size_extract, Nat.min_eq_left hle, Nat.add_sub_cancel_left]
  · cases h

theorem spells_of_word {width value : Nat} (hwidth : 0 < width)
    (h : word width buffer cursor = (.ok value, reached)) :
    buffer.Spells cursor reached (.word buffer.order width value) (.word width) ∧
      value < Word.limit width ∧
      reached.position = alignUp cursor.position width + width := by
  obtain ⟨_, aligned, halign, h⟩ := Attempt.bind_eq_ok h
  obtain ⟨bytes, taken, htake, h⟩ := Attempt.bind_eq_ok h
  cases h
  obtain ⟨hpadding, hposition⟩ := spells_of_align hwidth halign
  obtain ⟨hbytes, hsize⟩ := spells_of_take htake
  have hlength : bytes.data.toList.length = width := hsize
  have hencode : buffer.order.encode width (buffer.order.decode bytes.data.toList) =
      bytes.data.toList := by
    rw [← hlength, ByteOrder.encode_decode]
  refine ⟨?_, ?_, ?_⟩
  · rw [Layout.word, hencode]
    exact hpadding.append hbytes
  · exact hlength ▸ buffer.order.decode_lt bytes.data.toList
  · have hstop := hbytes.stop_eq
    rw [Mask.data, List.length_replicate, hposition] at hstop
    exact hstop

theorem toByteArray_of_fromUTF8? {bytes : ByteArray} {value : String}
    (h : String.fromUTF8? bytes = some value) : value.toByteArray = bytes := by
  rw [String.fromUTF8?] at h
  split at h <;> cases h
  rfl

theorem eq_append_of_back? {bytes : ByteArray} {length : Nat} {byte : UInt8}
    (hsize : bytes.size = length + 1) (hlast : bytes.data.back? = some byte) :
    bytes = bytes.extract 0 length ++ ⟨#[byte]⟩ := by
  obtain ⟨before, hbefore⟩ := Array.back?_eq_some_iff.mp hlast
  have hbytes : bytes = ⟨before⟩ ++ ⟨#[byte]⟩ := by
    apply ByteArray.ext
    rw [hbefore, ByteArray.data_append, Array.push_eq_append]
  have hlength : length = (⟨before⟩ : ByteArray).size := by
    rw [hbytes, ByteArray.size_append] at hsize
    exact (Nat.succ.inj hsize).symm
  rw [hbytes, ByteArray.extract_append_eq_left hlength]

theorem spells_of_text {lengthWidth : Nat} {value : String} (hwidth : 0 < lengthWidth)
    (h : text lengthWidth buffer cursor = (.ok value, reached)) :
    buffer.Spells cursor reached (.text buffer.order lengthWidth value)
        (.text lengthWidth value) ∧
      BasicValue.textFault? lengthWidth value = none := by
  obtain ⟨length, begun, hlength, h⟩ := Attempt.bind_eq_ok h
  obtain ⟨bytes, taken, htake, h⟩ := Attempt.bind_eq_ok h
  obtain ⟨hword, hlimit, -⟩ := spells_of_word hwidth hlength
  obtain ⟨hbytes, hsize⟩ := spells_of_take htake
  simp only at h
  split at h
  · cases h
  rename_i hlast
  split at h
  · cases h
  rename_i hnul
  cases hcontent : String.fromUTF8? (bytes.extract 0 length) with
  | none =>
      rw [hcontent] at h
      cases h
  | some content =>
      rw [hcontent] at h
      cases h
      have hvalue := toByteArray_of_fromUTF8? hcontent
      have hsplit := eq_append_of_back? hsize (Decidable.not_not.mp hlast)
      have hvalueSize : value.toByteArray.size = length := by
        rw [hvalue, ByteArray.size_extract, hsize]
        omega
      rw [← hvalue] at hsplit hnul
      constructor
      · rw [Layout.text, Mask.text, hvalueSize]
        refine (hword.append hbytes).congr ?_ ?_ rfl
        · rw [Layout.bytes_append, Layout.bytes_append, Layout.bytes_append, hsplit]
          rfl
        · rintro error (hfault | hfault | hfault)
          · exact .inl hfault
          · cases hfault
          · cases hfault
      · rw [BasicValue.textFault?, if_neg hnul, if_pos (hvalueSize ▸ hlimit)]

/-- A basic value that has been read is one of its type, and it is spelled out. -/
structure SpellsBasic (buffer : Buffer) (cursor reached : Cursor) (value : BasicValue)
    (type : BasicType) : Prop where
  type_eq : value.type = type
  spells : buffer.Spells cursor reached (.basic buffer.order value) (.basic value)

theorem spellsBasic_of_clean {value : BasicValue}
    (h : buffer.Spells cursor reached (Layout.basicBytes buffer.order value) (.basic value))
    (hclean : value.fault? = none) : SpellsBasic buffer cursor reached value value.type := by
  refine ⟨rfl, h.congr rfl ?_ rfl⟩
  intro error hfault
  have hsome : value.fault? = some error := hfault
  rw [hclean] at hsome
  cases hsome

/-- Values that are words differ in how they read the word. -/
theorem spellsBasic_of_word {width : Nat} {f : Nat → BasicValue} {type : BasicType}
    {value : BasicValue}
    (h : (word width >>= fun word => pure (f word)) buffer cursor = (.ok value, reached))
    (hwidth : 0 < width)
    (hkind : ∀ word, (f word).type = type ∧ Mask.basic (f word) = .word width ∧
      (f word).fault? = none)
    (hbytes : ∀ word, word < Word.limit width →
      Layout.basicBytes buffer.order (f word) = .word buffer.order width word) :
    SpellsBasic buffer cursor reached value type := by
  obtain ⟨word, middle, hword, h⟩ := Attempt.bind_eq_ok h
  cases h
  obtain ⟨hspells, hlimit, -⟩ := spells_of_word hwidth hword
  obtain ⟨rfl, hmask, hclean⟩ := hkind word
  rw [← hbytes word hlimit, ← hmask] at hspells
  exact spellsBasic_of_clean hspells hclean

theorem spellsBasic_of_boolean {value : Bool}
    (h : boolean buffer cursor = (.ok value, reached)) :
    SpellsBasic buffer cursor reached (.boolean value) .boolean := by
  obtain ⟨word, middle, hword, h⟩ := Attempt.bind_eq_ok h
  obtain ⟨hspells, -, -⟩ := spells_of_word (by decide) hword
  match word with
  | 0 =>
      cases h
      exact spellsBasic_of_clean hspells rfl
  | 1 =>
      cases h
      exact spellsBasic_of_clean hspells rfl
  | other + 2 => cases h

theorem spellsBasic_of_objectPath {value : String}
    (h : objectPath buffer cursor = (.ok value, reached)) :
    SpellsBasic buffer cursor reached (.objectPath value) .objectPath := by
  obtain ⟨path, middle, htext, h⟩ := Attempt.bind_eq_ok h
  obtain ⟨hspells, hclean⟩ := spells_of_text (by decide) htext
  simp only at h
  split at h
  · rename_i hvalid
    cases h
    exact spellsBasic_of_clean hspells (by rw [BasicValue.fault?, if_pos hvalid, hclean])
  · cases h

theorem spells_of_signature {value : String}
    (h : signature buffer cursor = (.ok value, reached)) :
    buffer.Spells cursor reached (.text buffer.order 1 value) (.text 1 value) ∧
      BasicValue.textFault? 1 value = none ∧
      ∃ types, BusType.parseAll value = .ok types := by
  obtain ⟨found, middle, htext, h⟩ := Attempt.bind_eq_ok h
  obtain ⟨types, parsed, hparse, h⟩ := Attempt.bind_eq_ok h
  cases houtcome : BusType.parseAll found with
  | error error =>
      rw [houtcome] at hparse
      cases hparse
  | ok types =>
      rw [houtcome] at hparse
      cases hparse
      cases h
      obtain ⟨hspells, hclean⟩ := spells_of_text (by decide) htext
      exact ⟨hspells, hclean, types, houtcome⟩

/-- A basic value that has been read is spelled out, to the last bit. -/
theorem spellsBasic_of_basic {type : BasicType} {value : BasicValue}
    (h : basic type buffer cursor = (.ok value, reached)) :
    SpellsBasic buffer cursor reached value type := by
  cases type with
  | byte =>
      refine spellsBasic_of_word h (by decide) (fun _ => ⟨rfl, rfl, rfl⟩) fun word hword => ?_
      rw [Layout.basicBytes, UInt8.toNat_ofNat_of_lt' hword]
  | boolean =>
      obtain ⟨word, middle, hword, h⟩ := Attempt.bind_eq_ok h
      cases h
      exact spellsBasic_of_boolean hword
  | int16 =>
      refine spellsBasic_of_word h (by decide) (fun _ => ⟨rfl, rfl, rfl⟩) fun word hword => ?_
      rw [Layout.basicBytes, UInt16.toUInt16_toInt16, UInt16.toNat_ofNat_of_lt' hword]
  | uint16 =>
      refine spellsBasic_of_word h (by decide) (fun _ => ⟨rfl, rfl, rfl⟩) fun word hword => ?_
      rw [Layout.basicBytes, UInt16.toNat_ofNat_of_lt' hword]
  | int32 =>
      refine spellsBasic_of_word h (by decide) (fun _ => ⟨rfl, rfl, rfl⟩) fun word hword => ?_
      rw [Layout.basicBytes, UInt32.toUInt32_toInt32, UInt32.toNat_ofNat_of_lt' hword]
  | uint32 =>
      refine spellsBasic_of_word h (by decide) (fun _ => ⟨rfl, rfl, rfl⟩) fun word hword => ?_
      rw [Layout.basicBytes, UInt32.toNat_ofNat_of_lt' hword]
  | int64 =>
      refine spellsBasic_of_word h (by decide) (fun _ => ⟨rfl, rfl, rfl⟩) fun word hword => ?_
      rw [Layout.basicBytes, UInt64.toUInt64_toInt64, UInt64.toNat_ofNat_of_lt' hword]
  | uint64 =>
      refine spellsBasic_of_word h (by decide) (fun _ => ⟨rfl, rfl, rfl⟩) fun word hword => ?_
      rw [Layout.basicBytes, UInt64.toNat_ofNat_of_lt' hword]
  | double =>
      refine spellsBasic_of_word h (by decide) (fun _ => ⟨rfl, rfl, rfl⟩) fun word hword => ?_
      rw [Layout.basicBytes, UInt64.toNat_ofNat_of_lt' hword]
  | string =>
      obtain ⟨text, middle, htext, h⟩ := Attempt.bind_eq_ok h
      cases h
      obtain ⟨hspells, hclean⟩ := spells_of_text (by decide) htext
      exact spellsBasic_of_clean hspells hclean
  | objectPath =>
      obtain ⟨path, middle, hpath, h⟩ := Attempt.bind_eq_ok h
      cases h
      exact spellsBasic_of_objectPath hpath
  | signature =>
      obtain ⟨text, middle, htext, h⟩ := Attempt.bind_eq_ok h
      cases h
      obtain ⟨hspells, hclean, types, hparse⟩ := spells_of_signature htext
      refine spellsBasic_of_clean hspells ?_
      rw [BasicValue.fault?, hparse]
      exact hclean
  | unixFd =>
      refine spellsBasic_of_word h (by decide) (fun _ => ⟨rfl, rfl, rfl⟩) fun word hword => ?_
      rw [Layout.basicBytes, UInt32.toNat_ofNat_of_lt' hword]

end Decode

namespace Region

variable {α : Type} {region : Region} {reader : Decode α} {buffer : Buffer}
  {cursor reached : Cursor}

theorem hasNext_eq_false (h : region.hasNext buffer cursor = (.ok false, reached)) :
    cursor.position = region.stop ∧ reached = cursor := by
  rw [hasNext] at h
  split at h
  · rename_i hstop
    cases h
    exact ⟨hstop, rfl⟩
  · split at h
    · cases h
    · split at h
      · cases h
      · split at h <;> cases h

theorem hasNext_eq_true (h : region.hasNext buffer cursor = (.ok true, reached)) :
    reached = { cursor with position := alignUp cursor.position region.element.alignment } := by
  rw [hasNext] at h
  split at h
  · cases h
  · split at h
    · cases h
    · split at h
      · cases h
      · rename_i hmoved
        split at h <;> cases h
        rw [Decode.align, Decode.moveTo] at hmoved
        split at hmoved <;> cases hmoved
        rfl

theorem start_eq_ok {element : WireKind}
    (h : start element buffer cursor = (.ok region, reached)) :
    ∃ length counted, Decode.word 4 buffer cursor = (.ok length, counted) ∧
      length ≤ maxArrayLength ∧
      Decode.align element.alignment buffer counted = (.ok (), reached) ∧
      reached.position + length ≤ buffer.bytes.size ∧
      region = ⟨element, reached.position + length⟩ := by
  obtain ⟨length, counted, hlength, h⟩ := Attempt.bind_eq_ok h
  simp only at h
  split at h
  · cases h
  rename_i hshort
  obtain ⟨_, aligned, halign, h⟩ := Attempt.bind_eq_ok h
  simp only [ofLength] at h
  split at h
  · rename_i hstop
    cases h
    exact ⟨length, counted, hlength, Nat.le_of_not_lt hshort, halign, hstop, rfl⟩
  · cases h

/-- What holds at the end of a region, and before every element if it holds after it,
holds of every region that has been read. -/
theorem collect_induction {motive : Cursor → List α → Cursor → Prop}
    (hstop : ∀ cursor, cursor.position = region.stop → motive cursor [] cursor)
    (hnext : ∀ cursor value after values last,
      alignUp cursor.position region.element.alignment < after.position →
      reader buffer
        { cursor with position := alignUp cursor.position region.element.alignment } =
          (.ok value, after) →
      motive after values last → motive cursor (value :: values) last)
    {values : List α} (h : region.collect reader buffer cursor = (.ok values, reached)) :
    motive cursor values reached := by
  fun_induction Region.collect region reader buffer cursor generalizing values with
  | case1 => cases h
  | case2 cursor stopped hdone =>
      cases h
      obtain ⟨hposition, rfl⟩ := hasNext_eq_false hdone
      exact hstop _ hposition
  | case3 => cases h
  | case4 => cases h
  | case5 cursor begun hbegun value after helement hmoved values last hrest ih =>
      cases h
      rw [hasNext_eq_true hbegun] at helement hmoved
      exact hnext cursor value after _ _ hmoved helement (ih hrest)
  | case6 => cases h

end Region

namespace Decode

open Buffer

variable {α : Type} {buffer : Buffer} {cursor reached : Cursor}

/-- An array that has been begun is spelled out up to its first element, and its region
lies in the buffer. -/
structure Begins (buffer : Buffer) (cursor reached : Cursor) (element : WireKind)
    (length : Nat) : Prop where
  short : length ≤ maxArrayLength
  stop_le : reached.position + length ≤ buffer.bytes.size
  place : reached.position = Layout.regionStart element cursor.position
  spells : buffer.Spells cursor reached
    ((Layout.word buffer.order 4 length).append (.padding element.alignment))
    ((Mask.word 4).append (.padding element.alignment))

theorem exists_begins_of_start {element : WireKind} {region : Region}
    (h : Region.start element buffer cursor = (.ok region, reached)) :
    ∃ length, region = ⟨element, reached.position + length⟩ ∧
      Begins buffer cursor reached element length := by
  obtain ⟨length, counted, hlength, hshort, halign, hstop, rfl⟩ := Region.start_eq_ok h
  obtain ⟨hword, -, hcounted⟩ := spells_of_word (by decide) hlength
  obtain ⟨hpadding, haligned⟩ := spells_of_align element.alignment_pos halign
  refine ⟨length, rfl, hshort, hstop, ?_, hword.append hpadding⟩
  rw [haligned, hcounted, Layout.regionStart]

theorem Begins.region {element : WireKind} {length : Nat} {layout : Layout} {mask : Mask}
    {last : Cursor} (h : Begins buffer cursor reached element length)
    (hcontents : buffer.Spells reached last layout mask)
    (hstop : last.position = reached.position + length) :
    buffer.Spells cursor last (.region buffer.order element layout) (.region element mask) := by
  have hsize : (layout.bytes (Layout.regionStart element cursor.position)).size = length := by
    have hcount := hcontents.size_bytes
    rw [hstop, h.place] at hcount
    exact Nat.add_left_cancel hcount
  have hall := h.spells.append hcontents
  rw [Layout.append_assoc, Mask.append_assoc] at hall
  refine hall.congr ?_ ?_ rfl
  · simp only [Layout.region, hsize]
  · rintro error (hfault | ⟨hlong, -⟩)
    · rw [← h.place] at hfault
      exact absurd hfault (hcontents.clean error)
    · rw [hsize] at hlong
      exact absurd h.short (Nat.not_le.mpr hlong)

/-- The elements of an array are spelled out, one after the other, from the cursor to
the end of the region. -/
def SpellsElements (depth : Nat) (element : WireKind) (reader : Decode α)
    (layout : ByteOrder → List α → Layout) (mask : List α → Mask) (fine : List α → Prop) :
    Prop :=
  ∀ ⦃buffer : Buffer⦄ ⦃stop : Nat⦄ ⦃cursor reached : Cursor⦄ ⦃values : List α⦄,
    stop ≤ buffer.bytes.size → cursor.variantDepth = depth →
    Region.collect ⟨element, stop⟩ reader buffer cursor = (.ok values, reached) →
    buffer.Spells cursor reached (layout buffer.order values) (mask values) ∧
      reached.position = stop ∧ fine values

theorem spells_of_container {depth : Nat} {element : WireKind} {reader : Decode α}
    {layout : ByteOrder → List α → Layout} {mask : List α → Mask} {fine : List α → Prop}
    (helements : SpellsElements depth element reader layout mask fine) {f : List α → Value}
    {value : Value} (hdepth : cursor.variantDepth = depth)
    (h : (Region.start element >>= fun region =>
      region.collect reader >>= fun values => pure (f values)) buffer cursor =
        (.ok value, reached)) :
    ∃ values, value = f values ∧ fine values ∧
      buffer.Spells cursor reached (.region buffer.order element (layout buffer.order values))
        (.region element (mask values)) := by
  obtain ⟨region, begun, hstart, h⟩ := Attempt.bind_eq_ok h
  obtain ⟨values, stopped, hvalues, h⟩ := Attempt.bind_eq_ok h
  cases h
  obtain ⟨length, rfl, hbegins⟩ := exists_begins_of_start hstart
  obtain ⟨hspells, hstop, hfine⟩ :=
    helements hbegins.stop_le (hbegins.spells.depth_eq.trans hdepth) hvalues
  exact ⟨values, rfl, hfine, hbegins.region hspells hstop⟩

/-- A value that has been read is one of its type, it is spelled out, and variants in it
are nested so many levels deep or less. -/
structure SpellsValue (levels : Nat) (buffer : Buffer) (cursor reached : Cursor)
    (value : Value) (type : BusType) : Prop where
  hasType : Value.HasType value type
  spells : buffer.Spells cursor reached (value.layout buffer.order type) (value.mask type)
  depth_le : value.variantDepth ≤ levels

/-- What is read, once it is put in the form of a value, is spelled out. -/
def SpellsOut (depth levels : Nat) (type : BusType) (form : α → Value) (reader : Decode α) :
    Prop :=
  ∀ ⦃buffer : Buffer⦄ ⦃cursor reached : Cursor⦄ ⦃content : α⦄,
    reader buffer cursor = (.ok content, reached) → cursor.variantDepth = depth →
    SpellsValue levels buffer cursor reached (form content) type

variable {depth levels : Nat}

theorem SpellsOut.items {reader : Decode Value} {element : BusType}
    (h : SpellsOut depth levels element id reader) :
    SpellsElements depth element.wireKind reader
      (fun order items => Value.itemsLayout order items element)
      (fun items => Value.itemsMask items element)
      (fun items => Value.ItemsHaveType items element ∧ Value.variantDepthAll items ≤ levels) := by
  intro buffer stop cursor reached values hstop hdepth hrun
  refine Region.collect_induction (motive := fun cursor items reached =>
    cursor.variantDepth = depth →
      buffer.Spells cursor reached (Value.itemsLayout buffer.order items element)
        (Value.itemsMask items element) ∧
      reached.position = stop ∧ Value.ItemsHaveType items element ∧
        Value.variantDepthAll items ≤ levels) ?_ ?_ hrun hdepth
  · intro cursor hend _
    exact ⟨spells_empty (hend ▸ hstop), hend, trivial, Nat.zero_le _⟩
  · intro cursor item after items last _ hitem hrest hdepth
    have hread := h hitem hdepth
    obtain ⟨hspells, hend, htypes, hdepths⟩ := hrest (hread.spells.depth_eq.trans hdepth)
    refine ⟨Spells.append ?_ hspells, hend, ⟨hread.hasType, htypes⟩,
      Nat.max_le.mpr ⟨hread.depth_le, hdepths⟩⟩
    exact hread.spells.padded element.wireKind.alignment_pos
      (Value.startsAt_layout buffer.order hread.hasType) (Value.startsAt_mask hread.hasType)

theorem exists_entry_of_ok {key : BasicType} {reader : Decode Value} {found : Key × Value}
    (h : entry (return .basic (← basic key)) reader buffer cursor = (.ok found, reached)) :
    ∃ middle, basic key buffer cursor = (.ok found.1.value, middle) ∧
      reader buffer middle = (.ok found.2, reached) := by
  obtain ⟨foundKey, keyed, hkey, h⟩ := Attempt.bind_eq_ok h
  obtain ⟨value, last, hvalue, h⟩ := Attempt.bind_eq_ok h
  cases h
  obtain ⟨_, middle, hbasic, hkey⟩ := Attempt.bind_eq_ok hkey
  obtain ⟨bare, _, hbare, hbasic⟩ := Attempt.bind_eq_ok hbasic
  cases hbasic
  have hcursor : middle = keyed := congrArg Prod.snd hkey
  have hfound : Value.toKey (.basic bare) = .ok foundKey := congrArg Prod.fst hkey
  rw [Value.toKey, Key.ofBasic?] at hfound
  split at hfound
  · rename_i hsome
    split at hsome <;> cases hsome
    cases hfound
    exact ⟨keyed, hcursor ▸ hbare, hvalue⟩
  · cases hfound

theorem SpellsOut.entries {reader : Decode Value} {key : BasicType} {type : BusType}
    (h : SpellsOut depth levels type id reader) :
    SpellsElements depth .struct
      (alignStruct >>= fun _ => entry (return .basic (← basic key)) reader)
      (fun order entries => Value.entriesLayout order entries type)
      (fun entries => Value.entriesMask entries type)
      (fun entries => Value.EntriesHaveType entries key type ∧
        Value.variantDepthEntries entries ≤ levels) := by
  intro buffer stop cursor reached values hstop hdepth hrun
  refine Region.collect_induction (motive := fun cursor entries reached =>
    cursor.variantDepth = depth →
      buffer.Spells cursor reached (Value.entriesLayout buffer.order entries type)
        (Value.entriesMask entries type) ∧
      reached.position = stop ∧ Value.EntriesHaveType entries key type ∧
        Value.variantDepthEntries entries ≤ levels) ?_ ?_ hrun hdepth
  · intro cursor hend _
    exact ⟨spells_empty (hend ▸ hstop), hend, trivial, Nat.zero_le _⟩
  · rintro cursor ⟨entryKey, entry⟩ after entries last - hentry hrest hdepth
    obtain ⟨_, aligned, halign, hentry⟩ := Attempt.bind_eq_ok hentry
    obtain ⟨hpadding, -⟩ := spells_of_align WireKind.struct.alignment_pos halign
    obtain ⟨keyed, hkey, hvalue⟩ := exists_entry_of_ok hentry
    have hbasic := spellsBasic_of_basic hkey
    have hkeyed := (hbasic.spells.depth_eq.trans hpadding.depth_eq).trans hdepth
    have hread := h hvalue hkeyed
    obtain ⟨hspells, hend, htypes, hdepths⟩ := hrest (hread.spells.depth_eq.trans hkeyed)
    refine ⟨?_, hend, ⟨hbasic.type_eq, hread.hasType, htypes⟩,
      Nat.max_le.mpr ⟨hread.depth_le, hdepths⟩⟩
    refine Spells.padded WireKind.struct.alignment_pos ?_ ?_
      (hpadding.append (hbasic.spells.append (hread.spells.append hspells)))
    · refine Layout.startsAt_padding_append WireKind.struct.alignment_pos fun offset => ?_
      have hpositive := (Layout.startsAt_basic buffer.order entryKey.value).size_pos offset
      rw [Layout.bytes_append, ByteArray.size_append]
      exact Nat.add_pos_left hpositive _
    · exact Mask.startsAt_padding_append WireKind.struct.alignment_pos _

/-- What a variant holds is spelled out behind its signature. -/
def SpellsVariants (depth levels : Nat) (inner : Decode Value) : Prop :=
  SpellsOut depth levels .variant Value.variant inner

variable {inner : Decode Value}

theorem spellsOut_basic (type : BasicType) :
    SpellsOut depth levels (.basic type) id
      (basic type >>= fun value => pure (Value.basic value)) := by
  intro buffer cursor reached value h _
  obtain ⟨basic, middle, hbasic, h⟩ := Attempt.bind_eq_ok h
  cases h
  obtain ⟨htype, hspells⟩ := spellsBasic_of_basic hbasic
  exact ⟨htype, hspells, Nat.zero_le _⟩

mutual

theorem spellsOut_verbatimWith (h : SpellsVariants depth levels inner) : ∀ type : BusType,
    SpellsOut depth levels type id (verbatimWith inner type)
  | .basic type => spellsOut_basic type
  | .variant => by
      intro buffer cursor reached value hrun hdepth
      obtain ⟨content, middle, hinner, hrun⟩ := Attempt.bind_eq_ok hrun
      cases hrun
      exact h hinner hdepth
  | .array element => by
      intro buffer cursor reached value hrun hdepth
      obtain ⟨items, rfl, ⟨htypes, hdepths⟩, hspells⟩ :=
        spells_of_container (spellsOut_verbatimWith h element).items hdepth hrun
      exact ⟨⟨rfl, htypes⟩, hspells, hdepths⟩
  | .dict key type => by
      intro buffer cursor reached value hrun hdepth
      obtain ⟨entries, rfl, ⟨htypes, hdepths⟩, hspells⟩ :=
        spells_of_container (spellsOut_verbatimWith h type).entries hdepth hrun
      exact ⟨⟨rfl, htypes⟩, hspells, hdepths⟩
  | .struct first rest => by
      intro buffer cursor reached value hrun hdepth
      obtain ⟨_, aligned, halign, hrun⟩ := Attempt.bind_eq_ok hrun
      obtain ⟨member, middle, hmember, hrun⟩ := Attempt.bind_eq_ok hrun
      obtain ⟨members, last, hmembers, hrun⟩ := Attempt.bind_eq_ok hrun
      cases hrun
      obtain ⟨hpadding, -⟩ := spells_of_align WireKind.struct.alignment_pos halign
      have haligned := hpadding.depth_eq.trans hdepth
      have hfirst := spellsOut_verbatimWith h first hmember haligned
      have hrest := spellsAll_verbatimAllWith h rest hmembers
        (hfirst.spells.depth_eq.trans haligned) hfirst.spells.stop_le
      exact ⟨⟨hfirst.hasType, hrest.1⟩, hpadding.append (hfirst.spells.append hrest.2.1),
        Nat.max_le.mpr ⟨hfirst.depth_le, hrest.2.2⟩⟩

theorem spellsAll_verbatimAllWith (h : SpellsVariants depth levels inner) :
    ∀ (types : List BusType) {buffer : Buffer} {cursor reached : Cursor} {values : List Value},
    verbatimAllWith inner types buffer cursor = (.ok values, reached) →
    cursor.variantDepth = depth → cursor.position ≤ buffer.bytes.size →
    Value.HaveTypes values types ∧
      buffer.Spells cursor reached (Value.layoutAll buffer.order values types)
        (Value.maskAll values types) ∧
      Value.variantDepthAll values ≤ levels
  | [], buffer, cursor, reached, values, hrun, hdepth, hbegin => by
      cases hrun
      exact ⟨trivial, spells_empty hbegin, Nat.zero_le _⟩
  | type :: types, buffer, cursor, reached, values, hrun, hdepth, _ => by
      obtain ⟨value, middle, hvalue, hrun⟩ := Attempt.bind_eq_ok hrun
      obtain ⟨values, last, hvalues, hrun⟩ := Attempt.bind_eq_ok hrun
      cases hrun
      have hfirst := spellsOut_verbatimWith h type hvalue hdepth
      obtain ⟨htypes, hspells, hdepths⟩ := spellsAll_verbatimAllWith h types hvalues
        (hfirst.spells.depth_eq.trans hdepth) hfirst.spells.stop_le
      exact ⟨⟨hfirst.hasType, htypes⟩, hfirst.spells.append hspells,
        Nat.max_le.mpr ⟨hfirst.depth_le, hdepths⟩⟩

end

theorem expectSignature_eq_ok_iff {expected : String} :
    expectSignature expected buffer cursor = (.ok (), reached) ↔
      signature buffer cursor = (.ok expected, reached) := by
  constructor
  · intro h
    obtain ⟨found, middle, hfound, h⟩ := Attempt.bind_eq_ok h
    simp only at h
    split at h
    · rename_i hsame
      cases h
      exact hsame ▸ hfound
    · cases h
  · intro h
    rw [expectSignature, bind_apply, Attempt.bind_of_ok h, if_pos rfl]
    rfl

theorem variantType_eq_ok_iff {type : BusType} :
    variantType buffer cursor = (.ok type, reached) ↔
      signature buffer cursor = (.ok type.signature, reached) ∧ BusType.WithinLimits [type] := by
  constructor
  · intro h
    obtain ⟨text, middle, htext, h⟩ := Attempt.bind_eq_ok h
    simp only at h
    cases hparse : BusType.parse text with
    | error error =>
        rw [hparse] at h
        cases h
    | ok parsed =>
        rw [hparse] at h
        cases h
        obtain ⟨rfl, hlimits⟩ := BusType.parse_eq_ok_iff.mp hparse
        exact ⟨htext, hlimits⟩
  · rintro ⟨hsignature, hlimits⟩
    rw [variantType, bind_apply, Attempt.bind_of_ok hsignature, BusType.parse_signature hlimits]
    rfl

theorem insideVariant_eq_ok_iff {contents : Decode α} {value : α} :
    insideVariant contents buffer cursor = (.ok value, reached) ↔
      ∃ last, contents buffer { cursor with variantDepth := cursor.variantDepth + 1 } =
          (.ok value, last) ∧
        reached = { last with variantDepth := last.variantDepth - 1 } := by
  rw [insideVariant]
  constructor
  · intro h
    cases hcontents : contents buffer { cursor with variantDepth := cursor.variantDepth + 1 } with
    | mk outcome last =>
        rw [hcontents] at h
        cases h
        exact ⟨last, rfl, rfl⟩
  · rintro ⟨last, hcontents, rfl⟩
    rw [hcontents]

theorem spellsVariants_verbatimWithin (depth levels : Nat) :
    SpellsVariants depth levels (verbatimWithin levels) := by
  induction levels generalizing depth with
  | zero =>
      intro buffer cursor reached value hrun _
      obtain ⟨type, middle, -, hrun⟩ := Attempt.bind_eq_ok hrun
      cases hrun
  | succ levels ih =>
      intro buffer cursor reached value hrun hdepth
      obtain ⟨type, middle, htype, hrun⟩ := Attempt.bind_eq_ok hrun
      obtain ⟨last, hcontents, rfl⟩ := insideVariant_eq_ok_iff.mp hrun
      obtain ⟨htext, hlimits⟩ := variantType_eq_ok_iff.mp htype
      obtain ⟨hsignature, -⟩ := spells_of_signature htext
      obtain ⟨hasType, hspells, hlevels⟩ :=
        spellsOut_verbatimWith (ih (depth + 1)) type hcontents
          (congrArg (· + 1) (hsignature.depth_eq.trans hdepth))
      have hsame : value.signature = type.signature := Value.signature_eq_of_hasType hasType
      have hparse : BusType.parse value.signature = .ok type := by
        rw [hsame, BusType.parse_signature hlimits]
      refine ⟨Value.hasType_variant_iff.mpr ⟨type, hparse, hasType⟩, ?_,
        Nat.succ_le_succ hlevels⟩
      rw [Value.layout, Value.mask, hparse, hsame]
      exact hsignature.append hspells.leaveVariant

/-- What the reader of variants reads is spelled out, and variants are nested in it no
deeper than the reader allows. -/
theorem spellsVariants_verbatimVariant (depth : Nat) :
    SpellsVariants depth (maxVariantDepth - depth) verbatimVariant := by
  intro buffer cursor reached value hrun hdepth
  rw [verbatimVariant, hdepth] at hrun
  exact spellsVariants_verbatimWithin depth _ hrun hdepth

end Decode

end BusCodec
