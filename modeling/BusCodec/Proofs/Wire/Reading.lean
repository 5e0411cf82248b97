import BusCodec.Proofs.Wire.Layout
import BusCodec.Wire.DecodeValue

/-!
The reader undoes the encoding of values, wherever in a buffer the encoding
stands and whatever follows it.  The one thing that stops it is its limit on how
deeply variants are nested.
-/

namespace BusCodec

namespace Buffer

def Holds (buffer : Buffer) (offset : Nat) (bytes : ByteArray) : Prop :=
  ∃ before after, buffer.bytes = before ++ (bytes ++ after) ∧ before.size = offset

variable {buffer : Buffer} {offset : Nat} {bytes more : ByteArray}

theorem Holds.left (h : buffer.Holds offset (bytes ++ more)) :
    buffer.Holds offset bytes := by
  obtain ⟨before, after, hbuffer, hbefore⟩ := h
  exact ⟨before, more ++ after, by rw [hbuffer, ByteArray.append_assoc], hbefore⟩

theorem Holds.right (h : buffer.Holds offset (bytes ++ more)) :
    buffer.Holds (offset + bytes.size) more := by
  obtain ⟨before, after, hbuffer, rfl⟩ := h
  refine ⟨before ++ bytes, after, ?_, ByteArray.size_append⟩
  rw [hbuffer, ByteArray.append_assoc, ByteArray.append_assoc]

theorem Holds.stop_le (h : buffer.Holds offset bytes) :
    offset + bytes.size ≤ buffer.bytes.size := by
  obtain ⟨before, after, hbuffer, rfl⟩ := h
  rw [hbuffer, ByteArray.size_append, ByteArray.size_append]
  omega

theorem Holds.extract_eq (h : buffer.Holds offset bytes) :
    buffer.bytes.extract offset (offset + bytes.size) = bytes := by
  obtain ⟨before, after, hbuffer, rfl⟩ := h
  have hextract := ByteArray.extract_append_size_add (i := 0) (j := bytes.size)
    (a := before) (b := bytes ++ after)
  rw [Nat.add_zero] at hextract
  rw [hbuffer, hextract, ByteArray.extract_append_eq_left rfl]

end Buffer

namespace Decode

variable {α β : Type} {depth : Nat} {order : ByteOrder}

instance : LawfulMonad Decode :=
  LawfulMonad.mk' Decode
    (fun reader => funext fun buffer => Attempt.id_map_eq (reader buffer))
    (fun _ _ => rfl)
    (fun first next last => funext fun buffer =>
      Attempt.bind_assoc_eq (first buffer) (fun value => next value buffer)
        (fun value => last value buffer))

/-- Reading undoes an encoding without faults if `fits` holds.  Otherwise it fails
because variants are nested too deeply. -/
def ReadsBack (depth : Nat) (order : ByteOrder) (reader : Decode α) (layout : Layout)
    (value : α) (fits : Prop) : Prop :=
  ∀ (buffer : Buffer) (start : Nat), buffer.order = order →
    (∀ error, ¬ layout.fault start error) → buffer.Holds start (layout.bytes start) →
    (fits → reader buffer ⟨start, depth⟩ =
      (.ok value, ⟨start + (layout.bytes start).size, depth⟩)) ∧
    (¬ fits → ∃ reached, reader buffer ⟨start, depth⟩ = (.error .variantDepth, reached))

theorem readsBack_pure (value : α) :
    ReadsBack depth order (pure value) .empty value True :=
  fun _ _ _ _ _ => ⟨fun _ => rfl, fun h => absurd trivial h⟩

theorem ReadsBack.bind {first : Decode α} {next : α → Decode β} {layout more : Layout}
    {middle : α} {value : β} {fits fitsToo : Prop}
    (hfirst : ReadsBack depth order first layout middle fits)
    (hnext : ReadsBack depth order (next middle) more value fitsToo) :
    ReadsBack depth order (first >>= next) (layout.append more) value (fits ∧ fitsToo) := by
  intro buffer start horder hclean hholds
  have hsize : ((layout.append more).bytes start).size = (layout.bytes start).size +
      (more.bytes (start + (layout.bytes start).size)).size := by
    rw [Layout.append, ByteArray.size_append]
  obtain ⟨hok, hdeep⟩ := hfirst buffer start horder
    (fun error h => hclean error (.inl h)) hholds.left
  obtain ⟨hokToo, hdeepToo⟩ := hnext buffer (start + (layout.bytes start).size) horder
    (fun error h => hclean error (.inr h)) hholds.right
  rw [bind_apply]
  constructor
  · rintro ⟨hfits, hfitsToo⟩
    rw [Attempt.bind_of_ok (hok hfits), hokToo hfitsToo, hsize, Nat.add_assoc]
  · intro hnot
    by_cases hfits : fits
    · rw [Attempt.bind_of_ok (hok hfits)]
      exact hdeepToo fun hfitsToo => hnot ⟨hfits, hfitsToo⟩
    · obtain ⟨reached, herror⟩ := hdeep hfits
      exact ⟨reached, Attempt.bind_of_error herror⟩

theorem ReadsBack.finish {reader : Decode α} {next : α → Decode β} {layout : Layout}
    {middle : α} {value : β} {fits : Prop}
    (h : ReadsBack depth order reader layout middle fits)
    (hnext : ∀ buffer : Buffer, buffer.order = order → next middle buffer = pure value) :
    ReadsBack depth order (reader >>= next) layout value fits := by
  intro buffer start horder hclean hholds
  obtain ⟨hok, hdeep⟩ := h buffer start horder hclean hholds
  rw [bind_apply]
  refine ⟨fun hfits => ?_, fun hnot => ?_⟩
  · rw [Attempt.bind_of_ok (hok hfits), hnext buffer horder]
    rfl
  · obtain ⟨reached, herror⟩ := hdeep hnot
    exact ⟨reached, Attempt.bind_of_error herror⟩

theorem ReadsBack.map {reader : Decode α} {layout : Layout} {value : α} {fits : Prop}
    (h : ReadsBack depth order reader layout value fits) (f : α → β) :
    ReadsBack depth order (reader >>= fun value => pure (f value)) layout (f value) fits :=
  h.finish fun _ _ => rfl

theorem ReadsBack.congr {reader : Decode α} {layout : Layout} {value : α}
    {fits fitsToo : Prop} (h : ReadsBack depth order reader layout value fits)
    (hfits : fits ↔ fitsToo) : ReadsBack depth order reader layout value fitsToo := by
  rwa [propext hfits] at h

theorem ReadsBack.andThen {first : Decode α} {next : α → Decode β} {layout more : Layout}
    {middle : α} {value : β} {fits : Prop}
    (hfirst : ReadsBack depth order first layout middle True)
    (hnext : ReadsBack depth order (next middle) more value fits) :
    ReadsBack depth order (first >>= next) (layout.append more) value fits :=
  (hfirst.bind hnext).congr (by rw [true_and])

/-- A reader without variants in it reads back whatever has an encoding. -/
theorem readsBack_of_ok {reader : Decode α} {layout : Layout} {value : α}
    (h : ∀ (buffer : Buffer) (start : Nat), buffer.order = order →
      (∀ error, ¬ layout.fault start error) → buffer.Holds start (layout.bytes start) →
      reader buffer ⟨start, depth⟩ =
        (.ok value, ⟨start + (layout.bytes start).size, depth⟩)) :
    ReadsBack depth order reader layout value True :=
  fun buffer start horder hclean hholds =>
    ⟨fun _ => h buffer start horder hclean hholds, fun hnot => absurd trivial hnot⟩

theorem readsBack_align {alignment : Nat} (h : 0 < alignment) :
    ReadsBack depth order (align alignment) (.padding alignment) () True := by
  apply readsBack_of_ok
  intro buffer start _ _ hholds
  have hstop := hholds.stop_le
  rw [Layout.add_size_padding start h] at hstop ⊢
  rw [align, moveTo, if_pos hstop]

theorem readsBack_take (bytes : ByteArray) :
    ReadsBack depth order (take bytes.size) (.raw bytes) bytes True := by
  apply readsBack_of_ok
  intro buffer start _ _ hholds
  have hbytes : (Layout.raw bytes).bytes start = bytes := rfl
  rw [hbytes] at hholds ⊢
  simp only [take]
  rw [if_pos hholds.stop_le, hholds.extract_eq]

theorem readsBack_word {width value : Nat} (hwidth : 0 < width)
    (hvalue : value < Word.limit width) :
    ReadsBack depth order (word width) (.word order width value) value True := by
  have hsize : (⟨(order.encode width value).toArray⟩ : ByteArray).size = width := by
    rw [ByteArray.size, List.size_toArray, ByteOrder.length_encode]
  have htake : ReadsBack depth order (take width)
      (.raw ⟨(order.encode width value).toArray⟩)
      ⟨(order.encode width value).toArray⟩ True := by
    have h : ReadsBack depth order
        (take (⟨(order.encode width value).toArray⟩ : ByteArray).size)
        (.raw ⟨(order.encode width value).toArray⟩)
        ⟨(order.encode width value).toArray⟩ True := readsBack_take _
    rwa [hsize] at h
  refine (readsBack_align hwidth).andThen (htake.finish ?_)
  rintro buffer rfl
  rw [List.toList_toArray, ByteOrder.decode_encode, Nat.mod_eq_of_lt hvalue]

theorem readsBack_text {lengthWidth : Nat} (hwidth : 0 < lengthWidth) {value : String}
    (hclean : BasicValue.textFault? lengthWidth value = none) :
    ReadsBack depth order (text lengthWidth) (.text order lengthWidth value) value True := by
  unfold BasicValue.textFault? at hclean
  split at hclean
  · cases hclean
  rename_i hnul
  split at hclean
  · rename_i hsize
    have htake : ReadsBack depth order (take (value.toByteArray ++ ⟨#[0]⟩).size)
        (.raw (value.toByteArray ++ ⟨#[0]⟩)) (value.toByteArray ++ ⟨#[0]⟩) True :=
      readsBack_take _
    have hraw : Layout.raw (value.toByteArray ++ ⟨#[0]⟩) =
        (Layout.raw value.toByteArray).append (.raw ⟨#[0]⟩) := by
      apply Layout.ext
      · rfl
      · funext offset error
        simp [Layout.raw, Layout.append]
    rw [hraw, ByteArray.size_append] at htake
    refine (readsBack_word hwidth hsize).andThen (htake.finish ?_)
    intro buffer _
    have hlast : (value.toByteArray ++ ⟨#[0]⟩).data.back? = some 0 := by
      rw [ByteArray.data_append, Array.back?_append]
      rfl
    have htext : (value.toByteArray ++ ⟨#[0]⟩).extract 0 value.toByteArray.size =
        value.toByteArray := ByteArray.extract_append_eq_left rfl
    have hvalid : String.fromUTF8? value.toByteArray = some value :=
      dif_pos value.isValidUTF8
    simp only [hlast, htext, hnul, hvalid, ne_eq, not_true_eq_false, if_false]
    rfl
  · cases hclean

theorem readsBack_objectPath {path : String} (hvalid : ObjectPath.isValid path)
    (hclean : BasicValue.textFault? 4 path = none) :
    ReadsBack depth order objectPath (.text order 4 path) path True := by
  refine (readsBack_text (by decide) hclean).finish ?_
  intro buffer _
  rw [if_pos hvalid]
  rfl

theorem readsBack_signature {signature : String} {types : List BusType}
    (hparse : BusType.parseAll signature = .ok types)
    (hclean : BasicValue.textFault? 1 signature = none) :
    ReadsBack depth order Decode.signature (.text order 1 signature) signature True := by
  refine (readsBack_text (by decide) hclean).finish ?_
  intro buffer _
  rw [hparse]
  rfl

theorem readsBack_boolean (value : Bool) :
    ReadsBack depth order boolean (.word order 4 (if value then 1 else 0)) value True := by
  refine (readsBack_word (by decide) ?_).finish ?_
  · cases value <;> decide
  · intro buffer _
    cases value <;> rfl

theorem readsBack_ofWord {width word : Nat} (f : Nat → BasicValue) {value : BasicValue}
    (hwidth : 0 < width) (hword : word < Word.limit width) (hvalue : f word = value) :
    ReadsBack depth order (Decode.word width >>= fun word => pure (f word))
      (.word order width word) value True := by
  rw [← hvalue]
  exact (readsBack_word hwidth hword).map f

theorem readsBack_basicBytes {value : BasicValue} (hclean : value.fault? = none) :
    ReadsBack depth order (basic value.type) (Layout.basicBytes order value) value True := by
  cases value with
  | byte value =>
      exact readsBack_ofWord _ (by decide) value.toNat_lt (by rw [UInt8.ofNat_toNat])
  | boolean value => exact (readsBack_boolean value).map BasicValue.boolean
  | int16 value =>
      exact readsBack_ofWord _ (by decide) value.toUInt16.toNat_lt
        (by rw [UInt16.ofNat_toNat, Int16.toInt16_toUInt16])
  | uint16 value =>
      exact readsBack_ofWord _ (by decide) value.toNat_lt (by rw [UInt16.ofNat_toNat])
  | int32 value =>
      exact readsBack_ofWord _ (by decide) value.toUInt32.toNat_lt
        (by rw [UInt32.ofNat_toNat, Int32.toInt32_toUInt32])
  | uint32 value =>
      exact readsBack_ofWord _ (by decide) value.toNat_lt (by rw [UInt32.ofNat_toNat])
  | int64 value =>
      exact readsBack_ofWord _ (by decide) value.toUInt64.toNat_lt
        (by rw [UInt64.ofNat_toNat, Int64.toInt64_toUInt64])
  | uint64 value =>
      exact readsBack_ofWord _ (by decide) value.toNat_lt (by rw [UInt64.ofNat_toNat])
  | double bits =>
      exact readsBack_ofWord _ (by decide) bits.toNat_lt (by rw [UInt64.ofNat_toNat])
  | string value => exact (readsBack_text (by decide) hclean).map BasicValue.string
  | objectPath value =>
      simp only [BasicValue.fault?] at hclean
      split at hclean
      · rename_i hvalid
        exact (readsBack_objectPath hvalid hclean).map BasicValue.objectPath
      · cases hclean
  | signature value =>
      simp only [BasicValue.fault?] at hclean
      split at hclean
      · rename_i types hparse
        exact (readsBack_signature hparse hclean).map BasicValue.signature
      · cases hclean
  | unixFd index =>
      exact readsBack_ofWord _ (by decide) index.toNat_lt (by rw [UInt32.ofNat_toNat])

/-- Every basic value that has an encoding is read back, to the last bit. -/
theorem readsBack_basic (value : BasicValue) :
    ReadsBack depth order (basic value.type) (.basic order value) value True := by
  intro buffer start horder hclean hholds
  have hnone : value.fault? = none := by
    cases hfault : value.fault? with
    | none => rfl
    | some error => exact absurd hfault (hclean error)
  exact readsBack_basicBytes hnone buffer start horder
    (Layout.not_fault_basicBytes order value start) hholds

end Decode

namespace Region

variable {α : Type} {region : Region} {reader : Decode α} {buffer : Buffer}
  {cursor reached after last : Cursor} {value : α} {values : List α} {error : Error}

theorem collect_eq (region : Region) (reader : Decode α) (buffer : Buffer) (cursor : Cursor) :
    region.collect reader buffer cursor =
      match region.hasNext buffer cursor with
      | (.error error, reached) => (.error error, reached)
      | (.ok false, reached) => (.ok [], reached)
      | (.ok true, reached) =>
          match reader buffer reached with
          | (.error error, after) => (.error error, after)
          | (.ok value, after) =>
              if reached.position < after.position then
                match region.collect reader buffer after with
                | (.error error, last) => (.error error, last)
                | (.ok values, last) => (.ok (value :: values), last)
              else (.error .endless, after) := by
  rw [collect]
  split
  · rename_i hnext
    rw [hnext]
  · rename_i hnext
    rw [hnext]
  · rename_i hnext
    exact hnext ▸ rfl

/-- Before a next element, the cursor stands at a boundary of the elements. -/
theorem hasNext_true_aligned (h : region.hasNext buffer cursor = (.ok true, reached)) :
    reached.position = alignUp cursor.position region.element.alignment ∧
      reached.position ≤ buffer.bytes.size := by
  simp only [hasNext, Decode.align, Decode.moveTo] at h
  grind

/-- Two ways to read elements read the same region if they agree at the boundaries
of the elements. -/
theorem collect_congr {other : Decode α}
    (h : ∀ position cursor, cursor.position = alignUp position region.element.alignment →
      cursor.position ≤ buffer.bytes.size → reader buffer cursor = other buffer cursor) :
    region.collect reader buffer cursor = region.collect other buffer cursor := by
  fun_induction Region.collect region reader buffer cursor with
  | case1 cursor error reached hnext => rw [collect_eq, hnext]
  | case2 cursor reached hnext => rw [collect_eq, hnext]
  | case3 cursor reached hnext error after helement =>
      obtain ⟨hposition, hle⟩ := hasNext_true_aligned hnext
      rw [collect_eq, hnext]
      simp only
      rw [← h _ reached hposition hle, helement]
  | case4 cursor reached hnext value after helement hmoved error last hrest ih =>
      obtain ⟨hposition, hle⟩ := hasNext_true_aligned hnext
      rw [collect_eq, hnext]
      simp only
      rw [← h _ reached hposition hle, helement]
      simp only
      rw [if_pos hmoved, ← ih, hrest]
  | case5 cursor reached hnext value after helement hmoved values last hrest ih =>
      obtain ⟨hposition, hle⟩ := hasNext_true_aligned hnext
      rw [collect_eq, hnext]
      simp only
      rw [← h _ reached hposition hle, helement]
      simp only
      rw [if_pos hmoved, ← ih, hrest]
  | case6 cursor reached hnext value after helement hstill =>
      obtain ⟨hposition, hle⟩ := hasNext_true_aligned hnext
      rw [collect_eq, hnext]
      simp only
      rw [← h _ reached hposition hle, helement]
      simp only
      rw [if_neg hstill]

theorem hasNext_of_eq (h : cursor.position = region.stop) :
    region.hasNext buffer cursor = (.ok false, cursor) := by
  rw [hasNext, if_pos h]

theorem hasNext_of_lt
    (hlt : alignUp cursor.position region.element.alignment < region.stop)
    (hstop : region.stop ≤ buffer.bytes.size) :
    region.hasNext buffer cursor = (.ok true,
      { cursor with position := alignUp cursor.position region.element.alignment }) := by
  have hle := le_alignUp cursor.position region.element.alignment_pos
  have hmove : Decode.align region.element.alignment buffer cursor = (.ok (),
      { cursor with position := alignUp cursor.position region.element.alignment }) := by
    rw [Decode.align, Decode.moveTo, if_pos (by omega)]
  rw [hasNext, if_neg (by omega), if_neg (by omega), hmove]
  exact if_neg (Nat.not_le.mpr hlt)

theorem element_of_start {element : WireKind}
    (h : start element buffer cursor = (.ok region, reached)) : region.element = element := by
  obtain ⟨length, middle, -, hstart⟩ := Attempt.bind_eq_ok h
  simp only at hstart
  split at hstart
  · cases hstart
  · obtain ⟨_, aligned, -, hregion⟩ := Attempt.bind_eq_ok hstart
    simp only [ofLength] at hregion
    split at hregion <;> cases hregion
    rfl

theorem start_bind_congr {element : WireKind} {next other : Region → Decode α}
    (h : ∀ region, region.element = element → next region = other region) :
    start element >>= next = start element >>= other := by
  funext buffer cursor
  rw [Decode.bind_apply, Decode.bind_apply, Attempt.bind_apply, Attempt.bind_apply]
  cases hstart : start element buffer cursor with
  | mk outcome reached =>
      cases outcome with
      | ok region =>
          simp only
          rw [h region (element_of_start hstart)]
      | error error => rfl

end Region

namespace Decode

variable {α β : Type} {depth : Nat} {order : ByteOrder}

/-- Reading element after element, up to where an encoding ends, undoes it. -/
def CollectsBack (depth : Nat) (order : ByteOrder) (element : WireKind) (reader : Decode α)
    (layout : Layout) (values : List α) (fits : Prop) : Prop :=
  ∀ (buffer : Buffer) (start stop : Nat), buffer.order = order →
    (∀ error, ¬ layout.fault start error) → buffer.Holds start (layout.bytes start) →
    stop = start + (layout.bytes start).size →
    (fits → Region.collect ⟨element, stop⟩ reader buffer ⟨start, depth⟩ =
      (.ok values, ⟨stop, depth⟩)) ∧
    (¬ fits → ∃ reached, Region.collect ⟨element, stop⟩ reader buffer ⟨start, depth⟩ =
      (.error .variantDepth, reached))

theorem collectsBack_nil (element : WireKind) (reader : Decode α) :
    CollectsBack depth order element reader .empty [] True := by
  rintro buffer start stop - - - rfl
  refine ⟨fun _ => ?_, fun hnot => absurd trivial hnot⟩
  rw [Region.collect_eq, Region.hasNext_of_eq rfl]

theorem CollectsBack.congr {element : WireKind} {reader : Decode α} {layout : Layout}
    {values : List α} {fits fitsToo : Prop}
    (h : CollectsBack depth order element reader layout values fits)
    (hfits : fits ↔ fitsToo) :
    CollectsBack depth order element reader layout values fitsToo := by
  rwa [propext hfits] at h

theorem collectsBack_cons {element : WireKind} {reader : Decode α} {layout more : Layout}
    {value : α} {values : List α} {fits fitsToo : Prop}
    (hvalue : ReadsBack depth order reader layout value fits)
    (hstarts : layout.StartsAt element.alignment)
    (hvalues : CollectsBack depth order element reader more values fitsToo) :
    CollectsBack depth order element reader (layout.append more) (value :: values)
      (fits ∧ fitsToo) := by
  rintro buffer start stop horder hclean hholds rfl
  have hpositive := hstarts.nonempty start
  have hpadding := Layout.add_size_padding start element.alignment_pos
  have hfirst := hholds.left
  rw [hstarts.bytes start] at hfirst
  have hafter : alignUp start element.alignment +
      (layout.bytes (alignUp start element.alignment)).size =
        start + (layout.bytes start).size := by
    rw [hstarts.bytes start, ByteArray.size_append, ← Nat.add_assoc, hpadding]
  have hstop : start + ((layout.append more).bytes start).size =
      start + (layout.bytes start).size +
        (more.bytes (start + (layout.bytes start).size)).size := by
    rw [Layout.append, ByteArray.size_append, Nat.add_assoc]
  have hnext : Region.hasNext ⟨element, start + ((layout.append more).bytes start).size⟩
      buffer ⟨start, depth⟩ = (.ok true, ⟨alignUp start element.alignment, depth⟩) := by
    apply Region.hasNext_of_lt
    · change alignUp start element.alignment < start + ((layout.append more).bytes start).size
      omega
    · exact hholds.stop_le
  have hplace := hfirst.right
  rw [hpadding] at hplace
  obtain ⟨hok, hdeep⟩ := hvalue buffer (alignUp start element.alignment) horder
    (fun error h => hclean error (.inl ((hstarts.fault start error).mpr h))) hplace
  obtain ⟨hokToo, hdeepToo⟩ := hvalues buffer (start + (layout.bytes start).size)
    (start + ((layout.append more).bytes start).size) horder
    (fun error h => hclean error (.inr h)) hholds.right hstop
  rw [Region.collect_eq, hnext]
  by_cases hfits : fits
  · simp only
    rw [hok hfits, hafter]
    simp only
    rw [if_pos (by omega)]
    constructor
    · rintro ⟨-, hfitsToo⟩
      rw [hokToo hfitsToo]
    · intro hnot
      obtain ⟨reached, herror⟩ := hdeepToo fun hfitsToo => hnot ⟨hfits, hfitsToo⟩
      exact ⟨reached, by rw [herror]⟩
  · obtain ⟨reached, herror⟩ := hdeep hfits
    refine ⟨fun hboth => absurd hboth.1 hfits, fun _ => ⟨reached, ?_⟩⟩
    simp only
    rw [herror]

/-- The length of an array tells where its elements end. -/
theorem start_of_holds {element : WireKind} {layout : Layout} {buffer : Buffer} {start : Nat}
    (horder : buffer.order = order)
    (hshort : (layout.bytes (Layout.regionStart element start)).size ≤ maxArrayLength)
    (hholds : buffer.Holds start ((Layout.region order element layout).bytes start)) :
    Region.start element buffer ⟨start, depth⟩ =
        (.ok ⟨element, start + ((Layout.region order element layout).bytes start).size⟩,
          ⟨Layout.regionStart element start, depth⟩) ∧
      buffer.Holds (Layout.regionStart element start)
        (layout.bytes (Layout.regionStart element start)) := by
  have hpadding := Layout.add_size_padding (alignUp start 4 + 4) element.alignment_pos
  have hstop := Layout.add_size_region order element layout start
  have hroom := hholds.stop_le
  rw [Layout.bytes_region] at hholds
  rw [hstop] at hroom ⊢
  generalize hlength : (layout.bytes (Layout.regionStart element start)).size = length at *
  have hword := Layout.size_word order (show 0 < 4 by decide) length start
  have hplace := hholds.right
  rw [hword] at hplace
  have hcontents := hplace.right
  rw [hpadding] at hcontents
  have hwordBack : ReadsBack depth order (word 4) (.word order 4 length) length True :=
    readsBack_word (by decide) (Nat.lt_of_le_of_lt hshort (by decide))
  have hpaddingBack : ReadsBack depth order (align element.alignment)
      (.padding element.alignment) () True := readsBack_align element.alignment_pos
  have hreadWord := (hwordBack buffer start horder
    (Layout.not_fault_word order 4 length start) hholds.left).1 trivial
  have hreadPadding := (hpaddingBack buffer (alignUp start 4 + 4) horder (fun _ h => h)
    hplace.left).1 trivial
  rw [hword] at hreadWord
  rw [hpadding] at hreadPadding
  refine ⟨?_, hcontents⟩
  rw [Region.start, bind_apply, Attempt.bind_of_ok hreadWord, if_neg (by omega),
    bind_apply, Attempt.bind_of_ok hreadPadding]
  exact if_pos hroom

theorem readsBack_region {element : WireKind} {reader : Decode α} {layout : Layout}
    {values : List α} {fits : Prop}
    (h : CollectsBack depth order element reader layout values fits) :
    ReadsBack depth order (Region.start element >>= fun region => region.collect reader)
      (.region order element layout) values fits := by
  intro buffer start horder hclean hholds
  have hshort : (layout.bytes (Layout.regionStart element start)).size ≤ maxArrayLength := by
    apply Nat.le_of_not_lt
    intro hlong
    exact hclean _ (.inr ⟨hlong, rfl⟩)
  obtain ⟨hstart, hcontents⟩ := start_of_holds horder hshort hholds
  have hrun : (Region.start element >>= fun region => region.collect reader) buffer
      ⟨start, depth⟩ =
        Region.collect
          ⟨element, start + ((Layout.region order element layout).bytes start).size⟩ reader
          buffer ⟨Layout.regionStart element start, depth⟩ :=
    Attempt.bind_of_ok hstart
  rw [hrun]
  exact h buffer _ _ horder (fun error hfault => hclean error (.inl hfault)) hcontents
    (Layout.add_size_region order element layout start)

/-- A reader of what variants hold reads back contents in which variants are
nested in fewer levels than are allowed. -/
def ReadsBackVariants (depth : Nat) (order : ByteOrder) (inner : Decode Value)
    (levels : Nat) : Prop :=
  ∀ value : Value, Value.HasType (.variant value) .variant →
    ReadsBack depth order inner ((Value.variant value).layout order .variant) value.settled
      (value.variantDepth + 1 ≤ levels)

section

variable {inner : Decode Value} {levels : Nat}

theorem ReadsBack.container {element : WireKind} {reader : Decode α} {layout : Layout}
    {values : List α} {fits : Prop}
    (h : CollectsBack depth order element reader layout values fits) (f : List α → β) :
    ReadsBack depth order
      (Region.start element >>= fun region =>
        region.collect reader >>= fun values => pure (f values))
      (.region order element layout) (f values) fits := by
  have hassoc := bind_assoc (Region.start element)
    (fun region => (region.collect reader : Decode (List α))) (fun values => pure (f values))
  rw [← hassoc]
  exact (readsBack_region h).map f

theorem readsBack_key (key : Key) :
    ReadsBack depth order (asKey (basic key.value.type >>= fun value => pure (.basic value)))
      (.basic order key.value) key True := by
  refine ((readsBack_basic key.value).map Value.basic).finish ?_
  intro buffer _
  rw [Value.toKey, Key.ofBasic?, dif_pos key.notDouble]
  rfl

theorem max_le_iff {first second limit : Nat} :
    first ≤ limit ∧ second ≤ limit ↔ max first second ≤ limit :=
  Nat.max_le.symm

mutual

theorem readsBack_valueWith (hinner : ReadsBackVariants depth order inner levels) :
    ∀ {value : Value} {type : BusType}, Value.HasType value type →
      BusType.WithinLimits [type] →
      ReadsBack depth order (valueWith inner type) (value.layout order type) value.settled
        (value.variantDepth ≤ levels)
  | .basic value, type, h, _ => by
      cases type with
      | basic type =>
          have htype : value.type = type := h
          subst htype
          exact ((readsBack_basic value).map Value.basic).congr (by simp [Value.variantDepth])
      | _ => cases h
  | .variant value, type, h, _ => by
      cases type with
      | variant => exact (hinner value h).map Value.variant
      | _ => cases h
  | .array signature items, type, h, hlimits => by
      cases type with
      | array element =>
          have hitems := collectsBack_items hinner h.2 hlimits.element
          rw [Value.settled, h.1]
          exact .container hitems _
      | _ => cases h
  | .dict signature entries, type, h, hlimits => by
      cases type with
      | dict key type =>
          have hentries := collectsBack_entries hinner h.2 hlimits.value
          rw [Value.settled, h.1]
          exact .container hentries _
      | _ => cases h
  | .struct members, type, h, hlimits => by
      cases type with
      | struct first rest =>
          cases members with
          | nil => cases h
          | cons member members =>
              obtain ⟨hmember, hmembers⟩ := List.forall_mem_cons.mp hlimits.members
              have hfirst := readsBack_valueWith hinner h.1 hmember
              have hrest := readsBack_valuesWith hinner h.2 hmembers
              refine (readsBack_align (by decide)).andThen ?_
              refine (hfirst.bind (hrest.map _)).congr ?_
              exact max_le_iff
      | _ => cases h

theorem readsBack_valuesWith (hinner : ReadsBackVariants depth order inner levels) :
    ∀ {values : List Value} {types : List BusType}, Value.HaveTypes values types →
      (∀ type ∈ types, BusType.WithinLimits [type]) →
      ReadsBack depth order (valuesWith inner types) (Value.layoutAll order values types)
        (Value.settledAll values) (Value.variantDepthAll values ≤ levels)
  | [], types, h, _ => by
      cases types with
      | nil => exact (readsBack_pure []).congr (by simp [Value.variantDepthAll])
      | cons type types => cases h
  | value :: values, types, h, hlimits => by
      cases types with
      | nil => cases h
      | cons type types =>
          rw [List.forall_mem_cons] at hlimits
          have hvalue := readsBack_valueWith hinner h.1 hlimits.1
          have hvalues := readsBack_valuesWith hinner h.2 hlimits.2
          exact (hvalue.bind (hvalues.map _)).congr max_le_iff

theorem collectsBack_items (hinner : ReadsBackVariants depth order inner levels) :
    ∀ {items : List Value} {element : BusType}, Value.ItemsHaveType items element →
      BusType.WithinLimits [element] →
      CollectsBack depth order element.wireKind (valueWith inner element)
        (Value.itemsLayout order items element) (Value.settledAll items)
        (Value.variantDepthAll items ≤ levels)
  | [], _, _, _ => (collectsBack_nil _ _).congr (by simp [Value.variantDepthAll])
  | item :: items, element, h, hlimits => by
      have hitem := readsBack_valueWith hinner h.1 hlimits
      have hitems := collectsBack_items hinner h.2 hlimits
      exact (collectsBack_cons hitem (Value.startsAt_layout order h.1) hitems).congr max_le_iff

theorem collectsBack_entries (hinner : ReadsBackVariants depth order inner levels) :
    ∀ {entries : List (Key × Value)} {key : BasicType} {type : BusType},
      Value.EntriesHaveType entries key type → BusType.WithinLimits [type] →
      CollectsBack depth order .struct
        (do
          alignStruct
          entry (return .basic (← basic key)) (valueWith inner type))
        (Value.entriesLayout order entries type) (Value.settledEntries entries)
        (Value.variantDepthEntries entries ≤ levels)
  | [], _, _, _, _ => (collectsBack_nil _ _).congr (by simp [Value.variantDepthEntries])
  | (key, entry) :: entries, keyType, type, h, hlimits => by
      obtain ⟨hkey, hentry, hrest⟩ := h
      subst hkey
      have hvalue := readsBack_valueWith hinner hentry hlimits
      have hentries := collectsBack_entries hinner hrest hlimits
      have hfirst : ReadsBack depth order
          (do
            alignStruct
            Decode.entry (return .basic (← basic key.value.type)) (valueWith inner type))
          ((Layout.padding WireKind.struct.alignment).append
            ((Layout.basic order key.value).append (entry.layout order type)))
          (key, entry.settled) (entry.variantDepth ≤ levels) :=
        (readsBack_align (by decide)).andThen
          ((readsBack_key key).andThen (hvalue.map fun value => (key, value)))
      have hstarts : ((Layout.padding WireKind.struct.alignment).append
          ((Layout.basic order key.value).append (entry.layout order type))).StartsAt
            WireKind.struct.alignment := by
        apply Layout.startsAt_padding_append (by decide)
        intro offset
        rw [Layout.append, ByteArray.size_append]
        exact Nat.add_pos_left ((Layout.startsAt_basic order key.value).size_pos offset) _
      have hcons := collectsBack_cons hfirst hstarts hentries
      rw [Layout.append_assoc, Layout.append_assoc] at hcons
      exact hcons.congr max_le_iff

end

end

theorem readsBack_tooDeep (layout : Layout) (value : α) :
    ReadsBack depth order (fail .variantDepth) layout value False :=
  fun _ _ _ _ _ => ⟨False.elim, fun _ => ⟨_, rfl⟩⟩

theorem ReadsBack.insideVariant {reader : Decode α} {layout : Layout} {value : α}
    {fits : Prop} (h : ReadsBack (depth + 1) order reader layout value fits) :
    ReadsBack depth order (insideVariant reader) layout value fits := by
  intro buffer start horder hclean hholds
  obtain ⟨hok, hdeep⟩ := h buffer start horder hclean hholds
  refine ⟨fun hfits => ?_, fun hnot => ?_⟩
  · simp only [Decode.insideVariant, hok hfits, Nat.add_sub_cancel]
  · obtain ⟨reached, herror⟩ := hdeep hnot
    exact ⟨{ reached with variantDepth := reached.variantDepth - 1 },
      by simp only [Decode.insideVariant, herror]⟩

theorem readsBack_variantType {signature : String} {type : BusType}
    (h : BusType.parse signature = .ok type) :
    ReadsBack depth order variantType (.text order 1 signature) type True := by
  have hparse := BusType.parse_eq_ok_iff_parseAll.mp h
  obtain ⟨rfl, hlimits⟩ := BusType.parse_eq_ok_iff.mp h
  refine (readsBack_signature hparse (BasicValue.textFault?_signature hlimits)).finish ?_
  intro buffer _
  rw [h]
  rfl

/-- Variants are read back if they are nested in no more levels than are allowed. -/
theorem readsBackVariants_variantWithin (depth : Nat) (order : ByteOrder) (levels : Nat) :
    ReadsBackVariants depth order (variantWithin levels) levels := by
  induction levels generalizing depth with
  | zero =>
      intro value h
      obtain ⟨type, hparse, -⟩ := Value.hasType_variant_iff.mp h
      rw [Value.layout, hparse]
      refine ((readsBack_variantType hparse).andThen (readsBack_tooDeep _ _)).congr ?_
      simp
  | succ levels ih =>
      intro value h
      obtain ⟨type, hparse, htype⟩ := Value.hasType_variant_iff.mp h
      obtain ⟨-, hlimits⟩ := BusType.parse_eq_ok_iff.mp hparse
      have hvalue := readsBack_valueWith (ih (depth + 1)) htype hlimits
      rw [Value.layout, hparse]
      refine ((readsBack_variantType hparse).andThen hvalue.insideVariant).congr ?_
      exact Nat.add_le_add_iff_right.symm

theorem readsBackVariants_variant (depth : Nat) (order : ByteOrder) :
    ReadsBackVariants depth order variant (maxVariantDepth - depth) :=
  readsBackVariants_variantWithin depth order (maxVariantDepth - depth)

end Decode

end BusCodec
