import BusCodec.Proofs.Wire.Layout
import BusCodec.Wire.Encode

/-!
The writer computes the encoding of values.  It works on a body that is already
partly written, and fills in the length of an array only after its elements;
what it leaves is the body followed by the encoding at that offset.
-/

namespace BusCodec

namespace Encode

/-- A computation appends an encoding to the body that it is given, or fails for
one of the reasons for which there is no encoding. -/
def Yields (written : Encode Unit) (layout : Layout) : Prop :=
  ∀ body : ByteArray,
    (written body = (.ok (), body ++ layout.bytes body.size) ∧
        ∀ error, ¬ layout.fault body.size error) ∨
      ∃ error reached, written body = (.error error, reached) ∧
        layout.fault body.size error

theorem yields_pure : Yields (pure ()) .empty := by
  intro body
  refine .inl ⟨?_, fun _ hfault => hfault⟩
  rw [Layout.empty, ByteArray.append_empty]
  rfl

theorem Yields.bind {first second : Encode Unit} {layout more : Layout}
    (hfirst : Yields first layout) (hsecond : Yields second more) :
    Yields (first >>= fun _ => second) (layout.append more) := by
  intro body
  rcases hfirst body with ⟨hrun, hclean⟩ | ⟨error, reached, hrun, hfault⟩
  · rw [Attempt.bind_of_ok hrun]
    rcases hsecond (body ++ layout.bytes body.size) with
      ⟨hnext, hnone⟩ | ⟨error, reached, hnext, hfault⟩
    · rw [ByteArray.size_append] at hnext hnone
      refine .inl ⟨?_, ?_⟩
      · rw [hnext, Layout.append, ByteArray.append_assoc]
      · rintro error (hfault | hfault)
        · exact hclean error hfault
        · exact hnone error hfault
    · rw [ByteArray.size_append] at hfault
      exact .inr ⟨error, reached, hnext, .inr hfault⟩
  · exact .inr ⟨error, reached, Attempt.bind_of_error hrun, .inl hfault⟩

theorem Yields.of_clean {written : Encode Unit} {layout : Layout} {body : ByteArray}
    (h : Yields written layout) (hclean : ∀ error, ¬ layout.fault body.size error) :
    written body = (.ok (), body ++ layout.bytes body.size) := by
  rcases h body with ⟨hrun, -⟩ | ⟨error, reached, -, hfault⟩
  · exact hrun
  · exact absurd hfault (hclean error)

theorem Yields.of_ok {written : Encode Unit} {layout : Layout} {body reached : ByteArray}
    (h : Yields written layout) (hrun : written body = (.ok (), reached)) :
    reached = body ++ layout.bytes body.size ∧ ∀ error, ¬ layout.fault body.size error := by
  rcases h body with ⟨hok, hclean⟩ | ⟨error, other, herror, -⟩
  · rw [hok] at hrun
    cases hrun
    exact ⟨rfl, hclean⟩
  · rw [herror] at hrun
    cases hrun

theorem yields_append (bytes : ByteArray) :
    Yields (Attempt.update fun body => body ++ bytes) (.raw bytes) :=
  fun _ => .inl ⟨rfl, fun _ hfault => hfault⟩

theorem yields_align (alignment : Nat) : Yields (align alignment) (.padding alignment) :=
  fun _ => .inl ⟨rfl, fun _ hfault => hfault⟩

theorem yields_put (bytes : List UInt8) : Yields (put bytes) (.raw ⟨bytes.toArray⟩) :=
  yields_append _

theorem yields_word (width value : Nat) :
    Yields (word width value) (.word .little width value) :=
  (yields_align width).bind (yields_put _)

/-- A text is written whole or, if it breaks a rule, not at all. -/
theorem text_apply (lengthWidth : Nat) (value : String) (body : ByteArray) :
    text lengthWidth value body =
      match BasicValue.textFault? lengthWidth value with
      | some error => (.error error, body)
      | none => (.ok (), body ++ (Layout.text .little lengthWidth value).bytes body.size) := by
  unfold text BasicValue.textFault?
  split
  · rfl
  · split
    · have hyields := (yields_word lengthWidth value.toByteArray.size).bind
        ((yields_append value.toByteArray).bind (yields_put [0]))
      exact hyields.of_clean (Layout.not_fault_text .little lengthWidth value body.size)
    · rfl

/-- A basic value is written whole or, if it has no encoding, not at all. -/
theorem basic_apply (value : BasicValue) (body : ByteArray) :
    basic value body =
      match value.fault? with
      | some error => (.error error, body)
      | none => (.ok (), body ++ (Layout.basicBytes .little value).bytes body.size) := by
  cases value with
  | string value => exact text_apply 4 value body
  | objectPath path =>
      simp only [basic, objectPath, BasicValue.fault?]
      split
      · exact text_apply 4 path body
      · rfl
  | signature value =>
      simp only [basic, signature, BasicValue.fault?]
      cases BusType.parseAll value with
      | ok types => exact text_apply 1 value body
      | error error => rfl
  | _ => exact (yields_word _ _).of_clean (Layout.not_fault_word .little _ _ body.size)

theorem yields_basic (value : BasicValue) : Yields (basic value) (.basic .little value) := by
  intro body
  rw [basic_apply]
  cases hfault : value.fault? with
  | none =>
      refine .inl ⟨rfl, fun error h => ?_⟩
      simp [Layout.basic, hfault] at h
  | some error => exact .inr ⟨error, body, rfl, hfault⟩

/-- Filling in bytes replaces those that were kept free for them. -/
theorem overwrite_append {before free after : ByteArray} {bytes : List UInt8}
    (h : free.size = bytes.length) :
    overwrite before.size bytes (before ++ (free ++ after)) =
      before ++ (⟨bytes.toArray⟩ ++ after) := by
  have hsource : (⟨bytes.toArray⟩ : ByteArray).extract 0 (0 + bytes.length) =
      ⟨bytes.toArray⟩ := by
    apply ByteArray.ext
    simp
  have hafter : (before ++ (free ++ after)).extract (before.size + bytes.length)
      (before ++ (free ++ after)).data.size = after := by
    rw [← h, ← ByteArray.append_assoc, ← ByteArray.size_append]
    apply ByteArray.extract_append_eq_right rfl
    rw [ByteArray.size_data, ByteArray.size_append]
  have hmin : min bytes.length ((⟨bytes.toArray⟩ : ByteArray).data.size - 0) =
      bytes.length := by
    simp
  rw [overwrite, ByteArray.copySlice_eq_append, hsource, hmin, hafter,
    ByteArray.extract_append_eq_left rfl, ByteArray.append_assoc]

theorem openArray_apply (element : WireKind) (body : ByteArray) :
    openArray element body =
      (.ok ⟨alignUp body.size 4, Layout.regionStart element body.size⟩,
        body ++ (Layout.padding 4).bytes body.size ++ (⟨#[0, 0, 0, 0]⟩ ++
          (Layout.padding element.alignment).bytes (alignUp body.size 4 + 4))) := by
  have hlength := Layout.add_size_padding body.size (show 0 < 4 by decide)
  have hstart := Layout.add_size_padding (alignUp body.size 4 + 4) element.alignment_pos
  have hopened : (body ++ (Layout.padding 4).bytes body.size).size = alignUp body.size 4 := by
    rw [ByteArray.size_append, hlength]
  have hkept : (body ++ (Layout.padding 4).bytes body.size ++ ⟨#[0, 0, 0, 0]⟩).size =
      alignUp body.size 4 + 4 := by
    rw [ByteArray.size_append, hopened]
    rfl
  have hrun : openArray element body =
      (.ok ⟨(body ++ (Layout.padding 4).bytes body.size).size,
          (body ++ (Layout.padding 4).bytes body.size ++ ⟨#[0, 0, 0, 0]⟩ ++
            (Layout.padding element.alignment).bytes
              (body ++ (Layout.padding 4).bytes body.size ++ ⟨#[0, 0, 0, 0]⟩).size).size⟩,
        body ++ (Layout.padding 4).bytes body.size ++ ⟨#[0, 0, 0, 0]⟩ ++
          (Layout.padding element.alignment).bytes
            (body ++ (Layout.padding 4).bytes body.size ++ ⟨#[0, 0, 0, 0]⟩).size) :=
    rfl
  rw [hrun, hkept, hopened, ByteArray.size_append, hkept, hstart, Layout.regionStart,
    ByteArray.append_assoc]

/-- Closing an array fills in its length, unless the array is too long. -/
theorem closeArray_apply {before free after contents : ByteArray} (hfree : free.size = 4) :
    closeArray ⟨before.size, (before ++ (free ++ after)).size⟩
        (before ++ (free ++ after) ++ contents) =
      if maxArrayLength < contents.size then
        (.error (.arrayTooLong contents.size), before ++ (free ++ after) ++ contents)
      else
        (.ok (), before ++ (⟨(ByteOrder.little.encode 4 contents.size).toArray⟩ ++
          (after ++ contents))) := by
  have hlength : (before ++ (free ++ after) ++ contents).size -
      (before ++ (free ++ after)).size = contents.size := by
    rw [ByteArray.size_append, Nat.add_sub_cancel_left]
  rw [closeArray, Attempt.bind_of_ok (Attempt.state_apply _), hlength]
  split
  · rfl
  · rw [Attempt.update_apply, ByteArray.append_assoc, ByteArray.append_assoc,
      overwrite_append (by rw [hfree, ByteOrder.length_encode])]

theorem yields_region {element : WireKind} {contents : Encode Unit} {layout : Layout}
    (h : Yields contents layout) :
    Yields (do
        let array ← openArray element
        contents
        closeArray array)
      (.region .little element layout) := by
  intro body
  have hopen := openArray_apply element body
  have hlength := Layout.add_size_padding body.size (show 0 < 4 by decide)
  have hstart := Layout.add_size_padding (alignUp body.size 4 + 4) element.alignment_pos
  generalize hbefore : body ++ (Layout.padding 4).bytes body.size = before at hopen
  generalize hafter :
    (Layout.padding element.alignment).bytes (alignUp body.size 4 + 4) = after at hopen hstart
  have hindex : before.size = alignUp body.size 4 := by
    rw [← hbefore, ByteArray.size_append, hlength]
  have hbody : (before ++ (⟨#[0, 0, 0, 0]⟩ ++ after)).size =
      Layout.regionStart element body.size := by
    rw [Layout.regionStart, ← hstart, ← hindex, ByteArray.size_append,
      ByteArray.size_append, Nat.add_assoc]
    rfl
  rw [← hindex, ← hbody] at hopen
  have hregion : (Layout.region .little element layout).bytes body.size =
      (Layout.padding 4).bytes body.size ++
        (⟨(ByteOrder.little.encode 4
            (layout.bytes (Layout.regionStart element body.size)).size).toArray⟩ ++
          (after ++ layout.bytes (Layout.regionStart element body.size))) := by
    rw [Layout.bytes_region, hafter, Layout.word, Layout.append, Layout.raw,
      ByteArray.append_assoc]
  rw [Attempt.bind_of_ok hopen]
  rcases h (before ++ (⟨#[0, 0, 0, 0]⟩ ++ after)) with
    ⟨hrun, hclean⟩ | ⟨error, reached, hrun, hfault⟩
  · rw [Attempt.bind_of_ok hrun, closeArray_apply rfl]
    rw [hbody] at hclean ⊢
    split
    · rename_i hlong
      exact .inr ⟨_, _, rfl, .inr ⟨hlong, rfl⟩⟩
    · rename_i hshort
      refine .inl ⟨?_, ?_⟩
      · rw [hregion, ← hbefore, ByteArray.append_assoc]
      · rintro error (hfault | ⟨hlong, -⟩)
        · exact hclean error hfault
        · exact hshort hlong
  · rw [hbody] at hfault
    exact .inr ⟨error, reached, Attempt.bind_of_error hrun, .inl hfault⟩

theorem yields_signature {type : BusType} (h : BusType.WithinLimits [type]) :
    Yields (signature type.signature) (.text .little 1 type.signature) := by
  intro body
  have hparse : BusType.parseAll type.signature = .ok [type] := by
    rw [← BusType.parse_eq_ok_iff_parseAll]
    exact BusType.parse_signature h
  refine .inl ⟨?_, Layout.not_fault_text .little 1 type.signature body.size⟩
  rw [signature, hparse]
  change text 1 type.signature body = _
  rw [text_apply, BasicValue.textFault?_signature h]

theorem checkShape_of_hasType {value : Value} {type : BusType}
    (h : Value.HasType value type) : value.checkShape type.signature = .ok () := by
  rw [Value.checkShape, if_pos (Value.signature_eq_of_hasType h)]

mutual

theorem yields_value : ∀ {value : Value} {type : BusType}, Value.HasType value type →
    BusType.WithinLimits [type] → Yields (Encode.value value) (value.layout .little type)
  | .basic value, type, h, _ => by
      cases type with
      | basic type => exact yields_basic value
      | _ => cases h
  | .variant inner, type, h, _ => by
      cases type with
      | variant =>
          obtain ⟨type, hparse, hinner⟩ := Value.hasType_variant_iff.mp h
          obtain ⟨hsignature, hlimits⟩ := BusType.parse_eq_ok_iff.mp hparse
          rw [Encode.value, Value.layout, hparse, hsignature]
          exact (yields_signature hlimits).bind (yields_value hinner hlimits)
      | _ => cases h
  | .array signature items, type, h, hlimits => by
      cases type with
      | array element =>
          rw [Encode.value, h.1, BusType.parse_signature hlimits]
          exact yields_region (yields_itemsOf h.2 hlimits.element)
      | _ => cases h
  | .dict signature entries, type, h, hlimits => by
      cases type with
      | dict key value =>
          rw [Encode.value, h.1, BusType.parse_signature hlimits]
          exact yields_region (yields_entriesOf h.2 hlimits.value)
      | _ => cases h
  | .struct members, type, h, hlimits => by
      cases type with
      | struct first rest =>
          cases members with
          | nil => cases h
          | cons member members =>
              obtain ⟨hmember, hmembers⟩ := List.forall_mem_cons.mp hlimits.members
              rw [Encode.value]
              exact (yields_align _).bind
                ((yields_value h.1 hmember).bind (yields_values h.2 hmembers))
      | _ => cases h

theorem yields_values : ∀ {values : List Value} {types : List BusType},
    Value.HaveTypes values types → (∀ type ∈ types, BusType.WithinLimits [type]) →
    Yields (Encode.values values) (Value.layoutAll .little values types)
  | [], types, h, _ => by
      cases types with
      | nil => exact yields_pure
      | cons type types => cases h
  | value :: values, types, h, hlimits => by
      cases types with
      | nil => cases h
      | cons type types =>
          rw [List.forall_mem_cons] at hlimits
          exact (yields_value h.1 hlimits.1).bind (yields_values h.2 hlimits.2)

theorem yields_itemsOf : ∀ {items : List Value} {element : BusType},
    Value.ItemsHaveType items element → BusType.WithinLimits [element] →
    Yields (itemsOf element.signature items) (Value.itemsLayout .little items element)
  | [], _, _, _ => yields_pure
  | item :: items, element, h, hlimits => by
      rw [itemsOf, checkShape_of_hasType h.1, Attempt.lift_ok_bind]
      exact (yields_value h.1 hlimits).bind (yields_itemsOf h.2 hlimits)

theorem yields_entriesOf : ∀ {entries : List (Key × Value)} {key : BasicType}
    {type : BusType}, Value.EntriesHaveType entries key type → BusType.WithinLimits [type] →
    Yields (entriesOf key.signatureText type.signature entries)
      (Value.entriesLayout .little entries type)
  | [], _, _, _, _ => yields_pure
  | (key, entry) :: entries, keyType, type, h, hlimits => by
      have hkey : (Value.basic key.value).checkShape keyType.signatureText = .ok () := by
        rw [Value.checkShape, Value.signature, h.1, if_pos rfl]
      rw [entriesOf, hkey, Attempt.lift_ok_bind, checkShape_of_hasType h.2.1,
        Attempt.lift_ok_bind]
      exact (yields_align _).bind ((yields_basic key.value).bind
        ((yields_value h.2.1 hlimits).bind (yields_entriesOf h.2.2 hlimits)))

end

theorem eq_of_checkShape_ok {value : Value} {expected : String}
    (h : value.checkShape expected = .ok ()) : value.signature = expected := by
  unfold Value.checkShape at h
  split at h
  · assumption
  · cases h

mutual

/-- Only a value that is what its signatures say can be written. -/
theorem exists_hasType_of_value : ∀ {value : Value} {body reached : ByteArray},
    Encode.value value body = (.ok (), reached) → ∃ type, Value.HasType value type
  | .basic value, _, _, _ => ⟨.basic value.type, rfl⟩
  | .variant inner, body, reached, h => by
      rw [Encode.value] at h
      cases hparse : BusType.parse inner.signature with
      | error error =>
          rw [hparse] at h
          cases h
      | ok type =>
          rw [hparse, Attempt.liftGrammar_ok_bind] at h
          obtain ⟨_, middle, -, hinner⟩ := Attempt.bind_eq_ok h
          obtain ⟨own, hown⟩ := exists_hasType_of_value hinner
          have heq : own = type := by
            apply BusType.signature_injective
            rw [← Value.signature_eq_of_hasType hown]
            exact (BusType.parse_eq_ok_iff.mp hparse).1
          rw [heq] at hown
          exact ⟨.variant, Value.hasType_variant_iff.mpr ⟨type, hparse, hown⟩⟩
  | .array signature items, body, reached, h => by
      rw [Encode.value] at h
      cases hparse : BusType.parse signature with
      | error error =>
          rw [hparse] at h
          cases h
      | ok type =>
          rw [hparse, Attempt.liftGrammar_ok_bind] at h
          cases type with
          | array element =>
              obtain ⟨array, opened, -, hcontents⟩ := Attempt.bind_eq_ok h
              obtain ⟨_, middle, hitems, -⟩ := Attempt.bind_eq_ok hcontents
              exact ⟨.array element, (BusType.parse_eq_ok_iff.mp hparse).1,
                itemsHaveType_of_itemsOf hitems⟩
          | _ => cases h
  | .dict signature entries, body, reached, h => by
      rw [Encode.value] at h
      cases hparse : BusType.parse signature with
      | error error =>
          rw [hparse] at h
          cases h
      | ok type =>
          rw [hparse, Attempt.liftGrammar_ok_bind] at h
          cases type with
          | dict key type =>
              obtain ⟨array, opened, -, hcontents⟩ := Attempt.bind_eq_ok h
              obtain ⟨_, middle, hentries, -⟩ := Attempt.bind_eq_ok hcontents
              exact ⟨.dict key type, (BusType.parse_eq_ok_iff.mp hparse).1,
                entriesHaveType_of_entriesOf hentries⟩
          | _ => cases h
  | .struct [], body, reached, h => by
      rw [Encode.value] at h
      cases h
  | .struct (first :: rest), body, reached, h => by
      rw [Encode.value] at h
      obtain ⟨_, aligned, -, hmembers⟩ := Attempt.bind_eq_ok h
      obtain ⟨_, middle, hfirst, hrest⟩ := Attempt.bind_eq_ok hmembers
      obtain ⟨type, htype⟩ := exists_hasType_of_value hfirst
      obtain ⟨types, htypes⟩ := exists_haveTypes_of_values hrest
      exact ⟨.struct type types, htype, htypes⟩

theorem exists_haveTypes_of_values : ∀ {values : List Value} {body reached : ByteArray},
    Encode.values values body = (.ok (), reached) → ∃ types, Value.HaveTypes values types
  | [], _, _, _ => ⟨[], trivial⟩
  | value :: values, body, reached, h => by
      rw [Encode.values] at h
      obtain ⟨_, middle, hvalue, hvalues⟩ := Attempt.bind_eq_ok h
      obtain ⟨type, htype⟩ := exists_hasType_of_value hvalue
      obtain ⟨types, htypes⟩ := exists_haveTypes_of_values hvalues
      exact ⟨type :: types, htype, htypes⟩

theorem itemsHaveType_of_itemsOf : ∀ {items : List Value} {element : BusType}
    {body reached : ByteArray}, itemsOf element.signature items body = (.ok (), reached) →
    Value.ItemsHaveType items element
  | [], _, _, _, _ => trivial
  | item :: items, element, body, reached, h => by
      rw [itemsOf] at h
      obtain ⟨_, checked, hshape, hitem⟩ := Attempt.bind_eq_ok h
      obtain ⟨_, middle, hvalue, hitems⟩ := Attempt.bind_eq_ok hitem
      obtain ⟨type, htype⟩ := exists_hasType_of_value hvalue
      have heq : type = element := by
        apply BusType.signature_injective
        rw [← Value.signature_eq_of_hasType htype]
        exact eq_of_checkShape_ok (congrArg Prod.fst hshape)
      rw [heq] at htype
      exact ⟨htype, itemsHaveType_of_itemsOf hitems⟩

theorem entriesHaveType_of_entriesOf : ∀ {entries : List (Key × Value)} {key : BasicType}
    {type : BusType} {body reached : ByteArray},
    entriesOf key.signatureText type.signature entries body = (.ok (), reached) →
    Value.EntriesHaveType entries key type
  | [], _, _, _, _, _ => trivial
  | (key, entry) :: entries, keyType, type, body, reached, h => by
      rw [entriesOf] at h
      obtain ⟨_, aligned, -, hentry⟩ := Attempt.bind_eq_ok h
      obtain ⟨_, _, hkeyShape, hentry⟩ := Attempt.bind_eq_ok hentry
      obtain ⟨_, _, -, hentry⟩ := Attempt.bind_eq_ok hentry
      obtain ⟨_, _, hshape, hentry⟩ := Attempt.bind_eq_ok hentry
      obtain ⟨_, _, hvalue, hentries⟩ := Attempt.bind_eq_ok hentry
      obtain ⟨own, hown⟩ := exists_hasType_of_value hvalue
      have hkey : key.value.type = keyType := by
        have hcode := eq_of_checkShape_ok (congrArg Prod.fst hkeyShape)
        rw [Value.signature] at hcode
        have hbasic : BusType.basic key.value.type = .basic keyType :=
          BusType.signature_injective hcode
        cases hbasic
        rfl
      have heq : own = type := by
        apply BusType.signature_injective
        rw [← Value.signature_eq_of_hasType hown]
        exact eq_of_checkShape_ok (congrArg Prod.fst hshape)
      rw [heq] at hown
      exact ⟨hkey, hown, entriesHaveType_of_entriesOf hentries⟩

end

theorem hasType_of_variant {value : Value} {body written : ByteArray}
    (h : variant value body = (.ok (), written)) :
    Value.HasType (.variant value) .variant := by
  obtain ⟨type, htype⟩ := exists_hasType_of_value h
  cases type with
  | variant => exact htype
  | _ => cases htype

theorem yields_variant {value : Value} (h : Value.HasType (.variant value) .variant) :
    Yields (variant value) ((Value.variant value).layout .little .variant) := by
  have hparse : BusType.parse "v" = .ok .variant := rfl
  exact yields_value h (BusType.parse_eq_ok_iff.mp hparse).2

end Encode

end BusCodec
