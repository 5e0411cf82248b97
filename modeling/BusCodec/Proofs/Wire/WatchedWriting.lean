import BusCodec.Proofs.Watched
import BusCodec.Proofs.Wire.Writing

/-!
Writing only appends.  The watched writer is stopped where the closing of an array would
subtract too much, store a number that its length field cannot hold, or store it outside the
body.  It never is, and whether or not it fails, it leaves the bytes as they are that were
there before.
-/

namespace BusCodec

/-- A computation that appends to a message body while it is watched. -/
abbrev WatchedEncode (α : Type) : Type :=
  Watched ByteArray α

namespace WatchedEncode

def closeArray (array : OpenArray) : WatchedEncode Unit := do
  let size := (← Watched.free Attempt.state).size
  Watched.require (array.bodyIndex ≤ size)
  let length := size - array.bodyIndex
  if length > maxArrayLength then Watched.free (Attempt.fail (.arrayTooLong length))
  else
    Watched.require (length < Word.limit 4)
    Watched.require (array.lengthIndex + 4 ≤ size)
    Watched.free
      (Attempt.update (Encode.overwrite array.lengthIndex (ByteOrder.little.encode 4 length)))

mutual

def value : Value → WatchedEncode Unit
  | .basic value => Watched.free (Encode.basic value)
  | .variant inner => do
      let _ ← Watched.free (Attempt.liftGrammar (BusType.parse inner.signature))
      Watched.free (Encode.signature inner.signature)
      value inner
  | .array signature items => do
      match ← Watched.free (Attempt.liftGrammar (BusType.parse signature)) with
      | .array element =>
          let array ← Watched.free (Encode.openArray element.wireKind)
          itemsOf element.signature items
          closeArray array
      | _ => Watched.free (Attempt.fail (.valueShape "array" signature))
  | .dict signature entries => do
      match ← Watched.free (Attempt.liftGrammar (BusType.parse signature)) with
      | .dict key type =>
          let array ← Watched.free (Encode.openArray .struct)
          entriesOf key.signatureText type.signature entries
          closeArray array
      | _ => Watched.free (Attempt.fail (.valueShape "dictionary" signature))
  | .struct [] => Watched.free (Attempt.fail (.valueShape "struct with members" "()"))
  | .struct (first :: rest) => do
      Watched.free Encode.alignStruct
      value first
      values rest
termination_by structural value => value

def values : List Value → WatchedEncode Unit
  | [] => pure ()
  | first :: rest => do
      value first
      values rest
termination_by structural values => values

def itemsOf (signature : String) : List Value → WatchedEncode Unit
  | [] => pure ()
  | item :: items => do
      Watched.free (Attempt.lift (item.checkShape signature))
      value item
      itemsOf signature items
termination_by structural items => items

def entriesOf (keySignature valueSignature : String) :
    List (Key × Value) → WatchedEncode Unit
  | [] => pure ()
  | (key, entry) :: entries => do
      Watched.free Encode.alignStruct
      Watched.free (Attempt.lift ((Value.basic key.value).checkShape keySignature))
      Watched.free (Encode.basic key.value)
      Watched.free (Attempt.lift (entry.checkShape valueSignature))
      value entry
      entriesOf keySignature valueSignature entries
termination_by structural entries => entries

end

end WatchedEncode

namespace Encode

variable {α β : Type}

/-- A computation is not stopped while it is watched, and appends to the body that it is
given, also when it fails. -/
structure Appends (watched : WatchedEncode α) (written : Encode α) : Prop where
  unstopped : ∀ body, watched body = some (written body)
  appended : ∀ body, ∃ more, (written body).2 = body ++ more

theorem appends_free {written : Encode α} (h : ∀ body, ∃ more, (written body).2 = body ++ more) :
    Appends (.free written) written :=
  ⟨fun _ => rfl, h⟩

theorem appends_lift (outcome : Except Error α) :
    Appends (.free (Attempt.lift outcome)) (Attempt.lift outcome) :=
  appends_free fun _ => ⟨.empty, ByteArray.append_empty.symm⟩

theorem appends_fail (error : Error) :
    Appends (.free (Attempt.fail error : Encode α)) (Attempt.fail error) :=
  appends_lift (.error error)

theorem appends_pure (value : α) : Appends (pure value) (pure value) :=
  appends_lift (.ok value)

theorem Appends.bind {first : WatchedEncode α} {next : α → WatchedEncode β}
    {written : Encode α} {more : α → Encode β} (hfirst : Appends first written)
    (hnext : ∀ value, Appends (next value) (more value)) :
    Appends (first >>= next) (written >>= more) := by
  refine ⟨fun body => Watched.bind_eq_some (hfirst.unstopped body) fun value reached _ =>
    (hnext value).unstopped reached, fun body => ?_⟩
  obtain ⟨bytes, hbytes⟩ := hfirst.appended body
  cases hrun : written body with
  | mk outcome reached =>
      rw [hrun] at hbytes
      cases outcome with
      | ok value =>
          obtain ⟨others, hothers⟩ := (hnext value).appended reached
          refine ⟨bytes ++ others, ?_⟩
          rw [Attempt.bind_of_ok hrun, hothers, ← ByteArray.append_assoc]
          exact congrArg (· ++ others) hbytes
      | error error =>
          rw [Attempt.bind_of_error hrun]
          exact ⟨bytes, hbytes⟩

theorem appends_align (alignment : Nat) : Appends (.free (align alignment)) (align alignment) :=
  appends_free fun _ => ⟨_, rfl⟩

theorem appends_basic (value : BasicValue) : Appends (.free (basic value)) (basic value) := by
  apply appends_free
  intro body
  rw [basic_apply]
  cases value.fault? with
  | none => exact ⟨_, rfl⟩
  | some error => exact ⟨.empty, ByteArray.append_empty.symm⟩

theorem appends_signature (text : String) :
    Appends (.free (signature text)) (signature text) :=
  appends_basic (.signature text)

/-- Opening an array appends its length field, which is to be filled in, between paddings. -/
theorem exists_opened (element : WireKind) (body : ByteArray) :
    ∃ padding after, openArray element body =
      (.ok ⟨(body ++ padding).size, (body ++ padding ++ (⟨#[0, 0, 0, 0]⟩ ++ after)).size⟩,
        body ++ padding ++ (⟨#[0, 0, 0, 0]⟩ ++ after)) := by
  refine ⟨(Layout.padding 4).bytes body.size, (Layout.padding element.alignment).bytes
    (body ++ (Layout.padding 4).bytes body.size ++ ⟨#[0, 0, 0, 0]⟩).size, ?_⟩
  rw [← ByteArray.append_assoc]
  rfl

/-- An array whose elements do not begin behind the end is closed without being stopped. -/
theorem unstopped_closeArray {array : OpenArray} {body : ByteArray}
    (hfield : array.lengthIndex + 4 ≤ body.size) (hbody : array.bodyIndex ≤ body.size) :
    WatchedEncode.closeArray array body = some (closeArray array body) := by
  have hchecked : WatchedEncode.closeArray array body =
      (Watched.require (array.bodyIndex ≤ body.size) >>= fun _ =>
        if body.size - array.bodyIndex > maxArrayLength then
          Watched.free (Attempt.fail (.arrayTooLong (body.size - array.bodyIndex)))
        else
          Watched.require (body.size - array.bodyIndex < Word.limit 4) >>= fun _ =>
            Watched.require (array.lengthIndex + 4 ≤ body.size) >>= fun _ =>
              Watched.free (Attempt.update (overwrite array.lengthIndex
                (ByteOrder.little.encode 4 (body.size - array.bodyIndex))))) body :=
    rfl
  rw [hchecked, Watched.require_bind hbody, closeArray,
    Attempt.bind_of_ok (Attempt.state_apply _)]
  split
  · rfl
  · rename_i hshort
    have hfits : body.size - array.bodyIndex < Word.limit 4 :=
      Nat.lt_of_le_of_lt (Nat.le_of_not_lt hshort) (by decide)
    rw [Watched.require_bind hfits, Watched.require_bind hfield]
    rfl

theorem exists_split {body : ByteArray} {index count : Nat} (h : index + count ≤ body.size) :
    ∃ head field tail : ByteArray, body = head ++ (field ++ tail) ∧ head.size = index ∧
      field.size = count := by
  refine ⟨body.extract 0 index, body.extract index (index + count),
    body.extract (index + count) body.size, ?_, ?_, ?_⟩
  · rw [← ByteArray.extract_eq_extract_append_extract _ (Nat.le_add_right _ _) h,
      ← ByteArray.extract_eq_extract_append_extract _ (Nat.zero_le _) (by omega),
      ByteArray.extract_zero_size]
  · rw [ByteArray.size_extract]
    omega
  · rw [ByteArray.size_extract]
    omega

/-- Closing an array replaces its length in the body, or nothing if the array is too long. -/
theorem closeArray_cases {array : OpenArray} {body : ByteArray}
    (hfield : array.lengthIndex + 4 ≤ body.size) :
    (maxArrayLength < body.size - array.bodyIndex ∧
        closeArray array body = (.error (.arrayTooLong (body.size - array.bodyIndex)), body)) ∨
      (body.size - array.bodyIndex ≤ maxArrayLength ∧
        ∃ head field tail, body = head ++ (field ++ tail) ∧ head.size = array.lengthIndex ∧
          field.size = 4 ∧ closeArray array body = (.ok (), head ++
            (⟨(ByteOrder.little.encode 4 (body.size - array.bodyIndex)).toArray⟩ ++ tail))) := by
  have hrun : closeArray array body =
      if body.size - array.bodyIndex > maxArrayLength then
        (.error (.arrayTooLong (body.size - array.bodyIndex)), body)
      else (.ok (), overwrite array.lengthIndex
        (ByteOrder.little.encode 4 (body.size - array.bodyIndex)) body) := by
    rw [closeArray, Attempt.bind_of_ok (Attempt.state_apply _)]
    split <;> rfl
  by_cases hlong : maxArrayLength < body.size - array.bodyIndex
  · exact .inl ⟨hlong, by rw [hrun, if_pos hlong]⟩
  · obtain ⟨head, field, tail, hsplit, hhead, hsize⟩ := exists_split hfield
    refine .inr ⟨Nat.le_of_not_lt hlong, head, field, tail, hsplit, hhead, hsize, ?_⟩
    rw [hrun, if_neg hlong]
    generalize body.size - array.bodyIndex = count
    rw [hsplit, ← hhead, overwrite_append]
    rw [hsize, ByteOrder.length_encode]

/-- An array with contents that append something only appends, as its length field is among
the bytes that it has appended itself. -/
theorem appends_region {element : WireKind} {watched : WatchedEncode Unit}
    {contents : Encode Unit} (h : Appends watched contents) :
    Appends
      (Watched.free (openArray element) >>= fun array =>
        watched >>= fun _ => WatchedEncode.closeArray array)
      (openArray element >>= fun array => contents >>= fun _ => closeArray array) := by
  have hregion : ∀ body,
      (Watched.free (openArray element) >>= fun array =>
        watched >>= fun _ => WatchedEncode.closeArray array) body =
          some ((openArray element >>= fun array =>
            contents >>= fun _ => closeArray array) body) ∧
        ∃ more, ((openArray element >>= fun array =>
          contents >>= fun _ => closeArray array) body).2 = body ++ more := by
    intro body
    obtain ⟨padding, after, hopen⟩ := exists_opened element body
    rw [Watched.bind_of_ok (congrArg some hopen), Attempt.bind_of_ok hopen]
    have hcontents := h.unstopped (body ++ padding ++ (⟨#[0, 0, 0, 0]⟩ ++ after))
    obtain ⟨more, hmore⟩ := h.appended (body ++ padding ++ (⟨#[0, 0, 0, 0]⟩ ++ after))
    cases hrun : contents (body ++ padding ++ (⟨#[0, 0, 0, 0]⟩ ++ after)) with
    | mk outcome reached =>
        rw [hrun] at hcontents hmore
        obtain rfl : reached = _ := hmore
        cases outcome with
        | error error =>
            rw [Watched.bind_of_error hcontents, Attempt.bind_of_error hrun]
            refine ⟨rfl, padding ++ (⟨#[0, 0, 0, 0]⟩ ++ after) ++ more, ?_⟩
            simp only [ByteArray.append_assoc]
        | ok _ =>
            rw [Watched.bind_of_ok hcontents, Attempt.bind_of_ok hrun]
            refine ⟨unstopped_closeArray ?_ ?_, ?_⟩
            · have hzeros : (⟨#[0, 0, 0, 0]⟩ : ByteArray).size = 4 := rfl
              simp only [ByteArray.size_append, hzeros]
              omega
            · simp only [ByteArray.size_append]
              omega
            · rw [closeArray_apply rfl]
              split
              · refine ⟨padding ++ (⟨#[0, 0, 0, 0]⟩ ++ after) ++ more, ?_⟩
                simp only [ByteArray.append_assoc]
              · exact ⟨_, ByteArray.append_assoc⟩
  exact ⟨fun body => (hregion body).1, fun body => (hregion body).2⟩

mutual

theorem appends_value : ∀ value : Value, Appends (WatchedEncode.value value) (Encode.value value)
  | .basic value => appends_basic value
  | .variant inner =>
      (appends_lift _).bind fun _ => (appends_signature inner.signature).bind fun _ =>
        appends_value inner
  | .array signature items => by
      refine (appends_lift _).bind fun type => ?_
      cases type with
      | array element => exact appends_region (appends_itemsOf element.signature items)
      | _ => exact appends_fail _
  | .dict signature entries => by
      refine (appends_lift _).bind fun type => ?_
      cases type with
      | dict key type =>
          exact appends_region (appends_entriesOf key.signatureText type.signature entries)
      | _ => exact appends_fail _
  | .struct [] => appends_fail _
  | .struct (first :: rest) =>
      (appends_align _).bind fun _ => (appends_value first).bind fun _ => appends_values rest

theorem appends_values : ∀ values : List Value,
    Appends (WatchedEncode.values values) (Encode.values values)
  | [] => appends_pure ()
  | first :: rest => (appends_value first).bind fun _ => appends_values rest

theorem appends_itemsOf (signature : String) : ∀ items : List Value,
    Appends (WatchedEncode.itemsOf signature items) (itemsOf signature items)
  | [] => appends_pure ()
  | item :: items =>
      (appends_lift _).bind fun _ => (appends_value item).bind fun _ =>
        appends_itemsOf signature items

theorem appends_entriesOf (keySignature valueSignature : String) :
    ∀ entries : List (Key × Value),
      Appends (WatchedEncode.entriesOf keySignature valueSignature entries)
        (entriesOf keySignature valueSignature entries)
  | [] => appends_pure ()
  | (key, entry) :: entries =>
      (appends_align _).bind fun _ => (appends_lift _).bind fun _ =>
        (appends_basic key.value).bind fun _ => (appends_lift _).bind fun _ =>
          (appends_value entry).bind fun _ =>
            appends_entriesOf keySignature valueSignature entries

end

end Encode

end BusCodec
