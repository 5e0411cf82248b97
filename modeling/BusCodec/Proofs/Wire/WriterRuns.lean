import BusCodec.Proofs.Wire.WatchedWriting

/-!
Any use of one writer.  Its operations may follow one another in any order and go on after
failures, and the arrays that are open may be closed in any order.  Bytes that are written
stay as they are, except for the length of an array: it is filled in when the array is
closed, with the number of bytes that have been appended since the array was opened.
-/

namespace BusCodec

/-- What a writer can append that opens or closes no array. -/
inductive WriterItem
  | basic (value : BasicValue)
  | signature (text : String)
  | variant (value : Value)
  | structStart

/-- One use of a writer. -/
inductive WriterOperation
  | append (item : WriterItem)
  | openArray (element : WireKind)
  /-- Closes the array at a place among those that have been opened, if it is still open. -/
  | closeArray (place : Nat)

/-- A writer in use: its body, the arrays that have been opened, one after another, and the
places among them of those that have been closed. -/
structure WriterState where
  body : ByteArray := .empty
  arrays : List OpenArray := []
  closed : List Nat := []

namespace OpenArray

/-- Whether a byte belongs to the length of an array. -/
def InLength (array : OpenArray) (index : Nat) : Prop :=
  array.lengthIndex ≤ index ∧ index < array.lengthIndex + 4

end OpenArray

namespace WriterItem

def write : WriterItem → Encode Unit
  | basic value => Encode.basic value
  | signature text => Encode.signature text
  | variant value => Encode.variant value
  | structStart => Encode.alignStruct

def watch : WriterItem → WatchedEncode Unit
  | variant value => WatchedEncode.value (.variant value)
  | item => .free item.write

theorem appends_write (item : WriterItem) : Encode.Appends item.watch item.write := by
  cases item with
  | basic value => exact Encode.appends_basic value
  | signature text => exact Encode.appends_signature text
  | variant value => exact Encode.appends_value (.variant value)
  | structStart => exact Encode.appends_align _

theorem basic_error (value : BasicValue) {body reached : ByteArray} {error : Error}
    (h : Encode.basic value body = (.error error, reached)) : reached = body := by
  rw [Encode.basic_apply] at h
  split at h <;> cases h
  rfl

/-- Only a variant can be written in part. -/
theorem write_error {item : WriterItem} {body reached : ByteArray} {error : Error}
    (h : item.write body = (.error error, reached)) (hitem : ∀ value, item ≠ .variant value) :
    reached = body := by
  cases item with
  | basic value => exact basic_error value h
  | signature text => exact basic_error (.signature text) h
  | variant value => exact absurd rfl (hitem value)
  | structStart => cases h

end WriterItem

namespace WriterState

/-- The array at a place, if it is open. -/
def open? (state : WriterState) (place : Nat) : Option OpenArray :=
  if place ∈ state.closed then none else state.arrays[place]?

/-- Where the arrays stand in the body: their lengths do not overlap, and their elements
begin behind these. -/
structure Sound (state : WriterState) : Prop where
  apart : state.arrays.Pairwise fun first second =>
    first.lengthIndex + 4 ≤ second.lengthIndex
  inside : ∀ array ∈ state.arrays,
    array.lengthIndex + 4 ≤ array.bodyIndex ∧ array.bodyIndex ≤ state.body.size

theorem mem_of_open? {state : WriterState} {place : Nat} {array : OpenArray}
    (h : state.open? place = some array) : array ∈ state.arrays := by
  unfold open? at h
  split at h
  · cases h
  · exact List.mem_of_getElem? h

/-- Closing an array opens none. -/
theorem open?_of_close {state : WriterState} {body : ByteArray} {place other : Nat}
    {array : OpenArray}
    (h : open? { state with body, closed := other :: state.closed } place = some array) :
    state.open? place = some array := by
  unfold open? at h ⊢
  split at h
  · cases h
  · rename_i hnot
    rw [if_neg fun hclosed => hnot (List.mem_cons_of_mem _ hclosed)]
    exact h

end WriterState

namespace WriterOperation

/-- Goes on with the body of a writer. -/
def onBody (written : Encode Unit) : Attempt WriterState Unit :=
  fun state =>
    let run := written state.body
    (run.1, { state with body := run.2 })

def perform : WriterOperation → Attempt WriterState Unit
  | append item => onBody item.write
  | openArray element => fun state =>
      match Encode.openArray element state.body with
      | (.ok array, body) => (.ok (), { state with body, arrays := state.arrays ++ [array] })
      | (.error error, body) => (.error error, { state with body })
  | closeArray place => fun state =>
      match state.open? place with
      | some array =>
          onBody (Encode.closeArray array) { state with closed := place :: state.closed }
      | none => (.ok (), state)

def watchBody (watched : WatchedEncode Unit) : Watched WriterState Unit :=
  fun state => (watched state.body).map fun run => (run.1, { state with body := run.2 })

/-- Performs an operation while it is watched. -/
def watch : WriterOperation → Watched WriterState Unit
  | append item => watchBody item.watch
  | openArray element => .free (openArray element).perform
  | closeArray place => fun state =>
      match state.open? place with
      | some array =>
          watchBody (WatchedEncode.closeArray array)
            { state with closed := place :: state.closed }
      | none => some (.ok (), state)

/-- The writer after operations, each of which begins where the one before it has ended,
also if that one failed. -/
def performAll : List WriterOperation → WriterState → WriterState
  | [], state => state
  | operation :: operations, state => performAll operations (operation.perform state).2

/-- A writer that has been used in some way since it was new. -/
def Reached (state : WriterState) : Prop :=
  ∃ operations, performAll operations {} = state

/-- What an operation can do to a writer. -/
inductive Step (state : WriterState) : WriterOperation → Except Error Unit → WriterState → Prop
  | append {item : WriterItem} {outcome : Except Error Unit} (more : ByteArray)
      (whole : ∀ error, outcome = .error error → (∀ value, item ≠ .variant value) →
        state.body ++ more = state.body) :
      Step state (.append item) outcome { state with body := state.body ++ more }
  | openArray {element : WireKind} (padding after : ByteArray) :
      Step state (.openArray element) (.ok ())
        { state with
          body := state.body ++ padding ++ (⟨#[0, 0, 0, 0]⟩ ++ after)
          arrays := state.arrays ++ [⟨(state.body ++ padding).size,
            (state.body ++ padding ++ (⟨#[0, 0, 0, 0]⟩ ++ after)).size⟩] }
  | closeArray {place : Nat} {array : OpenArray} {head field tail : ByteArray}
      (isOpen : state.open? place = some array)
      (short : state.body.size - array.bodyIndex ≤ maxArrayLength)
      (split : state.body = head ++ (field ++ tail)) (head_size : head.size = array.lengthIndex)
      (field_size : field.size = 4) :
      Step state (.closeArray place) (.ok ())
        { state with
          body := head ++ (⟨(ByteOrder.little.encode 4
            (state.body.size - array.bodyIndex)).toArray⟩ ++ tail)
          closed := place :: state.closed }
  | tooLong {place : Nat} {array : OpenArray} (isOpen : state.open? place = some array)
      (long : maxArrayLength < state.body.size - array.bodyIndex) :
      Step state (.closeArray place) (.error (.arrayTooLong (state.body.size - array.bodyIndex)))
        { state with closed := place :: state.closed }
  | notOpen {place : Nat} (notOpen : state.open? place = none) :
      Step state (.closeArray place) (.ok ()) state

variable {state before after : WriterState} {operation : WriterOperation}
  {outcome : Except Error Unit}

/-- Every operation is one of the steps. -/
theorem step_perform (hsound : state.Sound) (operation : WriterOperation) :
    Step state operation (operation.perform state).1 (operation.perform state).2 := by
  cases operation with
  | append item =>
      obtain ⟨more, hmore⟩ := item.appends_write.appended state.body
      have hafter : ((append item).perform state).2 =
          { state with body := state.body ++ more } := by
        rw [← hmore]
        rfl
      rw [hafter]
      refine .append more fun error herror hitem => ?_
      rw [← hmore]
      exact WriterItem.write_error (Prod.ext herror rfl) hitem
  | openArray element =>
      obtain ⟨padding, after, hopen⟩ := Encode.exists_opened element state.body
      simp only [perform, hopen]
      exact .openArray padding after
  | closeArray place =>
      cases hopen : state.open? place with
      | none =>
          simp only [perform, hopen]
          exact .notOpen hopen
      | some array =>
          obtain ⟨hfield, hbody⟩ := hsound.inside array (state.mem_of_open? hopen)
          simp only [perform, hopen, onBody]
          rcases Encode.closeArray_cases (Nat.le_trans hfield hbody) with
            ⟨hlong, hrun⟩ | ⟨hshort, head, field, tail, hsplit, hhead, hsize, hrun⟩
          · rw [hrun]
            exact .tooLong hopen hlong
          · rw [hrun]
            exact .closeArray hopen hshort hsplit hhead hsize

theorem unstopped_perform (hsound : state.Sound) (operation : WriterOperation) :
    operation.watch state = some (operation.perform state) := by
  cases operation with
  | append item =>
      change (item.watch state.body).map _ = _
      rw [item.appends_write.unstopped]
      rfl
  | openArray element => rfl
  | closeArray place =>
      cases hopen : state.open? place with
      | none => simp only [watch, perform, hopen]
      | some array =>
          obtain ⟨hfield, hbody⟩ := hsound.inside array (state.mem_of_open? hopen)
          have hclose := Encode.unstopped_closeArray (Nat.le_trans hfield hbody) hbody
          simp only [watch, perform, hopen, watchBody, hclose]
          rfl

section

variable {place index : Nat} {array : OpenArray}

theorem size_length (count : Nat) :
    (⟨(ByteOrder.little.encode 4 count).toArray⟩ : ByteArray).size = 4 := by
  rw [ByteArray.size, List.size_toArray, ByteOrder.length_encode]

theorem size_closed {body head field tail : ByteArray} (count : Nat)
    (hsplit : body = head ++ (field ++ tail)) (hsize : field.size = 4) :
    (head ++ (⟨(ByteOrder.little.encode 4 count).toArray⟩ ++ tail)).size = body.size := by
  simp only [hsplit, ByteArray.size_append, size_length, hsize]

theorem Step.size_le (h : Step before operation outcome after) :
    before.body.size ≤ after.body.size := by
  cases h with
  | append more =>
      rw [ByteArray.size_append]
      exact Nat.le_add_right _ _
  | openArray padding after =>
      simp only [ByteArray.size_append]
      omega
  | closeArray isOpen short split head_size field_size =>
      exact Nat.le_of_eq (size_closed _ split field_size).symm
  | tooLong => exact Nat.le_refl _
  | notOpen => exact Nat.le_refl _

theorem Step.sound (h : Step before operation outcome after) (hsound : before.Sound) :
    after.Sound := by
  have hinside : ∀ array ∈ before.arrays,
      array.lengthIndex + 4 ≤ array.bodyIndex ∧ array.bodyIndex ≤ after.body.size :=
    fun array hmem => ⟨(hsound.inside array hmem).1,
      Nat.le_trans (hsound.inside array hmem).2 h.size_le⟩
  cases h with
  | append more => exact ⟨hsound.apart, hinside⟩
  | openArray padding after =>
      have hzeros : (⟨#[0, 0, 0, 0]⟩ : ByteArray).size = 4 := rfl
      constructor
      · refine List.pairwise_append.mpr ⟨hsound.apart, List.pairwise_singleton _ _, ?_⟩
        intro array hmem other hother
        obtain rfl := List.mem_singleton.mp hother
        obtain ⟨hfield, hbody⟩ := hsound.inside array hmem
        simp only [ByteArray.size_append]
        omega
      · intro array hmem
        rcases List.mem_append.mp hmem with hmem | hmem
        · exact hinside array hmem
        · obtain rfl := List.mem_singleton.mp hmem
          refine ⟨?_, Nat.le_refl _⟩
          simp only [ByteArray.size_append, hzeros]
          omega
  | closeArray => exact ⟨hsound.apart, hinside⟩
  | tooLong => exact ⟨hsound.apart, hinside⟩
  | notOpen => exact hsound

/-- An array that is open after an operation was open before it, or has its length in
bytes that were not there. -/
theorem Step.open?_cases (h : Step before operation outcome after)
    (hopen : after.open? place = some array) :
    before.open? place = some array ∨ before.body.size ≤ array.lengthIndex := by
  cases h with
  | append more => exact .inl hopen
  | openArray padding after =>
      unfold WriterState.open? at hopen ⊢
      split at hopen
      · cases hopen
      · rename_i hnotClosed
        rw [if_neg hnotClosed]
        rw [List.getElem?_append] at hopen
        split at hopen
        · exact .inl hopen
        · have hmem := List.mem_of_getElem? hopen
          obtain rfl := List.mem_singleton.mp hmem
          refine .inr ?_
          rw [ByteArray.size_append]
          exact Nat.le_add_right _ _
  | closeArray => exact .inl (WriterState.open?_of_close hopen)
  | tooLong => exact .inl (WriterState.open?_of_close hopen)
  | notOpen => exact .inl hopen

theorem getElem?_append_left {body more : ByteArray} (hindex : index < body.size) :
    (body ++ more).data[index]? = body.data[index]? := by
  rw [ByteArray.data_append]
  exact Array.getElem?_append_left hindex

theorem getElem?_replace {head field other tail : ByteArray} (hsize : other.size = field.size)
    (hindex : index < head.size ∨ head.size + field.size ≤ index) :
    (head ++ (other ++ tail)).data[index]? = (head ++ (field ++ tail)).data[index]? := by
  rcases hindex with hbefore | hbehind
  · rw [getElem?_append_left hbefore, getElem?_append_left hbefore]
  · have hskip : ∀ bytes : ByteArray, bytes.size = field.size →
        (head ++ (bytes ++ tail)).data[index]? =
          tail.data[index - head.size - field.size]? := by
      intro bytes hbytes
      rw [ByteArray.data_append, Array.getElem?_append_right, ByteArray.data_append,
        Array.getElem?_append_right]
      · simp only [ByteArray.size_data, hbytes]
      · simp only [ByteArray.size_data, hbytes]
        omega
      · simp only [ByteArray.size_data]
        omega
    rw [hskip other hsize, hskip field rfl]

/-- A byte that is there stays as it is, unless it belongs to the length of the array that
is closed. -/
theorem Step.getElem?_eq (h : Step before operation outcome after)
    (hindex : index < before.body.size)
    (hkept : ∀ place array, operation = .closeArray place → outcome = .ok () →
      before.open? place = some array → ¬ array.InLength index) :
    after.body.data[index]? = before.body.data[index]? := by
  cases h with
  | append more => exact getElem?_append_left hindex
  | openArray padding after =>
      rw [ByteArray.append_assoc]
      exact getElem?_append_left hindex
  | closeArray isOpen short split head_size field_size =>
      have houtside := hkept _ _ rfl rfl isOpen
      rw [OpenArray.InLength, ← head_size] at houtside
      simp only
      generalize before.body.size - _ = count
      rw [split]
      apply getElem?_replace
      · rw [size_length, field_size]
      · omega
  | tooLong => rfl
  | notOpen => rfl

/-- What closing an open array comes to. -/
theorem Step.closed (h : Step before (.closeArray place) outcome after)
    (hopen : before.open? place = some array) :
    if before.body.size - array.bodyIndex ≤ maxArrayLength then
      outcome = .ok () ∧ after.body.size = before.body.size ∧
        after.body.extract array.lengthIndex (array.lengthIndex + 4) =
          ⟨(ByteOrder.little.encode 4 (before.body.size - array.bodyIndex)).toArray⟩
    else
      outcome = .error (.arrayTooLong (before.body.size - array.bodyIndex)) ∧
        after.body = before.body := by
  cases h with
  | @closeArray _ other head field tail isOpen short split head_size field_size =>
      cases hopen.symm.trans isOpen
      rw [if_pos short]
      refine ⟨rfl, size_closed _ split field_size, ?_⟩
      generalize before.body.size - _ = count
      have hextract := ByteArray.extract_append_size_add (i := 0) (j := 4) (a := head)
        (b := ⟨(ByteOrder.little.encode 4 count).toArray⟩ ++ tail)
      rw [← head_size, ← Nat.add_zero head.size, hextract]
      exact ByteArray.extract_append_eq_left (size_length count).symm
  | tooLong isOpen long =>
      cases hopen.symm.trans isOpen
      rw [if_neg (Nat.not_le.mpr long)]
      exact ⟨rfl, rfl⟩
  | notOpen isNone => cases hopen.symm.trans isNone

theorem Step.opened {element : WireKind} (h : Step before (.openArray element) outcome after) :
    outcome = .ok () ∧ ∃ array, after.arrays = before.arrays ++ [array] ∧
      before.body.size ≤ array.lengthIndex ∧ array.bodyIndex = after.body.size := by
  cases h with
  | openArray padding rest =>
      refine ⟨rfl, _, rfl, ?_, rfl⟩
      rw [ByteArray.size_append]
      exact Nat.le_add_right _ _

/-- An operation that fails leaves the body as it is, unless it has begun a variant. -/
theorem Step.body_eq_of_error {error : Error} (h : Step before operation (.error error) after)
    (hoperation : ∀ value, operation ≠ .append (.variant value)) :
    after.body = before.body := by
  cases h with
  | append more whole =>
      exact whole error rfl fun value hitem => hoperation value (congrArg _ hitem)
  | tooLong => rfl

end

theorem sound_performAll (operations : List WriterOperation) (hsound : state.Sound) :
    (performAll operations state).Sound := by
  induction operations generalizing state with
  | nil => exact hsound
  | cons operation operations ih => exact ih ((step_perform hsound operation).sound hsound)

theorem Reached.sound (h : Reached state) : state.Sound := by
  obtain ⟨operations, rfl⟩ := h
  refine sound_performAll operations ⟨List.Pairwise.nil, ?_⟩
  exact fun array hmem => absurd hmem List.not_mem_nil

/-- Bytes that belong to no length of an open array stay as they are for good. -/
theorem getElem?_performAll (operations : List WriterOperation) (hsound : state.Sound)
    {index : Nat} (hindex : index < state.body.size)
    (hkept : ∀ place array, state.open? place = some array → ¬ array.InLength index) :
    (performAll operations state).body.data[index]? = state.body.data[index]? := by
  induction operations generalizing state with
  | nil => rfl
  | cons operation operations ih =>
      have hstep := step_perform hsound operation
      have hfirst := hstep.getElem?_eq hindex fun place array _ _ hopen =>
        hkept place array hopen
      rw [← hfirst]
      refine ih (hstep.sound hsound) (Nat.lt_of_lt_of_le hindex hstep.size_le) ?_
      intro place array hopen
      rcases hstep.open?_cases hopen with hbefore | hnew
      · exact hkept place array hbefore
      · exact fun hinLength => by
          have hle := hinLength.1
          omega

/-- However a writer is used, an operation only appends to the body, except that closing an
array stores in the four bytes of its length how many bytes have been appended since it was
opened.  The lengths of different arrays do not overlap, and what is stored neither
underflows nor exceeds its four bytes.  An operation other than the writing of a variant
that fails leaves the body as it is, and so does the closing of an array that is too long. -/
theorem perform_appends (hbefore : Reached before)
    (hrun : operation.perform before = (outcome, after)) :
    operation.watch before = some (outcome, after) ∧
      before.body.size ≤ after.body.size ∧
      (∀ index, index < before.body.size →
        (∀ place array, operation = .closeArray place → outcome = .ok () →
          before.open? place = some array → ¬ array.InLength index) →
        after.body.data[index]? = before.body.data[index]?) ∧
      (∀ place array, operation = .closeArray place → before.open? place = some array →
        array.bodyIndex ≤ before.body.size ∧
          if before.body.size - array.bodyIndex ≤ maxArrayLength then
            outcome = .ok () ∧ after.body.size = before.body.size ∧
              after.body.extract array.lengthIndex (array.lengthIndex + 4) =
                ⟨(ByteOrder.little.encode 4 (before.body.size - array.bodyIndex)).toArray⟩
          else
            outcome = .error (.arrayTooLong (before.body.size - array.bodyIndex)) ∧
              after.body = before.body) ∧
      (∀ element, operation = .openArray element → outcome = .ok () ∧
        ∃ array, after.arrays = before.arrays ++ [array] ∧
          before.body.size ≤ array.lengthIndex ∧ array.bodyIndex = after.body.size) ∧
      after.arrays.Pairwise (fun first second => first.lengthIndex + 4 ≤ second.lengthIndex) ∧
      (∀ error, outcome = .error error → (∀ value, operation ≠ .append (.variant value)) →
        after.body = before.body) ∧
      (∀ later index, index < after.body.size →
        (∀ place array, after.open? place = some array → ¬ array.InLength index) →
        (performAll later after).body.data[index]? = after.body.data[index]?) := by
  have hsound := hbefore.sound
  have hwatch := unstopped_perform hsound operation
  have hstep := step_perform hsound operation
  rw [hrun] at hwatch hstep
  have hafter := hstep.sound hsound
  refine ⟨hwatch, hstep.size_le, fun index hindex => hstep.getElem?_eq hindex, ?_, ?_,
    hafter.apart, ?_, fun later index => getElem?_performAll later hafter⟩
  · rintro place array rfl hopen
    exact ⟨(hsound.inside array (before.mem_of_open? hopen)).2, hstep.closed hopen⟩
  · rintro element rfl
    exact hstep.opened
  · rintro error rfl hoperation
    exact hstep.body_eq_of_error hoperation

/-- An array of arrays is closed before the array of 16-bit numbers that is open in it, and
keeps its length whatever is written afterwards. -/
theorem perform_appends_nested :
    (closeArray 0).watch (performAll
        [.openArray .array, .openArray (.basic .int16), .append (.basic (.int16 5))] {}) =
      some (.ok (), ⟨⟨#[6, 0, 0, 0, 0, 0, 0, 0, 5, 0]⟩, [⟨0, 4⟩, ⟨4, 8⟩], [0]⟩) ∧
    ∀ later, (performAll later
      ⟨⟨#[6, 0, 0, 0, 0, 0, 0, 0, 5, 0]⟩, [⟨0, 4⟩, ⟨4, 8⟩], [0]⟩).body.data[0]? = some 6 := by
  have hrun : (closeArray 0).perform (performAll
      [.openArray .array, .openArray (.basic .int16), .append (.basic (.int16 5))] {}) =
        (.ok (), ⟨⟨#[6, 0, 0, 0, 0, 0, 0, 0, 5, 0]⟩, [⟨0, 4⟩, ⟨4, 8⟩], [0]⟩) := by
    rfl
  obtain ⟨hwatch, -, -, -, -, -, -, hlater⟩ := perform_appends ⟨_, rfl⟩ hrun
  refine ⟨hwatch, fun later => hlater later 0 (by decide) ?_⟩
  intro place array hopen hinLength
  rcases place with _ | _ | place
  · cases hopen
  · cases hopen
    exact absurd hinLength.1 (by decide)
  · cases hopen

end WriterOperation

end BusCodec
