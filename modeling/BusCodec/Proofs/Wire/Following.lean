import BusCodec.Proofs.Wire.Progress
import BusCodec.Proofs.Wire.WatchedReading

/-!
Readers are never stopped.  In a buffer that leaves room in a word for one more length
behind its end, a watched reader does what the reader does: no sum is too large, no index
out of bounds, and no loop takes more rounds than there are bytes.  Meanwhile the cursor
stays inside the buffer and never moves back, whether or not the reader fails.
-/

namespace BusCodec

theorem WireKind.alignment_le (kind : WireKind) : kind.alignment ≤ 8 :=
  Nat.le_of_dvd (by decide) kind.alignment_dvd_eight

/-- Where a move was to lead that was not made. -/
def Error.beyond? : Error → Option Nat
  | .indexOutOfBounds index => some index
  | _ => none

namespace Decode

variable {α β : Type} {words depth : Nat} {good : α → Prop} {better : β → Prop}

/-- Where a reader that began at a cursor has come to: it has not moved back, it is inside
the buffer and at the same depth.  Its result is a good one, and a move that it could not
make would have left the buffer. -/
structure Leads (buffer : Buffer) (cursor : Cursor) (good : α → Prop)
    (run : Except Error α × Cursor) : Prop where
  ahead : cursor.position ≤ run.2.position
  inside : run.2.position ≤ buffer.bytes.size
  depth_eq : run.2.variantDepth = cursor.variantDepth
  good : ∀ value, run.1 = .ok value → good value
  beyond : ∀ error index, run.1 = .error error → error.beyond? = some index →
    buffer.bytes.size < index

/-- From a cursor on, a watched reader is not stopped and does what the reader does. -/
def FollowsAt (buffer : Buffer) (cursor : Cursor) (good : α → Prop) (watched : WatchedDecode α)
    (reader : Decode α) : Prop :=
  watched buffer cursor = some (reader buffer cursor) ∧
    Leads buffer cursor good (reader buffer cursor)

/-- A watched reader does what the reader does, from every cursor at a depth and in every
buffer that leaves room in a word for one more length behind its end. -/
def FollowsTo (words depth : Nat) (good : α → Prop) (watched : WatchedDecode α)
    (reader : Decode α) : Prop :=
  ∀ (buffer : Buffer) (cursor : Cursor), buffer.bytes.size + Word.limit 4 < words →
    cursor.position ≤ buffer.bytes.size → cursor.variantDepth = depth →
    FollowsAt buffer cursor good watched reader

abbrev Follows (words depth : Nat) (watched : WatchedDecode α) (reader : Decode α) : Prop :=
  FollowsTo words depth (fun _ => True) watched reader

section

variable {buffer : Buffer} {cursor reached : Cursor}

theorem leads_ok {value : α} (hinside : cursor.position ≤ buffer.bytes.size)
    (hgood : good value) : Leads buffer cursor good (.ok value, cursor) := by
  refine ⟨Nat.le_refl _, hinside, rfl, ?_, ?_⟩
  · intro other hother
    cases hother
    exact hgood
  · intro error index herror
    cases herror

theorem leads_error {error : Error} (hinside : cursor.position ≤ buffer.bytes.size)
    (hbeyond : ∀ index, error.beyond? = some index → buffer.bytes.size < index) :
    Leads buffer cursor good (.error error, cursor) := by
  refine ⟨Nat.le_refl _, hinside, rfl, ?_, ?_⟩
  · intro value hvalue
    cases hvalue
  · intro other index hother
    cases hother
    exact hbeyond index

/-- A reader that fails before it moves has an index past the end. -/
theorem leads_beyond {index : Nat} (hinside : cursor.position ≤ buffer.bytes.size)
    (hindex : ¬ index ≤ buffer.bytes.size) :
    Leads buffer cursor good ((.error (.indexOutOfBounds index) : Except Error α), cursor) := by
  refine leads_error hinside fun other hother => ?_
  cases hother
  exact Nat.lt_of_not_le hindex

theorem Leads.trans {run : Except Error α × Cursor} {next : Except Error β × Cursor}
    (h : Leads buffer cursor good run) (hnext : Leads buffer run.2 better next) :
    Leads buffer cursor better next :=
  ⟨Nat.le_trans h.ahead hnext.ahead, hnext.inside, hnext.depth_eq.trans h.depth_eq,
    hnext.good, hnext.beyond⟩

theorem Leads.failed {error : Error} (h : Leads buffer cursor good (.error error, reached)) :
    Leads buffer cursor better (.error error, reached) := by
  refine ⟨h.ahead, h.inside, h.depth_eq, ?_, ?_⟩
  · intro value hvalue
    cases hvalue
  · intro other index hother
    cases hother
    exact h.beyond error index rfl

theorem FollowsAt.bind {first : WatchedDecode α} {next : α → WatchedDecode β}
    {reader : Decode α} {more : α → Decode β}
    (hfirst : FollowsAt buffer cursor good first reader)
    (hnext : ∀ value reached, reader buffer cursor = (.ok value, reached) →
      Leads buffer cursor good (.ok value, reached) →
      FollowsAt buffer reached better (next value) (more value)) :
    FollowsAt buffer cursor better (first >>= next) (reader >>= more) := by
  obtain ⟨hrun, hleads⟩ := hfirst
  rw [FollowsAt, bind_apply]
  cases hreader : reader buffer cursor with
  | mk outcome reached =>
      rw [hreader] at hrun hleads
      cases outcome with
      | ok value =>
          obtain ⟨hlast, hleadsOn⟩ := hnext value reached hreader hleads
          rw [Attempt.bind_of_ok hreader]
          exact ⟨(Watched.bind_of_ok hrun).trans hlast, hleads.trans hleadsOn⟩
      | error error =>
          rw [Attempt.bind_of_error hreader]
          exact ⟨Watched.bind_of_error hrun, hleads.failed⟩

end

theorem FollowsTo.bind {first : WatchedDecode α} {next : α → WatchedDecode β}
    {reader : Decode α} {more : α → Decode β}
    (hfirst : FollowsTo words depth good first reader)
    (hnext : ∀ value, good value → FollowsTo words depth better (next value) (more value)) :
    FollowsTo words depth better (first >>= next) (reader >>= more) :=
  fun buffer cursor hroom hinside hdepth =>
    (hfirst buffer cursor hroom hinside hdepth).bind fun value reached _ hleads =>
      hnext value (hleads.good value rfl) buffer reached hroom hleads.inside
        (hleads.depth_eq.trans hdepth)

theorem follows_pure (value : α) : Follows words depth (pure value) (pure value) :=
  fun _ _ _ hinside _ => ⟨rfl, leads_ok hinside trivial⟩

theorem position_bind (next : Nat → Decode α) (buffer : Buffer) (cursor : Cursor) :
    (position >>= next) buffer cursor = next cursor.position buffer cursor :=
  rfl

theorem follows_position : Follows words depth .position position :=
  fun _ _ _ hinside _ => ⟨rfl, leads_ok hinside trivial⟩

theorem follows_fail {error : Error} (h : error.beyond? = none) :
    Follows words depth (.fail error : WatchedDecode α) (fail error) := by
  intro buffer cursor _ hinside _
  refine ⟨rfl, leads_error hinside fun index hindex => ?_⟩
  rw [h] at hindex
  cases hindex

theorem follows_lift {outcome : Except Error α}
    (h : ∀ error, outcome = .error error → error.beyond? = none) :
    Follows words depth (.free (lift outcome)) (lift outcome) := by
  cases outcome with
  | ok value => exact follows_pure value
  | error error => exact follows_fail (h error rfl)

theorem follows_liftGrammar (outcome : Except GrammarError α) :
    Follows words depth (.free (liftGrammar outcome)) (liftGrammar outcome) := by
  apply follows_lift
  intro error herror
  cases outcome <;> cases herror
  rfl

theorem FollowsTo.map {watched : WatchedDecode α} {reader : Decode α}
    (h : FollowsTo words depth good watched reader) (f : α → β) :
    Follows words depth (watched >>= fun value => pure (f value))
      (reader >>= fun value => pure (f value)) :=
  h.bind fun value _ => follows_pure (f value)

theorem require_bind {condition : Prop} [Decidable condition] (h : condition)
    (next : Unit → WatchedDecode α) : (WatchedDecode.require condition >>= next) = next () :=
  funext fun buffer => Watched.require_bind h fun value => next value buffer

theorem FollowsTo.require {condition : Prop} [Decidable condition]
    (hcondition : Word.limit 4 < words → condition)
    {next : Unit → WatchedDecode α} {reader : Decode α}
    (h : FollowsTo words depth good (next ()) reader) :
    FollowsTo words depth good (WatchedDecode.require condition >>= next) reader := by
  intro buffer cursor hroom
  rw [require_bind (hcondition (Nat.lt_of_le_of_lt (Nat.le_add_left _ _) hroom))]
  exact h buffer cursor hroom

/-- A move inside the buffer or, if it would leave it, none. -/
theorem leads_moveTo {buffer : Buffer} {cursor : Cursor} {index : Nat}
    (hinside : cursor.position ≤ buffer.bytes.size) (hahead : cursor.position ≤ index) :
    Leads buffer cursor (fun _ => True) (moveTo index buffer cursor) := by
  rw [moveTo]
  split
  · rename_i hindex
    refine ⟨hahead, hindex, rfl, fun _ _ => trivial, ?_⟩
    intro error other herror
    cases herror
  · rename_i hindex
    exact leads_beyond hinside hindex

theorem follows_align {alignment : Nat} (hpositive : 0 < alignment) (hle : alignment ≤ 8) :
    Follows words depth (.align words alignment) (align alignment) := by
  intro buffer cursor hroom hinside _
  refine ⟨?_, leads_moveTo hinside (le_alignUp cursor.position hpositive)⟩
  have hfits : cursor.position + alignment < words := by
    simp only [Word.limit] at hroom
    omega
  change (WatchedDecode.require (cursor.position + alignment < words) >>= fun _ =>
    WatchedDecode.free (align alignment)) buffer cursor = _
  rw [require_bind hfits]
  rfl

theorem follows_alignStruct : Follows words depth (.alignStruct words) alignStruct :=
  follows_align (by decide) (by decide)

theorem follows_take {count : Nat} (hcount : count ≤ Word.limit 4) :
    FollowsTo words depth (fun bytes => bytes.size = count) (.take words count)
      (take count) := by
  intro buffer cursor hroom hinside _
  have hfits : cursor.position + count < words := by omega
  have hrun : WatchedDecode.take words count buffer cursor =
      (WatchedDecode.free (moveTo (cursor.position + count)) >>= fun _ =>
        WatchedDecode.slice cursor.position (cursor.position + count)) buffer cursor := by
    change (if cursor.position + count < words then _ else _ : WatchedDecode ByteArray)
      buffer cursor = _
    rw [if_pos hfits]
  rw [FollowsAt, hrun]
  by_cases hstop : cursor.position + count ≤ buffer.bytes.size
  · have htake : take count buffer cursor =
        (.ok (buffer.bytes.extract cursor.position (cursor.position + count)),
          { cursor with position := cursor.position + count }) := if_pos hstop
    have hmove : moveTo (cursor.position + count) buffer cursor =
        (.ok (), { cursor with position := cursor.position + count }) := if_pos hstop
    rw [htake]
    refine ⟨?_, Nat.le_add_right _ _, hstop, rfl, ?_, ?_⟩
    · refine (Watched.bind_of_ok (congrArg some hmove)).trans ?_
      change (WatchedDecode.require (cursor.position ≤ cursor.position + count ∧
        cursor.position + count ≤ buffer.bytes.size) >>= fun _ =>
          (pure _ : WatchedDecode ByteArray)) buffer _ = _
      rw [require_bind ⟨Nat.le_add_right _ _, hstop⟩]
      rfl
    · intro bytes hbytes
      cases hbytes
      rw [ByteArray.size_extract]
      omega
    · intro error index herror
      cases herror
  · have htake : take count buffer cursor =
        (.error (.indexOutOfBounds (cursor.position + count)), cursor) := if_neg hstop
    have hmove : moveTo (cursor.position + count) buffer cursor =
        (.error (.indexOutOfBounds (cursor.position + count)), cursor) := if_neg hstop
    rw [htake]
    exact ⟨Watched.bind_of_error (congrArg some hmove), leads_beyond hinside hstop⟩

theorem follows_complete : Follows words depth .complete complete := by
  intro buffer cursor _ hinside _
  constructor
  · change (WatchedDecode.require (cursor.position ≤ buffer.bytes.size) >>= fun _ =>
      WatchedDecode.free complete) buffer cursor = _
    rw [require_bind hinside]
    rfl
  · rw [complete]
    split
    · exact leads_ok hinside trivial
    · exact leads_error hinside fun index hindex => by cases hindex

theorem follows_word {width : Nat} (hpositive : 0 < width) (hle : width ≤ 8) :
    FollowsTo words depth (fun value => value < Word.limit width) (.word words width)
      (word width) := by
  have hcount : width ≤ Word.limit 4 := Nat.le_trans hle (by decide)
  refine (follows_align hpositive hle).bind fun _ _ => (follows_take hcount).bind ?_
  intro bytes hsize
  refine .require (fun _ => hsize) ?_
  intro buffer cursor _ hinside _
  refine ⟨rfl, leads_ok hinside ?_⟩
  have hlt := buffer.order.decode_lt bytes.data.toList
  rw [Array.length_toList] at hlt
  rwa [← hsize]

theorem follows_text {lengthWidth : Nat} (hpositive : 0 < lengthWidth)
    (hle : lengthWidth ≤ 4) :
    Follows words depth (.text words lengthWidth) (text lengthWidth) := by
  have hlimit : Word.limit lengthWidth ≤ Word.limit 4 := by
    match lengthWidth, hpositive, hle with
    | 1, _, _ | 2, _, _ | 3, _, _ | 4, _, _ => decide
  refine (follows_word hpositive (Nat.le_trans hle (by decide))).bind fun length hlength => ?_
  have hcount : length + 1 ≤ Word.limit 4 := Nat.le_trans hlength hlimit
  refine .require (fun hwords => Nat.lt_of_le_of_lt hcount hwords) ?_
  refine (follows_take hcount).bind fun bytes hsize => ?_
  have hindex : length < bytes.data.size := by
    rw [ByteArray.size_data, hsize]
    exact Nat.lt_succ_self length
  have hback : bytes.data.back? = some bytes.data[length] := by
    rw [Array.back?_eq_getElem?, ByteArray.size_data, hsize, Nat.add_sub_cancel]
    exact Array.getElem?_eq_getElem hindex
  rw [Array.getElem?_eq_getElem hindex, hback]
  simp only [ne_eq, Option.some.injEq]
  split
  · exact follows_fail rfl
  · refine .require (fun _ => by omega) ?_
    split
    · exact follows_fail rfl
    · cases String.fromUTF8? (bytes.extract 0 length) with
      | some text => exact follows_pure text
      | none => exact follows_fail rfl

theorem follows_boolean : Follows words depth (.boolean words) boolean := by
  refine (follows_word (by decide) (by decide)).bind fun word _ => ?_
  match word with
  | 0 => exact follows_pure false
  | 1 => exact follows_pure true
  | _ + 2 => exact follows_fail rfl

theorem follows_objectPath : Follows words depth (.objectPath words) objectPath := by
  refine (follows_text (by decide) (by decide)).bind fun path _ => ?_
  split
  · exact follows_pure path
  · exact follows_fail rfl

theorem follows_signature : Follows words depth (.signature words) signature :=
  (follows_text (by decide) (by decide)).bind fun text _ =>
    (follows_liftGrammar (BusType.parseAll text)).map fun _ => text

theorem follows_basic (type : BasicType) :
    Follows words depth (.basic words type) (basic type) := by
  cases type with
  | boolean => exact follows_boolean.map _
  | string => exact (follows_text (by decide) (by decide)).map _
  | objectPath => exact follows_objectPath.map _
  | signature => exact follows_signature.map _
  | _ => exact (follows_word (by decide) (by decide)).map _

theorem follows_expectSignature (expected : String) :
    Follows words depth (.expectSignature words expected) (expectSignature expected) := by
  refine follows_signature.bind fun found _ => ?_
  split
  · exact follows_pure ()
  · exact follows_fail rfl

end Decode

namespace Region

variable {α : Type} {words depth : Nat}

open Decode

theorem follows_ofLength (element : WireKind) {length : Nat} (hlength : length < Word.limit 4) :
    Follows words depth
      (WatchedDecode.position >>= fun index =>
        WatchedDecode.require (index + length < words) >>= fun _ =>
          WatchedDecode.free (ofLength element length))
      (ofLength element length) := by
  intro buffer cursor hroom hinside _
  constructor
  · change (WatchedDecode.require (cursor.position + length < words) >>= fun _ =>
      WatchedDecode.free (ofLength element length)) buffer cursor = _
    rw [require_bind (by omega)]
    rfl
  · simp only [ofLength]
    split
    · exact leads_ok hinside trivial
    · rename_i hstop
      exact leads_beyond hinside hstop

theorem follows_start (element : WireKind) :
    Follows words depth (.startRegion words element) (start element) := by
  refine (follows_word (by decide) (by decide)).bind fun length hlength => ?_
  split
  · exact follows_fail rfl
  · exact (follows_align element.alignment_pos element.alignment_le).bind fun _ _ =>
      follows_ofLength element hlength

theorem hasNext_eq (region : Region) : region.hasNext = (do
    let index ← position
    if index = region.stop then pure false
    else if region.stop < index then fail (.arrayElementOverrun index region.stop)
    else
      align region.element.alignment
      let index ← position
      if region.stop ≤ index then fail (.arrayElementOverrun index region.stop)
      else pure true) := by
  funext buffer cursor
  rw [position_bind, hasNext]
  split
  · rfl
  · split
    · rfl
    · rw [bind_apply, Attempt.bind_apply]
      cases align region.element.alignment buffer cursor with
      | mk outcome reached =>
          cases outcome with
          | error error => rfl
          | ok moved =>
              simp only
              rw [position_bind]
              split <;> rfl

theorem follows_hasNext (region : Region) :
    Follows words depth (.hasNext words region) region.hasNext := by
  rw [hasNext_eq]
  refine follows_position.bind fun index _ => ?_
  split
  · exact follows_pure false
  · split
    · exact follows_fail rfl
    · have halign := region.element.alignment_le
      refine (follows_align region.element.alignment_pos halign).bind fun _ _ => ?_
      refine follows_position.bind fun index _ => ?_
      split
      · exact follows_fail rfl
      · exact follows_pure true

theorem cons_apply (rest : Decode (List α)) (value : α) (buffer : Buffer) (cursor : Cursor) :
    (rest >>= fun values => pure (value :: values)) buffer cursor =
      match rest buffer cursor with
      | (.error error, last) => (.error error, last)
      | (.ok values, last) => (.ok (value :: values), last) := by
  rw [bind_apply, Attempt.bind_apply]
  cases rest buffer cursor with
  | mk outcome last => cases outcome <;> rfl

/-- If every element takes a byte or more, the loop goes on after each of them. -/
theorem collect_of_moves {element : Decode α} (h : Moves 1 element) (region : Region) :
    region.collect element = (show Decode (List α) from do
      if ← region.hasNext then
        let value ← element
        let values ← (region.collect element : Decode (List α))
        return value :: values
      else return []) := by
  funext buffer cursor
  rw [collect_eq, bind_apply, Attempt.bind_apply]
  cases region.hasNext buffer cursor with
  | mk outcome begun =>
      match outcome with
      | .error error => rfl
      | .ok false => rfl
      | .ok true =>
          simp only [if_true]
          rw [bind_apply, Attempt.bind_apply]
          cases hvalue : element buffer begun with
          | mk outcome after =>
              cases outcome with
              | error error => rfl
              | ok value =>
                  have hmoved : begun.position < after.position := h hvalue
                  simp only
                  rw [if_pos hmoved]
                  exact (cons_apply (region.collect element) value buffer after).symm

/-- Elements that each take a byte or more are read in no more rounds than there are bytes
in the region. -/
theorem follows_collectIn {watched : WatchedDecode α} {element : Decode α}
    (h : Follows words depth watched element) (hmoves : Moves 1 element) (region : Region)
    {buffer : Buffer} {cursor : Cursor} {rounds : Nat}
    (hroom : buffer.bytes.size + Word.limit 4 < words)
    (hinside : cursor.position ≤ buffer.bytes.size) (hdepth : cursor.variantDepth = depth)
    (hrounds : region.stop - cursor.position ≤ rounds) :
    FollowsAt buffer cursor (fun _ => True)
      (.collectIn words region watched rounds) (region.collect element) := by
  -- A round begins before the end of the region and leaves fewer bytes to its end.
  induction rounds generalizing cursor with
  | zero =>
      rw [collect_of_moves hmoves]
      refine (region.follows_hasNext buffer cursor hroom hinside hdepth).bind ?_
      intro more begun hbegin hleads
      have hbegun := hleads.depth_eq.trans hdepth
      cases more with
      | false => exact follows_pure [] buffer begun hroom hleads.inside hbegun
      | true =>
          have hbefore := (hasNext_true hbegin).1
          omega
  | succ rounds ih =>
      rw [collect_of_moves hmoves]
      refine (region.follows_hasNext buffer cursor hroom hinside hdepth).bind ?_
      intro more begun hbegin hleads
      have hbegun := hleads.depth_eq.trans hdepth
      cases more with
      | false => exact follows_pure [] buffer begun hroom hleads.inside hbegun
      | true =>
          obtain ⟨hbefore, hforward⟩ := hasNext_true hbegin
          refine (h buffer begun hroom hleads.inside hbegun).bind ?_
          intro value after hvalue hleadsOn
          have hmoved := hmoves hvalue
          have hafter := hleadsOn.depth_eq.trans hbegun
          have hless : region.stop - after.position ≤ rounds := by omega
          refine (ih hleadsOn.inside hafter hless).bind ?_
          intro values last _ hleadsLast
          exact follows_pure (value :: values) buffer last hroom hleadsLast.inside
            (hleadsLast.depth_eq.trans hafter)

theorem follows_collect {watched : WatchedDecode α} {element : Decode α}
    (h : Follows words depth watched element) (hmoves : Moves 1 element) (region : Region) :
    Follows words depth (.collect words region watched) (region.collect element) :=
  fun _ _ hroom hinside hdepth =>
    region.follows_collectIn h hmoves hroom hinside hdepth (Nat.le_refl _)

end Region

namespace Decode

variable {α β : Type} {words depth : Nat}

theorem follows_container {element : WireKind} {watched : WatchedDecode α} {reader : Decode α}
    (h : Follows words depth watched reader) (hmoves : Moves 1 reader) (f : List α → β) :
    Follows words depth
      (WatchedDecode.startRegion words element >>= fun region =>
        WatchedDecode.collect words region watched >>= fun items => pure (f items))
      (Region.start element >>= fun region =>
        region.collect reader >>= fun items => pure (f items)) :=
  (Region.follows_start element).bind fun region _ =>
    (region.follows_collect h hmoves).map f

theorem follows_entry {watchedKey watchedValue : WatchedDecode Value} {key value : Decode Value}
    (hkey : Follows words depth watchedKey key) (hvalue : Follows words depth watchedValue value) :
    Follows words depth (.entry watchedKey watchedValue) (entry key value) := by
  rw [entry, asKey, bind_assoc]
  refine hkey.bind fun read _ => ?_
  refine (follows_lift fun error herror => ?_).bind fun key _ => hvalue.map _
  cases read with
  | basic value =>
      rw [Value.toKey] at herror
      split at herror <;> cases herror
      rfl
  | _ =>
      cases herror
      rfl

section

variable {watched : WatchedDecode Value} {inner : Decode Value}

mutual

theorem follows_valueWith (h : Follows words depth watched inner) (hmoves : Proceeds 1 inner) :
    ∀ type : BusType, Follows words depth (.valueWith words watched type) (valueWith inner type)
  | .basic type => (follows_basic type).map _
  | .variant => h.map _
  | .array element =>
      follows_container (follows_valueWith h hmoves element)
        (proceeds_valueWith hmoves element).moves _
  | .dict key value => by
      have hvalue := follows_valueWith h hmoves value
      have hentry := follows_entry ((follows_basic key).map Value.basic) hvalue
      have hmoved := proceeds_entry (proceeds_basic key)
        ((proceeds_valueWith hmoves value).mono (Nat.zero_le 1))
      have hboth := (proceeds_alignStruct.bind fun _ => hmoved).moves.mono (Nat.le_add_left 1 0)
      exact follows_container (follows_alignStruct.bind fun _ _ => hentry) hboth _
  | .struct first rest =>
      follows_alignStruct.bind fun _ _ =>
        (follows_valueWith h hmoves first).bind fun _ _ =>
          (follows_valuesWith h hmoves rest).map _

theorem follows_valuesWith (h : Follows words depth watched inner) (hmoves : Proceeds 1 inner) :
    ∀ types : List BusType,
      Follows words depth (.valuesWith words watched types) (valuesWith inner types)
  | [] => follows_pure []
  | type :: types =>
      (follows_valueWith h hmoves type).bind fun _ _ => (follows_valuesWith h hmoves types).map _

end

end

theorem follows_insideVariant {watched : WatchedDecode α} {contents : Decode α}
    (h : Follows words (depth + 1) watched contents) (hdeep : depth < maxVariantDepth) :
    Follows words depth (.insideVariant words watched) (insideVariant contents) := by
  rintro buffer cursor hroom hinside rfl
  have hdepthFits : cursor.variantDepth + 1 < words := by
    have hlimits : maxVariantDepth < Word.limit 4 := by decide
    omega
  obtain ⟨hrun, hleads⟩ := h buffer { cursor with variantDepth := cursor.variantDepth + 1 }
    hroom hinside rfl
  cases hcontents : contents buffer { cursor with variantDepth := cursor.variantDepth + 1 } with
  | mk outcome reached =>
      rw [hcontents] at hrun hleads
      have hreached : reached.variantDepth = cursor.variantDepth + 1 := hleads.depth_eq
      have hplain : insideVariant contents buffer cursor =
          (outcome, { reached with variantDepth := reached.variantDepth - 1 }) := by
        rw [insideVariant, hcontents]
      rw [FollowsAt, hplain]
      refine ⟨?_, hleads.ahead, hleads.inside, ?_, fun _ _ => trivial, hleads.beyond⟩
      · rw [WatchedDecode.insideVariant, if_pos hdepthFits, hrun]
        exact if_pos (by omega)
      · change reached.variantDepth - 1 = cursor.variantDepth
        omega

theorem follows_variantType : Follows words depth (.variantType words) variantType :=
  follows_signature.bind fun text _ => follows_liftGrammar (BusType.parse text)

theorem FollowsTo.atDepth {good : α → Prop} {next : Nat → WatchedDecode α} {reader : Decode α}
    (h : FollowsTo words depth good (next depth) reader) :
    FollowsTo words depth good (WatchedDecode.variantDepth >>= next) reader := by
  rintro buffer cursor hroom hinside rfl
  exact h buffer cursor hroom hinside rfl

/-- So many variants can be begun inside one another as may still be nested, and then one
more, which is refused. -/
theorem follows_variantWithin {levels : Nat} (hlevels : maxVariantDepth - depth < levels) :
    Follows words depth (.variant words levels) (variantWithin (maxVariantDepth - depth)) := by
  induction levels generalizing depth with
  | zero => exact absurd hlevels (Nat.not_lt_zero _)
  | succ levels ih =>
      by_cases hdeep : maxVariantDepth ≤ depth
      · rw [Nat.sub_eq_zero_of_le hdeep]
        refine follows_variantType.bind fun type _ => .atDepth ?_
        rw [if_pos hdeep]
        exact follows_fail rfl
      · have hless : maxVariantDepth - depth = maxVariantDepth - (depth + 1) + 1 := by omega
        have hinner : Follows words (depth + 1) (.variant words levels)
            (variantWithin (maxVariantDepth - (depth + 1))) := ih (by omega)
        rw [hless]
        refine follows_variantType.bind fun type _ => .atDepth ?_
        rw [if_neg hdeep]
        exact follows_insideVariant (follows_valueWith hinner (proceeds_variantWithin _) type)
          (by omega)

theorem follows_variant {levels : Nat} (hlevels : maxVariantDepth - depth < levels) :
    Follows words depth (.variant words levels) variant := by
  rintro buffer cursor hroom hinside rfl
  exact follows_variantWithin hlevels buffer cursor hroom hinside rfl

end Decode

end BusCodec
