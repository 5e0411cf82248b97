import BusCodec.Proofs.Wire.Canonical

/-!
Encodings tell where they end.  A reader that has read a value stops at one place, and
what lies behind it is of no account.  If the buffer ends before that place, the reader
says so, and nothing else.
-/

namespace BusCodec

namespace Buffer

/-- One of two buffers is the beginning of the other. -/
structure Overlaps (buffer another : Buffer) : Prop where
  order_eq : another.order = buffer.order
  extract_eq : ∀ {start stop : Nat}, stop ≤ buffer.bytes.size → stop ≤ another.bytes.size →
    another.bytes.extract start stop = buffer.bytes.extract start stop

theorem Overlaps.refl (buffer : Buffer) : buffer.Overlaps buffer :=
  ⟨rfl, fun _ _ => rfl⟩

theorem Overlaps.symm {buffer another : Buffer} (h : buffer.Overlaps another) :
    another.Overlaps buffer :=
  ⟨h.order_eq.symm, fun hstop hanother => (h.extract_eq hanother hstop).symm⟩

theorem overlaps_append (order : ByteOrder) (bytes more : ByteArray) :
    (Buffer.mk order bytes).Overlaps ⟨order, bytes ++ more⟩ := by
  refine ⟨rfl, ?_⟩
  intro start stop hstop _
  apply ByteArray.ext
  have hle : stop - bytes.size = 0 := Nat.sub_eq_zero_of_le hstop
  simp [ByteArray.data_extract, ByteArray.data_append, Array.extract_append, hle]

end Buffer

namespace Decode

variable {α β : Type}

/-- A reader that starts at one index of a buffer comes to a value at another, or finds
that the buffer ends before. -/
structure Arrives (reader : Decode α) (buffer : Buffer) (depth start stop : Nat) (value : α) :
    Prop where
  le : start ≤ stop
  reads : stop ≤ buffer.bytes.size →
    reader buffer ⟨start, depth⟩ = (.ok value, ⟨stop, depth⟩)
  ends : start ≤ buffer.bytes.size → buffer.bytes.size < stop →
    ∃ index reached, reader buffer ⟨start, depth⟩ = (.error (.indexOutOfBounds index), reached)

section

variable {buffer : Buffer} {depth start middle stop : Nat}

theorem arrives_of_ok {reader : Decode α} {value : α}
    (h : reader buffer ⟨start, depth⟩ = (.ok value, ⟨start, depth⟩)) :
    reader.Arrives buffer depth start start value :=
  ⟨Nat.le_refl _, fun _ => h, fun hstart hshort => absurd hstart (Nat.not_le.mpr hshort)⟩

theorem Arrives.bind {first : Decode α} {next : α → Decode β} {value : α} {result : β}
    (hfirst : first.Arrives buffer depth start middle value)
    (hnext : (next value).Arrives buffer depth middle stop result) :
    (first >>= next).Arrives buffer depth start stop result := by
  refine ⟨Nat.le_trans hfirst.le hnext.le, ?_, ?_⟩
  · intro hstop
    have hmiddle := hfirst.reads (Nat.le_trans hnext.le hstop)
    rw [bind_apply, Attempt.bind_of_ok hmiddle]
    exact hnext.reads hstop
  · intro hstart hshort
    rw [bind_apply]
    by_cases hmiddle : middle ≤ buffer.bytes.size
    · rw [Attempt.bind_of_ok (hfirst.reads hmiddle)]
      exact hnext.ends hmiddle hshort
    · obtain ⟨index, reached, hend⟩ := hfirst.ends hstart (Nat.not_le.mp hmiddle)
      exact ⟨index, reached, Attempt.bind_of_error hend⟩

theorem Arrives.insideVariant {contents : Decode α} {value : α}
    (h : contents.Arrives buffer (depth + 1) start stop value) :
    (insideVariant contents).Arrives buffer depth start stop value := by
  refine ⟨h.le, ?_, ?_⟩
  · intro hstop
    simp only [Decode.insideVariant, h.reads hstop, Nat.add_sub_cancel]
  · intro hstart hshort
    obtain ⟨index, reached, hend⟩ := h.ends hstart hshort
    exact ⟨index, { reached with variantDepth := reached.variantDepth - 1 },
      by simp only [Decode.insideVariant, hend]⟩

end

/-- What one reader reads from a buffer, another reads from any buffer that overlaps, as
long as the value fits.  The first counts variants from one depth and the second from
another. -/
def Transfers (depth anotherDepth : Nat) (fits : α → Prop) (reader other : Decode α) : Prop :=
  ∀ ⦃buffer another : Buffer⦄ ⦃cursor reached : Cursor⦄ ⦃value : α⦄, buffer.Overlaps another →
    reader buffer cursor = (.ok value, reached) → cursor.variantDepth = depth → fits value →
    reached.variantDepth = depth ∧
      other.Arrives another anotherDepth cursor.position reached.position value

variable {depth anotherDepth : Nat} {fits : α → Prop}

/-- A reader that stays where it is reads the same anywhere. -/
theorem transfers_of_stays {reader other : Decode α}
    (h : ∀ ⦃buffer another : Buffer⦄ ⦃cursor reached : Cursor⦄ ⦃value : α⦄,
      buffer.Overlaps another → reader buffer cursor = (.ok value, reached) →
      reached = cursor ∧ ∀ place, other another place = (.ok value, place)) :
    Transfers depth anotherDepth fits reader other := by
  intro buffer another cursor reached value hoverlaps hrun hdepth _
  obtain ⟨rfl, hother⟩ := h hoverlaps hrun
  exact ⟨hdepth, arrives_of_ok (hother _)⟩

theorem transfers_pure (value : α) :
    Transfers depth anotherDepth fits (pure value) (pure value) := by
  apply transfers_of_stays
  intro buffer another cursor reached result _ hrun
  cases hrun
  exact ⟨rfl, fun _ => rfl⟩

theorem transfers_lift (outcome : Except Error α) :
    Transfers depth anotherDepth fits (lift outcome) (lift outcome) := by
  apply transfers_of_stays
  intro buffer another cursor reached value _ hrun
  have houtcome : outcome = .ok value := congrArg Prod.fst hrun
  have hcursor : cursor = reached := congrArg Prod.snd hrun
  exact ⟨hcursor.symm, fun place => by rw [lift, houtcome, Attempt.lift_apply]⟩

theorem transfers_fail (error : Error) (other : Decode α) :
    Transfers depth anotherDepth fits (fail error) other := by
  intro buffer another cursor reached value _ hrun
  cases hrun

theorem Transfers.mono {fitsToo : α → Prop} {reader other : Decode α}
    (h : Transfers depth anotherDepth fits reader other)
    (hfits : ∀ value, fitsToo value → fits value) :
    Transfers depth anotherDepth fitsToo reader other :=
  fun _ _ _ _ _ hoverlaps hrun hdepth hvalue => h hoverlaps hrun hdepth (hfits _ hvalue)

/-- A reader whose result does not fit unless the result of its first part does. -/
theorem Transfers.bind {fitsToo : β → Prop} {first firstOther : Decode α}
    {next nextOther : α → Decode β}
    (hfirst : Transfers depth anotherDepth fits first firstOther)
    (hnext : ∀ value, Transfers depth anotherDepth fitsToo (next value) (nextOther value))
    (hfits : ∀ ⦃buffer : Buffer⦄ ⦃cursor reached : Cursor⦄ ⦃value : α⦄ ⦃result : β⦄,
      next value buffer cursor = (.ok result, reached) → fitsToo result → fits value) :
    Transfers depth anotherDepth fitsToo (first >>= next) (firstOther >>= nextOther) := by
  intro buffer another cursor reached result hoverlaps hrun hdepth hresult
  obtain ⟨value, middle, hmiddle, hrun⟩ := Attempt.bind_eq_ok hrun
  obtain ⟨hsame, harrives⟩ := hfirst hoverlaps hmiddle hdepth (hfits hrun hresult)
  obtain ⟨hlast, hrest⟩ := hnext value hoverlaps hrun hsame hresult
  exact ⟨hlast, harrives.bind hrest⟩

theorem Transfers.andThen {fits : β → Prop} {first firstOther : Decode α}
    {next nextOther : α → Decode β}
    (hfirst : Transfers depth anotherDepth (fun _ => True) first firstOther)
    (hnext : ∀ value, Transfers depth anotherDepth fits (next value) (nextOther value)) :
    Transfers depth anotherDepth fits (first >>= next) (firstOther >>= nextOther) :=
  hfirst.bind hnext fun _ _ _ _ _ _ _ => trivial

theorem Transfers.map {reader other : Decode α} {fits : β → Prop} {f : α → β}
    (h : Transfers depth anotherDepth (fun value => fits (f value)) reader other) :
    Transfers depth anotherDepth fits (reader >>= fun value => pure (f value))
      (other >>= fun value => pure (f value)) := by
  refine h.bind (fun value => transfers_pure (f value)) ?_
  intro buffer cursor reached value result hrun hresult
  cases hrun
  exact hresult

theorem transfers_align {alignment : Nat} {fits : Unit → Prop} (h : 0 < alignment) :
    Transfers depth anotherDepth fits (align alignment) (align alignment) := by
  intro buffer another cursor reached value _ hrun hdepth _
  rw [align, moveTo] at hrun
  split at hrun <;> cases hrun
  refine ⟨hdepth, le_alignUp cursor.position h, ?_, ?_⟩
  · intro hstop
    rw [align, moveTo, if_pos hstop]
  · intro _ hshort
    rw [align, moveTo, if_neg (Nat.not_le.mpr hshort)]
    exact ⟨_, _, rfl⟩

theorem transfers_alignStruct {fits : Unit → Prop} :
    Transfers depth anotherDepth fits alignStruct alignStruct :=
  transfers_align WireKind.struct.alignment_pos

theorem transfers_take {fits : ByteArray → Prop} (count : Nat) :
    Transfers depth anotherDepth fits (take count) (take count) := by
  intro buffer another cursor reached value hoverlaps hrun hdepth _
  simp only [take] at hrun
  split at hrun
  · rename_i hle
    cases hrun
    refine ⟨hdepth, Nat.le_add_right _ _, ?_, ?_⟩
    · intro hstop
      simp only [take]
      rw [if_pos hstop, hoverlaps.extract_eq hle hstop]
    · intro _ hshort
      simp only [take]
      rw [if_neg (Nat.not_le.mpr hshort)]
      exact ⟨_, _, rfl⟩
  · cases hrun

theorem transfers_word {width : Nat} {fits : Nat → Prop} (h : 0 < width) :
    Transfers depth anotherDepth fits (word width) (word width) := by
  refine (transfers_align h).andThen fun _ => (transfers_take width).andThen fun bytes => ?_
  apply transfers_of_stays
  intro buffer another cursor reached value hoverlaps hrun
  cases hrun
  refine ⟨rfl, fun place => ?_⟩
  rw [hoverlaps.order_eq]
  rfl

theorem transfers_text {lengthWidth : Nat} {fits : String → Prop} (h : 0 < lengthWidth) :
    Transfers depth anotherDepth fits (text lengthWidth) (text lengthWidth) := by
  refine (transfers_word h).andThen fun length => (transfers_take (length + 1)).andThen
    fun bytes => ?_
  split
  · exact transfers_fail _ _
  · simp only
    split
    · exact transfers_fail _ _
    · split
      · exact transfers_pure _
      · exact transfers_fail _ _

theorem transfers_boolean {fits : Bool → Prop} :
    Transfers depth anotherDepth fits boolean boolean := by
  refine (transfers_word (by decide)).andThen fun word => ?_
  split
  · exact transfers_pure false
  · exact transfers_pure true
  · exact transfers_fail _ _

theorem transfers_objectPath {fits : String → Prop} :
    Transfers depth anotherDepth fits objectPath objectPath := by
  refine (transfers_text (by decide)).andThen fun path => ?_
  split
  · exact transfers_pure path
  · exact transfers_fail _ _

theorem transfers_signature {fits : String → Prop} :
    Transfers depth anotherDepth fits signature signature :=
  (transfers_text (by decide)).andThen fun text =>
    Transfers.andThen (transfers_lift _) fun _ => transfers_pure text

theorem transfers_expectSignature {fits : Unit → Prop} (expected : String) :
    Transfers depth anotherDepth fits (expectSignature expected) (expectSignature expected) := by
  refine transfers_signature.andThen fun found => ?_
  split
  · exact transfers_pure ()
  · exact transfers_fail _ _

theorem transfers_basic {fits : BasicValue → Prop} (type : BasicType) :
    Transfers depth anotherDepth fits (basic type) (basic type) := by
  cases type with
  | boolean => exact transfers_boolean.map
  | string => exact (transfers_text (by decide)).map
  | objectPath => exact transfers_objectPath.map
  | signature => exact transfers_signature.map
  | _ => exact (transfers_word (by decide)).map

theorem transfers_asKey {reader other : Decode Value} {fits : Key → Prop}
    (h : Transfers depth anotherDepth (fun _ => True) reader other) :
    Transfers depth anotherDepth fits (asKey reader) (asKey other) :=
  h.andThen fun value => transfers_lift value.toKey

theorem transfers_entry {key value other : Decode Value} {fits : Value → Prop}
    (hkey : Transfers depth anotherDepth (fun _ => True) key key)
    (hvalue : Transfers depth anotherDepth fits value other) :
    Transfers depth anotherDepth (fun entry => fits entry.2) (entry key value)
      (entry key other) :=
  (transfers_asKey hkey).andThen fun key => Transfers.map (f := fun value => (key, value)) hvalue

/-- Elements that end before the buffer does are all read. -/
theorem collect_of_transfers {reader other : Decode α} {element : WireKind} {stop : Nat}
    {buffer another : Buffer} {cursor reached : Cursor} {values : List α}
    (h : Transfers depth anotherDepth fits reader other) (hoverlaps : buffer.Overlaps another)
    (hrun : Region.collect ⟨element, stop⟩ reader buffer cursor = (.ok values, reached))
    (hdepth : cursor.variantDepth = depth) (hfits : ∀ value ∈ values, fits value) :
    reached.variantDepth = depth ∧ reached.position = stop ∧ cursor.position ≤ stop ∧
      (stop ≤ another.bytes.size →
        Region.collect ⟨element, stop⟩ other another ⟨cursor.position, anotherDepth⟩ =
          (.ok values, ⟨stop, anotherDepth⟩)) := by
  refine Region.collect_induction (motive := fun cursor values reached =>
    cursor.variantDepth = depth → (∀ value ∈ values, fits value) →
      reached.variantDepth = depth ∧ reached.position = stop ∧ cursor.position ≤ stop ∧
        (stop ≤ another.bytes.size →
          Region.collect ⟨element, stop⟩ other another ⟨cursor.position, anotherDepth⟩ =
            (.ok values, ⟨stop, anotherDepth⟩))) ?_ ?_ hrun hdepth hfits
  · intro cursor hend hdepth _
    have hposition : cursor.position = stop := hend
    refine ⟨hdepth, hposition, Nat.le_of_eq hposition, fun _ => ?_⟩
    rw [hposition, Region.collect_eq, Region.hasNext_of_eq rfl]
  · intro cursor value after values last hmoved helement hrest hdepth hfits
    rw [List.forall_mem_cons] at hfits
    obtain ⟨hafter, harrives⟩ := h hoverlaps helement hdepth hfits.1
    obtain ⟨hlast, hend, hbefore, hcollect⟩ := hrest hafter hfits.2
    have hle := le_alignUp cursor.position element.alignment_pos
    refine ⟨hlast, hend, Nat.le_trans hle (Nat.le_trans (Nat.le_of_lt hmoved) hbefore), ?_⟩
    intro hstop
    have hnext : Region.hasNext ⟨element, stop⟩ another ⟨cursor.position, anotherDepth⟩ =
        (.ok true, ⟨alignUp cursor.position element.alignment, anotherDepth⟩) :=
      Region.hasNext_of_lt (Nat.lt_of_lt_of_le hmoved hbefore) hstop
    rw [Region.collect_eq, hnext]
    simp only
    rw [harrives.reads (Nat.le_trans hbefore hstop)]
    simp only
    rw [if_pos hmoved, hcollect hstop]

/-- The length of an array tells at once whether the buffer ends before it. -/
theorem Transfers.container {reader other : Decode α} {element : WireKind}
    {f : List α → β} {fitsToo : β → Prop}
    (h : Transfers depth anotherDepth fits reader other)
    (hfits : ∀ values, fitsToo (f values) → ∀ value ∈ values, fits value) :
    Transfers depth anotherDepth fitsToo
      (Region.start element >>= fun region =>
        region.collect reader >>= fun values => pure (f values))
      (Region.start element >>= fun region =>
        region.collect other >>= fun values => pure (f values)) := by
  intro buffer another cursor reached result hoverlaps hrun hdepth hresult
  obtain ⟨region, begun, hstart, hrun⟩ := Attempt.bind_eq_ok hrun
  obtain ⟨values, last, hvalues, hrun⟩ := Attempt.bind_eq_ok hrun
  cases hrun
  obtain ⟨length, counted, hlength, hshort, halign, hroom, rfl⟩ := Region.start_eq_ok hstart
  have hwordToo : Transfers depth anotherDepth (fun _ => True) (word 4) (word 4) :=
    transfers_word (by decide)
  have halignToo : Transfers depth anotherDepth (fun _ => True) (align element.alignment)
      (align element.alignment) := transfers_align element.alignment_pos
  obtain ⟨hcounted, hword⟩ := hwordToo hoverlaps hlength hdepth trivial
  obtain ⟨hbegun, haligned⟩ := halignToo hoverlaps halign hcounted trivial
  obtain ⟨hlast, hend, hle, hcollect⟩ :=
    collect_of_transfers h hoverlaps hvalues hbegun (hfits values hresult)
  have helements : (Region.ofLength element length >>= fun region =>
      region.collect other >>= fun values => pure (f values) : Decode β).Arrives another
        anotherDepth begun.position reached.position (f values) := by
    rw [hend]
    refine ⟨hle, ?_, ?_⟩
    · intro hstop
      have hregion : Region.ofLength element length another ⟨begun.position, anotherDepth⟩ =
          (.ok ⟨element, begun.position + length⟩, ⟨begun.position, anotherDepth⟩) :=
        if_pos hstop
      rw [bind_apply, Attempt.bind_of_ok hregion]
      exact Attempt.bind_of_ok (hcollect hstop)
    · intro _ hends
      have hregion : Region.ofLength element length another ⟨begun.position, anotherDepth⟩ =
          (.error (.indexOutOfBounds (begun.position + length)),
            ⟨begun.position, anotherDepth⟩) :=
        if_neg (Nat.not_le.mpr hends)
      exact ⟨_, _, Attempt.bind_of_error hregion⟩
  refine ⟨hlast, ?_⟩
  rw [Region.start, bind_assoc]
  refine hword.bind ?_
  rw [if_neg (Nat.not_lt.mpr hshort), bind_assoc]
  exact haligned.bind helements

/-- Values that are read one after the other fit if all of them do. -/
theorem Transfers.cons {first firstOther : Decode Value} {rest restOther : Decode (List Value)}
    {levels : Nat} {f : List Value → β} {fitsToo : β → Prop}
    (hfirst : Transfers depth anotherDepth (fun value => value.variantDepth ≤ levels) first
      firstOther)
    (hrest : Transfers depth anotherDepth (fun values => Value.variantDepthAll values ≤ levels)
      rest restOther)
    (hfits : ∀ values, fitsToo (f values) → Value.variantDepthAll values ≤ levels) :
    Transfers depth anotherDepth fitsToo
      (first >>= fun value => rest >>= fun values => pure (f (value :: values)))
      (firstOther >>= fun value => restOther >>= fun values => pure (f (value :: values))) := by
  refine hfirst.bind (fun value => Transfers.map (f := fun values => f (value :: values)) ?_) ?_
  · exact hrest.mono fun values hvalues => (Nat.max_le.mp (hfits _ hvalues)).2
  · intro buffer cursor reached value result hrun hresult
    obtain ⟨values, last, -, hrun⟩ := Attempt.bind_eq_ok hrun
    cases hrun
    exact (Nat.max_le.mp (hfits _ hresult)).1

variable {inner innerOther : Decode Value} {levels : Nat}

mutual

theorem transfers_verbatimWith
    (h : Transfers depth anotherDepth (fun value => value.variantDepth + 1 ≤ levels) inner
      innerOther) : ∀ type : BusType,
    Transfers depth anotherDepth (fun value => value.variantDepth ≤ levels)
      (verbatimWith inner type) (verbatimWith innerOther type)
  | .basic type => (transfers_basic type).map
  | .variant => Transfers.map h
  | .array element => by
      refine (transfers_verbatimWith h element).container ?_
      intro items hitems
      exact Value.variantDepthAll_le_iff.mp hitems
  | .dict key type => by
      have hentry := transfers_entry (Transfers.map (f := Value.basic) (transfers_basic key))
        (transfers_verbatimWith h type)
      refine (Transfers.andThen transfers_alignStruct fun _ => hentry).container ?_
      intro entries hentries
      exact Value.variantDepthEntries_le_iff.mp hentries
  | .struct first rest =>
      Transfers.andThen transfers_alignStruct fun _ =>
        (transfers_verbatimWith h first).cons (transfers_verbatimAllWith h rest) fun _ => id

theorem transfers_verbatimAllWith
    (h : Transfers depth anotherDepth (fun value => value.variantDepth + 1 ≤ levels) inner
      innerOther) : ∀ types : List BusType,
    Transfers depth anotherDepth (fun values => Value.variantDepthAll values ≤ levels)
      (verbatimAllWith inner types) (verbatimAllWith innerOther types)
  | [] => transfers_pure []
  | type :: types =>
      Transfers.cons (f := id) (transfers_verbatimWith h type) (transfers_verbatimAllWith h types)
        fun _ => id

end

theorem Transfers.insideVariant {fits : α → Prop} {reader other : Decode α}
    (h : Transfers (depth + 1) (anotherDepth + 1) fits reader other) :
    Transfers depth anotherDepth fits (insideVariant reader) (insideVariant other) := by
  rintro buffer another cursor reached value hoverlaps hrun rfl hvalue
  obtain ⟨last, hcontents, rfl⟩ := insideVariant_eq_ok_iff.mp hrun
  obtain ⟨hlast, harrives⟩ := h hoverlaps hcontents rfl hvalue
  refine ⟨?_, harrives.insideVariant⟩
  simp only [hlast, Nat.add_sub_cancel]

theorem transfers_variantType {fits : BusType → Prop} :
    Transfers depth anotherDepth fits variantType variantType :=
  transfers_signature.andThen fun _ => transfers_lift _

/-- Variants that are nested in no more levels than another reader allows are read by it
too. -/
theorem transfers_verbatimWithin (depth anotherDepth levels allowed : Nat) :
    Transfers depth anotherDepth (fun value => value.variantDepth + 1 ≤ allowed)
      (verbatimWithin levels) (verbatimWithin allowed) := by
  induction levels generalizing depth anotherDepth allowed with
  | zero =>
      intro buffer another cursor reached value _ hrun
      obtain ⟨type, middle, -, hrun⟩ := Attempt.bind_eq_ok hrun
      cases hrun
  | succ levels ih =>
      cases allowed with
      | zero =>
          intro buffer another cursor reached value _ _ _ hnone
          exact absurd hnone (Nat.not_succ_le_zero _)
      | succ allowed =>
          refine transfers_variantType.andThen fun type => ?_
          have hcontents := transfers_verbatimWith (ih (depth + 1) (anotherDepth + 1) allowed) type
          exact hcontents.insideVariant.mono fun _ => Nat.le_of_succ_le_succ

theorem transfers_fromVariant (depth anotherDepth allowed : Nat) :
    Transfers depth anotherDepth (fun value => value.variantDepth + 1 ≤ allowed)
      verbatimVariant (verbatimWithin allowed) := by
  intro buffer another cursor reached value hoverlaps hrun
  rw [verbatimVariant] at hrun
  exact transfers_verbatimWithin depth anotherDepth _ allowed hoverlaps hrun

theorem transfers_toVariant (depth anotherDepth levels : Nat) :
    Transfers depth anotherDepth
      (fun value => value.variantDepth + 1 ≤ maxVariantDepth - anotherDepth)
      (verbatimWithin levels) verbatimVariant := by
  intro buffer another cursor reached value hoverlaps hrun hdepth hvalue
  obtain ⟨hreached, harrives⟩ :=
    transfers_verbatimWithin depth anotherDepth levels _ hoverlaps hrun hdepth hvalue
  exact ⟨hreached, harrives.le, harrives.reads, harrives.ends⟩

/-- What a variant holds is read alike inside more variants or fewer, as long as there are
not too many of them. -/
theorem transfers_verbatimVariant (depth anotherDepth : Nat) :
    Transfers depth anotherDepth
      (fun value => value.variantDepth + 1 ≤ maxVariantDepth - anotherDepth)
      verbatimVariant verbatimVariant := by
  intro buffer another cursor reached value hoverlaps hrun
  rw [verbatimVariant] at hrun
  exact transfers_toVariant depth anotherDepth _ hoverlaps hrun

end Decode

end BusCodec
