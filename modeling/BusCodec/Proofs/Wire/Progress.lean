import BusCodec.Proofs.Wire.Reading

/-!
Reading comes to an end.  Whatever the buffer holds, the reader of values moves on with
every value that it reads, so that no array keeps it for ever, and it fails only because
of what it has read.
-/

namespace BusCodec

namespace Error

/-- Whether an error is one of the data.  The other two are those of procedures that
are missing or that call one another in a circle. -/
def OfData : Error → Prop
  | unknownProcedure _ | endless => False
  | _ => True

/-- Whether an error is one of the bytes that are read.  The other errors of data are those
of values and types that are not to be written or generated, or of bytes that are left. -/
def OfBytes : Error → Prop
  | doubleMapKey | leftoverData _ | textTooLong _ | valueShape _ _ => False
  | error => error.OfData

theorem OfBytes.ofData {error : Error} (h : error.OfBytes) : error.OfData := by
  cases error with
  | unknownProcedure name => exact h
  | endless => exact h
  | _ => trivial

end Error

namespace Attempt

variable {σ α β : Type} {allowed : Error → Prop}

/-- A computation has no errors but the allowed ones. -/
def FailsOnly (allowed : Error → Prop) (attempt : Attempt σ α) : Prop :=
  ∀ state error reached, attempt state = (.error error, reached) → allowed error

/-- A computation fails only because of its data. -/
abbrev BlamesData (attempt : Attempt σ α) : Prop :=
  attempt.FailsOnly Error.OfData

theorem FailsOnly.mono {attempt : Attempt σ α} {more : Error → Prop}
    (h : attempt.FailsOnly allowed) (hmore : ∀ error, allowed error → more error) :
    attempt.FailsOnly more :=
  fun state error reached hfailed => hmore error (h state error reached hfailed)

theorem failsOnly_of_ok {attempt : Attempt σ α}
    (h : ∀ state, ∃ value reached, attempt state = (.ok value, reached)) :
    attempt.FailsOnly allowed := by
  intro state error reached hfailed
  obtain ⟨value, other, hok⟩ := h state
  rw [hok] at hfailed
  cases hfailed

theorem failsOnly_pure (value : α) : (pure value : Attempt σ α).FailsOnly allowed :=
  failsOnly_of_ok fun state => ⟨value, state, rfl⟩

theorem failsOnly_state : (state : Attempt σ σ).FailsOnly allowed :=
  failsOnly_of_ok fun state => ⟨state, state, rfl⟩

theorem failsOnly_update (change : σ → σ) : (update change).FailsOnly allowed :=
  failsOnly_of_ok fun state => ⟨(), change state, rfl⟩

theorem failsOnly_fail {error : Error} (h : allowed error) :
    (fail error : Attempt σ α).FailsOnly allowed := by
  intro state other reached hfailed
  cases hfailed
  exact h

theorem failsOnly_lift {outcome : Except Error α}
    (h : ∀ error, outcome = .error error → allowed error) :
    (lift outcome : Attempt σ α).FailsOnly allowed := by
  intro state error reached hfailed
  exact h error (congrArg Prod.fst hfailed)

theorem failsOnly_liftGrammar (h : ∀ error, allowed (.grammar error))
    (outcome : Except GrammarError α) :
    (liftGrammar outcome : Attempt σ α).FailsOnly allowed := by
  apply failsOnly_lift
  intro error herror
  cases outcome with
  | ok value => cases herror
  | error grammar =>
      cases herror
      exact h grammar

theorem FailsOnly.bind {first : Attempt σ α} {next : α → Attempt σ β}
    (hfirst : first.FailsOnly allowed) (hnext : ∀ value, (next value).FailsOnly allowed) :
    (first >>= next).FailsOnly allowed := by
  intro state error reached hfailed
  rw [bind_apply] at hfailed
  cases hrun : first state with
  | mk outcome middle =>
      rw [hrun] at hfailed
      cases outcome with
      | ok value => exact hnext value middle error reached hfailed
      | error other =>
          cases hfailed
          exact hfirst state error reached hrun

end Attempt

namespace Decode

variable {α β : Type}

/-- A reader that comes to a result has moved on by so many bytes or more. -/
def Moves (least : Nat) (reader : Decode α) : Prop :=
  ∀ ⦃buffer : Buffer⦄ ⦃cursor reached : Cursor⦄ ⦃value : α⦄,
    reader buffer cursor = (.ok value, reached) → cursor.position + least ≤ reached.position

theorem moves_pure (value : α) : Moves 0 (pure value : Decode α) := by
  intro buffer cursor reached other hrun
  cases hrun
  exact Nat.le_refl _

theorem moves_lift (outcome : Except Error α) : Moves 0 (lift outcome) := by
  intro buffer cursor reached value hrun
  have hcursor : cursor = reached := congrArg Prod.snd hrun
  exact Nat.le_of_eq (congrArg Cursor.position hcursor)

theorem Moves.bind {first : Decode α} {next : α → Decode β} {least more : Nat}
    (hfirst : Moves least first) (hnext : ∀ value, Moves more (next value)) :
    Moves (least + more) (first >>= next) := by
  intro buffer cursor reached value hrun
  obtain ⟨middle, between, hmiddle, hlast⟩ := Attempt.bind_eq_ok hrun
  have hbefore := hfirst hmiddle
  have hafter := hnext middle hlast
  omega

theorem Moves.mono {reader : Decode α} {least fewer : Nat} (h : Moves least reader)
    (hle : fewer ≤ least) : Moves fewer reader :=
  fun _ _ _ _ hrun => Nat.le_trans (Nat.add_le_add_left hle _) (h hrun)

/-- A reader moves on, and where it comes to no result, it blames the bytes. -/
structure Proceeds (least : Nat) (reader : Decode α) : Prop where
  moves : Moves least reader
  blames : ∀ buffer : Buffer, Attempt.FailsOnly Error.OfBytes (reader buffer)

theorem proceeds_pure (value : α) : Proceeds 0 (pure value) :=
  ⟨moves_pure value, fun _ => Attempt.failsOnly_pure value⟩

theorem proceeds_fail {least : Nat} {error : Error} (h : error.OfBytes) :
    Proceeds least (fail error : Decode α) := by
  refine ⟨?_, fun buffer => Attempt.failsOnly_fail h⟩
  intro buffer cursor reached other hrun
  cases hrun

theorem proceeds_lift {outcome : Except Error α}
    (h : ∀ error, outcome = .error error → error.OfBytes) : Proceeds 0 (lift outcome) :=
  ⟨moves_lift outcome, fun _ => Attempt.failsOnly_lift h⟩

theorem proceeds_liftGrammar (outcome : Except GrammarError α) :
    Proceeds 0 (liftGrammar outcome) :=
  ⟨moves_lift _, fun _ => Attempt.failsOnly_liftGrammar (fun _ => trivial) outcome⟩

theorem Proceeds.bind {first : Decode α} {next : α → Decode β} {least more : Nat}
    (hfirst : Proceeds least first) (hnext : ∀ value, Proceeds more (next value)) :
    Proceeds (least + more) (first >>= next) :=
  ⟨hfirst.moves.bind fun value => (hnext value).moves,
    fun buffer => (hfirst.blames buffer).bind fun value => (hnext value).blames buffer⟩

theorem Proceeds.andThen {first : Decode α} {next : α → Decode β} {least : Nat}
    (hfirst : Proceeds least first) (hnext : ∀ value, Proceeds 0 (next value)) :
    Proceeds least (first >>= next) :=
  hfirst.bind hnext

theorem Proceeds.map {reader : Decode α} {least : Nat} (h : Proceeds least reader)
    (f : α → β) : Proceeds least (reader >>= fun value => pure (f value)) :=
  h.andThen fun value => proceeds_pure (f value)

theorem Proceeds.mono {reader : Decode α} {least fewer : Nat} (h : Proceeds least reader)
    (hle : fewer ≤ least) : Proceeds fewer reader :=
  ⟨h.moves.mono hle, h.blames⟩

theorem proceeds_align {alignment : Nat} (h : 0 < alignment) :
    Proceeds 0 (align alignment) := by
  refine ⟨?_, ?_⟩
  · intro buffer cursor reached value hrun
    rw [align, moveTo] at hrun
    split at hrun <;> cases hrun
    exact le_alignUp cursor.position h
  · intro buffer cursor error reached hrun
    rw [align, moveTo] at hrun
    split at hrun <;> cases hrun
    trivial

theorem proceeds_alignStruct : Proceeds 0 alignStruct :=
  proceeds_align WireKind.struct.alignment_pos

theorem proceeds_take (count : Nat) : Proceeds count (take count) := by
  refine ⟨?_, ?_⟩
  · intro buffer cursor reached value hrun
    simp only [take] at hrun
    split at hrun <;> cases hrun
    exact Nat.le_refl _
  · intro buffer cursor error reached hrun
    simp only [take] at hrun
    split at hrun <;> cases hrun
    trivial

theorem proceeds_word {width : Nat} (h : 0 < width) : Proceeds 1 (word width) := by
  have htake : Proceeds width (do
      let bytes ← take width
      fun buffer => pure (buffer.order.decode bytes.data.toList)) := by
    refine (proceeds_take width).andThen fun bytes => ⟨?_, ?_⟩
    · intro buffer cursor reached value hrun
      cases hrun
      exact Nat.le_refl _
    · exact fun buffer => Attempt.failsOnly_pure _
  exact ((proceeds_align h).bind fun _ => htake).mono (by omega)

theorem proceeds_text {lengthWidth : Nat} (h : 0 < lengthWidth) :
    Proceeds 1 (text lengthWidth) := by
  refine (proceeds_word h).andThen fun length => ?_
  refine ((proceeds_take (length + 1)).mono (Nat.zero_le _)).andThen fun bytes => ?_
  split
  · exact proceeds_fail (by exact trivial)
  · simp only
    split
    · exact proceeds_fail (by exact trivial)
    · split
      · exact proceeds_pure _
      · exact proceeds_fail (by exact trivial)

theorem proceeds_boolean : Proceeds 1 boolean := by
  refine (proceeds_word (by decide)).andThen fun word => ?_
  split
  · exact proceeds_pure false
  · exact proceeds_pure true
  · exact proceeds_fail (by exact trivial)

theorem proceeds_objectPath : Proceeds 1 objectPath := by
  refine (proceeds_text (by decide)).andThen fun path => ?_
  split
  · exact proceeds_pure path
  · exact proceeds_fail (by exact trivial)

theorem proceeds_signature : Proceeds 1 signature :=
  (proceeds_text (by decide)).andThen fun text =>
    (proceeds_liftGrammar (BusType.parseAll text)).map fun _ => text

theorem proceeds_expectSignature (expected : String) :
    Proceeds 1 (expectSignature expected) := by
  refine proceeds_signature.andThen fun found => ?_
  split
  · exact proceeds_pure ()
  · exact proceeds_fail (by exact trivial)

theorem proceeds_basic (type : BasicType) : Proceeds 1 (basic type) := by
  cases type with
  | boolean => exact proceeds_boolean.map _
  | string => exact (proceeds_text (by decide)).map _
  | objectPath => exact proceeds_objectPath.map _
  | signature => exact proceeds_signature.map _
  | _ => exact (proceeds_word (by decide)).map _

end Decode

namespace Region

variable {α : Type}

theorem proceeds_start (element : WireKind) : Decode.Proceeds 1 (start element) := by
  refine (Decode.proceeds_word (by decide)).andThen fun length => ?_
  split
  · exact Decode.proceeds_fail (by exact trivial)
  · refine (Decode.proceeds_align element.alignment_pos).andThen fun _ => ⟨?_, ?_⟩
    · intro buffer cursor reached value hrun
      simp only [ofLength] at hrun
      split at hrun <;> cases hrun
      exact Nat.le_refl _
    · intro buffer cursor error reached hrun
      simp only [ofLength] at hrun
      split at hrun <;> cases hrun
      trivial

theorem proceeds_hasNext (region : Region) : Decode.Proceeds 0 region.hasNext := by
  have halign := Decode.proceeds_align region.element.alignment_pos
  refine ⟨?_, ?_⟩
  · intro buffer cursor reached value hrun
    rw [hasNext] at hrun
    split at hrun
    · cases hrun
      exact Nat.le_refl _
    · split at hrun
      · cases hrun
      · split at hrun
        · cases hrun
        · rename_i hmoved
          split at hrun <;> cases hrun
          exact halign.moves hmoved
  · intro buffer cursor error reached hrun
    rw [hasNext] at hrun
    split at hrun
    · cases hrun
    · split at hrun
      · cases hrun
        trivial
      · split at hrun
        · rename_i hstuck
          cases hrun
          exact halign.blames buffer cursor error reached hstuck
        · split at hrun <;> cases hrun
          trivial

theorem moves_collect (region : Region) (element : Decode α) :
    Decode.Moves 0 (region.collect element) := by
  have hnext := region.proceeds_hasNext
  intro buffer cursor reached values hrun
  fun_induction Region.collect region element buffer cursor generalizing values with
  | case1 => cases hrun
  | case2 cursor stopped hstop =>
      cases hrun
      exact hnext.moves hstop
  | case3 => cases hrun
  | case4 => cases hrun
  | case5 cursor begun hbegun value after helement hmoved values last hrest ih =>
      cases hrun
      have hfirst := hnext.moves hbegun
      have hlast := ih hrest
      omega
  | case6 => cases hrun

/-- Reading elements that each take a byte or more comes to an end. -/
theorem proceeds_collect (region : Region) {element : Decode α}
    (h : Decode.Proceeds 1 element) : Decode.Proceeds 0 (region.collect element) := by
  refine ⟨region.moves_collect element, ?_⟩
  have hnext := region.proceeds_hasNext
  intro buffer cursor error reached hrun
  fun_induction Region.collect region element buffer cursor with
  | case1 cursor other begun hfailed =>
      cases hrun
      exact hnext.blames buffer cursor error reached hfailed
  | case2 => cases hrun
  | case3 cursor begun hbegun other after hfailed =>
      cases hrun
      exact h.blames buffer begun error reached hfailed
  | case4 cursor begun hbegun value after helement hmoved other last hrest ih =>
      cases hrun
      exact ih hrest
  | case5 => cases hrun
  | case6 cursor begun hbegun value after helement hstill =>
      -- The element took no byte, which `h` excludes.
      exact absurd (h.moves helement) (by omega)

end Region

namespace Decode

variable {least : Nat}

theorem moves_entry {key value : Decode Value} {more : Nat} (hkey : Moves least key)
    (hvalue : Moves more value) : Moves (least + more) (entry key value) := by
  have hfound : Moves least (asKey key) := hkey.bind fun found => moves_lift found.toKey
  exact hfound.bind fun found => hvalue.bind fun value => moves_pure (found, value)

/-- What is read as a key is a basic value, so that it cannot be of another shape. -/
theorem proceeds_asKey {reader : Decode BasicValue} (h : Proceeds least reader) :
    Proceeds least (asKey (reader >>= fun value => pure (.basic value))) := by
  rw [asKey, bind_assoc]
  refine h.andThen fun value => ?_
  rw [pure_bind]
  refine proceeds_lift fun error herror => ?_
  rw [Value.toKey] at herror
  split at herror <;> cases herror
  trivial

theorem proceeds_entry {key : Decode BasicValue} {value : Decode Value}
    (hkey : Proceeds least key) (hvalue : Proceeds 0 value) :
    Proceeds least (entry (key >>= fun value => pure (.basic value)) value) :=
  (proceeds_asKey hkey).andThen fun _ => hvalue.map _

theorem proceeds_container {α : Type} {element : WireKind} {reader : Decode α}
    (h : Proceeds 1 reader) (f : List α → Value) :
    Proceeds 1 (Region.start element >>= fun region =>
      region.collect reader >>= fun items => pure (f items)) :=
  (Region.proceeds_start element).andThen fun region =>
    (region.proceeds_collect h).map f

mutual

theorem proceeds_valueWith {inner : Decode Value} (h : Proceeds 1 inner) :
    ∀ type : BusType, Proceeds 1 (valueWith inner type)
  | .basic type => (proceeds_basic type).map _
  | .variant => h.map _
  | .array element => proceeds_container (proceeds_valueWith h element) _
  | .dict key value => by
      have hvalue := (proceeds_valueWith h value).mono (Nat.zero_le 1)
      have hentry := proceeds_entry (proceeds_basic key) hvalue
      exact proceeds_container ((proceeds_alignStruct.bind fun _ => hentry).mono (by omega)) _
  | .struct first rest => by
      have hmembers := (proceeds_valueWith h first).andThen fun member =>
        (proceeds_valuesWith h rest).map fun members => Value.struct (member :: members)
      exact (proceeds_alignStruct.bind fun _ => hmembers).mono (by omega)

theorem proceeds_valuesWith {inner : Decode Value} (h : Proceeds 1 inner) :
    ∀ types : List BusType, Proceeds 0 (valuesWith inner types)
  | [] => proceeds_pure []
  | type :: types =>
      ((proceeds_valueWith h type).mono (Nat.zero_le 1)).andThen fun _ =>
        (proceeds_valuesWith h types).map _

end

theorem proceeds_insideVariant {reader : Decode Value} (h : Proceeds least reader) :
    Proceeds least (insideVariant reader) := by
  refine ⟨?_, ?_⟩
  · intro buffer cursor reached value hrun
    rw [insideVariant] at hrun
    cases hinner : reader buffer { cursor with variantDepth := cursor.variantDepth + 1 } with
    | mk outcome between =>
        rw [hinner] at hrun
        obtain ⟨rfl, rfl⟩ := Prod.mk.inj hrun
        have hmoved := h.moves hinner
        exact hmoved
  · intro buffer cursor error reached hrun
    rw [insideVariant] at hrun
    cases hinner : reader buffer { cursor with variantDepth := cursor.variantDepth + 1 } with
    | mk outcome between =>
        rw [hinner] at hrun
        cases hrun
        exact h.blames buffer _ error between hinner

theorem proceeds_variantType : Proceeds 1 variantType :=
  proceeds_signature.andThen fun text => proceeds_liftGrammar (BusType.parse text)

theorem proceeds_variantWithin (levels : Nat) : Proceeds 1 (variantWithin levels) := by
  induction levels with
  | zero => exact proceeds_variantType.andThen fun _ => proceeds_fail (by exact trivial)
  | succ levels ih =>
      exact proceeds_variantType.andThen fun type =>
        (proceeds_insideVariant (proceeds_valueWith ih type)).mono (Nat.zero_le 1)

theorem proceeds_variant : Proceeds 1 variant :=
  ⟨fun _ _ _ _ hrun => (proceeds_variantWithin _).moves hrun,
    fun buffer cursor error reached hrun =>
      (proceeds_variantWithin _).blames buffer cursor error reached hrun⟩

/-- Reading a value of any type from any buffer moves on or blames the bytes. -/
theorem proceeds_value (type : BusType) : Proceeds 1 (value type) :=
  proceeds_valueWith proceeds_variant type

end Decode

end BusCodec
