import BusCodec.Proofs.Value.Settled
import BusCodec.Proofs.Wire.Reading

/-!
What a buffer says, word for word.  A dictionary is read as a map, in which the last of
several entries of a key stands for all of them.  A verbatim reader keeps every entry.
What it reads tells what the reader of values reads, and also what that one passed over.
-/

namespace BusCodec

namespace Value

mutual

/-- Whether no dictionary in a value has more than one entry. -/
def SingleEntries : Value → Prop
  | .basic _ => True
  | .variant inner => SingleEntries inner
  | .array _ items => AllSingleEntries items
  | .dict _ entries => entries.length ≤ 1 ∧ EntriesSingleEntries entries
  | .struct members => AllSingleEntries members
termination_by structural value => value

def AllSingleEntries : List Value → Prop
  | [] => True
  | value :: values => SingleEntries value ∧ AllSingleEntries values
termination_by structural values => values

def EntriesSingleEntries : List (Key × Value) → Prop
  | [] => True
  | (_, entry) :: entries => SingleEntries entry ∧ EntriesSingleEntries entries
termination_by structural entries => entries

end

mutual

theorem distinctKeys_of_singleEntries : ∀ {value : Value},
    SingleEntries value → DistinctKeys value
  | .basic _, _ => trivial
  | .variant inner, h => by
      have hinner : SingleEntries inner := h
      have hkeys := distinctKeys_of_singleEntries hinner
      exact hkeys
  | .array _ items, h => by
      have hitems : AllSingleEntries items := h
      exact allDistinctKeys_of_allSingleEntries hitems
  | .dict _ entries, h => by
      refine ⟨?_, entriesDistinctKeys_of_singleEntries h.2⟩
      rcases entries with _ | ⟨entry, _ | ⟨second, rest⟩⟩
      · exact List.nodup_nil
      · exact List.pairwise_singleton _ entry.1
      · have hlength := h.1
        rw [List.length_cons, List.length_cons] at hlength
        omega
  | .struct members, h => by
      have hmembers : AllSingleEntries members := h
      exact allDistinctKeys_of_allSingleEntries hmembers

theorem allDistinctKeys_of_allSingleEntries : ∀ {values : List Value},
    AllSingleEntries values → AllDistinctKeys values
  | [], _ => trivial
  | _ :: _, h => ⟨distinctKeys_of_singleEntries h.1, allDistinctKeys_of_allSingleEntries h.2⟩

theorem entriesDistinctKeys_of_singleEntries : ∀ {entries : List (Key × Value)},
    EntriesSingleEntries entries → EntriesDistinctKeys entries
  | [], _ => trivial
  | (_, _) :: _, h =>
      ⟨distinctKeys_of_singleEntries h.1, entriesDistinctKeys_of_singleEntries h.2⟩

end

end Value

namespace Decode

variable {α β : Type}

theorem map_apply (f : α → β) (reader : Decode α) (buffer : Buffer) (cursor : Cursor) :
    (f <$> reader) buffer cursor =
      match reader buffer cursor with
      | (.ok value, reached) => (.ok (f value), reached)
      | (.error error, reached) => (.error error, reached) := by
  change (reader >>= fun value => pure (f value)) buffer cursor = _
  rw [bind_apply, Attempt.bind_apply]
  cases reader buffer cursor with
  | mk outcome reached => cases outcome <;> rfl

theorem map_eq_ok_iff {f : α → β} {reader : Decode α} {buffer : Buffer}
    {cursor reached : Cursor} {result : β} :
    (f <$> reader) buffer cursor = (.ok result, reached) ↔
      ∃ value, reader buffer cursor = (.ok value, reached) ∧ result = f value := by
  rw [map_apply]
  constructor
  · intro h
    cases hrun : reader buffer cursor with
    | mk outcome stopped =>
        rw [hrun] at h
        cases outcome with
        | ok value =>
            cases h
            exact ⟨value, rfl, rfl⟩
        | error error => cases h
  · rintro ⟨value, hrun, rfl⟩
    rw [hrun]

mutual

/-- Reads a value of a type word for word, with the given way to read what a variant
holds.  A dictionary has all the entries of its region, in their order. -/
def verbatimWith (inner : Decode Value) : BusType → Decode Value
  | .basic type => return .basic (← basic type)
  | .variant => return .variant (← inner)
  | .array element => do
      let region ← Region.start element.wireKind
      let items ← region.collect (verbatimWith inner element)
      return .array (BusType.array element).signature items
  | .dict key value => do
      let region ← Region.start .struct
      let entries ← region.collect do
        alignStruct
        entry (return .basic (← basic key)) (verbatimWith inner value)
      return .dict (BusType.dict key value).signature entries
  | .struct first rest => do
      alignStruct
      let first ← verbatimWith inner first
      let rest ← verbatimAllWith inner rest
      return .struct (first :: rest)
termination_by structural type => type

def verbatimAllWith (inner : Decode Value) : List BusType → Decode (List Value)
  | [] => return []
  | type :: types => do
      let value ← verbatimWith inner type
      let values ← verbatimAllWith inner types
      return value :: values
termination_by structural types => types

end

theorem verbatimAllWith_singleton (inner : Decode Value) (type : BusType) :
    verbatimAllWith inner [type] = (fun value => [value]) <$> verbatimWith inner type := by
  simp only [verbatimAllWith, pure_bind, map_eq_pure_bind]

/-- Reads what a variant holds word for word, when variants may be nested so many levels
deep from here. -/
def verbatimWithin : Nat → Decode Value
  | 0 => do
      let _ ← variantType
      fail .variantDepth
  | levels + 1 => do
      let type ← variantType
      insideVariant (verbatimWith (verbatimWithin levels) type)

/-- Reads what a variant holds word for word. -/
def verbatimVariant : Decode Value :=
  fun buffer cursor =>
    verbatimWithin (maxVariantDepth - cursor.variantDepth) buffer cursor

end Decode

namespace Region

variable {α β : Type}

theorem collect_map (region : Region) (f : α → β) (reader : Decode α) (buffer : Buffer)
    (cursor : Cursor) :
    region.collect (f <$> reader) buffer cursor =
      match region.collect reader buffer cursor with
      | (.ok values, reached) => (.ok (values.map f), reached)
      | (.error error, reached) => (.error error, reached) := by
  fun_induction Region.collect region reader buffer cursor with
  | case1 cursor error reached hnext => rw [collect_eq, hnext]
  | case2 cursor reached hnext => rw [collect_eq, hnext]; rfl
  | case3 cursor reached hnext error after helement =>
      rw [collect_eq, hnext]
      simp only [Decode.map_apply, helement]
  | case4 cursor reached hnext value after helement hmoved error last hrest ih =>
      rw [hrest] at ih
      rw [collect_eq, hnext]
      simp only [Decode.map_apply, helement, if_pos hmoved, ih]
  | case5 cursor reached hnext value after helement hmoved values last hrest ih =>
      rw [hrest] at ih
      rw [collect_eq, hnext]
      simp only [Decode.map_apply, helement, if_pos hmoved, ih, List.map_cons]
  | case6 cursor reached hnext value after helement hstill =>
      rw [collect_eq, hnext]
      simp only [Decode.map_apply, helement, if_neg hstill]

end Region

namespace Decode

variable {inner verbatim : Decode Value}

theorem entry_map (key value : Decode Value) (f : Value → Value) :
    entry key (f <$> value) = (fun entry => (entry.1, f entry.2)) <$> entry key value := by
  simp only [entry, map_bind, map_pure, bind_map_left]

/-- Reading the elements of a container in another form gives it in another form. -/
theorem container_map {element : WireKind} {reader : Decode α} {f : α → β}
    {g : List β → Value} {h : List α → Value}
    (hsame : ∀ values, g (values.map f) = (h values).settled) :
    (Region.start element >>= fun region =>
        region.collect (f <$> reader) >>= fun values => pure (g values)) =
      Value.settled <$> (Region.start element >>= fun region =>
        region.collect reader >>= fun values => pure (h values)) := by
  rw [map_bind]
  apply Region.start_bind_congr
  intro region _
  funext buffer cursor
  have hmap := Region.collect_map region f reader buffer cursor
  rw [map_apply]
  cases hrun : region.collect reader buffer cursor with
  | mk outcome reached =>
      rw [hrun] at hmap
      cases outcome with
      | ok values =>
          have hleft : (region.collect (f <$> reader) >>= fun values => pure (g values) :
              Decode Value) buffer cursor = (.ok (g (values.map f)), reached) :=
            Attempt.bind_of_ok hmap
          have hright : (region.collect reader >>= fun values => pure (h values) :
              Decode Value) buffer cursor = (.ok (h values), reached) :=
            Attempt.bind_of_ok hrun
          rw [hleft, hright, hsame]
      | error error =>
          have hleft : (region.collect (f <$> reader) >>= fun values => pure (g values) :
              Decode Value) buffer cursor = (.error error, reached) :=
            Attempt.bind_of_error hmap
          have hright : (region.collect reader >>= fun values => pure (h values) :
              Decode Value) buffer cursor = (.error error, reached) :=
            Attempt.bind_of_error hrun
          rw [hleft, hright]

mutual

theorem valueWith_eq_settled (h : inner = Value.settled <$> verbatim) : ∀ type : BusType,
    valueWith inner type = Value.settled <$> verbatimWith verbatim type
  | .basic type => by
      simp only [valueWith, verbatimWith, map_bind, map_pure, Value.settled]
  | .variant => by
      simp only [valueWith, verbatimWith, map_bind, map_pure, Value.settled, h, bind_map_left]
  | .array element => by
      rw [valueWith, verbatimWith, valueWith_eq_settled h element]
      apply container_map
      intro items
      rw [Value.settled, Value.settledAll_eq_map]
  | .dict key value => by
      rw [valueWith, verbatimWith, valueWith_eq_settled h value, entry_map, ← map_bind]
      apply container_map
      intro entries
      rw [Value.settled, Value.settledEntries_eq_map]
  | .struct first rest => by
      simp only [valueWith, verbatimWith, map_bind, map_pure, Value.settled,
        valueWith_eq_settled h first, valuesWith_eq_settled h rest, bind_map_left,
        Value.settledAll]

theorem valuesWith_eq_settled (h : inner = Value.settled <$> verbatim) :
    ∀ types : List BusType,
    valuesWith inner types = Value.settledAll <$> verbatimAllWith verbatim types
  | [] => by simp only [valuesWith, verbatimAllWith, map_pure, Value.settledAll]
  | type :: types => by
      simp only [valuesWith, verbatimAllWith, map_bind, map_pure, Value.settledAll,
        valueWith_eq_settled h type, valuesWith_eq_settled h types, bind_map_left]

end

theorem insideVariant_map {α β : Type} (f : α → β) (reader : Decode α) :
    insideVariant (f <$> reader) = f <$> insideVariant reader := by
  funext buffer cursor
  rw [map_apply, insideVariant, insideVariant, map_apply]
  cases reader buffer { cursor with variantDepth := cursor.variantDepth + 1 } with
  | mk outcome reached => cases outcome <;> rfl

theorem variantWithin_eq_settled (levels : Nat) :
    variantWithin levels = Value.settled <$> verbatimWithin levels := by
  induction levels with
  | zero =>
      rw [variantWithin, verbatimWithin, map_bind]
      rfl
  | succ levels ih =>
      rw [variantWithin, verbatimWithin, map_bind]
      congr 1
      funext type
      rw [valueWith_eq_settled ih, insideVariant_map]

/-- The reader of variants settles what it reads. -/
theorem variant_eq_settled : Decode.variant = Value.settled <$> verbatimVariant := by
  funext buffer cursor
  rw [map_apply, Decode.variant, verbatimVariant, variantWithin_eq_settled,
    map_apply]

end Decode

end BusCodec
