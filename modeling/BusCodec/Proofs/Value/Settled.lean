import BusCodec.Proofs.Value.WellTyped
import Mathlib.Data.List.Induction

/-!
Dictionaries built from a list of entries in which a key may come up again.  Each key
stands where it came up first and has the value with which it came up last, also in the
dictionaries in that value.  This is a map, and of the same type as the list was.
-/

namespace BusCodec

namespace Entries

variable {entries : Entries} {key other : Key} {value : Value} {entry : Key × Value}

theorem ofList_concat (entries : List (Key × Value)) (entry : Key × Value) :
    ofList (entries ++ [entry]) = insert entry.1 entry.2 (ofList entries) := by
  rw [ofList, List.foldl_append]
  rfl

theorem keys_insert (entries : Entries) (key : Key) (value : Value) :
    (insert key value entries).map Prod.fst =
      if key ∈ entries.map Prod.fst then entries.map Prod.fst
      else entries.map Prod.fst ++ [key] := by
  induction entries with
  | nil => rfl
  | cons entry entries ih =>
      rw [insert]
      by_cases hkey : entry.1 = key
      · simp [hkey]
      · rw [if_neg hkey, List.map_cons, ih, List.map_cons]
        simp only [List.mem_cons, Ne.symm hkey, false_or]
        split <;> rfl

/-- What a dictionary has after a key has been set. -/
theorem mem_insert_iff (h : (entries.map Prod.fst).Nodup) {more : Value} :
    (other, more) ∈ insert key value entries ↔
      (other, more) = (key, value) ∨ other ≠ key ∧ (other, more) ∈ entries := by
  induction entries with
  | nil => simp [insert]
  | cons entry entries ih =>
      obtain ⟨first, old⟩ := entry
      obtain ⟨hnew, hnodup⟩ := List.nodup_cons.mp h
      have hother : (other, more) ∈ entries → other ≠ first := by
        rintro hmem rfl
        exact hnew (List.mem_map.mpr ⟨_, hmem, rfl⟩)
      rw [insert]
      split
      · rename_i hkey
        subst hkey
        constructor
        · intro hmem
          rcases List.mem_cons.mp hmem with heq | hmem
          · exact .inl heq
          · exact .inr ⟨hother hmem, List.mem_cons_of_mem _ hmem⟩
        · rintro (heq | ⟨hne, hmem⟩)
          · exact List.mem_cons.mpr (.inl heq)
          · rcases List.mem_cons.mp hmem with heq | hmem
            · exact absurd (Prod.mk.inj heq).1 hne
            · exact List.mem_cons_of_mem _ hmem
      · rename_i hkey
        rw [List.mem_cons, ih hnodup, List.mem_cons]
        constructor
        · rintro (heq | heq | ⟨hne, hmem⟩)
          · exact .inr ⟨(Prod.mk.inj heq).1 ▸ hkey, .inl heq⟩
          · exact .inl heq
          · exact .inr ⟨hne, .inr hmem⟩
        · rintro (heq | ⟨hne, heq | hmem⟩)
          · exact .inr (.inl heq)
          · exact .inl heq
          · exact .inr (.inr ⟨hne, hmem⟩)

theorem nodup_keys_ofList (entries : List (Key × Value)) :
    ((ofList entries).map Prod.fst).Nodup := by
  induction entries using List.reverseRecOn with
  | nil => exact List.nodup_nil
  | append_singleton entries entry ih =>
      rw [ofList_concat, keys_insert]
      split
      · exact ih
      · rename_i hnew
        rw [List.nodup_append]
        refine ⟨ih, List.pairwise_singleton _ _, ?_⟩
        rintro key hkey other hother rfl
        exact hnew (List.mem_singleton.mp hother ▸ hkey)

/-- The keys of a dictionary, in the order in which they first came up. -/
theorem keys_ofList (entries : List (Key × Value)) :
    (ofList entries).map Prod.fst = (entries.map Prod.fst).eraseDups := by
  induction entries using List.reverseRecOn with
  | nil => rfl
  | append_singleton entries entry ih =>
      rw [ofList_concat, keys_insert, ih, List.map_append, List.eraseDups_append]
      simp only [List.mem_eraseDups, List.map_cons, List.map_nil]
      split
      · rename_i hmem
        simp [List.removeAll, hmem]
      · rename_i hmem
        simp [List.removeAll, hmem, List.eraseDups_cons]

/-- What a dictionary has for a key is the value of the last entry of the key. -/
theorem mem_ofList_iff {entries : List (Key × Value)} :
    (key, value) ∈ ofList entries ↔
      ∃ before after, entries = before ++ (key, value) :: after ∧
        key ∉ after.map Prod.fst := by
  induction entries using List.reverseRecOn with
  | nil => simp [ofList]
  | append_singleton entries last ih =>
      rw [ofList_concat, mem_insert_iff (nodup_keys_ofList entries), ih]
      constructor
      · rintro (heq | ⟨hne, before, after, rfl, hlast⟩)
        · exact ⟨entries, [], by rw [heq], List.not_mem_nil⟩
        · refine ⟨before, after ++ [last], by simp, ?_⟩
          rw [List.map_append, List.mem_append, not_or]
          exact ⟨hlast, fun hmem => hne (List.mem_singleton.mp hmem)⟩
      · rintro ⟨before, after, heq, hlast⟩
        rcases List.eq_nil_or_concat after with rfl | ⟨after, final, rfl⟩
        · obtain ⟨-, hsame⟩ := List.append_inj' heq rfl
          exact .inl (List.cons.inj hsame).1.symm
        · rw [List.concat_eq_append] at heq hlast
          rw [← List.cons_append, ← List.append_assoc] at heq
          obtain ⟨rfl, hsame⟩ := List.append_inj' heq rfl
          rw [List.map_append, List.mem_append, not_or] at hlast
          rw [(List.cons.inj hsame).1]
          exact .inr ⟨fun hkey => hlast.2 (List.mem_singleton.mpr hkey), before, after, rfl,
            hlast.1⟩

theorem mem_of_mem_ofList {entries : List (Key × Value)} (h : entry ∈ ofList entries) :
    entry ∈ entries := by
  obtain ⟨before, after, rfl, -⟩ := mem_ofList_iff.mp h
  exact List.mem_append_right _ List.mem_cons_self

/-- A dictionary is known from its keys and from what it has for each. -/
theorem ext_of_keys {first second : Entries}
    (hkeys : first.map Prod.fst = second.map Prod.fst) (hnodup : (first.map Prod.fst).Nodup)
    (hmem : ∀ entry ∈ first, entry ∈ second) : first = second := by
  induction first generalizing second with
  | nil =>
      rw [List.map_nil, eq_comm, List.map_eq_nil_iff] at hkeys
      exact hkeys.symm
  | cons entry first ih =>
      cases second with
      | nil => cases hkeys
      | cons another second =>
          obtain ⟨hkey, hrest⟩ := List.cons.inj hkeys
          obtain ⟨hnew, hnodup⟩ := List.nodup_cons.mp hnodup
          have hsame : entry = another := by
            refine (List.mem_cons.mp (hmem entry List.mem_cons_self)).resolve_right ?_
            intro hlater
            have hrepeated : entry.1 ∈ second.map Prod.fst := List.mem_map_of_mem hlater
            rw [← hrest] at hrepeated
            exact hnew hrepeated
          subst hsame
          congr 1
          refine ih hrest hnodup fun other hother => ?_
          refine (List.mem_cons.mp (hmem other (List.mem_cons_of_mem _ hother))).resolve_left ?_
          rintro rfl
          exact hnew (List.mem_map_of_mem hother)

end Entries

namespace Value

theorem settledAll_eq_map (values : List Value) : settledAll values = values.map settled := by
  induction values with
  | nil => rfl
  | cons value values ih => rw [settledAll, ih, List.map_cons]

theorem settledEntries_eq_map (entries : List (Key × Value)) :
    settledEntries entries = entries.map fun entry => (entry.1, settled entry.2) := by
  induction entries with
  | nil => rfl
  | cons entry entries ih => rw [settledEntries, ih, List.map_cons]

theorem keys_settledEntries (entries : List (Key × Value)) :
    (settledEntries entries).map Prod.fst = entries.map Prod.fst := by
  rw [settledEntries_eq_map, List.map_map]
  rfl

mutual

theorem signature_settled : ∀ value : Value, value.settled.signature = value.signature
  | .basic _ => rfl
  | .variant _ => rfl
  | .array _ _ => rfl
  | .dict _ _ => rfl
  | .struct members => by
      rw [settled, signature, signature, signatureAll_settledAll members]

theorem signatureAll_settledAll : ∀ values : List Value,
    signatureAll (settledAll values) = signatureAll values
  | [] => rfl
  | value :: values => by
      rw [settledAll, signatureAll, signatureAll, signature_settled value,
        signatureAll_settledAll values]

end

theorem entriesHaveType_iff {entries : List (Key × Value)} {key : BasicType} {type : BusType} :
    EntriesHaveType entries key type ↔
      ∀ entry ∈ entries, entry.1.value.type = key ∧ HasType entry.2 type := by
  induction entries with
  | nil => simp [EntriesHaveType]
  | cons entry entries ih => rw [EntriesHaveType, ih, List.forall_mem_cons, and_assoc]

theorem entriesDistinctKeys_iff {entries : List (Key × Value)} :
    EntriesDistinctKeys entries ↔ ∀ entry ∈ entries, DistinctKeys entry.2 := by
  induction entries with
  | nil => simp [EntriesDistinctKeys]
  | cons entry entries ih => rw [EntriesDistinctKeys, ih, List.forall_mem_cons]

mutual

/-- Maps are of the same type as the lists of entries that they are built from. -/
theorem hasType_settled : ∀ {value : Value} {type : BusType},
    HasType value type → HasType value.settled type
  | .basic value, type, h => h
  | .variant inner, type, h => by
      cases type with
      | variant =>
          obtain ⟨type, hparse, hinner⟩ := hasType_variant_iff.mp h
          refine hasType_variant_iff.mpr ⟨type, ?_, hasType_settled hinner⟩
          rw [signature_settled, hparse]
      | _ => cases h
  | .array signature items, type, h => by
      cases type with
      | array element => exact ⟨h.1, itemsHaveType_settled h.2⟩
      | _ => cases h
  | .dict signature entries, type, h => by
      cases type with
      | dict key type =>
          refine ⟨h.1, entriesHaveType_iff.mpr fun entry hentry => ?_⟩
          exact entriesHaveType_iff.mp (entriesHaveType_settled h.2) entry
            (Entries.mem_of_mem_ofList hentry)
      | _ => cases h
  | .struct members, type, h => by
      cases type with
      | struct first rest =>
          have hmembers : HaveTypes members (first :: rest) := h
          exact haveTypes_settled hmembers
      | _ => cases h

theorem haveTypes_settled : ∀ {values : List Value} {types : List BusType},
    HaveTypes values types → HaveTypes (settledAll values) types
  | [], types, h => h
  | value :: values, types, h => by
      cases types with
      | nil => cases h
      | cons type types => exact ⟨hasType_settled h.1, haveTypes_settled h.2⟩

theorem itemsHaveType_settled : ∀ {items : List Value} {element : BusType},
    ItemsHaveType items element → ItemsHaveType (settledAll items) element
  | [], _, _ => trivial
  | _ :: _, _, h => ⟨hasType_settled h.1, itemsHaveType_settled h.2⟩

theorem entriesHaveType_settled : ∀ {entries : List (Key × Value)} {key : BasicType}
    {type : BusType},
    EntriesHaveType entries key type → EntriesHaveType (settledEntries entries) key type
  | [], _, _, _ => trivial
  | (_, _) :: _, _, _, h => ⟨h.1, hasType_settled h.2.1, entriesHaveType_settled h.2.2⟩

end

mutual

theorem distinctKeys_settled : ∀ value : Value, DistinctKeys value.settled
  | .basic _ => trivial
  | .variant inner => distinctKeys_settled inner
  | .array _ items => allDistinctKeys_settled items
  | .dict _ entries =>
      ⟨Entries.nodup_keys_ofList _, entriesDistinctKeys_iff.mpr fun entry hentry =>
        entriesDistinctKeys_iff.mp (entriesDistinctKeys_settled entries) entry
          (Entries.mem_of_mem_ofList hentry)⟩
  | .struct members => allDistinctKeys_settled members

theorem allDistinctKeys_settled : ∀ values : List Value, AllDistinctKeys (settledAll values)
  | [] => trivial
  | value :: values => ⟨distinctKeys_settled value, allDistinctKeys_settled values⟩

theorem entriesDistinctKeys_settled : ∀ entries : List (Key × Value),
    EntriesDistinctKeys (settledEntries entries)
  | [] => trivial
  | (_, entry) :: entries => ⟨distinctKeys_settled entry, entriesDistinctKeys_settled entries⟩

end

mutual

/-- Entries that are replaced may hold deeper variants than what is left. -/
theorem variantDepth_settled_le : ∀ value : Value, value.settled.variantDepth ≤ value.variantDepth
  | .basic _ => Nat.le_refl _
  | .variant inner => Nat.succ_le_succ (variantDepth_settled_le inner)
  | .array _ items => variantDepthAll_settled_le items
  | .dict _ entries =>
      variantDepthEntries_le_iff.mpr fun entry hentry =>
        variantDepthEntries_le_iff.mp (variantDepthEntries_settled_le entries) entry
          (Entries.mem_of_mem_ofList hentry)
  | .struct members => variantDepthAll_settled_le members

theorem variantDepthAll_settled_le : ∀ values : List Value,
    variantDepthAll (settledAll values) ≤ variantDepthAll values
  | [] => Nat.le_refl _
  | value :: values =>
      Nat.max_le.mpr ⟨Nat.le_trans (variantDepth_settled_le value) (Nat.le_max_left _ _),
        Nat.le_trans (variantDepthAll_settled_le values) (Nat.le_max_right _ _)⟩

theorem variantDepthEntries_settled_le : ∀ entries : List (Key × Value),
    variantDepthEntries (settledEntries entries) ≤ variantDepthEntries entries
  | [] => Nat.le_refl _
  | (_, entry) :: entries =>
      Nat.max_le.mpr ⟨Nat.le_trans (variantDepth_settled_le entry) (Nat.le_max_left _ _),
        Nat.le_trans (variantDepthEntries_settled_le entries) (Nat.le_max_right _ _)⟩

end

mutual

/-- Whether the second value is the first one with maps for its lists of entries: the keys
of a list in the order in which they first come up, each with the value of its last entry. -/
def LastWins : Value → Value → Prop
  | .basic value, .basic found => found = value
  | .variant inner, .variant found => LastWins inner found
  | .array signature items, .array name found => name = signature ∧ AllLastWin items found
  | .dict signature entries, .dict name found =>
      name = signature ∧ found.map Prod.fst = (entries.map Prod.fst).eraseDups ∧
        EntriesLastWin entries found
  | .struct members, .struct found => AllLastWin members found
  | _, _ => False
termination_by structural value => value

def AllLastWin : List Value → List Value → Prop
  | [], [] => True
  | value :: values, found :: others => LastWins value found ∧ AllLastWin values others
  | _, _ => False
termination_by structural values => values

/-- Whether a map has for each entry of a list its value, if the key does not come up again. -/
def EntriesLastWin : List (Key × Value) → List (Key × Value) → Prop
  | [], _ => True
  | (key, entry) :: entries, found =>
      (key ∉ entries.map Prod.fst → ∃ value, (key, value) ∈ found ∧ LastWins entry value) ∧
        EntriesLastWin entries found
termination_by structural entries => entries

end

mutual

theorem lastWins_settled : ∀ value : Value, LastWins value value.settled
  | .basic _ => rfl
  | .variant inner => lastWins_settled inner
  | .array _ items => ⟨rfl, allLastWin_settledAll items⟩
  | .dict _ entries => by
      refine ⟨rfl, ?_, entriesLastWin_of_last fun before key value after heq hlast => ?_⟩
      · rw [Entries.keys_ofList, keys_settledEntries]
      · exact Entries.mem_ofList_iff.mpr ⟨before, after, heq, hlast⟩
  | .struct members => allLastWin_settledAll members

theorem allLastWin_settledAll : ∀ values : List Value, AllLastWin values (settledAll values)
  | [] => trivial
  | value :: values => ⟨lastWins_settled value, allLastWin_settledAll values⟩

/-- A map that has the last entry of each key of a list. -/
theorem entriesLastWin_of_last : ∀ {entries found : List (Key × Value)},
    (∀ before key value after, settledEntries entries = before ++ (key, value) :: after →
      key ∉ after.map Prod.fst → (key, value) ∈ found) → EntriesLastWin entries found
  | [], _, _ => trivial
  | (key, entry) :: entries, found, h => by
      refine ⟨fun hlast => ⟨entry.settled, ?_, lastWins_settled entry⟩, ?_⟩
      · rw [← keys_settledEntries] at hlast
        exact h [] key entry.settled _ rfl hlast
      · refine entriesLastWin_of_last fun before other value after heq hlast => ?_
        refine h ((key, entry.settled) :: before) other value after ?_ hlast
        rw [settledEntries, heq, List.cons_append]

end

mutual

theorem eq_settled_of_lastWins : ∀ {value found : Value},
    LastWins value found → found = value.settled
  | .basic value, found, h => by
      cases found with
      | basic found => exact congrArg Value.basic h
      | _ => cases h
  | .variant inner, found, h => by
      cases found with
      | variant found =>
          have hinner : LastWins inner found := h
          rw [eq_settled_of_lastWins hinner, settled]
      | _ => cases h
  | .array signature items, found, h => by
      cases found with
      | array name found =>
          obtain ⟨rfl, hitems⟩ := h
          rw [eq_settledAll_of_allLastWin hitems, settled]
      | _ => cases h
  | .dict signature entries, found, h => by
      cases found with
      | dict name found =>
          obtain ⟨rfl, hkeys, hentries⟩ := h
          have hlast := last_of_entriesLastWin hentries
          have hsame : Entries.ofList (settledEntries entries) = found := by
            refine Entries.ext_of_keys ?_ (Entries.nodup_keys_ofList _) ?_
            · rw [Entries.keys_ofList, keys_settledEntries, hkeys]
            · rintro ⟨key, value⟩ hmem
              obtain ⟨before, after, heq, hnew⟩ := Entries.mem_ofList_iff.mp hmem
              exact hlast before key value after heq hnew
          rw [settled, hsame]
      | _ => cases h
  | .struct members, found, h => by
      cases found with
      | struct found =>
          have hmembers : AllLastWin members found := h
          rw [eq_settledAll_of_allLastWin hmembers, settled]
      | _ => cases h

theorem eq_settledAll_of_allLastWin : ∀ {values found : List Value},
    AllLastWin values found → found = settledAll values
  | [], found, h => by
      cases found with
      | nil => rfl
      | cons => cases h
  | value :: values, found, h => by
      cases found with
      | nil => cases h
      | cons other found =>
          rw [eq_settled_of_lastWins h.1, eq_settledAll_of_allLastWin h.2, settledAll]

theorem last_of_entriesLastWin : ∀ {entries found : List (Key × Value)},
    EntriesLastWin entries found →
      ∀ before key value after, settledEntries entries = before ++ (key, value) :: after →
        key ∉ after.map Prod.fst → (key, value) ∈ found
  | [], _, _, before, key, value, after, heq, _ => by
      exact absurd heq.symm (List.append_ne_nil_of_right_ne_nil before (List.cons_ne_nil _ _))
  | (key, entry) :: entries, found, h, [], other, value, after, heq, hlast => by
      obtain ⟨hfirst, rfl⟩ := List.cons.inj heq
      obtain ⟨rfl, rfl⟩ := Prod.mk.inj hfirst
      rw [keys_settledEntries] at hlast
      obtain ⟨value, hmem, hwins⟩ := h.1 hlast
      rwa [eq_settled_of_lastWins hwins] at hmem
  | (key, entry) :: entries, found, h, first :: before, other, value, after, heq, hlast =>
      last_of_entriesLastWin h.2 before other value after (List.cons.inj heq).2 hlast

end

theorem allLastWin_iff {values found : List Value} :
    AllLastWin values found ↔ found = settledAll values := by
  refine ⟨eq_settledAll_of_allLastWin, ?_⟩
  rintro rfl
  exact allLastWin_settledAll values

end Value

end BusCodec
