import BusCodec.Proofs.Procedure.Bodies
import BusCodec.Proofs.Procedure.Runs

/-!
Whatever bytes a generated reader is given, what it returns is a value of its signature,
down to what the variants in it hold, and could be written again.  A reader that returns
nothing has found the bytes at fault.
-/

namespace BusCodec

namespace BasicValue

/-- Whether the text of a value obeys the rules for texts of its kind. -/
def Lawful : BasicValue → Prop
  | string text => text.toByteArray.data.contains 0 = false
  | objectPath path => ObjectPath.isValid path = true
  | signature text => ∃ types, BusType.parseAll text = .ok types
  | _ => True

theorem lawful_of_fault {value : BasicValue} (h : value.fault? = none) : value.Lawful := by
  cases value with
  | string text =>
      rw [fault?, textFault?] at h
      split at h
      · cases h
      · rename_i hnul
        exact Bool.eq_false_iff.mpr hnul
  | objectPath path =>
      rw [fault?] at h
      split at h
      · rename_i hvalid
        exact hvalid
      · cases h
  | signature text =>
      rw [fault?] at h
      split at h
      · rename_i types htypes
        exact ⟨types, htypes⟩
      · cases h
  | _ => trivial

end BasicValue

namespace Value

/-- Values that follow their types at every depth, that are maps where the types have
dictionaries, and whose texts obey the rules. -/
structure WellFormed (values : List Value) (types : List BusType) : Prop where
  haveTypes : HaveTypes values types
  distinctKeys : AllDistinctKeys values
  lawful : ∀ value ∈ basicsAll values, value.Lawful

/-- Lists of entries that have an encoding make maps that are well-formed. -/
theorem wellFormed_of_lastWins {values found : List Value} {types : List BusType}
    (hvalues : HaveTypes values types)
    (hclean : ∀ value ∈ basicsAll values, value.fault? = none)
    (hfound : AllLastWin values found) : WellFormed found types := by
  rw [allLastWin_iff] at hfound
  subst hfound
  refine ⟨haveTypes_settled hvalues, allDistinctKeys_settled values, ?_⟩
  exact fun value hmem =>
    BasicValue.lawful_of_fault (hclean value (basicsAll_settled_subset values hmem))

theorem signature_messageValue {values : List Value} {types : List BusType}
    (h : HaveTypes values types) :
    (Body.messageValue values).signature =
      if types.length = 1 then BusType.signatureAll types
      else "(" ++ BusType.signatureAll types ++ ")" := by
  have hlength := length_eq_of_haveTypes h
  have hsignature := signatureAll_eq_of_haveTypes h
  match values with
  | [] =>
      rw [if_neg (by rw [← hlength]; decide), ← hsignature]
      rfl
  | [value] =>
      have hone : types.length = 1 := hlength.symm
      rw [if_pos hone, ← hsignature]
      exact String.append_empty.symm
  | first :: second :: rest =>
      rw [if_neg (by rw [← hlength]; simp), ← hsignature]
      rfl

end Value

namespace Decode

variable {buffer : Buffer} {cursor reached : Cursor} {variant : Bool} {signature : String}
  {values : List Value} {types : List BusType}

/-- No basic value that has been read breaks a rule. -/
theorem SpellsMessage.clean
    (h : SpellsMessage buffer cursor reached variant signature values types) :
    ∀ value ∈ Value.basicsAll values, value.fault? = none := by
  intro value hmem
  cases hfault : value.fault? with
  | none => rfl
  | some error =>
      refine absurd ?_ (h.spells.clean error)
      exact (Value.messageFault_iff h.haveTypes).mpr (.inl ⟨value, hmem, hfault⟩)

end Decode

namespace Generator

variable {generator : Generator}

/-- What a generated reader returns is well-formed and of the reader's signature, with no
more variants nested in one another than are allowed.  The bytes that it has read are the
encoding of this value, but for entries that later ones replace, so that a variant is of
the type whose signature stands in the bytes.  The reader never finds fault with the shape of
a value or misses a procedure. -/
theorem readValue_wellFormed (hreachable : generator.Reachable) {name : String}
    {procedure : Procedure} (hget : generator.registry.get? .read name = some procedure) :
    ∃ types, BusType.parseAll procedure.signature = .ok types ∧
      ∀ (buffer : Buffer) (cursor : Cursor),
        (∀ value reached, cursor.position ≤ buffer.bytes.size →
          generator.registry.readValue name buffer cursor = (.ok value, reached) →
          value.signature =
              (if types.length = 1 then procedure.signature
                else "(" ++ procedure.signature ++ ")") ∧
            ∃ wire values, value = Body.messageValue values ∧
              Value.WellFormed values types ∧
              Value.variantDepthAll values ≤ maxVariantDepth - cursor.variantDepth ∧
              Value.AllLastWin wire values ∧
              Decode.SpellsMessage buffer cursor reached
                (procedure.construct == .variantMessage) procedure.signature wire types) ∧
        ∀ error reached,
          generator.registry.readValue name buffer cursor = (.error error, reached) →
          (∀ expected found, error ≠ .valueShape expected found) ∧
            ∀ missing, error ≠ .unknownProcedure missing := by
  have hclosed := hreachable.sound
  obtain ⟨types, htypes⟩ := Registry.exists_types_of_get? hclosed hget
  obtain ⟨hsignature, -⟩ := BusType.parseAll_eq_ok_iff.mp htypes
  refine ⟨types, htypes, fun buffer cursor => ⟨?_, ?_⟩⟩
  · intro value reached hbegin hread
    rw [Registry.readValue_eq_settled hclosed hget htypes] at hread
    obtain ⟨wire, hverbatim, rfl⟩ := Decode.map_eq_ok_iff.mp hread
    have hspells := Decode.spellsMessage_of_ok hverbatim hbegin
    have hfound := Value.allLastWin_settledAll wire
    have hwellFormed :=
      Value.wellFormed_of_lastWins hspells.haveTypes hspells.clean hfound
    refine ⟨?_, wire, Value.settledAll wire, rfl, hwellFormed, ?_, hfound, hspells⟩
    · rw [hsignature, Value.signature_messageValue hwellFormed.haveTypes]
    · exact Nat.le_trans (Value.variantDepthAll_settled_le wire) hspells.depth_le
  · intro error reached hread
    have hbytes := (Registry.proceeds_readValue hclosed hget).blames buffer cursor error reached
      hread
    constructor
    · rintro expected found rfl
      exact hbytes
    · rintro missing rfl
      exact hbytes

/-- A byte and a variant that holds one, and the same bytes cut inside the signature. -/
theorem readValue_wellFormed_variant :
    ∃ reached cut,
      (performAll {} [.entry .read "yv" false]).2.registry.readValue "read_message_yv"
          ⟨.big, ⟨#[1, 1, 121, 0, 9]⟩⟩ {} =
        (.ok (.struct [.basic (.byte 1), .variant (.basic (.byte 9))]), reached) ∧
      (Value.struct [.basic (.byte 1), .variant (.basic (.byte 9))]).signature = "(yv)" ∧
      (performAll {} [.entry .read "yv" false]).2.registry.readValue "read_message_yv"
          ⟨.big, ⟨#[1, 1, 121]⟩⟩ {} = (.error (.indexOutOfBounds 4), cut) ∧
      ∀ missing, Error.indexOutOfBounds 4 ≠ .unknownProcedure missing := by
  have hreachable : Reachable (performAll {} [.entry .read "yv" false]).2 :=
    ⟨fun _ => .hashed, _, rfl⟩
  have hget : (performAll {} [.entry .read "yv" false]).2.registry.get? .read
      "read_message_yv" =
        some ⟨"read_message_yv", .read, .message, "yv", [.tuple [.basic .byte, .anyValue]],
          .message none [.primitive .byte, .variant]⟩ := by
    rfl
  have hread : (performAll {} [.entry .read "yv" false]).2.registry.readValue
      "read_message_yv" ⟨.big, ⟨#[1, 1, 121, 0, 9]⟩⟩ {} =
        (.ok (.struct [.basic (.byte 1), .variant (.basic (.byte 9))]), ⟨5, 0⟩) := by
    with_unfolding_all rfl
  have hcut : (performAll {} [.entry .read "yv" false]).2.registry.readValue
      "read_message_yv" ⟨.big, ⟨#[1, 1, 121]⟩⟩ {} =
        (.error (.indexOutOfBounds 4), ⟨2, 0⟩) := by
    rfl
  obtain ⟨types, htypes, hall⟩ := readValue_wellFormed hreachable hget
  have hparse : BusType.parseAll "yv" = .ok [.basic .byte, .variant] := rfl
  cases htypes.symm.trans hparse
  obtain ⟨hsignature, -⟩ := (hall _ _).1 _ _ (Nat.zero_le _) hread
  obtain ⟨-, hknown⟩ := (hall _ _).2 _ _ hcut
  exact ⟨_, _, hread, hsignature, hcut, hknown⟩

end Generator

end BusCodec
