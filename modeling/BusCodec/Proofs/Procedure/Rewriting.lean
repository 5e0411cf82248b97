import BusCodec.Proofs.Procedure.Bodies

/-!
What has been read is written again as it was, but for the padding.  The one thing that
a reader does not keep is how often a dictionary lists a key, so no dictionary may have
more than one entry.
-/

namespace BusCodec

/-- Whether no dictionary that is read from a body, at any depth, has more than one
entry. -/
def SingleEntriesIn (construct : Construct) (signature : String) (types : List BusType)
    (body : ByteArray) : Prop :=
  ∀ values reached,
    Decode.verbatimMessage (construct == .variantMessage) signature types ⟨.little, body⟩ {} =
      (.ok values, reached) → Value.AllSingleEntries values

theorem singleEntriesIn_iff {construct : Construct} {signature : String}
    {types : List BusType} {body : ByteArray} {values : List Value} {reached : Cursor}
    (hrun : Decode.verbatimMessage (construct == .variantMessage) signature types
      ⟨.little, body⟩ {} = (.ok values, reached)) :
    SingleEntriesIn construct signature types body ↔ Value.AllSingleEntries values := by
  constructor
  · intro h
    exact h values reached hrun
  · intro hsingle others last hother
    cases hrun.symm.trans hother
    exact hsingle

/-- A body is the encoding of values, whatever stands in its padding. -/
structure Spelled (construct : Construct) (signature : String) (types : List BusType)
    (values : List Value) (body : ByteArray) : Prop where
  haveTypes : Value.HaveTypes values types
  length_mask : (Value.messageMask (construct == .variantMessage) signature values types
    0).length = body.size
  bytes_eq : ((Value.messageLayout .little (construct == .variantMessage) signature values
    types).bytes 0).data.toList =
      blank (Value.messageMask (construct == .variantMessage) signature values types 0)
        body.data.toList
  clean : ∀ error, ¬ (Value.messageLayout .little (construct == .variantMessage) signature
    values types).fault 0 error

namespace Registry

variable {policy : MapPolicy} {registry : Registry} {construct : Construct}
  {signature : String} {types : List BusType} {body : ByteArray} {value : Value}

theorem exists_spelled_of_read (hclosed : Closed policy registry)
    (htypes : BusType.parseAll signature = .ok types)
    (hread : registry.read (procedureName .read construct signature) body = .ok value)
    (hsingle : SingleEntriesIn construct signature types body) :
    ∃ values, value = Body.messageValue values ∧
      Spelled construct signature types values body := by
  obtain ⟨procedure, parsed, values, hget, hparsed, hverbatim, rfl⟩ :=
    exists_verbatim_of_read hclosed hread
  obtain ⟨rfl, rfl⟩ := named_of_get? hclosed htypes hget
  rw [htypes] at hparsed
  cases hparsed
  obtain ⟨hvalues, hspells, -⟩ := Decode.spellsMessage_of_ok hverbatim (Nat.zero_le _)
  have hkeys := Value.allDistinctKeys_of_allSingleEntries ((singleEntriesIn_iff hverbatim).mp hsingle)
  have hstop := hspells.stop_eq
  have hbytes := hspells.bytes_eq
  rw [ByteArray.extract_zero_size] at hbytes
  rw [Nat.zero_add] at hstop
  exact ⟨values, by rw [Value.settledAll_eq_self hkeys], hvalues, hstop.symm, hbytes,
    hspells.clean⟩

theorem write_of_spelled (hclosed : Closed policy registry)
    (htypes : BusType.parseAll signature = .ok types)
    {writer : Procedure}
    (hwriter : registry.get? .write (procedureName .write construct signature) = some writer)
    {values : List Value} (h : Spelled construct signature types values body) :
    registry.write (procedureName .write construct signature)
        (some (Body.messageValue values)) =
      .ok ⟨(blank (Value.messageMask (construct == .variantMessage) signature values types 0)
        body.data.toList).toArray⟩ := by
  obtain ⟨rfl, rfl⟩ := named_of_get? hclosed htypes hwriter
  obtain ⟨_, hentry⟩ := exists_entryTypes hclosed hwriter htypes
  have hempty : ∀ error, ¬ (Value.messageLayout .little (writer.construct == .variantMessage)
      writer.signature values types).fault ByteArray.empty.size error := h.clean
  have hwritten := (Encode.yields_message hentry h.haveTypes).of_clean hempty
  rw [write, writeValue_eq_message hclosed hwriter htypes h.haveTypes, Encode.toBody, hwritten,
    ByteArray.empty_append, ← h.bytes_eq]
  rfl

end Registry

namespace Generator

variable {generator : Generator}

/-- What a reader has read from a body is written as the body with zeros for its padding.
Bodies from which the same is read differ in their padding only. -/
theorem write_read (hreachable : generator.Reachable) {construct : Construct}
    {signature : String} {types : List BusType}
    (htypes : BusType.parseAll signature = .ok types)
    (hwriter : generator.registry.contains .write (procedureName .write construct signature))
    {body : ByteArray} {value : Value}
    (hread : generator.registry.read (procedureName .read construct signature) body = .ok value)
    (hsingle : SingleEntriesIn construct signature types body) :
    ∃ values, value = Body.messageValue values ∧ Value.HaveTypes values types ∧
      let mask := Value.messageMask (construct == .variantMessage) signature values types 0
      mask.length = body.size ∧
      generator.registry.write (procedureName .write construct signature) (some value) =
        .ok ⟨(blank mask body.data.toList).toArray⟩ ∧
      ∀ other : ByteArray,
        generator.registry.read (procedureName .read construct signature) other = .ok value →
        SingleEntriesIn construct signature types other →
        other.size = body.size ∧
          blank mask other.data.toList = blank mask body.data.toList := by
  have hclosed := hreachable.sound
  obtain ⟨values, rfl, hspelled⟩ := Registry.exists_spelled_of_read hclosed htypes hread hsingle
  obtain ⟨writer, hget⟩ := Registry.contains_eq_true_iff.mp hwriter
  refine ⟨values, rfl, hspelled.haveTypes, hspelled.length_mask,
    Registry.write_of_spelled hclosed htypes hget hspelled, ?_⟩
  intro other hother hothers
  obtain ⟨others, hvalue, hspells⟩ :=
    Registry.exists_spelled_of_read hclosed htypes hother hothers
  have hsame := Body.messageValue_inj hspelled.haveTypes hspells.haveTypes hvalue
  subst hsame
  exact ⟨hspells.length_mask.symm.trans hspelled.length_mask,
    hspells.bytes_eq.symm.trans hspelled.bytes_eq⟩

/-- The padding before a number in a variant is not zero. -/
theorem write_read_padding :
    (performAll {} [.entry .read "yv" false, .entry .write "yv" false]).2.registry.read
        "read_message_yv" ⟨#[1, 1, 120, 0, 9, 9, 9, 9, 5, 0, 0, 0, 0, 0, 0, 0]⟩ =
      .ok (.struct [.basic (.byte 1), .variant (.basic (.int64 5))]) ∧
    (performAll {} [.entry .read "yv" false, .entry .write "yv" false]).2.registry.write
        "write_message_yv" (some (.struct [.basic (.byte 1), .variant (.basic (.int64 5))])) =
      .ok ⟨#[1, 1, 120, 0, 0, 0, 0, 0, 5, 0, 0, 0, 0, 0, 0, 0]⟩ := by
  have hreachable :
      Reachable (performAll {} [.entry .read "yv" false, .entry .write "yv" false]).2 :=
    ⟨fun _ => .hashed, _, rfl⟩
  have htypes : BusType.parseAll "yv" = .ok [.basic .byte, .variant] := rfl
  have hwriter : (performAll {} [.entry .read "yv" false,
      .entry .write "yv" false]).2.registry.contains .write
        (procedureName .write .message "yv") := by
    rfl
  have hread : (performAll {} [.entry .read "yv" false,
      .entry .write "yv" false]).2.registry.read (procedureName .read .message "yv")
        ⟨#[1, 1, 120, 0, 9, 9, 9, 9, 5, 0, 0, 0, 0, 0, 0, 0]⟩ =
      .ok (.struct [.basic (.byte 1), .variant (.basic (.int64 5))]) := by
    with_unfolding_all rfl
  have hsingle : SingleEntriesIn .message "yv" [.basic .byte, .variant]
      ⟨#[1, 1, 120, 0, 9, 9, 9, 9, 5, 0, 0, 0, 0, 0, 0, 0]⟩ := by
    have hrun : Decode.verbatimMessage (Construct.message == .variantMessage) "yv"
        [.basic .byte, .variant]
        ⟨.little, ⟨#[1, 1, 120, 0, 9, 9, 9, 9, 5, 0, 0, 0, 0, 0, 0, 0]⟩⟩ {} =
          (.ok [.basic (.byte 1), .variant (.basic (.int64 5))], ⟨16, 0⟩) := by
      with_unfolding_all rfl
    exact (singleEntriesIn_iff hrun).mpr ⟨trivial, trivial, trivial⟩
  obtain ⟨values, hvalue, hvalues, -, hwrite, -⟩ :=
    write_read hreachable htypes hwriter hread hsingle
  have hsame : values = [.basic (.byte 1), .variant (.basic (.int64 5))] :=
    Body.messageValue_inj hvalues ⟨rfl, ⟨rfl, trivial⟩⟩ hvalue.symm
  subst hsame
  exact ⟨hread, hwrite⟩

end Generator

end BusCodec
