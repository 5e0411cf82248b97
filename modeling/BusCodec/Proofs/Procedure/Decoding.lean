import BusCodec.Proofs.Procedure.Encoding

/-!
Generated readers decode what the wire format says, in either byte order and with whatever
stands around it.  On the wire a dictionary is a list of entries in which a key may come up
again, and what is read is the map in which the last entry of a key counts.
-/

namespace BusCodec

namespace Registry

variable {policy : MapPolicy} {registry : Registry} {name : String} {procedure : Procedure}
  {types : List BusType}

theorem readsBack_readValue (hclosed : Closed policy registry)
    (hget : registry.get? .read name = some procedure)
    (htypes : BusType.parseAll procedure.signature = .ok types) (order : ByteOrder)
    {values : List Value} (hvalues : Value.HaveTypes values types) :
    Decode.ReadsBack 0 order (registry.readValue name)
      (Value.messageLayout order (procedure.construct == .variantMessage) procedure.signature
        values types)
      (Body.messageValue (Value.settledAll values))
      (Value.variantDepthAll values ≤ maxVariantDepth) := by
  obtain ⟨_, hentry⟩ := exists_entryTypes hclosed hget htypes
  rw [readValue_eq_message hclosed hget htypes]
  exact (Decode.readsBack_message hentry hvalues).map Body.messageValue

end Registry

namespace Generator

variable {generator : Generator}

/-- A generated reader that stands before an encoding reads it to its end, in the byte order
in which it is, and finds in each dictionary what its last entries say. -/
theorem readValue_decodes (hreachable : generator.Reachable) {name : String}
    {procedure : Procedure} (hget : generator.registry.get? .read name = some procedure)
    {types : List BusType} (htypes : BusType.parseAll procedure.signature = .ok types)
    (order : ByteOrder) (before after : ByteArray) {values : List Value}
    (hvalues : Value.HaveTypes values types)
    (hclean : ∀ value ∈ Value.basicsAll values, value.fault? = none)
    (hshort : ∀ length ∈ Value.messageArrayLengths order
        (procedure.construct == .variantMessage) procedure.signature values types before.size,
      length ≤ maxArrayLength)
    (hdepth : Value.variantDepthAll values ≤ maxVariantDepth) :
    let encoded := (Value.messageLayout order (procedure.construct == .variantMessage)
      procedure.signature values types).bytes before.size
    ∃ found, Value.AllLastWin values found ∧
      generator.registry.readValue name ⟨order, before ++ (encoded ++ after)⟩
          ⟨before.size, 0⟩ =
        (.ok (Body.messageValue found), ⟨before.size + encoded.size, 0⟩) := by
  intro encoded
  have hfaultless : ∀ error, ¬ (Value.messageLayout order
      (procedure.construct == .variantMessage) procedure.signature values types).fault
        before.size error := by
    intro error herror
    obtain ⟨length, hmem, hlong, -⟩ :=
      (Value.messageFault_iff_of_clean hvalues hclean).mp herror
    exact Nat.not_lt.mpr (hshort length hmem) hlong
  have hholds : Buffer.Holds ⟨order, before ++ (encoded ++ after)⟩ before.size encoded :=
    ⟨before, after, rfl, rfl⟩
  obtain ⟨hread, -⟩ := Registry.readsBack_readValue hreachable.sound hget htypes order hvalues
    ⟨order, before ++ (encoded ++ after)⟩ before.size rfl hfaultless hholds
  exact ⟨_, Value.allLastWin_settledAll values, hread hdepth⟩

/-- A big-endian dictionary of three entries, the last of which replaces the first. -/
theorem readValue_repeatedKey :
    (performAll {} [.callee .read "a\x7byn\x7d"]).2.registry.readValue "read_dictionary_aeynz"
        ⟨.big, ⟨#[9, 0, 0, 0, 0, 0, 0, 20, 1, 0, 0, 5, 0, 0, 0, 0, 2, 0, 255, 255, 0, 0, 0, 0,
          1, 0, 0, 7, 8]⟩⟩ ⟨1, 0⟩ =
      (.ok (.dict "a\x7byn\x7d" [(⟨.byte 1, by decide⟩, .basic (.int16 7)),
          (⟨.byte 2, by decide⟩, .basic (.int16 (-1)))]), ⟨28, 0⟩) := by
  have hreachable : Reachable (performAll {} [.callee .read "a\x7byn\x7d"]).2 :=
    ⟨fun _ => .hashed, _, rfl⟩
  have hget : (performAll {} [.callee .read "a\x7byn\x7d"]).2.registry.get? .read
      "read_dictionary_aeynz" =
        some ⟨"read_dictionary_aeynz", .read, .dictionary, "a\x7byn\x7d",
          [.map .hashed (.basic .byte) (.basic .int16)],
          .dictionary (.primitive .byte) (.primitive .int16)⟩ := by
    rfl
  have htypes : BusType.parseAll "a\x7byn\x7d" = .ok [.dict .byte (.basic .int16)] := rfl
  have hvalues : Value.HaveTypes
      [.dict "a\x7byn\x7d" [(⟨.byte 1, by decide⟩, .basic (.int16 5)),
        (⟨.byte 2, by decide⟩, .basic (.int16 (-1))),
        (⟨.byte 1, by decide⟩, .basic (.int16 7))]]
      [.dict .byte (.basic .int16)] :=
    ⟨⟨rfl, ⟨rfl, rfl, rfl, rfl, rfl, rfl, trivial⟩⟩, trivial⟩
  obtain ⟨found, hfound, hread⟩ := readValue_decodes hreachable hget htypes .big ⟨#[9]⟩ ⟨#[8]⟩
    hvalues (by decide) (by decide) (by decide)
  rw [Value.allLastWin_iff] at hfound
  subst hfound
  exact hread

end Generator

end BusCodec
