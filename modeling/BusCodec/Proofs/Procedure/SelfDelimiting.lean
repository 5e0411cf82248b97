import BusCodec.Proofs.Procedure.Bodies

/-!
A body tells where it ends.  A reader that accepts it accepts no beginning of it, and
reads it alike when more bytes follow.
-/

namespace BusCodec

namespace Registry

variable {policy : MapPolicy} {registry : Registry} {name : String} {body : ByteArray}
  {value : Value}

/-- What a reader accepts, it reads from any buffer that overlaps, or finds that the buffer
ends before. -/
theorem arrives_of_read (hclosed : Closed policy registry)
    (hread : registry.read name body = .ok value) {bytes : ByteArray}
    (hoverlaps : Buffer.Overlaps ⟨.little, body⟩ ⟨.little, bytes⟩) :
    (registry.readValue name).Arrives ⟨.little, bytes⟩ 0 0 body.size value := by
  obtain ⟨procedure, types, values, hget, htypes, hverbatim, rfl⟩ :=
    exists_verbatim_of_read hclosed hread
  have hdepths := (Decode.spellsMessage_of_ok hverbatim (Nat.zero_le _)).depth_le
  obtain ⟨-, harrives⟩ := Decode.transfers_verbatimMessage hoverlaps hverbatim rfl hdepths
  rw [readValue_eq_settled hclosed hget htypes]
  exact harrives.bind (Decode.arrives_of_ok rfl)

end Registry

namespace Generator

variable {generator : Generator}

/-- Nothing but the end of the body keeps a reader from reading the beginning of what it
accepts, and what follows is left over. -/
theorem read_delimited (hreachable : generator.Reachable) {name : String} {body : ByteArray}
    {value : Value} (hread : generator.registry.read name body = .ok value) :
    (∀ shorter more : ByteArray, body = shorter ++ more → 0 < more.size →
      ∃ index, generator.registry.read name shorter = .error (.indexOutOfBounds index)) ∧
    ∀ more : ByteArray,
      generator.registry.readValue name ⟨.little, body ++ more⟩ {} =
        (.ok value, ⟨body.size, 0⟩) ∧
      (0 < more.size →
        generator.registry.read name (body ++ more) = .error (.leftoverData more.size)) := by
  have hclosed := hreachable.sound
  refine ⟨?_, ?_⟩
  · rintro shorter more rfl hmore
    have hoverlaps := (Buffer.overlaps_append .little shorter more).symm
    have hshort : shorter.size < (shorter ++ more).size := by
      rw [ByteArray.size_append]
      omega
    obtain ⟨index, reached, hend⟩ :=
      (Registry.arrives_of_read hclosed hread hoverlaps).ends (Nat.zero_le _) hshort
    refine ⟨index, ?_⟩
    exact congrArg Prod.fst (Attempt.bind_of_error hend)
  · intro more
    have hlong : body.size ≤ (body ++ more).size := by
      rw [ByteArray.size_append]
      exact Nat.le_add_right _ _
    have hrun := (Registry.arrives_of_read hclosed hread
      (Buffer.overlaps_append .little body more)).reads hlong
    refine ⟨hrun, ?_⟩
    intro hmore
    have hleft : (body ++ more).size - body.size = more.size := by
      rw [ByteArray.size_append, Nat.add_sub_cancel_left]
    have hcomplete : Decode.complete ⟨.little, body ++ more⟩ ⟨body.size, 0⟩ =
        (.error (.leftoverData more.size), ⟨body.size, 0⟩) := by
      simp only [Decode.complete, hleft]
      exact if_neg (Nat.ne_of_gt hmore)
    rw [Registry.read_of_readValue hrun, hcomplete]
    rfl

/-- An array of one variant, cut inside the signature and then followed by a byte. -/
theorem read_delimited_variants :
    (performAll {} [.entry .read "av" false]).2.registry.read "read_message_av"
        ⟨#[4, 0, 0, 0, 1, 121, 0, 7]⟩ = .ok (.array "av" [.variant (.basic (.byte 7))]) ∧
      (∃ index, (performAll {} [.entry .read "av" false]).2.registry.read "read_message_av"
        ⟨#[4, 0, 0, 0, 1, 121]⟩ = .error (.indexOutOfBounds index)) ∧
      (performAll {} [.entry .read "av" false]).2.registry.read "read_message_av"
        ⟨#[4, 0, 0, 0, 1, 121, 0, 7, 9]⟩ = .error (.leftoverData 1) := by
  have hreachable : Reachable (performAll {} [.entry .read "av" false]).2 :=
    ⟨fun _ => .hashed, _, rfl⟩
  have hread : (performAll {} [.entry .read "av" false]).2.registry.read "read_message_av"
      ⟨#[4, 0, 0, 0, 1, 121, 0, 7]⟩ = .ok (.array "av" [.variant (.basic (.byte 7))]) := by
    with_unfolding_all rfl
  obtain ⟨hends, hgoesOn⟩ := read_delimited hreachable hread
  exact ⟨hread, hends ⟨#[4, 0, 0, 0, 1, 121]⟩ ⟨#[0, 7]⟩ rfl (by decide),
    (hgoesOn ⟨#[9]⟩).2 (by decide)⟩

end Generator

end BusCodec
