import BusCodec.Proofs.Generator.Session
import BusCodec.Proofs.Procedure.Readers
import BusCodec.Proofs.Wire.Progress

/-!
Generated readers against the reader of values.  What a session has generated for a type
and the reader that follows the type itself are one function of buffer and cursor: they
give the same value or the same error, and they leave the cursor in the same place.
-/

namespace BusCodec

namespace Registry

variable {policy : MapPolicy} {registry : Registry} {type : BusType}

theorem readersUpTo_le_readLevels (registry : Registry) (length : Nat) (buffer : Buffer) :
    registry.readersUpTo length ≤ registry.readLevels buffer :=
  calc registry.readersUpTo length
    _ ≤ registry.readers.size := registry.readersUpTo_le_size length
    _ ≤ registry.readers.size * (buffer.bytes.size + 1) :=
      Nat.le_mul_of_pos_right _ (Nat.succ_pos _)
    _ ≤ registry.readLevels buffer := Nat.le_succ _

theorem readCallee_callee (hclosed : Closed policy registry)
    (hprovides : registry.Provides .read type) :
    registry.readCallee (type.callee .read) = Decode.value type := by
  funext buffer
  have hreadable : registry.Readable (registry.readLevels buffer) type :=
    ⟨hprovides, registry.readersUpTo_le_readLevels _ buffer⟩
  rw [← read_callee hclosed hreadable]
  cases type <;> rfl

end Registry

namespace Generator

variable {generator reached : Generator} {type : BusType} {produced : Callee}

/-- What a session was told to call for a type reads what the reader of values reads,
whatever has been generated before or is generated later.  Neither goes on for ever. -/
theorem readCallee_eq_value (hreachable : generator.Reachable) {text : String}
    (hparse : BusType.parse text = .ok type)
    (hproduced : callee .read type generator = (.ok produced, reached))
    (later : List Action) (buffer : Buffer) (cursor : Cursor) :
    let artifact := (reached.performAll later).2.registry
    artifact.readCallee produced buffer cursor = Decode.value type buffer cursor ∧
      (Decode.value type buffer cursor).1 ≠ .error .endless := by
  intro artifact
  have hlimits := (BusType.parse_eq_ok_iff.mp hparse).2
  have hends : (Decode.value type buffer cursor).1 ≠ .error .endless := by
    intro hendless
    exact (Decode.proceeds_value type).blames buffer cursor .endless _ (Prod.ext hendless rfl)
  rcases answered_callee .read type hreachable.sound hlimits with
    ⟨-, after, hrun, hgrows, hprovides⟩ | ⟨-, hrun⟩
  · rw [hproduced] at hrun
    cases hrun
    have hlater := performAll_grows hgrows.sound later
    rw [Registry.readCallee_callee hlater.sound (hprovides.extend hlater.keeps)]
    exact ⟨rfl, hends⟩
  · rw [hproduced] at hrun
    cases hrun

/-- Two numbers are announced and one of them is missing. -/
theorem readCallee_eq_value_truncated :
    ((callee .read (.array (.basic .int32)) {}).2.performAll
        [.entry .write "s" false]).2.registry.readCallee (.procedure "read_array_ai" .array)
          ⟨.big, ⟨#[0, 0, 0, 8, 0, 0, 0, 1]⟩⟩ {} =
      (.error (.indexOutOfBounds 12), ⟨4, 0⟩) := by
  have hreachable : Reachable {} := ⟨fun _ => .hashed, [], rfl⟩
  have hparse : BusType.parse "ai" = .ok (.array (.basic .int32)) := rfl
  have hproduced : callee .read (.array (.basic .int32)) {} =
      (.ok (.procedure "read_array_ai" .array), (callee .read (.array (.basic .int32)) {}).2) := by
    rfl
  rw [(readCallee_eq_value hreachable hparse hproduced [.entry .write "s" false] _ _).1]
  rfl

end Generator

end BusCodec
