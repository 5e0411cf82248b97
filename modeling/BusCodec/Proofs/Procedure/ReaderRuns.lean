import BusCodec.Proofs.Procedure.Termination
import Mathlib.Algebra.Group.Nat.Defs

/-!
Any use of one reader.  Its operations and the registered readers may follow one another in
any order, and go on after failures from where these have left the cursor.  Whatever the
buffer holds, the cursor stays inside it and never moves back, no variant stays open between
two operations, and nothing that the operations compute leaves the range of a word of 64
bits or an index the range of the buffer.
-/

namespace BusCodec

/-- One use of a reader. -/
inductive ReaderOperation
  | basic (type : BasicType)
  | variant
  | expectSignature (expected : String)
  | alignStruct
  | startArray (element : WireKind)
  /-- Looks for a next element before an end, which may be that of any array. -/
  | hasNext (region : Region)
  | complete
  /-- Runs a reader of a name, which need not be registered. -/
  | procedure (generator : Generator) (reachable : generator.Reachable) (name : String)

/-- What an operation on a reader hands back. -/
inductive ReaderReply
  | done
  | value (value : Value)
  | region (region : Region)
  | answer (more : Bool)

namespace ReaderOperation

def perform : ReaderOperation → Decode ReaderReply
  | basic type => return .value (.basic (← Decode.basic type))
  | variant => return .value (.variant (← Decode.variant))
  | expectSignature expected => do
      Decode.expectSignature expected
      return .done
  | alignStruct => do
      Decode.alignStruct
      return .done
  | startArray element => return .region (← Region.start element)
  | hasNext region => return .answer (← region.hasNext)
  | complete => do
      Decode.complete
      return .done
  | procedure generator _ name => return .value (← generator.registry.readValue name)

/-- Performs an operation while it is watched.  Calls may be nested as deep as a signature
is long, and variants as deep as is allowed. -/
def watch (words : Nat) : ReaderOperation → WatchedDecode ReaderReply
  | basic type => return .value (.basic (← WatchedDecode.basic words type))
  | variant => return .value (.variant (← WatchedDecode.variant words (maxVariantDepth + 1)))
  | expectSignature expected => do
      WatchedDecode.expectSignature words expected
      return .done
  | alignStruct => do
      WatchedDecode.alignStruct words
      return .done
  | startArray element => return .region (← WatchedDecode.startRegion words element)
  | hasNext region => return .answer (← WatchedDecode.hasNext words region)
  | complete => do
      WatchedDecode.complete
      return .done
  | procedure generator _ name =>
      return .value (← generator.registry.watch words (maxVariantDepth + 1)
        (Signature.maxLength + 1) name)

/-- What operations come to one after another.  Each of them begins where the one before
it has ended, also if that one failed. -/
def performAll (buffer : Buffer) :
    List ReaderOperation → Cursor → List (Except Error ReaderReply × Cursor)
  | [], _ => []
  | operation :: operations, cursor =>
      let step := operation.perform buffer cursor
      step :: performAll buffer operations step.2

def watchAll (words : Nat) (buffer : Buffer) :
    List ReaderOperation → Cursor → Option (List (Except Error ReaderReply × Cursor))
  | [], _ => some []
  | operation :: operations, cursor => do
      let step ← operation.watch words buffer cursor
      let steps ← watchAll words buffer operations step.2
      return step :: steps

end ReaderOperation

namespace Registry

variable {policy : MapPolicy} {registry : Registry} {words variants depth : Nat}

theorem length_signature_le (hclosed : Closed policy registry) {name : String}
    {procedure : Procedure} {access : Access}
    (hget : registry.get? access name = some procedure) :
    procedure.signature.length ≤ Signature.maxLength := by
  obtain ⟨types, htypes⟩ := exists_types_of_get? hclosed hget
  obtain ⟨hsignature, hlimits⟩ := BusType.parseAll_eq_ok_iff.mp htypes
  rw [hsignature, BusType.signatureAll, String.length_ofList]
  exact hlimits.length

/-- No reader is stopped that may nest calls as deep as a signature is long, and a name
that is not registered fails alike. -/
theorem follows_watch_maxLength (hclosed : Closed policy registry)
    (hvariants : maxVariantDepth - depth < variants) (name : String) :
    Decode.Follows words depth (registry.watch words variants (Signature.maxLength + 1) name)
      (registry.readValue name) := by
  cases hget : registry.get? .read name with
  | some procedure =>
      have hlength := length_signature_le hclosed hget
      refine follows_watch hclosed hvariants hget ?_
      simp only [rank, hget]
      split <;> omega
  | none =>
      have hfind : registry.find .read name = .error (.unknownProcedure name) := by
        rw [find, hget]
      have hread : registry.readValue name = Decode.fail (.unknownProcedure name) := by
        funext buffer
        rw [readValue, readLevels, readWithin, hfind]
        rfl
      have hwatch : registry.watch words variants (Signature.maxLength + 1) name =
          WatchedDecode.fail (.unknownProcedure name) := by
        rw [watch, hfind]
        rfl
      rw [hread, hwatch]
      exact Decode.follows_fail rfl

end Registry

namespace ReaderOperation

open Decode

variable {words : Nat} {buffer : Buffer}

/-- An operation between variants is never stopped. -/
theorem follows_perform (operation : ReaderOperation) :
    Follows words 0 (operation.watch words) operation.perform := by
  cases operation with
  | basic type => exact (follows_basic type).map _
  | variant => exact (follows_variant (by decide)).map _
  | expectSignature expected => exact (follows_expectSignature expected).map _
  | alignStruct => exact follows_alignStruct.map _
  | startArray element => exact (Region.follows_start element).map _
  | hasNext region => exact region.follows_hasNext.map _
  | complete => exact follows_complete.map _
  | procedure generator reachable name =>
      exact (Registry.follows_watch_maxLength reachable.sound (by decide) name).map _

/-- Each operation leads on from where the one before it has ended. -/
theorem performAll_leads (operations : List ReaderOperation) (cursor : Cursor)
    (hroom : buffer.bytes.size + Word.limit 4 < words)
    (hinside : cursor.position ≤ buffer.bytes.size) (hdepth : cursor.variantDepth = 0) :
    watchAll words buffer operations cursor = some (performAll buffer operations cursor) ∧
      (performAll buffer operations cursor).Pairwise
        (fun before after => before.2.position ≤ after.2.position) ∧
      ∀ step ∈ performAll buffer operations cursor,
        Leads buffer cursor (fun _ => True) step := by
  induction operations generalizing cursor with
  | nil => exact ⟨rfl, List.Pairwise.nil, fun step hstep => absurd hstep List.not_mem_nil⟩
  | cons operation operations ih =>
      obtain ⟨hrun, hleads⟩ := operation.follows_perform buffer cursor hroom hinside hdepth
      obtain ⟨hruns, hforward, hall⟩ := ih _ hleads.inside (hleads.depth_eq.trans hdepth)
      refine ⟨?_, ?_, ?_⟩
      · rw [watchAll, hrun]
        change (watchAll words buffer operations (operation.perform buffer cursor).2).bind _ = _
        rw [hruns]
        rfl
      · exact List.pairwise_cons.mpr ⟨fun step hstep => (hall step hstep).ahead, hforward⟩
      · intro step hstep
        rcases List.mem_cons.mp hstep with rfl | hstep
        · exact hleads
        · exact hleads.trans (hall step hstep)

/-- However one reader is used, on a buffer of any length that a slice can have: its
operations are never stopped in words of 64 bits, from one of them to the next the cursor
does not move back, and after each of them, whether it has failed or not, the cursor is
inside the buffer and outside of all variants.  Only an index that is past the end is ever
reported as being so. -/
theorem performAll_inside (hsize : buffer.bytes.size < 2 ^ 63)
    (operations : List ReaderOperation) :
    watchAll (2 ^ 64) buffer operations {} = some (performAll buffer operations {}) ∧
      (performAll buffer operations {}).Pairwise
        (fun before after => before.2.position ≤ after.2.position) ∧
      ∀ step ∈ performAll buffer operations {},
        step.2.position ≤ buffer.bytes.size ∧ step.2.variantDepth = 0 ∧
          ∀ index, step.1 = .error (.indexOutOfBounds index) → buffer.bytes.size < index := by
  have hroom : buffer.bytes.size + Word.limit 4 < 2 ^ 64 := by
    have hlimit : Word.limit 4 = 2 ^ 32 := rfl
    omega
  obtain ⟨hrun, hforward, hall⟩ := performAll_leads operations {} hroom (Nat.zero_le _) rfl
  refine ⟨hrun, hforward, fun step hstep => ?_⟩
  have hleads := hall step hstep
  exact ⟨hleads.inside, hleads.depth_eq, fun index hindex => hleads.beyond _ index hindex rfl⟩

/-- An array of 32-bit numbers that says to have two bytes: the number in it runs over its
end, which is found out afterwards, and then there is nothing more to read. -/
theorem performAll_inside_overrun :
    watchAll (2 ^ 64) ⟨.big, ⟨#[0, 0, 0, 2, 0, 0, 0, 7]⟩⟩
        [.startArray (.basic .int32), .hasNext ⟨.basic .int32, 6⟩, .basic .int32,
          .hasNext ⟨.basic .int32, 6⟩, .basic .byte, .complete] {} =
      some [(.ok (.region ⟨.basic .int32, 6⟩), ⟨4, 0⟩), (.ok (.answer true), ⟨4, 0⟩),
        (.ok (.value (.basic (.int32 7))), ⟨8, 0⟩), (.error (.arrayElementOverrun 8 6), ⟨8, 0⟩),
        (.error (.indexOutOfBounds 9), ⟨8, 0⟩), (.ok .done, ⟨8, 0⟩)] := by
  refine (performAll_inside (by decide) _).1.trans ?_
  rfl

end ReaderOperation

end BusCodec
