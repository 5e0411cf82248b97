import BusCodec.Proofs.Wire.Reading
import BusCodec.Proofs.Wire.Writing

/-!
Variants go through the wire format unchanged.  The writer accepts no value that
names wrong signatures, and it puts no limit on nesting, which the reader does.
-/

namespace BusCodec

/-- Whatever could be written as a variant is what it says it is.  Wherever it
was written, and whatever follows it, it is read back as it was unless more
variants are nested in it than the reader allows. -/
theorem variant_reads_back {value : Value} (hkeys : value.DistinctKeys)
    {body written : ByteArray} (hwritten : Encode.variant value body = (.ok (), written)) :
    (∃ type, BusType.parse value.signature = .ok type ∧ Value.HasType value type) ∧
      (∃ bytes, written = body ++ bytes) ∧
      ∀ rest : ByteArray,
        (1 + value.variantDepth ≤ maxVariantDepth →
          Decode.variant ⟨.little, written ++ rest⟩ ⟨body.size, 0⟩ =
            (.ok value, ⟨written.size, 0⟩)) ∧
        (maxVariantDepth < 1 + value.variantDepth →
          ∃ reached, Decode.variant ⟨.little, written ++ rest⟩ ⟨body.size, 0⟩ =
            (.error .variantDepth, reached)) := by
  have htype := Encode.hasType_of_variant hwritten
  obtain ⟨hbytes, hclean⟩ := (Encode.yields_variant htype).of_ok hwritten
  refine ⟨Value.hasType_variant_iff.mp htype, ⟨_, hbytes⟩, ?_⟩
  intro rest
  have hholds : Buffer.Holds ⟨.little, written ++ rest⟩ body.size
      (((Value.variant value).layout .little .variant).bytes body.size) :=
    ⟨body, rest, by rw [hbytes, ByteArray.append_assoc], rfl⟩
  obtain ⟨hok, hdeep⟩ := Decode.readsBackVariants_variant 0 .little value htype
    ⟨.little, written ++ rest⟩ body.size rfl hclean hholds
  have hsize : written.size =
      body.size + (((Value.variant value).layout .little .variant).bytes body.size).size := by
    rw [hbytes, ByteArray.size_append]
  constructor
  · intro hshallow
    rw [hok (by rw [Nat.add_comm]; exact hshallow), Value.settled_eq_self hkeys, hsize]
  · intro htooDeep
    exact hdeep (by rw [Nat.add_comm]; exact Nat.not_le.mpr htooDeep)

theorem variant_reads_back_array :
    Decode.variant ⟨.little, ⟨#[9, 2, 97, 118, 0, 0, 0, 0, 4, 0, 0, 0, 1, 121, 0, 7, 5]⟩⟩
        ⟨1, 0⟩ =
      (.ok (.array "av" [.variant (.basic (.byte 7))]), ⟨16, 0⟩) := by
  have hwritten : Encode.variant (.array "av" [.variant (.basic (.byte 7))]) ⟨#[9]⟩ =
      (.ok (), ⟨#[9, 2, 97, 118, 0, 0, 0, 0, 4, 0, 0, 0, 1, 121, 0, 7]⟩) := by
    with_unfolding_all rfl
  exact ((variant_reads_back (by simp [Value.DistinctKeys, Value.AllDistinctKeys])
    hwritten).2.2 ⟨#[5]⟩).1 (by decide)

end BusCodec
