import BusCodec.Proofs.Procedure.Bodies

/-!
Generated writers compute the encoding of what they are given.  They do not know the
length of an array before its elements are written, nor where in the body an element comes
to stand; what they leave is the body followed by the encoding at its end, which is put
together from the encodings of the parts.
-/

namespace BusCodec

namespace Value

/-- The array or dictionary of a type that has nothing in it. -/
def emptyOf? : BusType → Option Value
  | .array element => some (.array (BusType.array element).signature [])
  | .dict key value => some (.dict (BusType.dict key value).signature [])
  | _ => none

theorem hasType_of_emptyOf? {type : BusType} {empty : Value} (h : emptyOf? type = some empty) :
    HasType empty type ∧ basics empty = [] ∧
      ∀ order offset, arrayLengths order empty type offset = [0] := by
  cases type with
  | array element =>
      cases h
      exact ⟨⟨rfl, trivial⟩, rfl, fun _ _ => rfl⟩
  | dict key value =>
      cases h
      exact ⟨⟨rfl, trivial⟩, rfl, fun _ _ => rfl⟩
  | _ => cases h

end Value

namespace Encode

variable {written : Encode Unit} {layout : Layout} {lengths : List Nat}

/-- What yields an encoding that only too long arrays can spoil appends it or finds an array
too long. -/
theorem Yields.cases_arrayLengths (h : Yields written layout) (body : ByteArray)
    (hfault : ∀ error, layout.fault body.size error ↔
      ∃ length ∈ lengths, maxArrayLength < length ∧ error = .arrayTooLong length) :
    ((∀ length ∈ lengths, length ≤ maxArrayLength) →
        written body = (.ok (), body ++ layout.bytes body.size)) ∧
      ((∃ length ∈ lengths, maxArrayLength < length) →
        ∃ length ∈ lengths, maxArrayLength < length ∧
          ∃ reached, written body = (.error (.arrayTooLong length), reached)) := by
  constructor
  · intro hshort
    refine h.of_clean fun error herror => ?_
    obtain ⟨length, hmem, hlong, -⟩ := (hfault error).mp herror
    exact absurd hlong (Nat.not_lt.mpr (hshort length hmem))
  · rintro ⟨long, hlong, hmax⟩
    rcases h body with ⟨-, hclean⟩ | ⟨error, reached, hrun, herror⟩
    · exact absurd ((hfault _).mpr ⟨long, hlong, hmax, rfl⟩) (hclean _)
    · obtain ⟨length, hmem, hmax, rfl⟩ := (hfault error).mp herror
      exact ⟨length, hmem, hmax, reached, hrun⟩

end Encode

namespace Value

/-- Where all texts obey the rules, only too long arrays keep values from having an
encoding. -/
theorem messageFault_iff_of_clean {order : ByteOrder} {variant : Bool} {signature : String}
    {values : List Value} {types : List BusType} {offset : Nat} {error : Error}
    (hvalues : HaveTypes values types)
    (hclean : ∀ value ∈ basicsAll values, value.fault? = none) :
    (messageLayout order variant signature values types).fault offset error ↔
      ∃ length ∈ messageArrayLengths order variant signature values types offset,
        maxArrayLength < length ∧ error = .arrayTooLong length := by
  rw [messageFault_iff hvalues]
  refine or_iff_right ?_
  rintro ⟨value, hmem, hfault⟩
  rw [hclean value hmem] at hfault
  cases hfault

end Value

namespace Procedure

variable {run other : String → Option Value → Encode Unit} {procedure : Procedure}

/-- Nothing is written as the empty array or dictionary. -/
theorem Handles.write_none {policy : MapPolicy} {type : BusType} {empty : Value}
    (h : procedure.Handles policy .write type) (hempty : Value.emptyOf? type = some empty) :
    procedure.write run none = procedure.write other (some empty) := by
  have hhandling := h.handling_eq
  have hshape : empty.checkShape procedure.signature = .ok () := by
    rw [h.signature_eq]
    exact Encode.checkShape_of_hasType (Value.hasType_of_emptyOf? hempty).1
  cases type with
  | array element =>
      cases hempty
      obtain ⟨-, hbody⟩ := Prod.mk.inj (Option.some.inj hhandling)
      rw [write_array hbody.symm, hshape]
      obtain ⟨name, access, construct, signature, native, body⟩ := procedure
      cases hbody
      rfl
  | dict key value =>
      cases hempty
      obtain ⟨-, hbody⟩ := Prod.mk.inj (Option.some.inj hhandling)
      rw [write_dictionary hbody.symm, hshape]
      obtain ⟨name, access, construct, signature, native, body⟩ := procedure
      cases hbody
      rfl
  | _ => cases hempty

end Procedure

namespace Registry

variable {policy : MapPolicy} {registry : Registry} {name : String} {procedure : Procedure}

theorem yields_writeValue (hclosed : Closed policy registry)
    (hget : registry.get? .write name = some procedure) {types : List BusType}
    (htypes : BusType.parseAll procedure.signature = .ok types) {values : List Value}
    (hvalues : Value.HaveTypes values types) :
    Encode.Yields (registry.writeValue name (some (Body.messageValue values)))
      (Value.messageLayout .little (procedure.construct == .variantMessage) procedure.signature
        values types) := by
  obtain ⟨_, hentry⟩ := exists_entryTypes hclosed hget htypes
  rw [writeValue_eq_message hclosed hget htypes hvalues]
  exact Encode.yields_message hentry hvalues

/-- The writer of a container that is given nothing appends the encoding of an empty one. -/
theorem writeValue_none (hclosed : Closed policy registry)
    (hget : registry.get? .write name = some procedure) (hcontainer : procedure.isEntry = false)
    {type : BusType} (htype : BusType.parseAll procedure.signature = .ok [type]) {empty : Value}
    (hempty : Value.emptyOf? type = some empty) (body : ByteArray) :
    registry.writeValue name none body =
      (.ok (), body ++ (empty.layout .little type).bytes body.size) := by
  obtain ⟨hasType, hbasics, hlengths⟩ := Value.hasType_of_emptyOf? hempty
  rcases hclosed _ _ _ hget with ⟨own, hlimits, hhandles, -⟩ | ⟨_, _, _, hhandles, -⟩
  · rw [hhandles.signature_eq,
      BusType.parse_eq_ok_iff_parseAll.mp (BusType.parse_signature hlimits)] at htype
    cases htype
    have hsame : registry.writeValue name none = registry.writeValue name (some empty) := by
      simp only [writeValue, writeLevels, writeWithin, find_eq_ok hget, Attempt.lift_ok_bind]
      exact hhandles.write_none hempty
    obtain ⟨hcallee, hprovides⟩ := hhandles.called hget
    have hwrite := write_callee hclosed hasType hlimits hprovides
      (lt_writeLevels hget empty.height)
    rw [hcallee] at hwrite
    change registry.writeValue name (some empty) = _ at hwrite
    rw [hsame, hwrite]
    apply (Encode.yields_value hasType hlimits).of_clean
    intro error
    rw [Value.fault_iff hasType, hbasics, hlengths]
    simp [Value.CausedBy]
  · rw [hhandles.isEntry] at hcontainer
    cases hcontainer

end Registry

namespace Generator

variable {generator : Generator}

/-- Whatever a generated writer is given, if its texts obey the rules, the writer appends its
encoding to the body, or finds an array in it too long if there is one.  Given nothing, the
writer of an array or dictionary appends the encoding of an empty one. -/
theorem writeValue_encodes (hreachable : generator.Reachable) {name : String}
    {procedure : Procedure} (hget : generator.registry.get? .write name = some procedure)
    {types : List BusType} (htypes : BusType.parseAll procedure.signature = .ok types) :
    (∀ (values : List Value) (body : ByteArray), Value.HaveTypes values types →
      (∀ value ∈ Value.basicsAll values, value.fault? = none) →
      let variant := procedure.construct == .variantMessage
      let layout := Value.messageLayout .little variant procedure.signature values types
      let lengths :=
        Value.messageArrayLengths .little variant procedure.signature values types body.size
      let written := generator.registry.writeValue name (some (Body.messageValue values)) body
      ((∀ length ∈ lengths, length ≤ maxArrayLength) →
          written = (.ok (), body ++ layout.bytes body.size)) ∧
        ((∃ length ∈ lengths, maxArrayLength < length) →
          ∃ length ∈ lengths, maxArrayLength < length ∧
            ∃ reached, written = (.error (.arrayTooLong length), reached))) ∧
    ∀ (type : BusType) (empty : Value) (body : ByteArray), types = [type] →
      procedure.isEntry = false → Value.emptyOf? type = some empty →
      generator.registry.writeValue name none body =
        (.ok (), body ++ (empty.layout .little type).bytes body.size) := by
  have hclosed := hreachable.sound
  refine ⟨?_, ?_⟩
  · intro values body hvalues hclean
    exact (Registry.yields_writeValue hclosed hget htypes hvalues).cases_arrayLengths body
      fun _ => Value.messageFault_iff_of_clean hvalues hclean
  · rintro type empty body rfl hcontainer hempty
    exact Registry.writeValue_none hclosed hget hcontainer htypes hempty body

/-- A pair of a byte and an array, written behind one byte, and what is written for nothing. -/
theorem writeValue_pairs :
    (performAll {} [.callee .write "a(yax)"]).2.registry.writeValue "write_array_aryaxz"
        (some (.array "a(yax)"
          [.struct [.basic (.byte 7), .array "ax" [.basic (.int64 5)]]])) ⟨#[9]⟩ =
      (.ok (), ⟨#[9, 0, 0, 0, 16, 0, 0, 0, 7, 0, 0, 0, 8, 0, 0, 0, 5, 0, 0, 0, 0, 0, 0, 0]⟩) ∧
    (performAll {} [.callee .write "a(yax)"]).2.registry.writeValue "write_array_aryaxz"
        none ⟨#[9]⟩ =
      (.ok (), ⟨#[9, 0, 0, 0, 0, 0, 0, 0]⟩) := by
  have hreachable : Reachable (performAll {} [.callee .write "a(yax)"]).2 :=
    ⟨fun _ => .hashed, _, rfl⟩
  have hget : (performAll {} [.callee .write "a(yax)"]).2.registry.get? .write
      "write_array_aryaxz" =
        some ⟨"write_array_aryaxz", .write, .array, "a(yax)",
          [.option (.ref (.vec (.tuple [.basic .byte, .vec (.basic .int64)])))],
          .array .struct (.procedure "write_struct_ryaxz" .struct)⟩ := by
    rfl
  have htypes : BusType.parseAll "a(yax)" =
      .ok [.array (.struct (.basic .byte) [.array (.basic .int64)])] := rfl
  have hvalues : Value.HaveTypes
      [.array "a(yax)" [.struct [.basic (.byte 7), .array "ax" [.basic (.int64 5)]]]]
      [.array (.struct (.basic .byte) [.array (.basic .int64)])] :=
    ⟨⟨rfl, ⟨rfl, ⟨rfl, rfl, trivial⟩, trivial⟩, trivial⟩, trivial⟩
  obtain ⟨hwrites, hempty⟩ := writeValue_encodes hreachable hget htypes
  obtain ⟨hwritten, -⟩ := hwrites _ ⟨#[9]⟩ hvalues (by decide)
  exact ⟨hwritten (by decide), hempty _ _ ⟨#[9]⟩ rfl rfl rfl⟩

end Generator

end BusCodec
