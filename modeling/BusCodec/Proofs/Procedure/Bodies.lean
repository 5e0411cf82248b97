import BusCodec.Proofs.Procedure.MessageRoundTrip
import BusCodec.Proofs.Procedure.ReadersAgree
import BusCodec.Proofs.Wire.Delimited

/-!
Every registered procedure reads or writes bodies.  The body of a container is a value
of its one type, and that of an entry is what its signature says, perhaps behind the
signature itself.
-/

namespace BusCodec

namespace Value

/-- Which bytes of the encoding of a body carry data. -/
def messageMask (variant : Bool) (signature : String) (values : List Value)
    (types : List BusType) : Mask :=
  if variant then .append (.text 1 signature) (maskAll values types)
  else maskAll values types

end Value

namespace Body

theorem messageValue_inj {values others : List Value} {types : List BusType}
    (hvalues : Value.HaveTypes values types) (hothers : Value.HaveTypes others types)
    (h : messageValue values = messageValue others) : values = others := by
  have hlength := (Value.length_eq_of_haveTypes hvalues).trans
    (Value.length_eq_of_haveTypes hothers).symm
  match values, others with
  | [], [] => rfl
  | [value], [other] => exact congrArg (fun value => [value]) h
  | first :: second :: rest, other :: another :: others =>
      cases h
      rfl

end Body

namespace Value

theorem heightAll_le_height_messageValue (values : List Value) :
    heightAll values ≤ (Body.messageValue values).height := by
  match values with
  | [] => exact Nat.zero_le _
  | [value] => exact Nat.max_le.mpr ⟨Nat.le_refl _, Nat.zero_le _⟩
  | first :: second :: rest => exact Nat.le_succ _

end Value

namespace Procedure

variable {procedure : Procedure}

theorem HandlesMessage.variant_eq {policy : MapPolicy} {access : Access} {signature : String}
    {variant : Bool} {types : List BusType}
    (h : procedure.HandlesMessage policy access signature variant types) :
    (procedure.construct == .variantMessage) = variant := by
  rw [Generator.construct_of_entryTypes h.types_eq]
  cases variant <;> rfl

theorem HandlesMessage.parseAll_eq {policy : MapPolicy} {access : Access} {signature : String}
    {variant : Bool} {types : List BusType}
    (h : procedure.HandlesMessage policy access signature variant types) :
    BusType.parseAll procedure.signature = .ok types := by
  rw [h.signature_eq]
  exact (Generator.entryTypes_eq_ok_iff.mp h.types_eq).1

/-- An entry writer is given several values as a struct of them. -/
theorem write_messageValue {run : String → Option Value → Encode Unit}
    {variant : Option String} {callees : List Callee} {values : List Value}
    (hbody : procedure.body = .message variant callees)
    (hlength : callees.length = values.length) :
    procedure.write run (some (Body.messageValue values)) = procedure.writeBody run values := by
  obtain ⟨name, access, construct, signature, native, body⟩ := procedure
  cases hbody
  match callees, values with
  | [], [] => rfl
  | [callee], [value] => rfl
  | _ :: _ :: _, _ :: _ :: _ => rfl

end Procedure

namespace Decode

/-- Reads a body word for word. -/
def verbatimMessage (variant : Bool) (signature : String) (types : List BusType) :
    Decode (List Value) :=
  if variant then expectSignature signature >>= fun _ => verbatimAllWith verbatimVariant types
  else verbatimAllWith verbatimVariant types

variable {variant : Bool} {signature : String} {types : List BusType}

theorem message_eq_settled :
    message variant signature types =
      Value.settledAll <$> verbatimMessage variant signature types := by
  cases variant with
  | false => exact valuesWith_eq_settled variant_eq_settled types
  | true =>
      rw [message, verbatimMessage, if_pos rfl, if_pos rfl,
        valuesWith_eq_settled variant_eq_settled types, map_bind]

theorem transfers_verbatimMessage {depth anotherDepth : Nat} :
    Transfers depth anotherDepth
      (fun values => Value.variantDepthAll values ≤ maxVariantDepth - anotherDepth)
      (verbatimMessage variant signature types) (verbatimMessage variant signature types) := by
  have hbody := transfers_verbatimAllWith (transfers_verbatimVariant depth anotherDepth) types
  cases variant with
  | false => exact hbody
  | true => exact (transfers_expectSignature signature).andThen fun _ => hbody

/-- A body that has been read is spelled out. -/
structure SpellsMessage (buffer : Buffer) (cursor reached : Cursor) (variant : Bool)
    (signature : String) (values : List Value) (types : List BusType) : Prop where
  haveTypes : Value.HaveTypes values types
  spells : buffer.Spells cursor reached
    (Value.messageLayout buffer.order variant signature values types)
    (Value.messageMask variant signature values types)
  depth_le : Value.variantDepthAll values ≤ maxVariantDepth - cursor.variantDepth

theorem spellsMessage_of_ok {buffer : Buffer} {cursor reached : Cursor} {values : List Value}
    (h : verbatimMessage variant signature types buffer cursor = (.ok values, reached))
    (hbegin : cursor.position ≤ buffer.bytes.size) :
    SpellsMessage buffer cursor reached variant signature values types := by
  cases variant with
  | false =>
      obtain ⟨htypes, hspells, hdepths⟩ := spellsAll_verbatimAllWith
        (spellsVariants_verbatimVariant cursor.variantDepth) types h rfl hbegin
      exact ⟨htypes, hspells, hdepths⟩
  | true =>
      obtain ⟨_, middle, hsignature, h⟩ := Attempt.bind_eq_ok h
      have hprefix := (spells_of_signature (expectSignature_eq_ok_iff.mp hsignature)).1
      obtain ⟨htypes, hspells, hdepths⟩ := spellsAll_verbatimAllWith
        (spellsVariants_verbatimVariant cursor.variantDepth) types h hprefix.depth_eq
        hprefix.stop_le
      exact ⟨htypes, hprefix.append hspells, hdepths⟩

end Decode

namespace Registry

variable {policy : MapPolicy} {registry : Registry} {access : Access} {name : String}
  {procedure : Procedure} {types : List BusType}

theorem exists_types_of_get? (hclosed : Closed policy registry)
    (hget : registry.get? access name = some procedure) :
    ∃ types, BusType.parseAll procedure.signature = .ok types := by
  rcases hclosed _ _ _ hget with
    ⟨type, hlimits, hhandles, -⟩ | ⟨signature, variant, types, hhandles, -⟩
  · refine ⟨[type], ?_⟩
    rw [hhandles.signature_eq]
    exact BusType.parse_eq_ok_iff_parseAll.mp (BusType.parse_signature hlimits)
  · exact ⟨types, hhandles.parseAll_eq⟩

/-- A registered procedure is for a container or for messages. -/
theorem container_or_message (hclosed : Closed policy registry)
    (hget : registry.get? access name = some procedure)
    (htypes : BusType.parseAll procedure.signature = .ok types) :
    (∃ type, types = [type] ∧ BusType.WithinLimits [type] ∧
        procedure.construct ≠ .variantMessage ∧
        type.callee access = .procedure name procedure.construct ∧
        registry.Provides access type) ∨
      procedure.HandlesMessage policy access procedure.signature
          (procedure.construct == .variantMessage) types ∧
        ∀ type ∈ types, registry.Provides access type := by
  rcases hclosed _ _ _ hget with
    ⟨type, hlimits, hhandles, -⟩ | ⟨signature, variant, parsed, hhandles, hall⟩
  · rw [hhandles.signature_eq,
      BusType.parse_eq_ok_iff_parseAll.mp (BusType.parse_signature hlimits)] at htypes
    cases htypes
    obtain ⟨hcallee, hprovides⟩ := hhandles.called hget
    exact .inl ⟨type, rfl, hlimits, (BusType.construct_of_handling hhandles.handling_eq).2,
      hcallee, hprovides⟩
  · have hparse := hhandles.parseAll_eq
    rw [htypes] at hparse
    cases hparse
    rw [hhandles.variant_eq, hhandles.signature_eq]
    exact .inr ⟨hhandles, hall⟩

/-- The procedure under the name for a construct and a signature is for these. -/
theorem named_of_get? (hclosed : Closed policy registry) {construct : Construct}
    {signature : String} (htypes : BusType.parseAll signature = .ok types)
    (hget : registry.get? access (procedureName access construct signature) = some procedure) :
    procedure.construct = construct ∧ procedure.signature = signature := by
  have hname : procedure.name =
      procedureName access procedure.construct procedure.signature := by
    rcases hclosed _ _ _ hget with ⟨type, -, hhandles, -⟩ | ⟨_, _, _, hhandles, -⟩
    · rw [hhandles.name_eq, hhandles.signature_eq]
    · rw [hhandles.name_eq, hhandles.signature_eq]
  obtain ⟨others, hothers⟩ := exists_types_of_get? hclosed hget
  obtain ⟨hsignature, -⟩ := BusType.parseAll_eq_ok_iff.mp htypes
  obtain ⟨hother, -⟩ := BusType.parseAll_eq_ok_iff.mp hothers
  rw [name_of_get? hget, hsignature, hother] at hname
  obtain ⟨hconstruct, hsame⟩ := procedureName_inj hname
  exact ⟨hconstruct.symm, by rw [hother, hsignature, hsame]⟩

theorem exists_entryTypes (hclosed : Closed policy registry)
    (hget : registry.get? access name = some procedure)
    (htypes : BusType.parseAll procedure.signature = .ok types) :
    ∃ construct, Generator.entryTypes procedure.signature
      (procedure.construct == .variantMessage) = .ok (construct, types) := by
  rcases container_or_message hclosed hget htypes with
    ⟨type, rfl, -, hconstruct, -, -⟩ | ⟨hhandles, -⟩
  · refine ⟨.message, Generator.entryTypes_eq_ok_iff.mpr ⟨htypes, List.cons_ne_nil _ _, ?_, ?_⟩⟩
    · exact fun _ => ⟨type, rfl⟩
    · rw [beq_eq_false_iff_ne.mpr hconstruct]
      rfl
  · exact ⟨_, hhandles.types_eq⟩

/-- A registered reader reads the body that its signature describes. -/
theorem readValue_eq_message (hclosed : Closed policy registry)
    (hget : registry.get? .read name = some procedure)
    (htypes : BusType.parseAll procedure.signature = .ok types) :
    registry.readValue name =
      Decode.message (procedure.construct == .variantMessage) procedure.signature types >>=
        fun values => pure (Body.messageValue values) := by
  rcases container_or_message hclosed hget htypes with
    ⟨type, rfl, -, hconstruct, hcallee, hprovides⟩ | ⟨hhandles, hall⟩
  · have hread := readCallee_callee hclosed hprovides
    rw [hcallee] at hread
    change registry.readValue name = _ at hread
    rw [hread, beq_eq_false_iff_ne.mpr hconstruct, Decode.message,
      if_neg Bool.false_ne_true, Decode.valuesWith, Decode.valuesWith]
    simp only [bind_assoc, pure_bind, Body.messageValue, bind_pure]
    rfl
  · exact readValue_eq hclosed hget hhandles hall

/-- A registered reader follows its body, whose callees are read with the same registry. -/
theorem readValue_eq_body (hclosed : Closed policy registry)
    (hget : registry.get? .read name = some procedure) :
    registry.readValue name = procedure.body.read registry.readValue procedure.signature := by
  rcases hclosed _ _ _ hget with
    ⟨type, -, hhandles, hchildren⟩ | ⟨signature, variant, types, hhandles, hall⟩
  · obtain ⟨hcallee, hprovides⟩ := hhandles.called hget
    have hread := readCallee_callee hclosed hprovides
    rw [hcallee] at hread
    change registry.readValue name = _ at hread
    rw [hread, hhandles.signature_eq]
    exact (Body.read_eq_value hhandles.handling_eq fun child hchild =>
      readCallee_callee hclosed (hchildren child hchild)).symm
  · have hvalues := Callee.readAll_eq_values fun type htype =>
      readCallee_callee hclosed (hall type htype)
    change Callee.readAll registry.readValue _ = _ at hvalues
    rw [readValue_eq hclosed hget hhandles hall, hhandles.body_eq, Decode.message]
    cases variant with
    | false =>
        rw [if_neg Bool.false_ne_true, if_neg Bool.false_ne_true, Body.read, hvalues]
    | true =>
        rw [if_pos rfl, if_pos rfl, Body.read, hvalues, bind_assoc]

/-- A registered writer writes the body that its signature describes. -/
theorem writeValue_eq_message (hclosed : Closed policy registry)
    (hget : registry.get? .write name = some procedure)
    (htypes : BusType.parseAll procedure.signature = .ok types) {values : List Value}
    (hvalues : Value.HaveTypes values types) :
    registry.writeValue name (some (Body.messageValue values)) =
      Encode.message (procedure.construct == .variantMessage) procedure.signature values := by
  rcases container_or_message hclosed hget htypes with
    ⟨type, rfl, hlimits, hconstruct, hcallee, hprovides⟩ | ⟨hhandles, hall⟩
  · obtain ⟨value, rfl⟩ := List.length_eq_one_iff.mp (Value.length_eq_of_haveTypes hvalues)
    have hwrite := write_callee hclosed hvalues.1 hlimits hprovides
      (lt_writeLevels hget value.height)
    rw [hcallee] at hwrite
    change registry.writeValue name (some value) = _ at hwrite
    rw [Body.messageValue, hwrite, beq_eq_false_iff_ne.mpr hconstruct, Encode.message,
      if_neg Bool.false_ne_true, Encode.values, Encode.values]
    exact (bind_pure_unit).symm
  · have hlength : (types.map (BusType.callee .write)).length = values.length := by
      rw [List.length_map, Value.length_eq_of_haveTypes hvalues]
    have hsize : 0 < registry.writers.size :=
      List.length_pos_of_mem (ProcedureTable.get?_eq_some_iff.mp hget).1
    have hheight : Value.heightAll values <
        registry.writers.size * ((Body.messageValue values).height + 1) :=
      Nat.lt_of_lt_of_le
        (Nat.lt_succ_of_le (Value.heightAll_le_height_messageValue values))
        (Nat.le_mul_of_pos_left _ hsize)
    rw [writeValue, writeLevels, writeWithin, find_eq_ok hget, Attempt.lift_ok_bind,
      Procedure.write_messageValue hhandles.body_eq hlength]
    exact writeBody_eq hclosed hhandles hall hvalues hheight

/-- A registered reader settles what its body says word for word. -/
theorem readValue_eq_settled (hclosed : Closed policy registry)
    (hget : registry.get? .read name = some procedure)
    (htypes : BusType.parseAll procedure.signature = .ok types) :
    registry.readValue name =
      (fun values => Body.messageValue (Value.settledAll values)) <$>
        Decode.verbatimMessage (procedure.construct == .variantMessage) procedure.signature
          types := by
  rw [readValue_eq_message hclosed hget htypes, Decode.message_eq_settled, bind_map_left]
  rfl

/-- A body is accepted if it is read word for word to its end. -/
theorem read_eq_ok_iff_verbatim (hclosed : Closed policy registry)
    (hget : registry.get? .read name = some procedure)
    (htypes : BusType.parseAll procedure.signature = .ok types) {body : ByteArray}
    {value : Value} :
    registry.read name body = .ok value ↔
      ∃ values, Decode.verbatimMessage (procedure.construct == .variantMessage)
          procedure.signature types ⟨.little, body⟩ {} = (.ok values, ⟨body.size, 0⟩) ∧
        value = Body.messageValue (Value.settledAll values) := by
  rw [read_eq_ok_iff, readValue_eq_settled hclosed hget htypes]
  constructor
  · rintro ⟨⟨position, depth⟩, hrun, hle⟩
    obtain ⟨values, hverbatim, rfl⟩ := Decode.map_eq_ok_iff.mp hrun
    have hspells := (Decode.spellsMessage_of_ok hverbatim (Nat.zero_le _)).spells
    have hposition : position = body.size := Nat.le_antisymm hspells.stop_le hle
    have hdepth : depth = 0 := hspells.depth_eq
    rw [hposition, hdepth] at hverbatim
    exact ⟨values, hverbatim, rfl⟩
  · rintro ⟨values, hverbatim, rfl⟩
    exact ⟨_, Decode.map_eq_ok_iff.mpr ⟨values, hverbatim, rfl⟩, Nat.le_refl _⟩

theorem exists_get?_of_read {body : ByteArray} {value : Value}
    (hread : registry.read name body = .ok value) :
    ∃ procedure, registry.get? .read name = some procedure := by
  obtain ⟨reached, hrun, -⟩ := read_eq_ok_iff.mp hread
  cases hget : registry.get? .read name with
  | some procedure => exact ⟨procedure, rfl⟩
  | none =>
      rw [readValue, readLevels, readWithin, find, hget] at hrun
      cases hrun

theorem exists_verbatim_of_read (hclosed : Closed policy registry) {body : ByteArray}
    {value : Value} (hread : registry.read name body = .ok value) :
    ∃ procedure types values, registry.get? .read name = some procedure ∧
      BusType.parseAll procedure.signature = .ok types ∧
      Decode.verbatimMessage (procedure.construct == .variantMessage) procedure.signature types
        ⟨.little, body⟩ {} = (.ok values, ⟨body.size, 0⟩) ∧
      value = Body.messageValue (Value.settledAll values) := by
  obtain ⟨procedure, hget⟩ := exists_get?_of_read hread
  obtain ⟨types, htypes⟩ := exists_types_of_get? hclosed hget
  obtain ⟨values, hverbatim, hvalue⟩ :=
    (read_eq_ok_iff_verbatim hclosed hget htypes).mp hread
  exact ⟨procedure, types, values, hget, htypes, hverbatim, hvalue⟩

end Registry

end BusCodec
