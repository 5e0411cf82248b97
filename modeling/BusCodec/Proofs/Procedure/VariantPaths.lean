import BusCodec.Proofs.Procedure.Bodies

/-!
A variant goes through a session in two ways.  One entry is for the type of what the
variant holds, which it checks; the other finds the type in the message.  Both write the
same bytes.  They read the same value, except that the second counts one variant more.
-/

namespace BusCodec

namespace Value

theorem messageLayout_variant {order : ByteOrder} {type : BusType} {value : Value}
    (hlimits : BusType.WithinLimits [type]) (hvalue : HasType value type) :
    messageLayout order true type.signature [value] [type] =
      messageLayout order false "v" [.variant value] [.variant] := by
  rw [messageLayout, messageLayout, if_pos rfl, if_neg Bool.false_ne_true]
  simp only [layoutAll]
  rw [layout, signature_eq_of_hasType hvalue, BusType.parse_signature hlimits,
    Layout.append_assoc]

end Value

namespace Generator

theorem entryTypes_variant : entryTypes "v" false = .ok (.message, [.variant]) :=
  rfl

end Generator

namespace Encode

theorem message_variant {type : BusType} (hlimits : BusType.WithinLimits [type])
    {value : Value} (hvalue : Value.HasType value type) :
    message true type.signature [value] = message false "v" [.variant value] := by
  rw [message, message, if_pos rfl, if_neg Bool.false_ne_true, values, values, values, values,
    Encode.value, Value.signature_eq_of_hasType hvalue, BusType.parse_signature hlimits,
    Attempt.liftGrammar_ok_bind, bind_assoc]

end Encode

namespace Decode

variable {type : BusType} {buffer : Buffer} {cursor reached : Cursor} {values : List Value}

/-- What an entry for the type of a variant reads. -/
theorem known_eq_ok_iff {signature : String} :
    verbatimMessage true signature [type] buffer cursor = (.ok values, reached) ↔
      ∃ middle value, Decode.signature buffer cursor = (.ok signature, middle) ∧
        verbatimWith verbatimVariant type buffer middle = (.ok value, reached) ∧
        values = [value] := by
  rw [verbatimMessage, if_pos rfl, verbatimAllWith_singleton]
  constructor
  · intro h
    obtain ⟨_, middle, hexpected, h⟩ := Attempt.bind_eq_ok h
    obtain ⟨value, hvalue, rfl⟩ := map_eq_ok_iff.mp h
    exact ⟨middle, value, expectSignature_eq_ok_iff.mp hexpected, hvalue, rfl⟩
  · rintro ⟨middle, value, hsignature, hvalue, rfl⟩
    rw [bind_apply, Attempt.bind_of_ok (expectSignature_eq_ok_iff.mpr hsignature)]
    exact map_eq_ok_iff.mpr ⟨value, hvalue, rfl⟩

/-- What an entry for variants of any type reads. -/
theorem carried_eq_ok_iff (hdepth : cursor.variantDepth = 0) :
    verbatimMessage false "v" [.variant] buffer cursor = (.ok values, reached) ↔
      ∃ type middle value last, BusType.WithinLimits [type] ∧
        Decode.signature buffer cursor = (.ok type.signature, middle) ∧
        verbatimWith (verbatimWithin (maxVariantDepth - 1)) type buffer
          { middle with variantDepth := middle.variantDepth + 1 } = (.ok value, last) ∧
        reached = { last with variantDepth := last.variantDepth - 1 } ∧
        values = [.variant value] := by
  have hvariant : verbatimVariant buffer cursor =
      (variantType >>= fun type =>
        insideVariant (verbatimWith (verbatimWithin (maxVariantDepth - 1)) type)) buffer
        cursor := by
    rw [verbatimVariant, hdepth]
    rfl
  rw [verbatimMessage, if_neg Bool.false_ne_true, verbatimAllWith_singleton]
  constructor
  · intro h
    obtain ⟨carried, hcarried, rfl⟩ := map_eq_ok_iff.mp h
    obtain ⟨value, stopped, hvalue, hcarried⟩ := Attempt.bind_eq_ok hcarried
    cases hcarried
    rw [hvariant] at hvalue
    obtain ⟨type, middle, htype, hvalue⟩ := Attempt.bind_eq_ok hvalue
    obtain ⟨last, hcontents, rfl⟩ := insideVariant_eq_ok_iff.mp hvalue
    obtain ⟨hsignature, hlimits⟩ := variantType_eq_ok_iff.mp htype
    exact ⟨type, middle, value, last, hlimits, hsignature, hcontents, rfl, rfl⟩
  · rintro ⟨type, middle, value, last, hlimits, hsignature, hcontents, rfl, rfl⟩
    have htype := variantType_eq_ok_iff.mpr ⟨hsignature, hlimits⟩
    have hvalue := insideVariant_eq_ok_iff.mpr ⟨last, hcontents, rfl⟩
    have hcarried := hvariant.trans ((Attempt.bind_of_ok htype).trans hvalue)
    exact map_eq_ok_iff.mpr ⟨.variant value, Attempt.bind_of_ok hcarried, rfl⟩

/-- What is read for a known type is read in a variant as well, and the other way around,
where the variant may be around it. -/
theorem carried_eq_ok_iff_known (hlimits : BusType.WithinLimits [type]) {value : Value}
    (hdepth : cursor.variantDepth = 0) :
    verbatimMessage false "v" [.variant] buffer cursor = (.ok [.variant value], reached) ∧
        value.signature = type.signature ↔
      verbatimMessage true type.signature [type] buffer cursor = (.ok [value], reached) ∧
        value.variantDepth < maxVariantDepth := by
  rw [carried_eq_ok_iff hdepth, known_eq_ok_iff]
  constructor
  · rintro ⟨⟨carried, ⟨place, depth⟩, content, ⟨stop, inside⟩, hcarried, hsignature, hcontents,
      rfl, hvalue⟩, hsame⟩
    cases hvalue
    have hplace : depth = 0 := (spells_of_signature hsignature).1.depth_eq.trans hdepth
    subst hplace
    obtain ⟨htype, hspells, hnests⟩ := spellsOut_verbatimWith
      (spellsVariants_verbatimWithin 1 (maxVariantDepth - 1)) carried hcontents rfl
    obtain rfl : carried = type :=
      BusType.signature_injective ((Value.signature_eq_of_hasType htype).symm.trans hsame)
    have hinside : inside = 1 := hspells.depth_eq
    subst hinside
    obtain ⟨-, harrives⟩ := transfers_verbatimWith (transfers_toVariant 1 0 _) carried
      (Buffer.Overlaps.refl buffer) hcontents rfl (Nat.le_succ_of_le hnests)
    exact ⟨⟨_, value, hsignature, harrives.reads hspells.stop_le, rfl⟩, Nat.lt_succ_of_le hnests⟩
  · obtain ⟨stop, outside⟩ := reached
    rintro ⟨⟨⟨place, depth⟩, content, hsignature, hcontents, hvalue⟩, hnests⟩
    cases hvalue
    have hplace : depth = 0 := (spells_of_signature hsignature).1.depth_eq.trans hdepth
    subst hplace
    obtain ⟨htype, hspells, -⟩ := spellsOut_verbatimWith (spellsVariants_verbatimVariant 0) type
      hcontents rfl
    have hreached : outside = 0 := hspells.depth_eq
    subst hreached
    obtain ⟨-, harrives⟩ := transfers_verbatimWith (transfers_fromVariant 0 1 _) type
      (Buffer.Overlaps.refl buffer) hcontents rfl (Nat.le_sub_one_of_lt hnests)
    exact ⟨⟨type, _, value, _, hlimits, hsignature, harrives.reads hspells.stop_le, rfl, rfl⟩,
      Value.signature_eq_of_hasType htype⟩

/-- A text that is not the expected signature is reported, whatever follows it. -/
theorem expectSignature_mismatch {expected text : String} {types : List BusType}
    (hparse : BusType.parseAll text = .ok types) (hother : text ≠ expected) {rest : ByteArray}
    (hbytes : buffer.bytes =
      ⟨#[UInt8.ofNat text.utf8ByteSize]⟩ ++ text.toByteArray ++ ⟨#[0]⟩ ++ rest)
    (horder : buffer.order = .little) :
    ∃ reached, expectSignature expected buffer {} =
      (.error (.protocolMismatch expected text), reached) := by
  have hclean : BasicValue.textFault? 1 text = none := by
    obtain ⟨rfl, hlimits⟩ := BusType.parseAll_eq_ok_iff.mp hparse
    exact BasicValue.textFault?_signatureAll hlimits
  have hholds : buffer.Holds 0 ((Layout.text .little 1 text).bytes 0) :=
    ⟨.empty, rest, by rw [hbytes, Layout.bytes_text_one, ByteArray.empty_append], rfl⟩
  have hread : ReadsBack 0 .little signature (.text .little 1 text) text True :=
    readsBack_signature hparse hclean
  have hfound := (hread buffer 0 horder (Layout.not_fault_text _ _ _ _) hholds).1 trivial
  refine ⟨⟨0 + ((Layout.text .little 1 text).bytes 0).size, 0⟩, ?_⟩
  rw [expectSignature, bind_apply, Attempt.bind_of_ok hfound, if_neg hother]
  rfl

end Decode

/-- Whether variants are nested in what is read from a body in so many levels or fewer,
also in an entry of a dictionary that a later entry of its key replaces. -/
def NestedAtMost (levels : Nat) (variant : Bool) (signature : String) (types : List BusType)
    (body : ByteArray) : Prop :=
  ∀ values reached,
    Decode.verbatimMessage variant signature types ⟨.little, body⟩ {} = (.ok values, reached) →
      Value.variantDepthAll values ≤ levels

theorem nestedAtMost_iff {levels : Nat} {variant : Bool} {signature : String}
    {types : List BusType} {body : ByteArray} {values : List Value} {reached : Cursor}
    (hrun : Decode.verbatimMessage variant signature types ⟨.little, body⟩ {} =
      (.ok values, reached)) :
    NestedAtMost levels variant signature types body ↔
      Value.variantDepthAll values ≤ levels := by
  constructor
  · intro h
    exact h values reached hrun
  · intro hdepth others last hother
    cases hrun.symm.trans hother
    exact hdepth

namespace Registry

variable {policy : MapPolicy} {registry : Registry} {construct : Construct}
  {signature : String} {variant : Bool} {types : List BusType} {message : Message}

theorem exists_entry (hclosed : Closed policy registry) {access : Access}
    (htypes : Generator.entryTypes signature variant = .ok (construct, types))
    (hcontains : registry.contains access (procedureName access construct signature)) :
    ∃ procedure, registry.get? access (procedureName access construct signature) =
        some procedure ∧
      procedure.HandlesMessage policy access signature variant types ∧
      ∀ type ∈ types, registry.Provides access type := by
  obtain ⟨procedure, hget⟩ := contains_eq_true_iff.mp hcontains
  exact ⟨procedure, hget, hclosed.handlesMessage_of_get? htypes hget⟩

theorem readMessage_eq_ok_iff (hclosed : Closed policy registry)
    (htypes : Generator.entryTypes signature variant = .ok (construct, types))
    (hcontains : registry.contains .read (procedureName .read construct signature))
    (hheader : message.signature = if variant then "v" else signature) {value : Value} :
    registry.readMessage (procedureName .read construct signature) message = .ok value ↔
      ∃ values, Decode.verbatimMessage variant signature types ⟨.little, message.body⟩ {} =
          (.ok values, ⟨message.body.size, 0⟩) ∧
        value = Body.messageValue (Value.settledAll values) := by
  obtain ⟨procedure, hget, hhandles, -⟩ := exists_entry hclosed htypes hcontains
  rw [readMessage_eq_read hget hhandles.isEntry (hheader.trans hhandles.bodySignature.symm)]
  rw [read_eq_ok_iff_verbatim hclosed hget hhandles.parseAll_eq, hhandles.variant_eq,
    hhandles.signature_eq]

theorem readMessage_eq_error (hclosed : Closed policy registry)
    (htypes : Generator.entryTypes signature variant = .ok (construct, types))
    (hcontains : registry.contains .read (procedureName .read construct signature))
    (hheader : message.signature = if variant then "v" else signature) {error : Error}
    {reached : Cursor}
    (hfailed : Decode.verbatimMessage variant signature types ⟨.little, message.body⟩ {} =
      (.error error, reached)) :
    registry.readMessage (procedureName .read construct signature) message = .error error := by
  obtain ⟨procedure, hget, hhandles, -⟩ := exists_entry hclosed htypes hcontains
  rw [readMessage_eq_read hget hhandles.isEntry (hheader.trans hhandles.bodySignature.symm)]
  have hread : registry.readValue (procedureName .read construct signature)
      ⟨.little, message.body⟩ {} = (.error error, reached) := by
    rw [readValue_eq_settled hclosed hget hhandles.parseAll_eq, hhandles.variant_eq,
      hhandles.signature_eq, Decode.map_apply, hfailed]
  exact congrArg Prod.fst (Attempt.bind_of_error hread)

theorem writeMessage_variant (hclosed : Closed policy registry) {type : BusType}
    (hknown : Generator.entryTypes type.signature true = .ok (.variantMessage, [type]))
    (hknownWriter : registry.contains .write
      (procedureName .write .variantMessage type.signature))
    (hwriter : registry.contains .write (procedureName .write .message "v")) {value : Value}
    (hvalue : Value.HasType value type) :
    registry.writeMessage (procedureName .write .variantMessage type.signature) [value] =
      registry.writeMessage (procedureName .write .message "v") [.variant value] := by
  have hlimits := (Generator.signature_of_entryTypes hknown).2
  have hvariant : Value.HasType (.variant value) .variant := by
    refine Value.hasType_variant_iff.mpr ⟨type, ?_, hvalue⟩
    rw [Value.signature_eq_of_hasType hvalue, BusType.parse_signature hlimits]
  have hvalues : Value.HaveTypes [value] [type] := ⟨hvalue, trivial⟩
  have hvariants : Value.HaveTypes [.variant value] [.variant] := ⟨hvariant, trivial⟩
  obtain ⟨_, hget, hhandles, hprovides⟩ := exists_entry hclosed hknown hknownWriter
  obtain ⟨_, hgetToo, hhandlesToo, hprovidesToo⟩ :=
    exists_entry hclosed Generator.entryTypes_variant hwriter
  rw [writeMessage_eq hclosed hget hhandles hprovides hvalues,
    writeMessage_eq hclosed hgetToo hhandlesToo hprovidesToo hvariants,
    Encode.message_variant hlimits hvalue]
  rfl

end Registry

namespace Generator

variable {generator : Generator}

/-- The two ways for variants of a type write the same messages.  One reads a value with
at most sixty-three variants nested in what it is read from exactly when the other reads
the variant of the value.  A variant of another type is refused by the first. -/
theorem variantPaths_agree (hreachable : generator.Reachable) {signature : String}
    {type : BusType} (htype : BusType.parse signature = .ok type) :
    let known (access : Access) : String := procedureName access .variantMessage signature
    let carried (access : Access) : String := procedureName access .message "v"
    let registry := generator.registry
    (registry.contains .write (known .write) → registry.contains .write (carried .write) →
      ∀ value : Value, Value.HasType value type →
        registry.writeMessage (known .write) [value] =
          registry.writeMessage (carried .write) [.variant value]) ∧
    (registry.contains .read (known .read) → registry.contains .read (carried .read) →
      ∀ (message : Message) (value : Value), message.signature = "v" →
        (registry.readMessage (known .read) message = .ok value ∧
            NestedAtMost (maxVariantDepth - 1) true signature [type] message.body ↔
          registry.readMessage (carried .read) message = .ok (.variant value) ∧
            value.signature = signature)) ∧
    (registry.contains .read (known .read) →
      ∀ (message : Message) (text : String) (types : List BusType) (rest : ByteArray),
        message.signature = "v" → BusType.parseAll text = .ok types → text ≠ signature →
        message.body =
          ⟨#[UInt8.ofNat text.utf8ByteSize]⟩ ++ text.toByteArray ++ ⟨#[0]⟩ ++ rest →
        registry.readMessage (known .read) message =
          .error (.protocolMismatch signature text)) := by
  intro known carried registry
  have hclosed := hreachable.sound
  obtain ⟨rfl, hlimits⟩ := BusType.parse_eq_ok_iff.mp htype
  have hknown : entryTypes type.signature true = .ok (.variantMessage, [type]) :=
    entryTypes_eq_ok_iff.mpr ⟨BusType.parse_eq_ok_iff_parseAll.mp htype, List.cons_ne_nil _ _,
      fun _ => ⟨type, rfl⟩, rfl⟩
  refine ⟨?_, ?_, ?_⟩
  · intro hknownWriter hwriter value hvalue
    exact Registry.writeMessage_variant hclosed hknown hknownWriter hwriter hvalue
  · intro hknownReader hreader message value hheader
    rw [Registry.readMessage_eq_ok_iff hclosed hknown hknownReader hheader,
      Registry.readMessage_eq_ok_iff hclosed entryTypes_variant hreader hheader]
    constructor
    · rintro ⟨⟨values, hverbatim, rfl⟩, hnests⟩
      rw [nestedAtMost_iff hverbatim] at hnests
      obtain ⟨_, content, -, -, rfl⟩ := Decode.known_eq_ok_iff.mp hverbatim
      have hdepth := Value.variantDepthAll_le_iff.mp hnests content List.mem_cons_self
      obtain ⟨hvariant, hsignature⟩ := (Decode.carried_eq_ok_iff_known hlimits rfl).mpr
        ⟨hverbatim, Nat.lt_succ_of_le hdepth⟩
      exact ⟨⟨_, hvariant, rfl⟩, (Value.signature_settled content).trans hsignature⟩
    · rintro ⟨⟨values, hverbatim, hvalue⟩, hsignature⟩
      obtain ⟨_, _, content, _, -, -, -, -, rfl⟩ := (Decode.carried_eq_ok_iff rfl).mp hverbatim
      cases hvalue
      obtain ⟨hread, hdepth⟩ := (Decode.carried_eq_ok_iff_known hlimits rfl).mp
        ⟨hverbatim, (Value.signature_settled content).symm.trans hsignature⟩
      refine ⟨⟨_, hread, rfl⟩, (nestedAtMost_iff hread).mpr ?_⟩
      exact Nat.max_le.mpr ⟨Nat.le_sub_one_of_lt hdepth, Nat.zero_le _⟩
  · intro hknownReader message text types rest hheader hparse hother hbytes
    obtain ⟨reached, hmismatch⟩ : ∃ reached,
        Decode.expectSignature type.signature message.buffer {} =
          (.error (.protocolMismatch type.signature text), reached) :=
      Decode.expectSignature_mismatch hparse hother hbytes rfl
    exact Registry.readMessage_eq_error hclosed hknown hknownReader hheader
      (Attempt.bind_of_error hmismatch)

/-- A session with both ways for variants of a type. -/
def bothPaths (signature : String) : Generator :=
  (performAll {} [.entry .write signature true, .entry .write "v" false,
    .entry .read signature true, .entry .read "v" false]).2

/-- An array of one number, and a text in its place. -/
theorem variantPaths_agree_array :
    let registry := (bothPaths "ai").registry
    let value := Value.array "ai" [.basic (.int32 5)]
    registry.writeMessage "write_message_v_ai" [value] =
        registry.writeMessage "write_message_v" [.variant value] ∧
      registry.readMessage "read_message_v"
          ⟨⟨#[2, 97, 105, 0, 4, 0, 0, 0, 5, 0, 0, 0]⟩, "v"⟩ = .ok (.variant value) ∧
      registry.readMessage "read_message_v_ai" ⟨⟨#[1, 115, 0]⟩, "v"⟩ =
        .error (.protocolMismatch "ai" "s") := by
  intro registry value
  have hreachable : (bothPaths "ai").Reachable := ⟨fun _ => .hashed, _, rfl⟩
  have htype : BusType.parse "ai" = .ok (.array (.basic .int32)) := rfl
  have hregistered :
      (bothPaths "ai").registry.contains .write (procedureName .write .variantMessage "ai") ∧
      (bothPaths "ai").registry.contains .write (procedureName .write .message "v") ∧
      (bothPaths "ai").registry.contains .read (procedureName .read .variantMessage "ai") ∧
      (bothPaths "ai").registry.contains .read (procedureName .read .message "v") := by
    decide +kernel
  obtain ⟨hknownWriter, hwriter, hknownReader, hreader⟩ := hregistered
  obtain ⟨hwrites, hreads, hmismatch⟩ := variantPaths_agree hreachable htype
  have hrun : Decode.verbatimMessage true "ai" [.array (.basic .int32)]
      ⟨.little, ⟨#[2, 97, 105, 0, 4, 0, 0, 0, 5, 0, 0, 0]⟩⟩ {} = (.ok [value], ⟨12, 0⟩) := by
    with_unfolding_all rfl
  have hread : registry.readMessage "read_message_v_ai"
      ⟨⟨#[2, 97, 105, 0, 4, 0, 0, 0, 5, 0, 0, 0]⟩, "v"⟩ = .ok value :=
    (Registry.readMessage_eq_ok_iff hreachable.sound rfl hknownReader rfl).mpr ⟨_, hrun, rfl⟩
  refine ⟨hwrites hknownWriter hwriter value ⟨rfl, rfl, trivial⟩,
    ((hreads hknownReader hreader _ value rfl).mp ⟨hread, ?_⟩).1,
    hmismatch hknownReader _ "s" [.basic .string] .empty rfl rfl (by decide) rfl⟩
  exact (nestedAtMost_iff hrun).mpr (by decide)

/-- A byte in so many variants and one more. -/
def nestedByte (byte : UInt8) : Nat → Value
  | 0 => .variant (.basic (.byte byte))
  | levels + 1 => .variant (nestedByte byte levels)

def nestedBytes (byte : UInt8) : Nat → ByteArray
  | 0 => ⟨#[1, 121, 0]⟩ ++ ⟨#[byte]⟩
  | levels + 1 => ⟨#[1, 118, 0]⟩ ++ nestedBytes byte levels

theorem hasType_nestedByte (byte : UInt8) (levels : Nat) :
    Value.HasType (nestedByte byte levels) .variant := by
  induction levels with
  | zero =>
      have hbyte : Value.HasType (.basic (.byte byte)) (.basic .byte) := rfl
      exact Value.hasType_variant_iff.mpr
        ⟨.basic .byte, by rw [Value.signature_eq_of_hasType hbyte]; rfl, hbyte⟩
  | succ levels ih =>
      exact Value.hasType_variant_iff.mpr
        ⟨.variant, by rw [Value.signature_eq_of_hasType ih]; rfl, ih⟩

theorem variantDepth_nestedByte (byte : UInt8) (levels : Nat) :
    (nestedByte byte levels).variantDepth = levels + 1 := by
  induction levels with
  | zero => rfl
  | succ levels ih => rw [nestedByte, Value.variantDepth, ih]

theorem layout_nestedByte_zero (byte : UInt8) :
    (nestedByte byte 0).layout .little .variant =
      .append (.text .little 1 "y") (.basic .little (.byte byte)) := by
  have hbyte : Value.HasType (.basic (.byte byte)) (.basic .byte) := rfl
  rw [nestedByte, Value.layout, Value.signature_eq_of_hasType hbyte]
  rfl

theorem layout_nestedByte_succ (byte : UInt8) (levels : Nat) :
    (nestedByte byte (levels + 1)).layout .little .variant =
      .append (.text .little 1 "v") ((nestedByte byte levels).layout .little .variant) := by
  rw [nestedByte, Value.layout, Value.signature_eq_of_hasType (hasType_nestedByte byte levels)]
  rfl

theorem bytes_nestedByte (byte : UInt8) (levels offset : Nat) :
    ((nestedByte byte levels).layout .little .variant).bytes offset =
      nestedBytes byte levels := by
  induction levels generalizing offset with
  | zero =>
      have hbyte (offset : Nat) : (Layout.basic .little (.byte byte)).bytes offset = ⟨#[byte]⟩ := by
        change (Layout.word .little 1 byte.toNat).bytes offset = _
        rw [Layout.bytes_word_one, UInt8.ofNat_toNat]
      rw [layout_nestedByte_zero, Layout.bytes_append, Layout.bytes_text_one, hbyte]
      rfl
  | succ levels ih =>
      rw [layout_nestedByte_succ, Layout.bytes_append, Layout.bytes_text_one, ih]
      rfl

theorem not_fault_nestedByte (byte : UInt8) (levels offset : Nat) (error : Error) :
    ¬ ((nestedByte byte levels).layout .little .variant).fault offset error := by
  induction levels generalizing offset with
  | zero =>
      rw [layout_nestedByte_zero]
      rintro (hsignature | hbyte)
      · exact Layout.not_fault_text _ _ _ _ _ hsignature
      · cases hbyte
  | succ levels ih =>
      rw [layout_nestedByte_succ]
      rintro (hsignature | hnested)
      · exact Layout.not_fault_text _ _ _ _ _ hsignature
      · exact ih _ hnested

/-- A dictionary with two entries of one key, the first of which is in sixty-four
variants. -/
def twoEntries : Value :=
  .dict "a\x7byv\x7d" [(⟨.byte 1, by decide⟩, nestedByte 9 63),
    (⟨.byte 1, by decide⟩, nestedByte 7 0)]

theorem hasType_twoEntries : Value.HasType twoEntries (.dict .byte .variant) :=
  ⟨rfl, rfl, hasType_nestedByte 9 63, rfl, hasType_nestedByte 7 0, trivial⟩

theorem variantDepth_twoEntries : twoEntries.variantDepth = maxVariantDepth := by
  rw [twoEntries, Value.variantDepth, Value.variantDepthEntries, variantDepth_nestedByte]
  rfl

/-- The two entries in a variant. -/
def replacedEntry : Message where
  body :=
    ⟨#[5, 97, 123, 121, 118, 125, 0, 0, 205, 0, 0, 0, 0, 0, 0, 0, 1]⟩ ++ nestedBytes 9 63 ++
      ⟨#[0, 0, 0, 0, 0, 0, 1, 1, 121, 0, 7]⟩
  signature := "v"

theorem layout_twoEntries :
    let layout :=
      Value.messageLayout .little true "a\x7byv\x7d" [twoEntries] [.dict .byte .variant]
    layout.bytes 0 = replacedEntry.body ∧ ∀ error, ¬ layout.fault 0 error := by
  have hreplaced : ∀ offset, ((nestedByte 9 63).layout .little .variant).bytes offset = _ :=
    bytes_nestedByte 9 63
  have hentry : ∀ offset, ((nestedByte 7 0).layout .little .variant).bytes offset = _ :=
    bytes_nestedByte 7 0
  constructor
  · rw [ByteArray.ext_iff, ← Array.toList_inj]
    simp only [Value.messageLayout, if_true, Value.layoutAll, twoEntries, Value.layout,
      Value.entriesLayout, Layout.region, Layout.append, hreplaced, hentry,
      ByteArray.data_append, Array.toList_append, ByteArray.size_append]
    decide +kernel
  · rintro error (hsignature | (hentries | ⟨hlong, -⟩) | hnothing)
    · exact Layout.not_fault_text _ _ _ _ _ hsignature
    · rcases hentries with hnothing | hkey | hvalue | hnothing | hkey | hvalue | hnothing
      · cases hnothing
      · cases hkey
      · exact not_fault_nestedByte 9 63 _ _ hvalue
      · cases hnothing
      · cases hkey
      · exact not_fault_nestedByte 7 0 _ _ hvalue
      · cases hnothing
    · simp only [Layout.bytes_text_one, Value.entriesLayout, Layout.append, hreplaced, hentry,
        ByteArray.size_append] at hlong
      revert hlong
      decide +kernel
    · cases hnothing

/-- The value that is read holds one variant, but only one of the two entries reads it. -/
theorem readMessage_replacedEntry :
    let registry := (bothPaths "a\x7byv\x7d").registry
    let value := Value.dict "a\x7byv\x7d" [(⟨.byte 1, by decide⟩, .variant (.basic (.byte 7)))]
    registry.readMessage "read_message_v_aeyvz" replacedEntry = .ok value ∧
      value.variantDepth = 1 ∧ value.signature = "a\x7byv\x7d" ∧
      registry.readMessage "read_message_v" replacedEntry = .error .variantDepth := by
  intro registry value
  have hclosed : Registry.Closed (fun _ => .hashed) (bothPaths "a\x7byv\x7d").registry :=
    (performAll_grows (sound_start _) _).sound
  have hregistered :
      (bothPaths "a\x7byv\x7d").registry.contains .read
        (procedureName .read .variantMessage "a\x7byv\x7d") ∧
      (bothPaths "a\x7byv\x7d").registry.contains .read (procedureName .read .message "v") := by
    decide +kernel
  have htypes : entryTypes "a\x7byv\x7d" true =
      .ok (.variantMessage, [.dict .byte .variant]) := rfl
  have hlimits : BusType.WithinLimits [.dict .byte .variant] :=
    (Generator.signature_of_entryTypes htypes).2
  obtain ⟨hbytes, hclean⟩ := layout_twoEntries
  have hsignature : (BusType.dict .byte .variant).signature = "a\x7byv\x7d" := rfl
  have hsame : Value.messageLayout .little true (BusType.dict .byte .variant).signature
      [twoEntries] [.dict .byte .variant] =
        Value.messageLayout .little false "v" [.variant twoEntries] [.variant] :=
    Value.messageLayout_variant hlimits hasType_twoEntries
  rw [hsignature] at hsame
  obtain ⟨_, hget, hhandles, hprovides⟩ := Registry.exists_entry hclosed htypes hregistered.1
  obtain ⟨_, hgetToo, hhandlesToo, hprovidesToo⟩ :=
    Registry.exists_entry hclosed entryTypes_variant hregistered.2
  have hvalues : Value.HaveTypes [twoEntries] [.dict .byte .variant] :=
    ⟨hasType_twoEntries, trivial⟩
  have hvariants : Value.HaveTypes [.variant twoEntries] [.variant] :=
    ⟨Value.hasType_variant_iff.mpr ⟨.dict .byte .variant, rfl, hasType_twoEntries⟩, trivial⟩
  obtain ⟨hread, -⟩ :=
    Registry.readMessage_layout hclosed hget hhandles hprovides hvalues hclean
  rw [hsame] at hbytes hclean
  obtain ⟨-, hfails⟩ :=
    Registry.readMessage_layout hclosed hgetToo hhandlesToo hprovidesToo hvariants hclean
  rw [hsame, hbytes] at hread
  rw [hbytes] at hfails
  have hshallow : Value.variantDepthAll [twoEntries] ≤ maxVariantDepth := by
    rw [Value.variantDepthAll, variantDepth_twoEntries]
    decide
  have hdeep : ¬ Value.variantDepthAll [.variant twoEntries] ≤ maxVariantDepth := by
    rw [Value.variantDepthAll, Value.variantDepth, variantDepth_twoEntries]
    decide
  exact ⟨hread hshallow, rfl, rfl, hfails hdeep⟩

end Generator

end BusCodec
