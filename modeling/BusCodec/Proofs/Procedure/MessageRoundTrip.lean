import BusCodec.Proofs.Generator.Session
import BusCodec.Proofs.Procedure.Readers
import BusCodec.Proofs.Procedure.Writers
import BusCodec.Proofs.Wire.Faults

/-!
Messages go through generated entry procedures unchanged, whatever else the session
has generated before them, between them or after them.
-/

namespace BusCodec

namespace Value

/-- The encoding of a message body, which is a variant of the one type or holds one
value for each type. -/
def messageLayout (order : ByteOrder) (variant : Bool) (signature : String)
    (values : List Value) (types : List BusType) : Layout :=
  if variant then .append (.text order 1 signature) (layoutAll order values types)
  else layoutAll order values types

/-- The number of bytes that the elements of each array take in the encoding of a message
body that begins at an offset. -/
def messageArrayLengths (order : ByteOrder) (variant : Bool) (signature : String)
    (values : List Value) (types : List BusType) (offset : Nat) : List Nat :=
  arrayLengthsAll order values types
    (if variant then offset + ((Layout.text order 1 signature).bytes offset).size else offset)

theorem messageFault_iff {order : ByteOrder} {variant : Bool} {signature : String}
    {values : List Value} {types : List BusType} {offset : Nat} {error : Error}
    (hvalues : HaveTypes values types) :
    (messageLayout order variant signature values types).fault offset error ↔
      CausedBy (basicsAll values)
        (messageArrayLengths order variant signature values types offset) error := by
  rw [messageArrayLengths, ← faultAll_iff hvalues]
  cases variant with
  | false => exact Iff.rfl
  | true => exact or_iff_right (Layout.not_fault_text order 1 signature offset error)

end Value

namespace Generator

variable {signature : String} {types : List BusType} {construct : Construct}

theorem exists_type_of_variantTypes
    (h : entryTypes signature true = .ok (construct, types)) :
    ∃ type, types = [type] ∧ signature = type.signature ∧ BusType.WithinLimits [type] := by
  obtain ⟨hsignature, hlimits⟩ := signature_of_entryTypes h
  obtain ⟨type, rfl⟩ := (entryTypes_eq_ok_iff.mp h).2.2.1 rfl
  rw [← BusType.signature_eq_signatureAll] at hsignature
  exact ⟨type, rfl, hsignature, hlimits⟩

end Generator

namespace Encode

def message (variant : Bool) (signature : String) (values : List Value) : Encode Unit :=
  if variant then Encode.signature signature >>= fun _ => Encode.values values
  else Encode.values values

variable {signature : String} {variant : Bool} {types : List BusType} {values : List Value}
  {construct : Construct}

theorem yields_message
    (htypes : Generator.entryTypes signature variant = .ok (construct, types))
    (hvalues : Value.HaveTypes values types) :
    Yields (message variant signature values)
      (Value.messageLayout .little variant signature values types) := by
  have hlimits := (Generator.signature_of_entryTypes htypes).2
  have hbody := yields_values hvalues fun type htype => hlimits.of_mem htype
  cases variant with
  | false => exact hbody
  | true =>
      obtain ⟨type, -, rfl, htype⟩ := Generator.exists_type_of_variantTypes htypes
      exact (yields_signature htype).bind hbody

theorem toBody_of_yields {written : Encode Unit} {layout : Layout} (h : Yields written layout) :
    (toBody written = .ok (layout.bytes 0) ∧ ∀ error, ¬ layout.fault 0 error) ∨
      ∃ error, toBody written = .error error ∧ layout.fault 0 error := by
  rcases h .empty with ⟨hrun, hclean⟩ | ⟨error, reached, hrun, hfault⟩
  · refine .inl ⟨?_, hclean⟩
    rw [toBody, hrun, ByteArray.empty_append]
    rfl
  · refine .inr ⟨error, ?_, hfault⟩
    rw [toBody, hrun]

end Encode

namespace Decode

def message (variant : Bool) (signature : String) (types : List BusType) :
    Decode (List Value) :=
  if variant then expectSignature signature >>= fun _ => valuesWith Decode.variant types
  else valuesWith Decode.variant types

variable {order : ByteOrder} {signature : String} {variant : Bool} {types : List BusType}
  {values : List Value} {construct : Construct}

theorem readsBack_expectSignature {depth : Nat} {type : BusType}
    (h : BusType.WithinLimits [type]) :
    ReadsBack depth order (expectSignature type.signature) (.text order 1 type.signature) ()
      True := by
  have hparse := BusType.parse_eq_ok_iff_parseAll.mp (BusType.parse_signature h)
  refine (readsBack_signature hparse (BasicValue.textFault?_signature h)).finish ?_
  intro buffer _
  rw [if_pos rfl]
  rfl

theorem readsBack_message
    (htypes : Generator.entryTypes signature variant = .ok (construct, types))
    (hvalues : Value.HaveTypes values types) :
    ReadsBack 0 order (message variant signature types)
      (Value.messageLayout order variant signature values types) (Value.settledAll values)
      (Value.variantDepthAll values ≤ maxVariantDepth) := by
  have hlimits := (Generator.signature_of_entryTypes htypes).2
  have hbody := readsBack_valuesWith (readsBackVariants_variant 0 order) hvalues
    fun type htype => hlimits.of_mem htype
  cases variant with
  | false => exact hbody
  | true =>
      obtain ⟨type, -, rfl, htype⟩ := Generator.exists_type_of_variantTypes htypes
      exact (readsBack_expectSignature htype).andThen hbody

end Decode

namespace Procedure

variable {policy : MapPolicy} {access : Access} {signature : String} {variant : Bool}
  {types : List BusType} {procedure : Procedure}

theorem HandlesMessage.isEntry
    (h : procedure.HandlesMessage policy access signature variant types) :
    procedure.isEntry = true := by
  rw [Procedure.isEntry, h.body_eq]

theorem HandlesMessage.bodySignature
    (h : procedure.HandlesMessage policy access signature variant types) :
    procedure.bodySignature = if variant then "v" else signature := by
  rw [Procedure.bodySignature, h.body_eq, h.signature_eq]
  cases variant <;> rfl

end Procedure

namespace Registry

variable {policy : MapPolicy} {registry : Registry} {name signature : String}
  {variant : Bool} {types : List BusType} {values : List Value} {procedure : Procedure}

theorem findEntry_eq_ok {access : Access} (hget : registry.get? access name = some procedure)
    (hentry : procedure.isEntry = true) : registry.findEntry access name = .ok procedure := by
  rw [findEntry, find_eq_ok hget]
  change (if procedure.isEntry then Except.ok procedure else _) = _
  rw [if_pos hentry]

theorem writeBody_eq (hclosed : Closed policy registry)
    (hhandles : procedure.HandlesMessage policy .write signature variant types)
    (hprovides : ∀ type ∈ types, registry.Provides .write type)
    (hvalues : Value.HaveTypes values types) {levels : Nat}
    (hheight : Value.heightAll values < levels) :
    procedure.writeBody (registry.writeWithin levels) values =
      Encode.message variant signature values := by
  have hlimits := (Generator.signature_of_entryTypes hhandles.types_eq).2
  have hlength : ¬ (types.map (BusType.callee .write)).length ≠ values.length := by
    rw [List.length_map, Value.length_eq_of_haveTypes hvalues]
    exact fun h => h rfl
  have hall := writeAll_callees hclosed hvalues (fun type htype => hlimits.of_mem htype)
    hprovides hheight
  rw [Procedure.writeBody, hhandles.body_eq]
  simp only
  rw [if_neg hlength, hall]
  cases variant <;> rfl

/-- An entry writer writes what the writer of values writes. -/
theorem writeMessage_eq (hclosed : Closed policy registry)
    (hget : registry.get? .write name = some procedure)
    (hhandles : procedure.HandlesMessage policy .write signature variant types)
    (hprovides : ∀ type ∈ types, registry.Provides .write type)
    (hvalues : Value.HaveTypes values types) :
    registry.writeMessage name values =
      (Encode.toBody (Encode.message variant signature values)).map fun body =>
        ⟨body, if variant then "v" else signature⟩ := by
  have hbody := writeBody_eq hclosed hhandles hprovides hvalues
    (lt_writeLevels hget (Value.heightAll values))
  rw [writeMessage, findEntry_eq_ok hget hhandles.isEntry]
  change Encode.toBody _ >>= _ = _
  rw [hbody, hhandles.bodySignature]
  rfl

/-- An entry reader reads what the reader of values reads. -/
theorem readValue_eq (hclosed : Closed policy registry)
    (hget : registry.get? .read name = some procedure)
    (hhandles : procedure.HandlesMessage policy .read signature variant types)
    (hprovides : ∀ type ∈ types, registry.Provides .read type) :
    registry.readValue name =
      Decode.message variant signature types >>= fun values =>
        pure (Body.messageValue values) := by
  funext buffer
  have hlevels : registry.readers.size ≤ registry.readers.size * (buffer.bytes.size + 1) :=
    Nat.le_mul_of_pos_right _ (Nat.succ_pos _)
  have hreadable : ∀ type ∈ types,
      registry.Readable (registry.readers.size * (buffer.bytes.size + 1)) type := by
    intro type htype
    exact ⟨hprovides type htype, Nat.le_trans (registry.readersUpTo_le_size _) hlevels⟩
  have hall := readAll_callees hclosed hreadable
  rw [readValue, readLevels, readWithin, find_eq_ok hget]
  change procedure.body.read _ procedure.signature buffer = _
  rw [hhandles.body_eq]
  cases variant with
  | false =>
      change (Callee.readAll _ (types.map (BusType.callee .read)) >>= _) buffer = _
      rw [hall]
      rfl
  | true =>
      change (Decode.expectSignature signature >>= fun _ =>
        Callee.readAll _ (types.map (BusType.callee .read)) >>= _) buffer = _
      rw [hall, Decode.message, if_pos rfl, bind_assoc]

/-- After a value has been read, nothing may be left over. -/
theorem read_of_readValue {body : ByteArray} {value : Value} {reached : Cursor}
    (hrun : registry.readValue name ⟨.little, body⟩ {} = (.ok value, reached)) :
    registry.read name body =
      (Decode.complete ⟨.little, body⟩ reached).1.map fun _ => value := by
  change ((registry.readValue name >>= fun value =>
    Decode.complete >>= fun _ => pure value) ⟨.little, body⟩ {}).1 = _
  rw [Decode.bind_apply, Attempt.bind_of_ok hrun, Decode.bind_apply, Attempt.bind_apply]
  cases Decode.complete ⟨.little, body⟩ reached with
  | mk outcome last => cases outcome <;> rfl

theorem read_eq_ok_iff {body : ByteArray} {value : Value} :
    registry.read name body = .ok value ↔
      ∃ reached, registry.readValue name ⟨.little, body⟩ {} = (.ok value, reached) ∧
        body.size ≤ reached.position := by
  constructor
  · intro hread
    cases hrun : (registry.readValue name >>= fun value =>
        Decode.complete >>= fun _ => pure value) ⟨.little, body⟩ {} with
    | mk outcome reached =>
        have houtcome : outcome = .ok value := hread ▸ congrArg Prod.fst hrun.symm
        rw [houtcome] at hrun
        obtain ⟨result, stopped, hresult, hrun⟩ := Attempt.bind_eq_ok hrun
        obtain ⟨_, last, hcomplete, hrun⟩ := Attempt.bind_eq_ok hrun
        cases hrun
        simp only [Decode.complete] at hcomplete
        split at hcomplete
        · rename_i hnothing
          exact ⟨stopped, hresult, Nat.le_of_sub_eq_zero hnothing⟩
        · cases hcomplete
  · rintro ⟨reached, hrun, hle⟩
    have hcomplete : Decode.complete ⟨.little, body⟩ reached = (.ok (), reached) :=
      if_pos (Nat.sub_eq_zero_of_le hle)
    rw [read_of_readValue hrun, hcomplete]
    rfl

/-- A message with the signature of an entry is read as its body is. -/
theorem readMessage_eq_read {message : Message}
    (hget : registry.get? .read name = some procedure) (hentry : procedure.isEntry = true)
    (hsignature : message.signature = procedure.bodySignature) :
    registry.readMessage name message = registry.read name message.body := by
  rw [readMessage, findEntry_eq_ok hget hentry]
  change (message.checkSignature procedure.bodySignature >>= fun _ => _) = _
  rw [Message.checkSignature, if_pos hsignature]
  rfl

/-- An entry reader reads an encoding back unless variants are nested too deeply in it. -/
theorem readMessage_layout (hclosed : Closed policy registry)
    (hget : registry.get? .read name = some procedure)
    (hhandles : procedure.HandlesMessage policy .read signature variant types)
    (hprovides : ∀ type ∈ types, registry.Provides .read type)
    (hvalues : Value.HaveTypes values types)
    (hclean : ∀ error,
      ¬ (Value.messageLayout .little variant signature values types).fault 0 error) :
    let message : Message :=
      ⟨(Value.messageLayout .little variant signature values types).bytes 0,
        if variant then "v" else signature⟩
    (Value.variantDepthAll values ≤ maxVariantDepth →
      registry.readMessage name message =
        .ok (Body.messageValue (Value.settledAll values))) ∧
    (¬ Value.variantDepthAll values ≤ maxVariantDepth →
      registry.readMessage name message = .error .variantDepth) := by
  intro message
  have hholds : Buffer.Holds message.buffer 0 message.body :=
    ⟨.empty, .empty, by rw [ByteArray.append_empty, ByteArray.empty_append]; rfl, rfl⟩
  obtain ⟨hok, hdeep⟩ := (Decode.readsBack_message hhandles.types_eq hvalues).map
    Body.messageValue message.buffer 0 rfl hclean hholds
  rw [← readValue_eq hclosed hget hhandles hprovides] at hok hdeep
  rw [readMessage_eq_read hget hhandles.isEntry hhandles.bodySignature.symm]
  constructor
  · intro hshallow
    exact read_eq_ok_iff.mpr ⟨_, hok hshallow, Nat.le_add_left _ _⟩
  · intro htooDeep
    obtain ⟨reached, herror⟩ := hdeep htooDeep
    exact congrArg Prod.fst (Attempt.bind_of_error herror)

theorem readMessage_eq_ok (hclosed : Closed policy registry)
    (hget : registry.get? .read name = some procedure)
    (hhandles : procedure.HandlesMessage policy .read signature variant types)
    (hprovides : ∀ type ∈ types, registry.Provides .read type)
    (hvalues : Value.HaveTypes values types) (hkeys : Value.AllDistinctKeys values)
    (hdepth : Value.variantDepthAll values ≤ maxVariantDepth)
    (hclean : ∀ error,
      ¬ (Value.messageLayout .little variant signature values types).fault 0 error) :
    registry.readMessage name
        ⟨(Value.messageLayout .little variant signature values types).bytes 0,
          if variant then "v" else signature⟩ =
      .ok (Body.messageValue values) := by
  have hread := (readMessage_layout hclosed hget hhandles hprovides hvalues hclean).1 hdepth
  rw [Value.settledAll_eq_self hkeys] at hread
  exact hread

end Registry

namespace Generator

/-- Values for the types of a signature are written as a message that is read back as
the values, with the entry procedures of any session.  If there is no such message,
then because a text in the values breaks a rule or an array is too long. -/
theorem message_reads_back {policy : MapPolicy} {actions : List Action} {signature : String}
    {variant : Bool} {writer reader : String}
    (hwriter : (Action.entry .write signature variant, Answer.entry (.ok writer)) ∈
      (performAll ⟨policy, {}⟩ actions).1)
    (hreader : (Action.entry .read signature variant, Answer.entry (.ok reader)) ∈
      (performAll ⟨policy, {}⟩ actions).1)
    {types : List BusType} (htypes : BusType.parseAll signature = .ok types)
    {values : List Value} (hvalues : Value.HaveTypes values types)
    (hkeys : Value.AllDistinctKeys values)
    (hdepth : ∀ value ∈ values, value.variantDepth ≤ maxVariantDepth) :
    let registry := (performAll ⟨policy, {}⟩ actions).2.registry
    let layout := Value.messageLayout .little variant signature values types
    (∃ error, registry.writeMessage writer values = .error error ∧ layout.fault 0 error ∧
        Value.Explained (Value.basicsAll values) error) ∨
      ∃ message, registry.writeMessage writer values = .ok message ∧
        message.signature = (if variant then "v" else signature) ∧
        registry.readMessage reader message = .ok (Body.messageValue values) := by
  intro registry layout
  have hclosed : Registry.Closed _ registry :=
    (performAll_grows (sound_start policy) actions).sound
  obtain ⟨construct, written, writing, hwritten, hget, hwrites, hwriters⟩ :=
    handlesMessage_of_mem (sound_start policy) hwriter
  obtain ⟨_, read, reading, hread, hgetReader, hreads, hreaders⟩ :=
    handlesMessage_of_mem (sound_start policy) hreader
  have hsame : ∀ {construct : Construct} {parsed : List BusType},
      entryTypes signature variant = .ok (construct, parsed) → parsed = types := by
    intro construct parsed h
    have hparsed := (entryTypes_eq_ok_iff.mp h).1
    rw [htypes] at hparsed
    cases hparsed
    rfl
  rw [hsame hwritten] at hwrites hwriters hwritten
  rw [hsame hread] at hreads hreaders
  have hwrite := Registry.writeMessage_eq hclosed hget hwrites hwriters hvalues
  rcases Encode.toBody_of_yields (Encode.yields_message hwritten hvalues) with
    ⟨hbody, hclean⟩ | ⟨error, hbody, hfault⟩
  · rw [hbody] at hwrite
    exact .inr ⟨_, hwrite, rfl, Registry.readMessage_eq_ok hclosed hgetReader hreads hreaders
      hvalues hkeys (Value.variantDepthAll_le_iff.mpr hdepth) hclean⟩
  · rw [hbody] at hwrite
    exact .inl ⟨error, hwrite, hfault, ((Value.messageFault_iff hvalues).mp hfault).explained⟩

/-- A text and an array of variants, in a session that has other things to generate. -/
theorem message_reads_back_variants :
    ∃ message,
      (performAll {} [.entry .read "sav" false, .callee .write "ai",
        .entry .write "sav" false]).2.registry.writeMessage "write_message_sav"
          [.basic (.string "ab"), .array "av" [.variant (.basic (.byte 7))]] = .ok message ∧
      message.signature = "sav" ∧
      (performAll {} [.entry .read "sav" false, .callee .write "ai",
        .entry .write "sav" false]).2.registry.readMessage "read_message_sav" message =
          .ok (.struct [.basic (.string "ab"), .array "av" [.variant (.basic (.byte 7))]]) := by
  have hwriter : (Action.entry .write "sav" false, Answer.entry (.ok "write_message_sav")) ∈
      (performAll ⟨fun _ => .hashed, {}⟩ [.entry .read "sav" false, .callee .write "ai",
        .entry .write "sav" false]).1 :=
    .tail _ (.tail _ (.head _))
  have hreader : (Action.entry .read "sav" false, Answer.entry (.ok "read_message_sav")) ∈
      (performAll ⟨fun _ => .hashed, {}⟩ [.entry .read "sav" false, .callee .write "ai",
        .entry .write "sav" false]).1 :=
    .head _
  have htypes : BusType.parseAll "sav" = .ok [.basic .string, .array .variant] := rfl
  have hvalues : Value.HaveTypes
      [.basic (.string "ab"), .array "av" [.variant (.basic (.byte 7))]]
      [.basic .string, .array .variant] := ⟨rfl, ⟨rfl, rfl, trivial⟩, trivial⟩
  rcases message_reads_back hwriter hreader htypes hvalues
      (by simp [Value.AllDistinctKeys, Value.DistinctKeys]) (by decide) with
    ⟨error, herror, -⟩ | hmessage
  · have hwritten : (performAll ⟨fun _ => .hashed, {}⟩ [.entry .read "sav" false,
        .callee .write "ai", .entry .write "sav" false]).2.registry.writeMessage
          "write_message_sav"
          [.basic (.string "ab"), .array "av" [.variant (.basic (.byte 7))]] =
        .ok ⟨⟨#[2, 0, 0, 0, 97, 98, 0, 0, 4, 0, 0, 0, 1, 121, 0, 7]⟩, "sav"⟩ := by
      with_unfolding_all rfl
    rw [hwritten] at herror
    cases herror
  · exact hmessage

end Generator

end BusCodec
