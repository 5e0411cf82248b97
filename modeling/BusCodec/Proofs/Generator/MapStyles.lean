import BusCodec.Procedure.Reading
import BusCodec.Procedure.Writing
import BusCodec.Proofs.Generator.HistoryFree

/-!
The choice of map types is seen in native types only.  When the styles of maps are taken out
of everything that a generator has generated, a session under any policy is a session of the
plain generator, which knows one style; and nothing that runs a procedure looks at its native
types.
-/

namespace BusCodec

namespace NativeType

mutual

/-- A native type with all its maps in one style. -/
def unstyled : NativeType → NativeType
  | .basic type => .basic type
  | .anyValue => .anyValue
  | .vec item => .vec (unstyled item)
  | .map _ key value => .map .hashed (unstyled key) (unstyled value)
  | .tuple members => .tuple (unstyledAll members)
  | .ref target => .ref (unstyled target)
  | .option inner => .option (unstyled inner)
termination_by structural type => type

def unstyledAll : List NativeType → List NativeType
  | [] => []
  | member :: members => unstyled member :: unstyledAll members
termination_by structural members => members

end

end NativeType

/-- The policy that knows one style. -/
def MapPolicy.plain : MapPolicy :=
  fun _ => .hashed

namespace NativeType

variable {policy : MapPolicy}

mutual

/-- Apart from map styles, what owns the values of a type is what owns them under the plain
policy, and there is nothing under one policy if there is nothing under another. -/
theorem map_unstyled_owned (policy : MapPolicy) : ∀ type : BusType,
    (owned policy type).map unstyled = owned .plain type
  | .basic type => rfl
  | .variant => rfl
  | .array element => by
      rw [owned, owned, ← map_unstyled_owned policy element]
      cases owned policy element <;> rfl
  | .dict key value => by
      by_cases hkey : key = .double
      · subst hkey
        rfl
      · rw [owned, owned, ← map_unstyled_owned policy value]
        · cases owned policy value <;> rfl
        · exact hkey
        · exact hkey
  | .struct first rest => by
      rw [owned, owned, ← map_unstyled_owned policy first, ← map_unstyledAll_ownedAll policy rest]
      cases owned policy first with
      | error error => rfl
      | ok native => cases ownedAll policy rest <;> rfl

theorem map_unstyledAll_ownedAll (policy : MapPolicy) : ∀ types : List BusType,
    (ownedAll policy types).map unstyledAll = ownedAll .plain types
  | [] => rfl
  | type :: types => by
      rw [ownedAll, ownedAll, ← map_unstyled_owned policy type,
        ← map_unstyledAll_ownedAll policy types]
      cases owned policy type with
      | error error => rfl
      | ok native => cases ownedAll policy types <;> rfl

end

/-- Whether a value is borrowed depends on the type alone. -/
theorem unstyled_borrowed (nullable : Bool) (type : BusType) (native : NativeType) :
    (borrowed nullable type native).unstyled = borrowed nullable type native.unstyled := by
  cases type with
  | basic type =>
      simp only [borrowed]
      split <;> rfl
  | variant => rfl
  | array element =>
      simp only [borrowed]
      split <;> rfl
  | dict key value =>
      simp only [borrowed]
      split <;> rfl
  | struct first rest => rfl

theorem map_unstyled_ofBusType (policy : MapPolicy) (access : Access) (nullable : Bool)
    (type : BusType) :
    (ofBusType policy access nullable type).map unstyled =
      ofBusType .plain access nullable type := by
  rw [ofBusType, ofBusType, ← map_unstyled_owned policy type]
  cases owned policy type with
  | error error => rfl
  | ok native =>
      cases access with
      | read => rfl
      | write => exact congrArg Except.ok (unstyled_borrowed nullable type native)

end NativeType

/-- A procedure whose native types have their maps in one style. -/
def Procedure.unstyled (procedure : Procedure) : Procedure :=
  { procedure with native := procedure.native.map NativeType.unstyled }

namespace ProcedureTable

/-- A table of the procedures without their map styles. -/
def unstyled (table : ProcedureTable) : ProcedureTable :=
  ⟨table.procedures.map Procedure.unstyled, List.pairwise_map.mpr table.ascending⟩

theorem map_place (procedure : Procedure) (procedures : List Procedure) :
    (place procedure procedures).map Procedure.unstyled =
      place procedure.unstyled (procedures.map Procedure.unstyled) := by
  induction procedures with
  | nil => rfl
  | cons first rest ih =>
      change _ = if procedure.name < first.name then _ else if first.name < procedure.name then _
        else _
      rw [place, ← ih]
      split
      · rfl
      · split <;> rfl

theorem unstyled_insert (table : ProcedureTable) (procedure : Procedure) :
    (table.insert procedure).unstyled = table.unstyled.insert procedure.unstyled := by
  simp only [insert, unstyled, map_place]

theorem contains_unstyled (table : ProcedureTable) (name : String) :
    table.unstyled.contains name = table.contains name := by
  simp only [contains, unstyled, List.any_map]
  rfl

theorem get?_unstyled (table : ProcedureTable) (name : String) :
    table.unstyled.get? name = (table.get? name).map Procedure.unstyled := by
  simp only [get?, unstyled, List.find?_map]
  rfl

theorem size_unstyled (table : ProcedureTable) : table.unstyled.size = table.size :=
  List.length_map _

end ProcedureTable

namespace Registry

/-- A registry of the procedures without their map styles. -/
def unstyled (registry : Registry) : Registry :=
  ⟨registry.readers.unstyled, registry.writers.unstyled⟩

variable (registry : Registry)

theorem table_unstyled (access : Access) :
    registry.unstyled.table access = (registry.table access).unstyled := by
  cases access <;> rfl

theorem unstyled_insert (procedure : Procedure) :
    (registry.insert procedure).unstyled = registry.unstyled.insert procedure.unstyled := by
  have haccess : procedure.unstyled.access = procedure.access := rfl
  rw [insert, insert, haccess]
  cases procedure.access with
  | read => simp only [unstyled, ProcedureTable.unstyled_insert]
  | write => simp only [unstyled, ProcedureTable.unstyled_insert]

theorem contains_unstyled (access : Access) (name : String) :
    registry.unstyled.contains access name = registry.contains access name := by
  rw [contains, table_unstyled, ProcedureTable.contains_unstyled, contains]

theorem find_unstyled (access : Access) (name : String) :
    registry.unstyled.find access name = (registry.find access name).map Procedure.unstyled := by
  rw [find, find, get?, table_unstyled, ProcedureTable.get?_unstyled, get?]
  cases (registry.table access).get? name <;> rfl

theorem findEntry_unstyled (access : Access) (name : String) :
    registry.unstyled.findEntry access name =
      (registry.findEntry access name).map Procedure.unstyled := by
  rw [findEntry, findEntry, find_unstyled]
  cases registry.find access name with
  | error error => rfl
  | ok procedure =>
      have hentry : procedure.unstyled.isEntry = procedure.isEntry := rfl
      simp only [Except.map, bind, Except.bind, hentry]
      split <;> rfl

/-- Readers run by the bodies and the signatures of procedures. -/
theorem readWithin_unstyled (levels : Nat) (name : String) :
    registry.unstyled.readWithin levels name = registry.readWithin levels name := by
  induction levels generalizing name with
  | zero => rfl
  | succ levels ih =>
      rw [readWithin, readWithin, find_unstyled, funext ih]
      cases registry.find .read name <;> rfl

theorem readLevels_unstyled (buffer : Buffer) :
    registry.unstyled.readLevels buffer = registry.readLevels buffer := by
  have hsize : registry.unstyled.readers.size = registry.readers.size :=
    registry.readers.size_unstyled
  rw [readLevels, readLevels, hsize]

theorem readValue_unstyled : registry.unstyled.readValue = registry.readValue := by
  funext name buffer
  rw [readValue, readValue, readLevels_unstyled, readWithin_unstyled]

theorem read_unstyled : registry.unstyled.read = registry.read := by
  funext name body
  rw [read, read, readBuffer, readBuffer, readValue_unstyled]

theorem readMessage_unstyled : registry.unstyled.readMessage = registry.readMessage := by
  funext name message
  rw [readMessage, readMessage, findEntry_unstyled]
  simp only [readBuffer, readValue_unstyled]
  cases registry.findEntry .read name <;> rfl

/-- Writers run by the names, the bodies and the signatures of procedures. -/
theorem writeWithin_unstyled (levels : Nat) :
    registry.unstyled.writeWithin levels = registry.writeWithin levels := by
  induction levels with
  | zero => rfl
  | succ levels ih =>
      funext name value
      rw [writeWithin, writeWithin, find_unstyled, ih]
      cases registry.find .write name <;> rfl

theorem writeLevels_unstyled (height : Nat) :
    registry.unstyled.writeLevels height = registry.writeLevels height := by
  have hsize : registry.unstyled.writers.size = registry.writers.size :=
    registry.writers.size_unstyled
  rw [writeLevels, writeLevels, hsize]

theorem writeValue_unstyled : registry.unstyled.writeValue = registry.writeValue := by
  funext name value
  rw [writeValue, writeValue, writeLevels_unstyled, writeWithin_unstyled]

theorem write_unstyled : registry.unstyled.write = registry.write := by
  funext name value
  rw [write, write, writeValue_unstyled]

theorem writeMessage_unstyled : registry.unstyled.writeMessage = registry.writeMessage := by
  funext name values
  rw [writeMessage, writeMessage, findEntry_unstyled]
  simp only [writeLevels_unstyled, writeWithin_unstyled]
  cases registry.findEntry .write name <;> rfl

end Registry

namespace Generator

/-- The plain generator that has generated the same procedures without their map styles. -/
def unstyled (generator : Generator) : Generator :=
  ⟨.plain, generator.registry.unstyled⟩

variable {α β γ δ : Type}

/-- What a computation comes to without map styles, another one comes to on the plain
generator. -/
def Unstyles (styled : Generate α) (plain : Generate β) (f : α → β) : Prop :=
  ∀ generator : Generator,
    plain generator.unstyled = ((styled generator).1.map f, (styled generator).2.unstyled)

theorem unstyles_pure (value : α) (f : α → β) :
    Unstyles (pure value) (pure (f value)) f :=
  fun _ => rfl

theorem Unstyles.bind {styled : Generate α} {plain : Generate β} {f : α → β}
    {next : α → Generate γ} {further : β → Generate δ} {g : γ → δ}
    (h : Unstyles styled plain f) (hnext : ∀ value, Unstyles (next value) (further (f value)) g) :
    Unstyles (styled >>= next) (plain >>= further) g := by
  intro generator
  rw [Attempt.bind_apply, Attempt.bind_apply, h generator]
  cases styled generator with
  | mk outcome reached =>
      cases outcome with
      | error error => rfl
      | ok value => exact hnext value reached

theorem unstyles_isRegistered (access : Access) (name : String) :
    Unstyles (isRegistered access name) (isRegistered access name) id := by
  intro generator
  have hcontains : generator.unstyled.registry.contains access name =
      generator.registry.contains access name :=
    generator.registry.contains_unstyled access name
  rw [isRegistered_apply, isRegistered_apply, hcontains]
  rfl

theorem unstyles_register (procedure : Procedure) :
    Unstyles (register procedure) (register procedure.unstyled) id := by
  intro generator
  have hinsert := generator.registry.unstyled_insert procedure
  simp only [register, Attempt.update_apply, unstyled, hinsert]
  rfl

theorem unstyles_native (access : Access) (type : BusType) :
    Unstyles (native access type) (native access type) NativeType.unstyled := by
  intro generator
  rw [native_apply, native_apply, NativeType.map_unstyled_ofBusType]
  rfl

theorem unstyles_natives (access : Access) (types : List BusType) :
    Unstyles (natives access types) (natives access types) (List.map NativeType.unstyled) := by
  induction types with
  | nil => exact unstyles_pure [] (List.map NativeType.unstyled)
  | cons type types ih =>
      exact (unstyles_native access type).bind fun native => ih.bind fun natives =>
        unstyles_pure (native :: natives) (List.map NativeType.unstyled)

theorem Unstyles.container {access : Access} {construct : Construct} {type : BusType}
    {body : Generate Body} (h : Unstyles body body id) :
    Unstyles (container access construct type body) (container access construct type body)
      id := by
  rw [Generator.container]
  refine (unstyles_isRegistered access _).bind fun registered => ?_
  cases registered with
  | true => exact unstyles_pure (Callee.procedure _ _) id
  | false =>
      refine (unstyles_native access type).bind fun native => h.bind fun body => ?_
      exact (unstyles_register ⟨_, access, construct, type.signature, [native], body⟩).bind
        fun _ => unstyles_pure (Callee.procedure _ _) id

mutual

/-- No policy decides what is generated for a type, nor whether anything is. -/
theorem unstyles_callee (access : Access) : ∀ type : BusType,
    Unstyles (callee access type) (callee access type) id
  | .basic type => unstyles_pure (Callee.primitive type) id
  | .variant => unstyles_pure Callee.variant id
  | .array element =>
      Unstyles.container ((unstyles_callee access element).bind fun item =>
        unstyles_pure (Body.array element.wireKind item) id)
  | .dict key value =>
      Unstyles.container ((unstyles_callee access value).bind fun item =>
        unstyles_pure (Body.dictionary (.primitive key) item) id)
  | .struct first rest =>
      Unstyles.container ((unstyles_callee access first).bind fun member =>
        (unstyles_callees access rest).bind fun members =>
          unstyles_pure (Body.struct (member :: members)) id)

theorem unstyles_callees (access : Access) : ∀ types : List BusType,
    Unstyles (callees access types) (callees access types) id
  | [] => unstyles_pure [] id
  | type :: types =>
      (unstyles_callee access type).bind fun first =>
        (unstyles_callees access types).bind fun rest => unstyles_pure (first :: rest) id

end

theorem map_unstyled_entryNative (access : Access) (natives : List NativeType) :
    (entryNative access natives).map NativeType.unstyled =
      entryNative access (natives.map NativeType.unstyled) := by
  have hall : ∀ members : List NativeType,
      NativeType.unstyledAll members = members.map NativeType.unstyled := by
    intro members
    induction members with
    | nil => rfl
    | cons member members ih => rw [NativeType.unstyledAll, List.map_cons, ih]
  cases access with
  | write => rfl
  | read =>
      match natives with
      | [native] => rfl
      | [] => rfl
      | first :: second :: rest =>
          simp only [entryNative, List.map_cons, List.map_nil, NativeType.unstyled,
            NativeType.unstyledAll, hall]

theorem unstyles_entry (access : Access) (signature : String) (variant : Bool) :
    Unstyles (entry access signature variant) (entry access signature variant) id := by
  rw [entry]
  cases entryTypes signature variant with
  | error error => exact fun _ => rfl
  | ok described =>
      obtain ⟨construct, types⟩ := described
      rw [Attempt.liftGrammar_ok_bind]
      refine (unstyles_isRegistered access _).bind fun registered => ?_
      cases registered with
      | true => exact unstyles_pure (procedureName access construct signature) id
      | false =>
          refine (unstyles_natives access types).bind fun natives =>
            (unstyles_callees access types).bind fun values => ?_
          have hregister := unstyles_register ⟨procedureName access construct signature, access,
            construct, signature, entryNative access natives,
            .message (if variant then some signature else none) values⟩
          rw [Procedure.unstyled, map_unstyled_entryNative] at hregister
          exact hregister.bind fun _ =>
            unstyles_pure (procedureName access construct signature) id

theorem fulfil_unstyled (generator : Generator) (requests : List Request) :
    generator.unstyled.fulfil requests =
      ((generator.fulfil requests).1, (generator.fulfil requests).2.unstyled) := by
  induction requests generalizing generator with
  | nil => rfl
  | cons request requests ih =>
      have hentry := unstyles_entry request.access request.signature request.variant generator
      rw [fulfil, fulfil, hentry]
      cases entry request.access request.signature request.variant generator with
      | mk outcome reached =>
          cases outcome with
          | error error => rfl
          | ok name => simp only [Except.map, ih reached, id_eq]

theorem processMember_unstyled (generator : Generator) (member : Member) :
    generator.unstyled.processMember member =
      ((generator.processMember member).1, (generator.processMember member).2.unstyled) := by
  rw [processMember, processMember]
  cases member.requests with
  | error error => rfl
  | ok requests => exact fulfil_unstyled generator requests

theorem processMembers_unstyled (generator : Generator) (members : List Member) :
    generator.unstyled.processMembers members =
      ((generator.processMembers members).1, (generator.processMembers members).2.unstyled) := by
  induction members generalizing generator with
  | nil => rfl
  | cons member members ih => simp only [processMembers, processMember_unstyled, ih]

theorem processInterfaces_unstyled (generator : Generator) (interfaces : List Interface) :
    generator.unstyled.processInterfaces interfaces =
      ((generator.processInterfaces interfaces).1,
        (generator.processInterfaces interfaces).2.unstyled) := by
  induction interfaces generalizing generator with
  | nil => rfl
  | cons interface interfaces ih =>
      simp only [processInterfaces, processInterface, processMembers_unstyled, ih]

/-- A request is answered as by the plain generator. -/
theorem perform_unstyled (generator : Generator) (action : Action) :
    generator.unstyled.perform action =
      ((generator.perform action).1, (generator.perform action).2.unstyled) := by
  cases action with
  | entry access signature variant =>
      simp only [perform, unstyles_entry access signature variant generator]
      cases (entry access signature variant generator).1 <;> rfl
  | callee access signature =>
      have hcallee : Unstyles (Attempt.liftGrammar (BusType.parse signature) >>= callee access)
          (Attempt.liftGrammar (BusType.parse signature) >>= callee access) id := by
        cases BusType.parse signature with
        | error error => exact fun _ => rfl
        | ok type => exact unstyles_callee access type
      simp only [perform, hcallee generator]
      cases ((Attempt.liftGrammar (BusType.parse signature) >>= callee access) generator).1 <;>
        rfl
  | interfaces interfaces => simp only [perform, processInterfaces_unstyled]

theorem performAll_unstyled (generator : Generator) (actions : List Action) :
    generator.unstyled.performAll actions =
      ((generator.performAll actions).1, (generator.performAll actions).2.unstyled) := by
  induction actions generalizing generator with
  | nil => rfl
  | cons action actions ih => simp only [performAll, perform_unstyled, ih]

/-- A session under any policy comes to the session under the plain policy. -/
theorem session_unstyled (policy : MapPolicy) (actions : List Action) :
    session .plain actions =
      ((session policy actions).1, (session policy actions).2.unstyled) :=
  performAll_unstyled (fresh policy) actions

/-- Two policies lead through the same requests to the same answers, and to the same
procedures in the same order, whose native types differ in the styles of maps alone.  Whatever
is run then comes to the same, be it a reader or a writer, in the middle of a buffer or for a
whole body. -/
theorem sessions_alike (policy other : MapPolicy) (actions : List Action) :
    (session policy actions).1 = (session other actions).1 ∧
      (∀ access,
        ((session policy actions).2.registry.table access).procedures.map Procedure.unstyled =
          ((session other actions).2.registry.table access).procedures.map
            Procedure.unstyled) ∧
      (session policy actions).2.registry.readValue =
        (session other actions).2.registry.readValue ∧
      (session policy actions).2.registry.writeValue =
        (session other actions).2.registry.writeValue ∧
      (∀ name body, (session policy actions).2.registry.read name body =
        (session other actions).2.registry.read name body) ∧
      (∀ name value, (session policy actions).2.registry.write name value =
        (session other actions).2.registry.write name value) ∧
      (∀ name message, (session policy actions).2.registry.readMessage name message =
        (session other actions).2.registry.readMessage name message) ∧
      ∀ name values, (session policy actions).2.registry.writeMessage name values =
        (session other actions).2.registry.writeMessage name values := by
  have hplain := (session_unstyled policy actions).symm.trans (session_unstyled other actions)
  obtain ⟨hanswers, hlast⟩ := Prod.mk.inj hplain
  have hregistry : (session policy actions).2.registry.unstyled =
      (session other actions).2.registry.unstyled := congrArg registry hlast
  refine ⟨hanswers, ?_, ?_, ?_, ?_, ?_, ?_, ?_⟩
  · intro access
    have htable := congrArg (Registry.table · access) hregistry
    simp only [Registry.table_unstyled] at htable
    exact congrArg ProcedureTable.procedures htable
  · rw [← Registry.readValue_unstyled, hregistry, Registry.readValue_unstyled]
  · rw [← Registry.writeValue_unstyled, hregistry, Registry.writeValue_unstyled]
  · intro name body
    rw [← Registry.read_unstyled, hregistry, Registry.read_unstyled]
  · intro name value
    rw [← Registry.write_unstyled, hregistry, Registry.write_unstyled]
  · intro name message
    rw [← Registry.readMessage_unstyled, hregistry, Registry.readMessage_unstyled]
  · intro name values
    rw [← Registry.writeMessage_unstyled, hregistry, Registry.writeMessage_unstyled]

end Generator

end BusCodec
