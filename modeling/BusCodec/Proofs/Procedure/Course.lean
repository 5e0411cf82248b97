import BusCodec.Proofs.Procedure.Bodies
import BusCodec.Proofs.Wire.Progress
import Mathlib.Logic.Relation

/-!
The course that a read takes.  A reader calls others, goes through the elements of arrays
and looks into variants.  Where it does so, and inside which arrays, is a matter of the
bytes, whether or not the read comes to a good end.
-/

namespace BusCodec

/-- What a value is read as. -/
inductive Target
  /-- What a generated reader calls. -/
  | callee (callee : Callee)
  /-- A type that a variant holds, when variants may be nested so many levels deep in it. -/
  | held (levels : Nat) (type : BusType)

/-- A part of a read. -/
inductive Job
  /-- One value. -/
  | read (target : Target)
  /-- Values one after another. -/
  | inOrder (targets : List Target)
  /-- A key and its value. -/
  | entry (key value : Target)
  /-- The elements of a region that are left, each of which is the given part. -/
  | elements (region : Region) (element : Job)
  /-- A text behind a length field, which is as wide as the type has it. -/
  | text (type : BasicType)

/-- How one value is read. -/
inductive Plan
  | basic (type : BasicType)
  | variant (levels : Nat)
  | array (kind : WireKind) (element : Job)
  | struct (members : List Target)
  | message (expected : Option String) (values : List Target)

namespace Body

/-- How a procedure with a body reads. -/
def plan : Body → Plan
  | .array kind item => .array kind (.read (.callee item))
  | .dictionary key value => .array .struct (.entry (.callee key) (.callee value))
  | .struct members => .struct (members.map .callee)
  | .message expected values => .message expected (values.map .callee)

end Body

namespace BusType

/-- How a value of a type is read inside a variant. -/
def plan (levels : Nat) : BusType → Plan
  | .basic type => .basic type
  | .variant => .variant levels
  | .array element => .array element.wireKind (.read (.held levels element))
  | .dict key value => .array .struct (.entry (.held levels (.basic key)) (.held levels value))
  | .struct first rest => .struct ((first :: rest).map (.held levels))

end BusType

namespace Decode

variable {α β : Type} {buffer : Buffer} {cursor reached : Cursor}

/-- Reads without keeping what has been read. -/
def skim (reader : Decode α) : Decode Unit :=
  (fun _ => ()) <$> reader

theorem skim_apply (reader : Decode α) (buffer : Buffer) (cursor : Cursor) :
    skim reader buffer cursor =
      match reader buffer cursor with
      | (.ok _, reached) => (.ok (), reached)
      | (.error error, reached) => (.error error, reached) :=
  map_apply _ reader buffer cursor

theorem skim_eq_ok_iff {reader : Decode α} :
    skim reader buffer cursor = (.ok (), reached) ↔
      ∃ value, reader buffer cursor = (.ok value, reached) := by
  rw [skim, map_eq_ok_iff]
  exact ⟨fun ⟨value, hrun, _⟩ => ⟨value, hrun⟩, fun ⟨value, hrun⟩ => ⟨value, hrun, rfl⟩⟩

theorem skim_bind (first : Decode α) (next : α → Decode β) :
    skim (first >>= next) = first >>= fun value => skim (next value) :=
  map_bind _ first next

theorem skim_map (reader : Decode α) (f : α → β) :
    skim (reader >>= fun value => pure (f value)) = skim reader := by
  rw [skim_bind, skim, map_eq_pure_bind]
  simp only [skim, map_pure]

theorem skim_then (first : Decode α) (next : Decode β) :
    (first >>= fun _ => skim next) = skim first >>= fun _ => skim next := by
  simp only [skim, bind_map_left]

theorem skim_collect (region : Region) (reader : Decode α) :
    skim (region.collect (skim reader)) = skim (region.collect reader) := by
  funext buffer cursor
  have hmap := region.collect_map (fun _ => ()) reader buffer cursor
  change region.collect (skim reader) buffer cursor = _ at hmap
  refine (skim_apply _ buffer cursor).trans (.trans ?_ (skim_apply _ buffer cursor).symm)
  rw [hmap]
  cases region.collect reader buffer cursor with
  | mk outcome reached => cases outcome <;> rfl

/-- The elements of an array are read without being kept if each of them is. -/
theorem skim_container (kind : WireKind) (reader : Decode α) (f : List α → β) :
    skim (Region.start kind >>= fun region =>
        region.collect reader >>= fun values => pure (f values)) =
      Region.start kind >>= fun region => skim (region.collect (skim reader)) := by
  rw [skim_bind]
  refine Region.start_bind_congr fun region _ => ?_
  exact (skim_map (region.collect reader : Decode (List α)) f).trans
    (skim_collect region reader).symm

theorem moves_skim {reader : Decode α} {least : Nat} (h : Moves least reader) :
    Moves least (skim reader) := by
  intro buffer cursor reached value hrun
  obtain ⟨found, hfound⟩ := skim_eq_ok_iff.mp hrun
  exact h hfound

end Decode

namespace Registry

open Decode

variable (registry : Registry)

def readTarget : Target → Decode Value
  | .callee callee => registry.readCallee callee
  | .held levels type => valueWith (variantWithin levels) type

def skimTargets : List Target → Decode Unit
  | [] => pure ()
  | target :: targets => do
      skim (registry.readTarget target)
      skimTargets targets

/-- How a target reads at a cursor, if it is no reader that is missing. -/
def plan? (cursor : Cursor) : Target → Option Plan
  | .callee (.primitive type) => some (.basic type)
  | .callee .variant => some (.variant (maxVariantDepth - cursor.variantDepth))
  | .callee (.procedure name _) =>
      (registry.get? .read name).map fun procedure => procedure.body.plan
  | .held levels type => some (type.plan levels)

/-- Reads a part of a body without keeping it. -/
def skimJob : Job → Decode Unit
  | .read target => skim (registry.readTarget target)
  | .inOrder targets => registry.skimTargets targets
  | .entry key value => skim (Decode.entry (registry.readTarget key) (registry.readTarget value))
  | .elements region element => skim (region.collect (skimJob element))
  | .text type => skim (Decode.text type.alignment)

/-- Reads the signature that stands before the body of a variant of a known type. -/
def skimHeader : Option String → Decode Unit
  | some expected => expectSignature expected
  | none => pure ()

def skimPlan : Plan → Decode Unit
  | .basic type => skim (Decode.basic type)
  | .variant levels => skim (variantWithin levels)
  | .array kind element => do
      let region ← Region.start kind
      registry.skimJob (.elements region element)
  | .struct members => do
      alignStruct
      registry.skimTargets members
  | .message expected values => do
      skimHeader expected
      registry.skimTargets values

variable {registry}

theorem skimTargets_callees (callees : List Callee) :
    registry.skimTargets (callees.map .callee) =
      skim (Callee.readAll registry.readValue callees) := by
  induction callees with
  | nil => rfl
  | cons callee callees ih =>
      rw [List.map_cons, skimTargets, ih, ← skim_then, Callee.readAll, skim_bind]
      simp only [skim_map]
      rfl

theorem skimTargets_held (levels : Nat) (types : List BusType) :
    registry.skimTargets (types.map (.held levels)) =
      skim (valuesWith (variantWithin levels) types) := by
  induction types with
  | nil => rfl
  | cons type types ih =>
      rw [List.map_cons, skimTargets, ih, ← skim_then, valuesWith, skim_bind]
      simp only [skim_map]
      rfl

theorem skimPlan_body (body : Body) (signature : String) :
    skim (body.read registry.readValue signature) = registry.skimPlan body.plan := by
  cases body with
  | array kind item => exact skim_container kind _ _
  | dictionary key value => exact skim_container .struct _ _
  | struct members =>
      rw [Body.read, skim_bind, Body.plan, skimPlan, skimTargets_callees]
      simp only [skim_map]
  | message expected values =>
      rw [Body.plan, skimPlan, skimTargets_callees]
      cases expected with
      | none =>
          rw [Body.read, skim_map]
          rfl
      | some expected =>
          rw [Body.read, skim_bind]
          simp only [skim_map]
          rfl

theorem skimPlan_held (levels : Nat) (type : BusType) :
    skim (valueWith (variantWithin levels) type) = registry.skimPlan (type.plan levels) := by
  cases type with
  | basic type => exact skim_map _ _
  | variant => exact skim_map _ _
  | array element => exact skim_container element.wireKind _ _
  | dict key value =>
      refine (skim_container .struct _ _).trans ?_
      refine Region.start_bind_congr fun region helement => ?_
      rw [skim_collect, Region.collect_alignStruct helement, ← skim_collect]
      rfl
  | struct first rest =>
      rw [BusType.plan, skimPlan, skimTargets_held, valueWith, skim_bind, valuesWith]
      simp only [skim_bind]
      rfl

/-- A target reads as its plan says. -/
theorem skim_readTarget {policy : MapPolicy} (hclosed : Closed policy registry)
    {cursor : Cursor} {target : Target} {plan : Plan}
    (h : registry.plan? cursor target = some plan) (buffer : Buffer) :
    skim (registry.readTarget target) buffer cursor = registry.skimPlan plan buffer cursor := by
  cases target with
  | held levels type =>
      cases h
      exact congrFun (congrFun (skimPlan_held levels type) buffer) cursor
  | callee callee =>
      cases callee with
      | primitive type =>
          cases h
          exact congrFun (congrFun (skim_map (Decode.basic type) _) buffer) cursor
      | variant =>
          cases h
          exact congrFun (congrFun (skim_map Decode.variant _) buffer) cursor
      | procedure name construct =>
          obtain ⟨procedure, hget, rfl⟩ := Option.map_eq_some_iff.mp h
          rw [← skimPlan_body procedure.body procedure.signature]
          exact congrArg (fun reader => skim reader buffer cursor)
            (readValue_eq_body hclosed hget)

end Registry

/-- The bytes of the elements of an array, from where the first may begin to where they
end. -/
structure Span where
  start : Nat
  stop : Nat

/-- A part of a read, where it begins, and the arrays around it, the innermost first. -/
structure Place where
  job : Job
  cursor : Cursor
  spans : List Span

namespace Registry

variable {registry : Registry} {buffer : Buffer}

/-- How a read comes from one part to another that is in it or follows in it, if what is
before that has been read. -/
inductive Step (registry : Registry) (buffer : Buffer) : Place → Place → Prop
  | basicText {target : Target} {cursor : Cursor} {spans : List Span} {type : BasicType}
      (hplan : registry.plan? cursor target = some (.basic type))
      (htext : type.isCopy = false) :
      Step registry buffer ⟨.read target, cursor, spans⟩ ⟨.text type, cursor, spans⟩
  | variantText {target : Target} {cursor : Cursor} {spans : List Span} {levels : Nat}
      (hplan : registry.plan? cursor target = some (.variant levels)) :
      Step registry buffer ⟨.read target, cursor, spans⟩ ⟨.text .signature, cursor, spans⟩
  | contents {target : Target} {cursor reached : Cursor} {spans : List Span} {levels : Nat}
      {type : BusType} (hplan : registry.plan? cursor target = some (.variant (levels + 1)))
      (htype : Decode.variantType buffer cursor = (.ok type, reached)) :
      Step registry buffer ⟨.read target, cursor, spans⟩
        ⟨.read (.held levels type), { reached with variantDepth := reached.variantDepth + 1 },
          spans⟩
  | elements {target : Target} {cursor begun : Cursor} {spans : List Span} {kind : WireKind}
      {element : Job} {region : Region}
      (hplan : registry.plan? cursor target = some (.array kind element))
      (hstart : Region.start kind buffer cursor = (.ok region, begun)) :
      Step registry buffer ⟨.read target, cursor, spans⟩
        ⟨.elements region element, begun, ⟨begun.position, region.stop⟩ :: spans⟩
  | members {target : Target} {cursor begun : Cursor} {spans : List Span}
      {members : List Target} (hplan : registry.plan? cursor target = some (.struct members))
      (halign : Decode.alignStruct buffer cursor = (.ok (), begun)) :
      Step registry buffer ⟨.read target, cursor, spans⟩ ⟨.inOrder members, begun, spans⟩
  | headerText {target : Target} {cursor : Cursor} {spans : List Span} {expected : String}
      {values : List Target}
      (hplan : registry.plan? cursor target = some (.message (some expected) values)) :
      Step registry buffer ⟨.read target, cursor, spans⟩ ⟨.text .signature, cursor, spans⟩
  | values {target : Target} {cursor begun : Cursor} {spans : List Span}
      {expected : Option String} {values : List Target}
      (hplan : registry.plan? cursor target = some (.message expected values))
      (hheader : skimHeader expected buffer cursor = (.ok (), begun)) :
      Step registry buffer ⟨.read target, cursor, spans⟩ ⟨.inOrder values, begun, spans⟩
  | first {target : Target} {targets : List Target} {cursor : Cursor} {spans : List Span} :
      Step registry buffer ⟨.inOrder (target :: targets), cursor, spans⟩
        ⟨.read target, cursor, spans⟩
  | rest {target : Target} {targets : List Target} {cursor after : Cursor} {spans : List Span}
      (hfirst : registry.skimJob (.read target) buffer cursor = (.ok (), after)) :
      Step registry buffer ⟨.inOrder (target :: targets), cursor, spans⟩
        ⟨.inOrder targets, after, spans⟩
  | key {key value : Target} {cursor : Cursor} {spans : List Span} :
      Step registry buffer ⟨.entry key value, cursor, spans⟩ ⟨.read key, cursor, spans⟩
  | value {key value : Target} {cursor after : Cursor} {spans : List Span} {found : Key}
      (hkey : Decode.asKey (registry.readTarget key) buffer cursor = (.ok found, after)) :
      Step registry buffer ⟨.entry key value, cursor, spans⟩ ⟨.read value, after, spans⟩
  | element {region : Region} {element : Job} {cursor begun : Cursor} {spans : List Span}
      (hnext : region.hasNext buffer cursor = (.ok true, begun)) :
      Step registry buffer ⟨.elements region element, cursor, spans⟩ ⟨element, begun, spans⟩
  | further {region : Region} {element : Job} {cursor begun after : Cursor} {spans : List Span}
      (hnext : region.hasNext buffer cursor = (.ok true, begun))
      (helement : registry.skimJob element buffer begun = (.ok (), after))
      (hmoved : begun.position < after.position) :
      Step registry buffer ⟨.elements region element, cursor, spans⟩
        ⟨.elements region element, after, spans⟩

/-- The places that a read comes to, whether or not it comes to a good end. -/
def Reaches (registry : Registry) (buffer : Buffer) : Place → Place → Prop :=
  Relation.ReflTransGen (registry.Step buffer)

end Registry

end BusCodec
