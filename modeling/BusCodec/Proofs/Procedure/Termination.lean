import BusCodec.Proofs.Generator.References
import BusCodec.Proofs.Procedure.Bodies
import BusCodec.Proofs.Wire.Following

/-!
Running a registered reader comes to an end, whatever the bytes are.  The calls are watched
like the loops are: a run is stopped at one call more than it is allowed.  As a container
calls readers of shorter signatures, and as every value takes a byte or more, a run that is
allowed one call for each letter of the signature is never stopped.
-/

namespace BusCodec

namespace Callee

/-- Reads one value while it is watched, with the given way to run a reader. -/
def watch (words variants : Nat) (run : String → WatchedDecode Value) :
    Callee → WatchedDecode Value
  | .primitive type => return .basic (← WatchedDecode.basic words type)
  | .variant => return .variant (← WatchedDecode.variant words variants)
  | .procedure name _ => run name

def watchAll (words variants : Nat) (run : String → WatchedDecode Value) :
    List Callee → WatchedDecode (List Value)
  | [] => return []
  | callee :: callees => do
      let value ← watch words variants run callee
      let values ← watchAll words variants run callees
      return value :: values

end Callee

namespace Body

/-- Reads what a body describes while it is watched. -/
def watch (words variants : Nat) (run : String → WatchedDecode Value) (signature : String) :
    Body → WatchedDecode Value
  | .array element item => do
      let region ← WatchedDecode.startRegion words element
      let items ← WatchedDecode.collect words region (item.watch words variants run)
      return .array signature items
  | .dictionary key value => do
      let region ← WatchedDecode.startRegion words .struct
      let entries ← WatchedDecode.collect words region
        (WatchedDecode.entry (key.watch words variants run) (value.watch words variants run))
      return .dict signature (Entries.ofList entries)
  | .struct members => do
      WatchedDecode.alignStruct words
      return .struct (← Callee.watchAll words variants run members)
  | .message (some expected) values => do
      WatchedDecode.expectSignature words expected
      return messageValue (← Callee.watchAll words variants run values)
  | .message none values => return messageValue (← Callee.watchAll words variants run values)

end Body

namespace Registry

/-- Runs a reader while it is watched, when calls may be nested so many levels deep and
variants as deep as given. -/
def watch (registry : Registry) (words variants : Nat) : Nat → String → WatchedDecode Value
  | 0, _ => .stop
  | calls + 1, name => do
      let procedure ← .free (Decode.lift (registry.find .read name))
      procedure.body.watch words variants (registry.watch words variants calls)
        procedure.signature

end Registry

section

variable {words variants depth : Nat} {watched : String → WatchedDecode Value}
  {run : String → Decode Value}

open Decode

theorem Callee.follows_watchAll {callees : List Callee}
    (h : ∀ callee ∈ callees,
      Follows words depth (callee.watch words variants watched) (callee.read run)) :
    Follows words depth (watchAll words variants watched callees) (readAll run callees) := by
  induction callees with
  | nil => exact follows_pure []
  | cons callee callees ih =>
      rw [List.forall_mem_cons] at h
      exact h.1.bind fun _ _ => (ih h.2).map _

/-- A body is followed if what it calls is and takes a byte or more. -/
theorem Body.follows_watch {body : Body} {signature : String}
    (h : ∀ callee ∈ body.callees,
      Follows words depth (callee.watch words variants watched) (callee.read run))
    (hmoves : ∀ callee ∈ body.callees, Moves 1 (callee.read run)) :
    Follows words depth (body.watch words variants watched signature)
      (body.read run signature) := by
  cases body with
  | array element item =>
      exact follows_container (h item List.mem_cons_self) (hmoves item List.mem_cons_self) _
  | dictionary key value =>
      have hvalue : value ∈ (Body.dictionary key value).callees :=
        List.mem_cons_of_mem _ List.mem_cons_self
      have hmoved := moves_entry (hmoves key List.mem_cons_self) (hmoves value hvalue)
      exact follows_container (follows_entry (h key List.mem_cons_self) (h value hvalue))
        (hmoved.mono (Nat.le_add_left 1 1)) _
  | struct members =>
      exact follows_alignStruct.bind fun _ _ => (Callee.follows_watchAll h).map _
  | message variant values =>
      cases variant with
      | none => exact (Callee.follows_watchAll h).map _
      | some expected =>
          exact (follows_expectSignature expected).bind fun _ _ =>
            (Callee.follows_watchAll h).map _

end

namespace Procedure

theorem StandsFor.nonempty_types {access : Access} {procedure : Procedure}
    {types : List BusType} (h : procedure.StandsFor access types) : types ≠ [] := by
  cases h with
  | @container type parses handling =>
      generalize procedure.construct = construct at handling
      generalize procedure.body = body at handling
      cases type <;> cases handling <;> exact List.cons_ne_nil _ _
  | message variant parses nonempty => exact nonempty

end Procedure

namespace Registry

open Decode

variable {policy : MapPolicy} {registry : Registry} {name : String} {procedure : Procedure}
  {words variants depth : Nat}

theorem rank_pos (hclosed : Closed policy registry)
    (hget : registry.get? .read name = some procedure) : 0 < registry.rank .read name := by
  obtain ⟨-, -, types, hstands, -, hlower⟩ := hclosed.exists_standsFor hget
  obtain ⟨type, rest, rfl⟩ := List.exists_cons_of_ne_nil hstands.nonempty_types
  exact Nat.zero_lt_of_lt (hlower type List.mem_cons_self)

/-- A registered reader is not stopped if it is allowed one call for each letter of its
signature and, for messages, one more. -/
theorem follows_watch (hclosed : Closed policy registry)
    (hvariants : maxVariantDepth - depth < variants) {calls : Nat}
    (hget : registry.get? .read name = some procedure)
    (hcalls : registry.rank .read name ≤ 2 * calls) :
    Follows words depth (registry.watch words variants calls name) (registry.readValue name) := by
  -- What a reader calls has a lower rank, and an even one, as it is no reader of messages.
  induction calls generalizing name procedure with
  | zero => exact absurd (rank_pos hclosed hget) (by omega)
  | succ calls ih =>
      obtain ⟨-, -, types, hstands, hprovides, hlower⟩ := hclosed.exists_standsFor hget
      have hwatch : registry.watch words variants (calls + 1) name =
          procedure.body.watch words variants (registry.watch words variants calls)
            procedure.signature := by
        rw [watch, find_eq_ok hget]
        rfl
      rw [hwatch, readValue_eq_body hclosed hget]
      have hcallee : ∀ callee ∈ procedure.body.callees,
          Follows words depth (callee.watch words variants (registry.watch words variants calls))
            (callee.read registry.readValue) ∧ Moves 1 (callee.read registry.readValue) := by
        intro callee hmem
        rw [hstands.callees_eq] at hmem
        obtain ⟨type, htype, hcallee⟩ := List.mem_map.mp hmem
        cases callee with
        | primitive basic =>
            exact ⟨(follows_basic basic).map _, ((proceeds_basic basic).map _).moves⟩
        | variant =>
            exact ⟨(follows_variant hvariants).map _, (proceeds_variant.map _).moves⟩
        | procedure called construct =>
            obtain ⟨-, other, hother, -, hhandles⟩ :=
              hclosed.handles_called (hprovides type htype) hcallee
            have hless := hlower type htype
            have hrank := rank_of_handles hother hhandles
            exact ⟨ih hother (by omega), (proceeds_readValue hclosed hother).moves⟩
      exact Body.follows_watch (fun callee hmem => (hcallee callee hmem).1)
        fun callee hmem => (hcallee callee hmem).2

/-- What is called is registered for one of the types that the caller hands on. -/
theorem exists_called (hclosed : Closed policy registry) {caller called : String}
    {types : List BusType} (hget : registry.get? .read caller = some procedure)
    (hstands : procedure.StandsFor .read types)
    (hprovides : ∀ type ∈ types, registry.Provides .read type)
    (hcalls : registry.Calls .read caller called) :
    ∃ other, registry.get? .read called = some other ∧ other.isEntry = false ∧
      ∃ type ∈ types, other.signature = type.signature := by
  obtain ⟨own, construct, hown, hmem⟩ := hcalls
  cases hget.symm.trans hown
  rw [hstands.callees_eq] at hmem
  obtain ⟨type, htype, hcallee⟩ := List.mem_map.mp hmem
  obtain ⟨-, other, hother, -, hhandles⟩ :=
    hclosed.handles_called (hprovides type htype) hcallee
  exact ⟨other, hother, hhandles.isEntry, type, htype, hhandles.signature_eq⟩

/-- A reader of messages calls the readers of its types, and a reader of containers calls
readers of shorter signatures. -/
theorem descends_of_calls (hclosed : Closed policy registry) {caller called : String}
    (hget : registry.get? .read caller = some procedure)
    (hcalls : registry.Calls .read caller called) :
    ∃ other, registry.get? .read called = some other ∧ other.isEntry = false ∧
      if procedure.isEntry then
        ∃ types, BusType.parseAll procedure.signature = .ok types ∧
          ∃ type ∈ types, other.signature = type.signature
      else other.signature.length < procedure.signature.length := by
  rcases hclosed _ _ _ hget with
    ⟨type, hlimits, hhandles, hchildren⟩ | ⟨signature, variant, types, hhandles, hall⟩
  · obtain ⟨other, hother, hentry, child, hchild, hsignature⟩ :=
      exists_called hclosed hget (hhandles.standsFor hlimits) hchildren hcalls
    refine ⟨other, hother, hentry, ?_⟩
    rw [hhandles.isEntry, if_neg Bool.false_ne_true, hsignature, hhandles.signature_eq,
      BusType.length_signature, BusType.length_signature]
    exact BusType.length_codes_lt_of_child hchild
  · obtain ⟨other, hother, hentry, type, htype, hsignature⟩ :=
      exists_called hclosed hget hhandles.standsFor hall hcalls
    have hmessage : procedure.isEntry = true := by rw [Procedure.isEntry, hhandles.body_eq]
    refine ⟨other, hother, hentry, ?_⟩
    rw [if_pos hmessage]
    exact ⟨types, hhandles.parseAll_eq, type, htype, hsignature⟩

end Registry

namespace Generator

open Decode

variable {generator : Generator} {name : String} {procedure : Procedure}

/-- Every registered reader comes to an end on every buffer, in either byte order.  A run
that is stopped at the first round of an array that exceeds the bytes in it, at the first
call that exceeds the length of the signature and at the first variant past the limit does
just what the reader does: it is not stopped.  The bounds hold because a value takes a byte
or more, because an entry calls readers for its own types and a container readers of
shorter signatures, and because variants are refused where they are nested too deep. -/
theorem readValue_ends (hreachable : generator.Reachable)
    (hget : generator.registry.get? .read name = some procedure) :
    (∀ words variants calls buffer cursor, buffer.bytes.size + Word.limit 4 < words →
        maxVariantDepth - cursor.variantDepth < variants → procedure.signature.length < calls →
        cursor.position ≤ buffer.bytes.size →
        generator.registry.watch words variants calls name buffer cursor =
            some (generator.registry.readValue name buffer cursor) ∧
          WatchedDecode.variant words variants buffer cursor =
            some (Decode.variant buffer cursor)) ∧
      (∀ type, Moves 1 (Decode.value type)) ∧
      Moves 1 (generator.registry.readValue name) ∧
      (∀ buffer cursor reached,
        generator.registry.readValue name buffer cursor ≠ (.error .endless, reached)) ∧
      ∀ called, generator.registry.Calls .read name called →
        ∃ other, generator.registry.get? .read called = some other ∧ other.isEntry = false ∧
          if procedure.isEntry then
            ∃ types, BusType.parseAll procedure.signature = .ok types ∧
              ∃ type ∈ types, other.signature = type.signature
          else other.signature.length < procedure.signature.length := by
  have hclosed := hreachable.sound
  refine ⟨?_, fun type => (proceeds_value type).moves,
    (Registry.proceeds_readValue hclosed hget).moves, ?_, ?_⟩
  · intro words variants calls buffer cursor hroom hvariants hcalls hinside
    have hrank : generator.registry.rank .read name ≤ 2 * calls := by
      simp only [Registry.rank, hget]
      split <;> omega
    exact ⟨(Registry.follows_watch hclosed hvariants hget hrank buffer cursor hroom hinside rfl).1,
      (follows_variant hvariants buffer cursor hroom hinside rfl).1⟩
  · intro buffer cursor reached hrun
    exact Registry.blamesData_readValue hclosed hget buffer cursor _ reached hrun
  · intro called hcalls
    exact Registry.descends_of_calls hclosed hget hcalls

/-- The reader of messages of arrays of arrays of variants needs three calls of one another,
of which the two for arrays are to be seen here. -/
theorem readValue_ends_nested :
    (performAll {} [.entry .read "aav" false]).2.registry.watch 4294967305 65 4
        "read_message_aav" ⟨.little, ⟨#[4, 0, 0, 0, 0, 0, 0, 0]⟩⟩ {} =
      some (.ok (.array "aav" [.array "av" []]), ⟨8, 0⟩) := by
  have hreachable : Reachable (performAll {} [.entry .read "aav" false]).2 :=
    ⟨fun _ => .hashed, [.entry .read "aav" false], rfl⟩
  have hget : (performAll {} [.entry .read "aav" false]).2.registry.get? .read
      "read_message_aav" =
        some ⟨"read_message_aav", .read, .message, "aav", [.vec (.vec .anyValue)],
          .message none [.procedure "read_array_aav" .array]⟩ := by
    rfl
  have hrun : (performAll {} [.entry .read "aav" false]).2.registry.readValue
      "read_message_aav" ⟨.little, ⟨#[4, 0, 0, 0, 0, 0, 0, 0]⟩⟩ {} =
        (.ok (.array "aav" [.array "av" []]), ⟨8, 0⟩) := by
    with_unfolding_all rfl
  rw [← hrun]
  exact ((readValue_ends hreachable hget).1 _ _ _ _ _ (by decide) (by decide) (by decide)
    (by decide)).1

end Generator

end BusCodec
