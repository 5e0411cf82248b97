import BusCodec.Proofs.Procedure.Course
import BusCodec.Proofs.Procedure.Runs

/-!
Nothing is read from outside an array that belongs into it.  The reader compares lengths
with the end of the buffer only, and may well read past the end of an array that it is in.
As it never moves back and asks after every element whether the array ends there, such a
read fails.
-/

namespace BusCodec

namespace Region

variable {α : Type} {region : Region} {reader : Decode α} {buffer : Buffer}
  {cursor begun last : Cursor}

theorem stop_of_collect {values : List α}
    (h : region.collect reader buffer cursor = (.ok values, last)) :
    last.position = region.stop :=
  collect_induction (motive := fun _ _ last => last.position = region.stop)
    (fun _ hstop => hstop) (fun _ _ _ _ _ _ _ hlast => hlast) h

/-- Where another element comes, it is read before the others. -/
theorem collect_of_next (hnext : region.hasNext buffer cursor = (.ok true, begun))
    {values : List α} (h : region.collect reader buffer cursor = (.ok values, last)) :
    ∃ value after rest, reader buffer begun = (.ok value, after) ∧
      begun.position < after.position ∧
      region.collect reader buffer after = (.ok rest, last) := by
  rw [collect_eq, hnext] at h
  simp only at h
  split at h
  · cases h
  · rename_i value after helement
    split at h
    · rename_i hmoved
      split at h
      · cases h
      · rename_i rest stopped hrest
        cases h
        exact ⟨value, after, rest, helement, hmoved, hrest⟩
    · cases h

/-- Whether whole elements, with padding before each and none after the last, take up all
bytes from a cursor to the end of a region. -/
inductive Tiles (region : Region) (element : Decode Unit) (buffer : Buffer) : Cursor → Prop
  | filled {cursor : Cursor} (hstop : cursor.position = region.stop) :
      Tiles region element buffer cursor
  | element {cursor after : Cursor}
      (hbefore : alignUp cursor.position region.element.alignment < region.stop)
      (helement : element buffer
        { cursor with position := alignUp cursor.position region.element.alignment } =
          (.ok (), after))
      (hinside : after.position ≤ region.stop)
      (hrest : Tiles region element buffer after) :
      Tiles region element buffer cursor

theorem tiles_of_collect {element : Decode Unit} {values : List Unit}
    (h : region.collect element buffer cursor = (.ok values, last)) :
    Tiles region element buffer cursor := by
  have htiles : Tiles region element buffer cursor ∧ cursor.position ≤ region.stop := by
    refine collect_induction
      (motive := fun cursor _ _ =>
        Tiles region element buffer cursor ∧ cursor.position ≤ region.stop) ?_ ?_ h
    · exact fun cursor hstop => ⟨.filled hstop, Nat.le_of_eq hstop⟩
    · rintro cursor value after values last hmoved helement ⟨hrest, hinside⟩
      have hbefore := Nat.lt_of_lt_of_le hmoved hinside
      have hle := le_alignUp cursor.position region.element.alignment_pos
      exact ⟨.element hbefore helement hinside hrest, by omega⟩
  exact htiles.1

end Region

namespace Decode

variable {buffer : Buffer} {cursor reached : Cursor}

/-- A signature is read as a text. -/
theorem text_of_signature {value : String}
    (h : signature buffer cursor = (.ok value, reached)) :
    text 1 buffer cursor = (.ok value, reached) := by
  obtain ⟨found, middle, htext, h⟩ := Attempt.bind_eq_ok h
  obtain ⟨_, last, hparse, h⟩ := Attempt.bind_eq_ok h
  have hsame : middle = last := congrArg Prod.snd hparse
  cases h
  rw [htext, hsame]

theorem text_of_basic {type : BasicType} {value : BasicValue} (htype : type.isCopy = false)
    (h : basic type buffer cursor = (.ok value, reached)) :
    ∃ value, text type.alignment buffer cursor = (.ok value, reached) := by
  cases type with
  | string =>
      obtain ⟨found, middle, htext, h⟩ := Attempt.bind_eq_ok h
      cases h
      exact ⟨found, htext⟩
  | objectPath =>
      obtain ⟨found, middle, hpath, h⟩ := Attempt.bind_eq_ok h
      cases h
      obtain ⟨path, last, htext, h⟩ := Attempt.bind_eq_ok hpath
      simp only at h
      split at h <;> cases h
      exact ⟨found, htext⟩
  | signature =>
      obtain ⟨found, middle, hsignature, h⟩ := Attempt.bind_eq_ok h
      cases h
      exact ⟨found, text_of_signature hsignature⟩
  | _ => cases htype

/-- What a variant holds is read behind the signature of its type. -/
theorem contents_of_variantWithin {levels : Nat} {value : Value}
    (h : variantWithin levels buffer cursor = (.ok value, reached)) :
    ∃ left type middle last, levels = left + 1 ∧
      variantType buffer cursor = (.ok type, middle) ∧
      valueWith (variantWithin left) type buffer
        { middle with variantDepth := middle.variantDepth + 1 } = (.ok value, last) ∧
      last.position = reached.position := by
  cases levels with
  | zero =>
      obtain ⟨_, _, -, h⟩ := Attempt.bind_eq_ok h
      cases h
  | succ left =>
      obtain ⟨type, middle, htype, h⟩ := Attempt.bind_eq_ok h
      obtain ⟨last, hcontents, rfl⟩ := insideVariant_eq_ok_iff.mp h
      exact ⟨left, type, middle, last, rfl, htype, hcontents, rfl⟩

theorem target_of_asKey {reader : Decode Value} {key : Key}
    (h : asKey reader buffer cursor = (.ok key, reached)) :
    ∃ value, reader buffer cursor = (.ok value, reached) := by
  obtain ⟨value, middle, hvalue, h⟩ := Attempt.bind_eq_ok h
  have hsame : middle = reached := congrArg Prod.snd h
  exact ⟨value, hsame ▸ hvalue⟩

end Decode

namespace Registry

open Decode

variable {policy : MapPolicy} {registry : Registry} {buffer : Buffer} {place next : Place}
  {cursor last : Cursor}

theorem moves_readTarget (hclosed : Closed policy registry) (target : Target) :
    Moves 0 (registry.readTarget target) := by
  cases target with
  | held levels type =>
      exact (proceeds_valueWith (proceeds_variantWithin levels) type).moves.mono (Nat.zero_le 1)
  | callee callee =>
      cases callee with
      | primitive type => exact ((proceeds_basic type).map _).moves.mono (Nat.zero_le 1)
      | variant => exact (proceeds_variant.map _).moves.mono (Nat.zero_le 1)
      | procedure name construct =>
          intro buffer cursor reached value hrun
          change registry.readValue name buffer cursor = _ at hrun
          cases hget : registry.get? .read name with
          | some procedure =>
              exact ((proceeds_readValue hclosed hget).moves.mono (Nat.zero_le 1)) hrun
          | none =>
              rw [readValue, readLevels, readWithin, find, hget] at hrun
              cases hrun

theorem moves_skimTargets (hclosed : Closed policy registry) (targets : List Target) :
    Moves 0 (registry.skimTargets targets) := by
  induction targets with
  | nil => exact moves_pure ()
  | cons target targets ih =>
      exact (moves_skim (moves_readTarget hclosed target)).bind fun _ => ih

theorem moves_skimHeader (expected : Option String) : Moves 0 (skimHeader expected) := by
  cases expected with
  | none => exact moves_pure ()
  | some expected => exact (proceeds_expectSignature expected).moves.mono (Nat.zero_le 1)

theorem moves_skimJob (hclosed : Closed policy registry) (job : Job) :
    Moves 0 (registry.skimJob job) := by
  cases job with
  | read target => exact moves_skim (moves_readTarget hclosed target)
  | inOrder targets => exact moves_skimTargets hclosed targets
  | entry key value =>
      exact moves_skim (moves_entry (moves_readTarget hclosed key)
        (moves_readTarget hclosed value))
  | elements region element => exact moves_skim (region.moves_collect _)
  | text type =>
      exact moves_skim ((proceeds_text (WireKind.alignment_pos (.basic type))).moves.mono
        (Nat.zero_le 1))

/-- A part of a read comes to an end, inside all arrays around it. -/
structure Ends (registry : Registry) (buffer : Buffer) (place : Place) (last : Cursor) :
    Prop where
  run_eq : registry.skimJob place.job buffer place.cursor = (.ok (), last)
  le : place.cursor.position ≤ last.position
  inside : ∀ span ∈ place.spans,
    span.start ≤ place.cursor.position ∧ last.position ≤ span.stop
  nested : place.spans.Pairwise fun inner outer =>
    outer.start ≤ inner.start ∧ inner.stop ≤ outer.stop

/-- The next part comes to an end, before the one that it is a part of. -/
def EndsBefore (registry : Registry) (buffer : Buffer) (place next : Place) (last : Cursor) :
    Prop :=
  place.cursor.position ≤ next.cursor.position ∧
    ∃ reached, registry.Ends buffer next reached ∧ reached.position ≤ last.position

/-- What is read between the beginning and the end of a part is inside the same arrays. -/
theorem Ends.part (hclosed : Closed policy registry) (h : registry.Ends buffer place last)
    {job : Job} {begun reached : Cursor}
    (hrun : registry.skimJob job buffer begun = (.ok (), reached))
    (hbegin : place.cursor.position ≤ begun.position)
    (hend : reached.position ≤ last.position) :
    registry.EndsBefore buffer place ⟨job, begun, place.spans⟩ last := by
  refine ⟨hbegin, reached, ⟨hrun, moves_skimJob hclosed job hrun, ?_, h.nested⟩, hend⟩
  intro span hspan
  obtain ⟨hstart, hstop⟩ := h.inside span hspan
  exact ⟨Nat.le_trans hstart hbegin, Nat.le_trans hend hstop⟩

/-- The elements of an array end where the array does, inside all arrays around it. -/
theorem Ends.elements (h : registry.Ends buffer place last) {element : Job} {region : Region}
    {begun : Cursor}
    (hrun : registry.skimJob (.elements region element) buffer begun = (.ok (), last))
    (hbegin : place.cursor.position ≤ begun.position) :
    registry.EndsBefore buffer place
      ⟨.elements region element, begun, ⟨begun.position, region.stop⟩ :: place.spans⟩ last := by
  obtain ⟨values, hcollect⟩ := skim_eq_ok_iff.mp hrun
  have hstop := Region.stop_of_collect hcollect
  have hle := region.moves_collect _ hcollect
  have hinside : ∀ span ∈ place.spans,
      span.start ≤ begun.position ∧ last.position ≤ span.stop := by
    intro span hspan
    obtain ⟨hstart, hend⟩ := h.inside span hspan
    exact ⟨Nat.le_trans hstart hbegin, hend⟩
  refine ⟨hbegin, last, ⟨hrun, hle, ?_, ?_⟩, Nat.le_refl _⟩
  · exact List.forall_mem_cons.mpr ⟨⟨Nat.le_refl _, Nat.le_of_eq hstop⟩, hinside⟩
  · exact List.pairwise_cons.mpr ⟨hstop ▸ hinside, h.nested⟩

theorem Ends.plan (hclosed : Closed policy registry) {target : Target} {spans : List Span}
    (h : registry.Ends buffer ⟨.read target, cursor, spans⟩ last) {plan : Plan}
    (hplan : registry.plan? cursor target = some plan) :
    registry.skimPlan plan buffer cursor = (.ok (), last) := by
  rw [← skim_readTarget hclosed hplan]
  exact h.run_eq

/-- A step from a part that comes to an end leads to one that does. -/
theorem Ends.step (hclosed : Closed policy registry) (h : registry.Ends buffer place last)
    (hstep : registry.Step buffer place next) :
    registry.EndsBefore buffer place next last := by
  cases hstep with
  | basicText hplan htext =>
      obtain ⟨value, hbasic⟩ := skim_eq_ok_iff.mp (h.plan hclosed hplan)
      obtain ⟨text, hread⟩ := text_of_basic htext hbasic
      exact h.part hclosed (skim_eq_ok_iff.mpr ⟨text, hread⟩) (Nat.le_refl _) (Nat.le_refl _)
  | variantText hplan =>
      obtain ⟨value, hvariant⟩ := skim_eq_ok_iff.mp (h.plan hclosed hplan)
      obtain ⟨left, type, middle, stopped, -, htype, hcontents, hsame⟩ :=
        contents_of_variantWithin hvariant
      have htext := text_of_signature (variantType_eq_ok_iff.mp htype).1
      have hmoved := moves_readTarget hclosed (.held left type) hcontents
      exact h.part hclosed (skim_eq_ok_iff.mpr ⟨_, htext⟩) (Nat.le_refl _) (hsame ▸ hmoved)
  | contents hplan htype =>
      obtain ⟨value, hvariant⟩ := skim_eq_ok_iff.mp (h.plan hclosed hplan)
      obtain ⟨left, type, middle, stopped, hleft, hread, hcontents, hsame⟩ :=
        contents_of_variantWithin hvariant
      cases hleft
      rw [htype] at hread
      cases hread
      have hbegin := proceeds_variantType.moves htype
      exact h.part hclosed (skim_eq_ok_iff.mpr ⟨value, hcontents⟩) (Nat.le_of_succ_le hbegin)
        (Nat.le_of_eq hsame)
  | elements hplan hstart =>
      have hrun := (Attempt.bind_of_ok hstart).symm.trans (h.plan hclosed hplan)
      exact h.elements hrun (Nat.le_of_succ_le ((Region.proceeds_start _).moves hstart))
  | members hplan halign =>
      have hrun := (Attempt.bind_of_ok halign).symm.trans (h.plan hclosed hplan)
      exact h.part hclosed hrun (proceeds_alignStruct.moves halign) (Nat.le_refl _)
  | headerText hplan =>
      obtain ⟨_, begun, hheader, hrun⟩ := Attempt.bind_eq_ok (h.plan hclosed hplan)
      have htext := text_of_signature (expectSignature_eq_ok_iff.mp hheader)
      exact h.part hclosed (skim_eq_ok_iff.mpr ⟨_, htext⟩) (Nat.le_refl _)
        (moves_skimTargets hclosed _ hrun)
  | values hplan hheader =>
      have hrun := (Attempt.bind_of_ok hheader).symm.trans (h.plan hclosed hplan)
      exact h.part hclosed hrun (moves_skimHeader _ hheader) (Nat.le_refl _)
  | first =>
      obtain ⟨_, after, hfirst, hrest⟩ := Attempt.bind_eq_ok h.run_eq
      exact h.part hclosed hfirst (Nat.le_refl _) (moves_skimTargets hclosed _ hrest)
  | rest hfirst =>
      have hrest := (Attempt.bind_of_ok hfirst).symm.trans h.run_eq
      exact h.part hclosed hrest (moves_skimJob hclosed _ hfirst) (Nat.le_refl _)
  | key =>
      obtain ⟨found, hentry⟩ := skim_eq_ok_iff.mp h.run_eq
      obtain ⟨_, after, hkey, hvalue⟩ := Attempt.bind_eq_ok hentry
      obtain ⟨value, hread⟩ := target_of_asKey hkey
      exact h.part hclosed (skim_eq_ok_iff.mpr ⟨value, hread⟩) (Nat.le_refl _)
        (((moves_readTarget hclosed _).bind fun _ => moves_pure _) hvalue)
  | value hkey =>
      obtain ⟨found, hentry⟩ := skim_eq_ok_iff.mp h.run_eq
      have hvalue := (Attempt.bind_of_ok hkey).symm.trans hentry
      obtain ⟨value, stopped, hread, hdone⟩ := Attempt.bind_eq_ok hvalue
      cases hdone
      obtain ⟨_, hbegin⟩ := target_of_asKey hkey
      exact h.part hclosed (skim_eq_ok_iff.mpr ⟨value, hread⟩)
        (moves_readTarget hclosed _ hbegin) (Nat.le_refl _)
  | element hnext =>
      obtain ⟨values, hcollect⟩ := skim_eq_ok_iff.mp h.run_eq
      obtain ⟨_, after, rest, helement, -, hrest⟩ := Region.collect_of_next hnext hcollect
      exact h.part hclosed helement ((Region.proceeds_hasNext _).moves hnext)
        (Region.moves_collect _ _ hrest)
  | further hnext helement hmoved =>
      obtain ⟨values, hcollect⟩ := skim_eq_ok_iff.mp h.run_eq
      obtain ⟨_, after, rest, hread, -, hrest⟩ := Region.collect_of_next hnext hcollect
      cases helement.symm.trans hread
      have hbegin := (Region.proceeds_hasNext _).moves hnext
      exact h.part hclosed (skim_eq_ok_iff.mpr ⟨rest, hrest⟩)
        (Nat.le_trans hbegin (Nat.le_of_lt hmoved)) (Nat.le_refl _)

/-- All that a read which comes to an end comes to on the way comes to an end. -/
theorem Ends.reaches (hclosed : Closed policy registry) (h : registry.Ends buffer place last)
    (hreaches : registry.Reaches buffer place next) :
    registry.EndsBefore buffer place next last := by
  induction hreaches with
  | refl => exact ⟨Nat.le_refl _, last, h, Nat.le_refl _⟩
  | tail _ hstep ih =>
      obtain ⟨hbegin, middle, hends, hmiddle⟩ := ih
      obtain ⟨hnext, reached, hreached, hle⟩ := hends.step hclosed hstep
      exact ⟨Nat.le_trans hbegin hnext, reached, hreached, Nat.le_trans hle hmiddle⟩

/-- An array, whose length stands before it, ends where the length says, inside all arrays
around it.  Whole elements take up its bytes, and all that is read on the way through them
is read from these bytes. -/
structure FillsRegion (registry : Registry) (buffer : Buffer) (place : Place) (kind : WireKind)
    (element : Job) (last : Cursor) (length : Nat) (counted begun : Cursor) : Prop where
  length_eq : word 4 buffer place.cursor = (.ok length, counted)
  begun_eq : begun.position = alignUp counted.position kind.alignment
  start_eq : Region.start kind buffer place.cursor =
    (.ok ⟨kind, begun.position + length⟩, begun)
  last_eq : last.position = begun.position + length
  inside : ∀ span ∈ place.spans,
    span.start ≤ begun.position ∧ begun.position + length ≤ span.stop
  tiles : Region.Tiles ⟨kind, begun.position + length⟩ (registry.skimJob element) buffer begun
  contained : ∀ inner, registry.Reaches buffer
    ⟨.elements ⟨kind, begun.position + length⟩ element, begun,
      ⟨begun.position, begun.position + length⟩ :: place.spans⟩ inner →
    ∃ reached, registry.Ends buffer inner reached ∧
      begun.position ≤ inner.cursor.position ∧ reached.position ≤ begun.position + length

theorem Ends.fillsRegion (hclosed : Closed policy registry)
    (h : registry.Ends buffer place last) {target : Target} (hjob : place.job = .read target)
    {kind : WireKind} {element : Job}
    (hplan : registry.plan? place.cursor target = some (.array kind element)) :
    ∃ length counted begun,
      registry.FillsRegion buffer place kind element last length counted begun := by
  obtain ⟨job, cursor, spans⟩ := place
  cases hjob
  obtain ⟨region, begun, hstart, hrun⟩ := Attempt.bind_eq_ok (h.plan hclosed hplan)
  obtain ⟨length, counted, hlength, -, halign, -, rfl⟩ := Region.start_eq_ok hstart
  obtain ⟨-, hbegun⟩ := spells_of_align kind.alignment_pos halign
  obtain ⟨values, hcollect⟩ := skim_eq_ok_iff.mp hrun
  have hlast : last.position = begun.position + length := Region.stop_of_collect hcollect
  obtain ⟨hbegin, reached, hends, hle⟩ := h.step hclosed (.elements hplan hstart)
  refine ⟨length, counted, begun, hlength, hbegun, hstart, hlast, ?_,
    Region.tiles_of_collect hcollect, ?_⟩
  · intro span hspan
    obtain ⟨hspanStart, hspanStop⟩ := h.inside span hspan
    exact ⟨Nat.le_trans hspanStart hbegin, hlast ▸ hspanStop⟩
  · intro inner hinner
    obtain ⟨hafter, stopped, hstopped, hstop⟩ := hends.reaches hclosed hinner
    exact ⟨stopped, hstopped, hafter, hlast ▸ Nat.le_trans hstop hle⟩

/-- A part of a read that does not fit where it stands: it cannot be read, it ends past the
end of an array around it, or it is an array that goes on past the end of one around it or
is not taken up by whole elements. -/
inductive Misfits (registry : Registry) (buffer : Buffer) (place : Place) : Prop
  | fails {error : Error} {reached : Cursor}
      (hrun : registry.skimJob place.job buffer place.cursor = (.error error, reached))
  | endsPast {reached : Cursor} {span : Span}
      (hrun : registry.skimJob place.job buffer place.cursor = (.ok (), reached))
      (hspan : span ∈ place.spans) (hpast : span.stop < reached.position)
  | goesPast {region : Region} {element : Job} {span : Span}
      (hjob : place.job = .elements region element) (hspan : span ∈ place.spans)
      (hpast : span.stop < region.stop)
  | leavesGap {region : Region} {element : Job} (hjob : place.job = .elements region element)
      (hgap : ¬ region.Tiles (registry.skimJob element) buffer place.cursor)

theorem Ends.not_misfits (h : registry.Ends buffer place last) :
    ¬ registry.Misfits buffer place := by
  intro hmisfits
  have hrun := h.run_eq
  cases hmisfits with
  | fails hfailed => cases hrun.symm.trans hfailed
  | endsPast hother hspan hpast =>
      cases hrun.symm.trans hother
      exact Nat.not_lt.mpr (h.inside _ hspan).2 hpast
  | goesPast hjob hspan hpast =>
      rw [hjob] at hrun
      obtain ⟨values, hcollect⟩ := skim_eq_ok_iff.mp hrun
      rw [← Region.stop_of_collect hcollect] at hpast
      exact Nat.not_lt.mpr (h.inside _ hspan).2 hpast
  | leavesGap hjob hgap =>
      rw [hjob] at hrun
      obtain ⟨values, hcollect⟩ := skim_eq_ok_iff.mp hrun
      exact hgap (Region.tiles_of_collect hcollect)

theorem endsBefore_of_readValue (hclosed : Closed policy registry) {name : String}
    {construct : Construct} {value : Value}
    (hread : registry.readValue name buffer cursor = (.ok value, last))
    (hreaches : registry.Reaches buffer
      ⟨.read (.callee (.procedure name construct)), cursor, []⟩ place) :
    registry.EndsBefore buffer ⟨.read (.callee (.procedure name construct)), cursor, []⟩ place
      last := by
  have hrun : registry.skimJob (.read (.callee (.procedure name construct))) buffer cursor =
      (.ok (), last) := skim_eq_ok_iff.mpr ⟨value, hread⟩
  have hwhole : registry.Ends buffer
      ⟨.read (.callee (.procedure name construct)), cursor, []⟩ last :=
    ⟨hrun, moves_skimJob hclosed _ hrun, List.forall_mem_nil _, .nil⟩
  exact hwhole.reaches hclosed hreaches

end Registry

namespace Generator

open Registry

variable {generator : Generator}

/-- If a generated reader comes to a result, all that it reads on the way ends inside the
arrays around it, and each array ends where its length says, with whole elements taking up
its bytes.  If it comes to something that does not fit into the arrays around it, or to an
array that elements do not take up, it fails, however far the buffer goes on. -/
theorem readValue_contained (hreachable : generator.Reachable) {name : String}
    {construct : Construct} {buffer : Buffer} {cursor : Cursor} {place : Place}
    (hreaches : generator.registry.Reaches buffer
      ⟨.read (.callee (.procedure name construct)), cursor, []⟩ place) :
    (∀ value last, generator.registry.readValue name buffer cursor = (.ok value, last) →
      ∃ reached, generator.registry.Ends buffer place reached ∧
        cursor.position ≤ place.cursor.position ∧ reached.position ≤ last.position ∧
        ∀ target kind element, place.job = .read target →
          generator.registry.plan? place.cursor target = some (.array kind element) →
          ∃ length counted begun, generator.registry.FillsRegion buffer place kind element
            reached length counted begun) ∧
    (generator.registry.Misfits buffer place →
      ∃ error last,
        generator.registry.readValue name buffer cursor = (.error error, last)) := by
  have hclosed := hreachable.sound
  refine ⟨?_, fun hmisfits => ?_⟩
  · intro value last hread
    obtain ⟨hbegin, reached, hreached, hle⟩ := endsBefore_of_readValue hclosed hread hreaches
    exact ⟨reached, hreached, hbegin, hle,
      fun target kind element hjob hplan => hreached.fillsRegion hclosed hjob hplan⟩
  · cases hread : generator.registry.readValue name buffer cursor with
    | mk outcome last =>
        cases outcome with
        | error error => exact ⟨error, last, rfl⟩
        | ok value =>
            obtain ⟨-, reached, hreached, -⟩ := endsBefore_of_readValue hclosed hread hreaches
            exact absurd hmisfits hreached.not_misfits

/-- Arrays of bytes in an array.  The first of them has four bytes behind its length, which
fit into eight bytes around it.  Of six, two stand past the end. -/
theorem readValue_nestedArrays :
    (∃ reached length counted begun,
      (performAll {} [.callee .read "aay"]).2.registry.FillsRegion
        ⟨.little, ⟨#[8, 0, 0, 0, 4, 0, 0, 0, 1, 2, 3, 4, 5]⟩⟩
        ⟨.read (.callee (.procedure "read_array_ay" .array)), ⟨4, 0⟩, [⟨4, 12⟩]⟩
        (.basic .byte) (.read (.callee (.primitive .byte))) reached length counted begun) ∧
    ∃ error last,
      (performAll {} [.callee .read "aay"]).2.registry.readValue "read_array_aay"
        ⟨.little, ⟨#[6, 0, 0, 0, 4, 0, 0, 0, 1, 2, 3, 4, 5]⟩⟩ {} = (.error error, last) := by
  have hreachable : Reachable (performAll {} [.callee .read "aay"]).2 :=
    ⟨fun _ => .hashed, _, rfl⟩
  have houter : (performAll {} [.callee .read "aay"]).2.registry.plan? {}
      (.callee (.procedure "read_array_aay" .array)) =
        some (.array .array (.read (.callee (.procedure "read_array_ay" .array)))) := by
    rfl
  constructor
  · have hinner : (performAll {} [.callee .read "aay"]).2.registry.plan? ⟨4, 0⟩
        (.callee (.procedure "read_array_ay" .array)) =
          some (.array (.basic .byte) (.read (.callee (.primitive .byte)))) := by
      rfl
    have hstart : Region.start .array
        ⟨.little, ⟨#[8, 0, 0, 0, 4, 0, 0, 0, 1, 2, 3, 4, 5]⟩⟩ {} =
          (.ok ⟨.array, 12⟩, ⟨4, 0⟩) := by
      rfl
    have hnext : Region.hasNext ⟨.array, 12⟩
        ⟨.little, ⟨#[8, 0, 0, 0, 4, 0, 0, 0, 1, 2, 3, 4, 5]⟩⟩ ⟨4, 0⟩ =
          (.ok true, ⟨4, 0⟩) := by
      rfl
    have hok : ((performAll {} [.callee .read "aay"]).2.registry.readValue "read_array_aay"
        ⟨.little, ⟨#[8, 0, 0, 0, 4, 0, 0, 0, 1, 2, 3, 4, 5]⟩⟩ {}).1.isOk := by
      decide +kernel
    cases hread : (performAll {} [.callee .read "aay"]).2.registry.readValue "read_array_aay"
        ⟨.little, ⟨#[8, 0, 0, 0, 4, 0, 0, 0, 1, 2, 3, 4, 5]⟩⟩ {} with
    | mk outcome last =>
        rw [hread] at hok
        cases outcome with
        | error error => cases hok
        | ok value =>
            obtain ⟨reached, -, -, -, hfills⟩ := (readValue_contained hreachable
              (.tail (.single (.elements houter hstart)) (.element hnext))).1 _ _ hread
            exact ⟨reached, hfills _ _ _ rfl hinner⟩
  · have hstart : Region.start .array
        ⟨.little, ⟨#[6, 0, 0, 0, 4, 0, 0, 0, 1, 2, 3, 4, 5]⟩⟩ {} =
          (.ok ⟨.array, 10⟩, ⟨4, 0⟩) := by
      rfl
    have hnext : Region.hasNext ⟨.array, 10⟩
        ⟨.little, ⟨#[6, 0, 0, 0, 4, 0, 0, 0, 1, 2, 3, 4, 5]⟩⟩ ⟨4, 0⟩ =
          (.ok true, ⟨4, 0⟩) := by
      rfl
    have hinner : (performAll {} [.callee .read "aay"]).2.registry.skimJob
        (.read (.callee (.procedure "read_array_ay" .array)))
        ⟨.little, ⟨#[6, 0, 0, 0, 4, 0, 0, 0, 1, 2, 3, 4, 5]⟩⟩ ⟨4, 0⟩ =
          (.ok (), ⟨12, 0⟩) := by
      with_unfolding_all rfl
    exact (readValue_contained hreachable
      (.tail (.single (.elements houter hstart)) (.element hnext))).2
      (.endsPast hinner (List.mem_singleton_self _) (by decide))

end Generator

end BusCodec
