import BusCodec.Proofs.Generator.Acceptance
import BusCodec.Proofs.Generator.Independence
import Mathlib.Data.String.Basic

/-!
Readers and writers of the same signatures.  Generating readers in one session and writers in
another goes the same way: whatever the one registers, the other registers the counterpart
of, which differs from it in its native types and in the word that names begin with.
-/

namespace BusCodec

/-- Two names that differ in the word of the access that they begin with. -/
def NamesCounterpart (reader writer : String) : Prop :=
  ∃ rest, reader = "read_" ++ rest ∧ writer = "write_" ++ rest

/-- Two callees that are alike, but for the name of the procedure that is called. -/
inductive Callee.Counterpart : Callee → Callee → Prop
  | primitive (type : BasicType) : Counterpart (.primitive type) (.primitive type)
  | variant : Counterpart .variant .variant
  | procedure {reader writer : String} (construct : Construct)
      (hname : NamesCounterpart reader writer) :
      Counterpart (.procedure reader construct) (.procedure writer construct)

/-- Two bodies that are alike, but for the names of the procedures that are called. -/
inductive Body.Counterpart : Body → Body → Prop
  | array (element : WireKind) {item other : Callee} (hitem : item.Counterpart other) :
      Counterpart (.array element item) (.array element other)
  | dictionary {key otherKey value otherValue : Callee} (hkey : key.Counterpart otherKey)
      (hvalue : value.Counterpart otherValue) :
      Counterpart (.dictionary key value) (.dictionary otherKey otherValue)
  | struct {members others : List Callee}
      (hmembers : List.Forall₂ Callee.Counterpart members others) :
      Counterpart (.struct members) (.struct others)
  | message (variant : Option String) {values others : List Callee}
      (hvalues : List.Forall₂ Callee.Counterpart values others) :
      Counterpart (.message variant values) (.message variant others)

/-- A reader and the writer that does the same the other way round. -/
structure Procedure.Counterpart (reader writer : Procedure) : Prop where
  reads : reader.access = .read
  writes : writer.access = .write
  name : NamesCounterpart reader.name writer.name
  construct_eq : reader.construct = writer.construct
  signature_eq : reader.signature = writer.signature
  body : reader.body.Counterpart writer.body

theorem namesCounterpart_procedureName (construct : Construct) (signature : String) :
    NamesCounterpart (procedureName .read construct signature)
      (procedureName .write construct signature) := by
  refine ⟨construct.word ++ "_" ++ nameOfSignature signature, ?_, ?_⟩
  · simp only [procedureName, Access.word, String.append_assoc]
    rfl
  · simp only [procedureName, Access.word, String.append_assoc]
    rfl

theorem append_lt_append_iff (word first second : String) :
    word ++ first < word ++ second ↔ first < second := by
  have hmono : ∀ a b : String, a < b → word ++ a < word ++ b := by
    intro a b h
    rw [String.lt_iff_toList_lt] at h ⊢
    rw [String.toList_append, String.toList_append]
    exact List.append_left_lt h
  refine ⟨fun h => ?_, hmono first second⟩
  by_contra hnot
  by_cases hgreater : second < first
  · exact String.lt_asymm h (hmono second first hgreater)
  · rw [String.le_antisymm (String.not_lt.mp hgreater) (String.not_lt.mp hnot)] at h
    exact String.lt_irrefl _ h

namespace NamesCounterpart

variable {reader writer otherReader otherWriter : String}

/-- Counterparts come in the same order. -/
theorem lt_iff (h : NamesCounterpart reader writer)
    (hother : NamesCounterpart otherReader otherWriter) :
    reader < otherReader ↔ writer < otherWriter := by
  obtain ⟨rest, rfl, rfl⟩ := h
  obtain ⟨other, rfl, rfl⟩ := hother
  rw [append_lt_append_iff, append_lt_append_iff]

theorem eq_iff (h : NamesCounterpart reader writer)
    (hother : NamesCounterpart otherReader otherWriter) :
    reader = otherReader ↔ writer = otherWriter := by
  obtain ⟨rest, rfl, rfl⟩ := h
  obtain ⟨other, rfl, rfl⟩ := hother
  rw [String.append_right_inj, String.append_right_inj]

end NamesCounterpart

namespace ProcedureTable

variable {readers writers : List Procedure} {reader writer : Procedure}

theorem counterparts_place (h : List.Forall₂ Procedure.Counterpart readers writers)
    (hadded : reader.Counterpart writer) :
    List.Forall₂ Procedure.Counterpart (place reader readers) (place writer writers) := by
  induction h with
  | nil => exact .cons hadded .nil
  | cons hfirst hrest ih =>
      rw [place, place]
      simp only [hadded.name.lt_iff hfirst.name, hfirst.name.lt_iff hadded.name]
      split
      · exact .cons hadded (.cons hfirst hrest)
      · split
        · exact .cons hfirst ih
        · exact .cons hfirst hrest

theorem any_name_eq (h : List.Forall₂ Procedure.Counterpart readers writers)
    {readerName writerName : String} (hname : NamesCounterpart readerName writerName) :
    (readers.any fun procedure => procedure.name == readerName) =
      writers.any fun procedure => procedure.name == writerName := by
  induction h with
  | nil => rfl
  | cons hfirst _ ih =>
      have hbeq : ∀ {a b : Procedure}, a.Counterpart b →
          (a.name == readerName) = (b.name == writerName) := by
        intro a b hab
        rw [Bool.eq_iff_iff, beq_iff_eq, beq_iff_eq, hab.name.eq_iff hname]
      rw [List.any_cons, List.any_cons, ih, hbeq hfirst]

end ProcedureTable

namespace Generator

variable {α β γ δ : Type}

/-- One generator has made readers only and another one their counterparts, listed in the
same order. -/
structure Parallel (reading writing : Generator) : Prop where
  counterparts : List.Forall₂ Procedure.Counterpart reading.registry.readers.procedures
    writing.registry.writers.procedures
  noWriters : reading.registry.writers.procedures = []
  noReaders : writing.registry.readers.procedures = []

theorem parallel_fresh (policy other : MapPolicy) : Parallel (fresh policy) (fresh other) :=
  ⟨.nil, rfl, rfl⟩

/-- From parallel generators, one computation succeeds with what the other one does, and they
stay parallel. -/
def Mirrors (reading : Generate α) (writing : Generate β) (related : α → β → Prop) : Prop :=
  ∀ ⦃first second : Generator⦄, Parallel first second →
    ∀ ⦃value reached⦄, reading first = (.ok value, reached) →
      ∃ other last, writing second = (.ok other, last) ∧ related value other ∧
        Parallel reached last

theorem mirrors_pure {value : α} {other : β} {related : α → β → Prop}
    (h : related value other) : Mirrors (pure value) (pure other) related := by
  intro first second hparallel result reached hrun
  cases hrun
  exact ⟨other, second, rfl, h, hparallel⟩

theorem Mirrors.bind {reading : Generate α} {writing : Generate β} {next : α → Generate γ}
    {further : β → Generate δ} {related : α → β → Prop} {after : γ → δ → Prop}
    (h : Mirrors reading writing related)
    (hnext : ∀ value other, related value other → Mirrors (next value) (further other) after) :
    Mirrors (reading >>= next) (writing >>= further) after := by
  intro first second hparallel result reached hrun
  obtain ⟨value, middle, hvalue, hrest⟩ := Attempt.bind_eq_ok hrun
  obtain ⟨other, between, hother, hrelated, hmiddle⟩ := h hparallel hvalue
  rw [Attempt.bind_of_ok hother]
  exact hnext value other hrelated hmiddle hrest

theorem mirrors_isRegistered {reader writer : String} (h : NamesCounterpart reader writer) :
    Mirrors (isRegistered .read reader) (isRegistered .write writer) Eq := by
  intro first second hparallel value reached hrun
  rw [isRegistered_apply] at hrun
  cases hrun
  exact ⟨_, second, rfl, ProcedureTable.any_name_eq hparallel.counterparts h, hparallel⟩

theorem mirrors_register {reader writer : Procedure} (h : reader.Counterpart writer) :
    Mirrors (register reader) (register writer) fun _ _ => True := by
  intro first second hparallel value reached hrun
  cases hrun
  refine ⟨(), _, rfl, trivial, ?_⟩
  obtain ⟨hcounterparts, hwriters, hreaders⟩ := hparallel
  refine ⟨?_, ?_, ?_⟩
  · simp only [Registry.insert, h.reads, h.writes]
    exact ProcedureTable.counterparts_place hcounterparts h
  · simpa only [Registry.insert, h.reads] using hwriters
  · simpa only [Registry.insert, h.writes] using hreaders

theorem mirrors_native (type : BusType) :
    Mirrors (native .read type) (native .write type) fun _ _ => True := by
  intro first second hparallel value reached hrun
  rw [native_apply] at hrun
  obtain ⟨hnative, rfl⟩ := Prod.mk.inj hrun
  rcases NativeType.ofBusType_cases first.policy .read (Access.read == .write) type with
    ⟨hmap, -⟩ | ⟨-, herror⟩
  · rcases NativeType.ofBusType_cases second.policy .write (Access.write == .write) type with
      ⟨-, other, hother⟩ | ⟨hnot, -⟩
    · exact ⟨other, second, by rw [native_apply, hother], trivial, hparallel⟩
    · exact absurd hmap hnot
  · rw [herror] at hnative
    cases hnative

theorem mirrors_natives (types : List BusType) :
    Mirrors (natives .read types) (natives .write types) fun _ _ => True := by
  induction types with
  | nil => exact mirrors_pure trivial
  | cons type types ih =>
      exact (mirrors_native type).bind fun _ _ _ => ih.bind fun _ _ _ => mirrors_pure trivial

theorem Mirrors.container {construct : Construct} {type : BusType}
    {reading writing : Generate Body} (h : Mirrors reading writing Body.Counterpart) :
    Mirrors (container .read construct type reading) (container .write construct type writing)
      Callee.Counterpart := by
  have hname := namesCounterpart_procedureName construct type.signature
  rw [Generator.container, Generator.container]
  refine (mirrors_isRegistered hname).bind ?_
  rintro registered _ rfl
  split
  · exact mirrors_pure (.procedure construct hname)
  · refine (mirrors_native type).bind fun native other _ => h.bind fun body further hbody => ?_
    refine Mirrors.bind (mirrors_register ?_) fun _ _ _ =>
      mirrors_pure (.procedure construct hname)
    exact ⟨rfl, rfl, hname, rfl, rfl, hbody⟩

mutual

theorem mirrors_callee : ∀ type : BusType,
    Mirrors (callee .read type) (callee .write type) Callee.Counterpart
  | .basic type => mirrors_pure (.primitive type)
  | .variant => mirrors_pure .variant
  | .array element =>
      Mirrors.container ((mirrors_callee element).bind fun _ _ hitem =>
        mirrors_pure (.array _ hitem))
  | .dict key value =>
      Mirrors.container ((mirrors_callee value).bind fun _ _ hvalue =>
        mirrors_pure (.dictionary (.primitive key) hvalue))
  | .struct first rest =>
      Mirrors.container ((mirrors_callee first).bind fun _ _ hfirst =>
        (mirrors_callees rest).bind fun _ _ hrest => mirrors_pure (.struct (.cons hfirst hrest)))

theorem mirrors_callees : ∀ types : List BusType,
    Mirrors (callees .read types) (callees .write types) (List.Forall₂ Callee.Counterpart)
  | [] => mirrors_pure .nil
  | type :: types =>
      (mirrors_callee type).bind fun _ _ hfirst =>
        (mirrors_callees types).bind fun _ _ hrest => mirrors_pure (.cons hfirst hrest)

end

theorem mirrors_entry (signature : String) (variant : Bool) :
    Mirrors (entry .read signature variant) (entry .write signature variant)
      NamesCounterpart := by
  rw [entry, entry]
  cases entryTypes signature variant with
  | error error =>
      intro first second _ value reached hrun
      cases hrun
  | ok described =>
      obtain ⟨construct, types⟩ := described
      have hname := namesCounterpart_procedureName construct signature
      rw [Attempt.liftGrammar_ok_bind, Attempt.liftGrammar_ok_bind]
      refine (mirrors_isRegistered hname).bind ?_
      rintro registered _ rfl
      split
      · exact mirrors_pure hname
      · refine (mirrors_natives types).bind fun natives others _ =>
          (mirrors_callees types).bind fun values further hvalues => ?_
        refine Mirrors.bind (mirrors_register ?_) fun _ _ _ => mirrors_pure hname
        exact ⟨rfl, rfl, hname, rfl, rfl, .message _ hvalues⟩

/-- Readers and writers are generated for the same signatures, and refused for the others
with the same errors, whatever the sessions have generated before.  What a new session
generates to read a signature and what another one generates to write it are counterparts,
one by one. -/
theorem entries_mirrored {generator other : Generator} (hreachable : generator.Reachable)
    (hother : other.Reachable) (signature : String) (variant : Bool) :
    (∀ error, (entry .read signature variant generator).1 = .error error ↔
        Refused signature variant error) ∧
      (∀ error, (entry .write signature variant other).1 = .error error ↔
        Refused signature variant error) ∧
      (∀ name, (entry .read signature variant generator).1 = .ok name ↔
        Accepted signature variant ∧ name = entryName .read signature variant) ∧
      (∀ name, (entry .write signature variant other).1 = .ok name ↔
        Accepted signature variant ∧ name = entryName .write signature variant) ∧
      (Accepted signature variant → ∀ policy otherPolicy,
        Parallel (entry .read signature variant (fresh policy)).2
            (entry .write signature variant (fresh otherPolicy)).2 ∧
          ∃ reader, (entry .read signature variant (fresh policy)).2.registry.get? .read
            (entryName .read signature variant) = some reader) := by
  refine ⟨fun error => entry_eq_error_iff hreachable.sound,
    fun error => entry_eq_error_iff hother.sound, fun name => entry_eq_ok_iff hreachable.sound,
    fun name => entry_eq_ok_iff hother.sound, fun haccepted policy otherPolicy => ⟨?_, ?_⟩⟩
  · have hname : (entry .read signature variant (fresh policy)).1 =
        .ok (entryName .read signature variant) :=
      (entry_eq_ok_iff (sound_fresh policy)).mpr ⟨haccepted, rfl⟩
    obtain ⟨writer, last, hrun, -, hparallel⟩ :=
      mirrors_entry signature variant (parallel_fresh policy otherPolicy) (Prod.ext hname rfl)
    rw [hrun]
    exact hparallel
  · obtain ⟨construct, types, htypes, hmap⟩ := accepted_iff.mp haccepted
    obtain ⟨reached, hrun, -, hregistered⟩ :=
      (answered_entry .read (sound_fresh policy) htypes).ok hmap
    rw [hrun, entryName, ← construct_of_entryTypes htypes]
    exact Registry.contains_eq_true_iff.mp hregistered

/-- Dictionaries of arrays, and dictionaries keyed by doubles in a struct. -/
theorem entries_mirrored_dictionaries :
    Parallel (entry .read "a{sai}" true (fresh fun _ => .hashed)).2
        (entry .write "a{sai}" true (fresh fun _ => .ordered)).2 ∧
      (entry .write "(ya{dv})" false (performAll {} [.entry .read "aai" false]).2).1 =
        .error .doubleMapKey := by
  have hreachable : Reachable (performAll {} [.entry .read "aai" false]).2 :=
    ⟨fun _ => .hashed, _, rfl⟩
  have hmirrored := entries_mirrored hreachable hreachable
  constructor
  · have haccepted : Accepted "a{sai}" true := by
      refine ⟨[.dict .string (.array (.basic .int32))], rfl, List.cons_ne_nil _ _,
        fun _ => ⟨_, rfl⟩, ?_⟩
      exact (BusType.allMappable_iff _).mp ⟨⟨by decide, trivial⟩, trivial⟩
    exact ((hmirrored "a{sai}" true).2.2.2.2 haccepted _ _).1
  · have hparse : BusType.parseAll "(ya{dv})" =
        .ok [.struct (.basic .byte) [.dict .double .variant]] := rfl
    have hrefused : Refused "(ya{dv})" false .doubleMapKey :=
      .doubleKey hparse (fun h => by cases h) List.mem_cons_self
        (.within (List.mem_cons_of_mem _ List.mem_cons_self) (.whole (.dict .double .variant)))
    exact ((hmirrored "(ya{dv})" false).2.1 _).mpr hrefused

end Generator

end BusCodec
