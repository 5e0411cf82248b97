import BusCodec.Proofs.SourceText.Functions
import Mathlib.Data.List.Forall2

/-!
The outline of the generated module, as a reader of its text finds it: which functions it
defines, and what each of them calls.  The text is one definition for each registered
procedure, in order and of the same name, and no definition calls a function that is not
defined beside it.
-/

namespace BusCodec

namespace SourceText

/-- Whether a line begins the definition of a function. -/
def isHead (line : List Char) : Bool :=
  "pub fn ".toList.isPrefixOf line

/-- A definition of a function, from its first line to the next definition. -/
structure Definition where
  head : List Char
  body : List (List Char)

namespace Definition

def name (definition : Definition) : String :=
  String.ofList ((definition.head.drop "pub fn ".length).takeWhile isNameCharacter)

/-- The paths of what the body of the function calls for values. -/
def calls (definition : Definition) : List String :=
  definition.body.flatMap callsIn

/-- The level of indentation behind a definition that begins at level zero, unless one of its
lines stands at another level than the lines before it say. -/
def level? (definition : Definition) : Option Nat :=
  (definition.head :: definition.body).foldlM levelAfter 0

end Definition

def definitions : List (List Char) → List Definition
  | [] => []
  | line :: rest =>
      if isHead line then ⟨line, rest.takeWhile fun line => !isHead line⟩ :: definitions rest
      else definitions rest

theorem definitions_append {lines rest : List (List Char)}
    (h : ∀ line ∈ lines, isHead line = false) :
    definitions (lines ++ rest) = definitions rest := by
  induction lines with
  | nil => rfl
  | cons line lines ih =>
      rw [List.forall_mem_cons] at h
      rw [List.cons_append, definitions, h.1, if_neg Bool.false_ne_true, ih h.2]

theorem definitions_cons {head : List Char} {body rest : List (List Char)}
    (hhead : isHead head = true) (hbody : ∀ line ∈ body, isHead line = false)
    (hrest : ∀ line ∈ rest.head?, isHead line = true) :
    definitions (head :: (body ++ rest)) = ⟨head, body⟩ :: definitions rest := by
  have hnot : ∀ line ∈ body, (!isHead line) = true := by
    intro line hline
    rw [hbody line hline]
    rfl
  have hstop : rest.takeWhile (fun line => !isHead line) = [] := by
    cases rest with
    | nil => rfl
    | cons line rest =>
        have hline := hrest line rfl
        rw [List.takeWhile_cons, hline]
        rfl
  rw [definitions, if_pos hhead, List.takeWhile_append_of_pos hnot, hstop, List.append_nil,
    definitions_append hbody]

namespace Code

mutual

theorem not_isHead_lines : ∀ (code : Code) (level : Nat), ∀ letters ∈ lines (level + 1) code,
    isHead letters = false
  | .line content, level, letters, hletters => by
      rw [List.mem_singleton.mp hletters]
      rfl
  | .block opening inside, level, letters, hletters => by
      rw [lines, List.mem_cons, List.mem_append, List.mem_singleton] at hletters
      rcases hletters with rfl | hinside | rfl
      · rfl
      · exact not_isHead_linesAll inside (level + 1) letters hinside
      · rfl

theorem not_isHead_linesAll : ∀ (codes : List Code) (level : Nat),
    ∀ letters ∈ linesAll (level + 1) codes, isHead letters = false
  | [], _, _, hletters => by cases hletters
  | code :: rest, level, letters, hletters => by
      rw [linesAll, List.mem_append] at hletters
      rcases hletters with hfirst | hrest
      · exact not_isHead_lines code level letters hfirst
      · exact not_isHead_linesAll rest level letters hrest

end

end Code

variable {name : String} {paths : List String} {code : Code}

theorem Defines.tidy (h : Defines name paths code) : code.Tidy := by
  obtain ⟨opens, ends, makes⟩ := h
  exact ⟨opens.begins, opens.unbroken, ends, makes.tidy⟩

/-- What is read of a definition: its name, what it calls, and that it ends at the level of
indentation at which it begins. -/
structure Definition.Reads (definition : Definition) (name : String) (paths : List String) :
    Prop where
  name_eq : definition.name = name
  calls_eq : definition.calls = paths
  level_eq : definition.level? = some 0

/-- The lines of a definition, with an empty line behind them, are read as the definition. -/
theorem Defines.exists_reads (h : Defines name paths code) (hname : isFunction name.toList = true) :
    ∃ definition : Definition, Code.lines 0 code ++ [[]] = definition.head :: definition.body ∧
      isHead definition.head = true ∧ (∀ line ∈ definition.body, isHead line = false) ∧
      definition.Reads name paths := by
  have hlevel := Code.levelAfter_lines h.tidy 0
  cases h with
  | @block head inside opens ends makes =>
      obtain ⟨letter, rest, hhead, hletter⟩ := opens.named
      refine ⟨⟨head.toList, Code.linesAll 1 inside ++ [['}']] ++ [[]]⟩, rfl, ?_, ?_, ?_, ?_, ?_⟩
      · rw [isHead, hhead, List.isPrefixOf_iff_prefix]
        exact List.prefix_append _ _
      · intro line hline
        rw [List.append_assoc, List.mem_append] at hline
        rcases hline with hinside | hclosing
        · exact Code.not_isHead_linesAll inside 0 line hinside
        · rcases List.mem_cons.mp hclosing with rfl | hempty
          · rfl
          · rw [List.mem_singleton.mp hempty]
            rfl
      · have hdrop : head.toList.drop "pub fn ".length = name.toList ++ letter :: rest := by
          rw [hhead]
          exact List.drop_left
        rw [Definition.name, hdrop, List.takeWhile_append_of_pos (forall_isNameCharacter hname),
          List.takeWhile_cons_of_neg (by simp [hletter]), List.append_nil, String.ofList_toList]
      · have hclosing : callsIn ['}'] = [] := rfl
        have hempty : callsIn [] = [] := rfl
        rw [Definition.calls, List.flatMap_append, List.flatMap_append, List.flatMap_singleton,
          List.flatMap_singleton, hclosing, hempty, List.append_nil, List.append_nil,
          Code.flatMap_callsIn_linesAll, makes.calls_eq]
      · have hall : (Code.lines 0 (.block head inside) ++ [[]]).foldlM levelAfter 0 = some 0 := by
          rw [List.foldlM_append, hlevel]
          rfl
        exact hall

theorem forall₂_definitions {procedures : List Procedure}
    (h : ∀ procedure ∈ procedures, Printable procedure) :
    List.Forall₂ (fun procedure definition => definition.Reads procedure.name
        (procedure.body.callees.map (Callee.path procedure.access))) procedures
      (definitions (procedures.flatMap fun procedure =>
        Code.lines 0 (function procedure) ++ [[]])) := by
  -- Every definition ends where the next one has its first line.
  have hfirst : ∀ procedures : List Procedure, (∀ procedure ∈ procedures, Printable procedure) →
      ∀ line ∈ (procedures.flatMap fun procedure =>
        Code.lines 0 (function procedure) ++ [[]]).head?, isHead line = true := by
    intro procedures h line hline
    cases procedures with
    | nil => cases hline
    | cons procedure procedures =>
        have hprintable := h procedure List.mem_cons_self
        obtain ⟨definition, hlines, hhead, -⟩ :=
          (defines_function hprintable).exists_reads hprintable.name
        rw [List.flatMap_cons, hlines] at hline
        cases hline
        exact hhead
  induction procedures with
  | nil => exact .nil
  | cons procedure procedures ih =>
      rw [List.forall_mem_cons] at h
      obtain ⟨definition, hlines, hhead, hbody, hreads⟩ :=
        (defines_function h.1).exists_reads h.1.name
      rw [List.flatMap_cons, hlines, List.cons_append,
        definitions_cons hhead hbody (hfirst procedures h.2)]
      exact .cons hreads (ih h.2)

/-- The text of the functions of procedures, each behind an empty line. -/
theorem toList_functions {procedures : List Procedure}
    (h : ∀ procedure ∈ procedures, Printable procedure) :
    (Code.textAll 0 (procedures.flatMap fun procedure => [.line "", function procedure])).toList =
      (procedures.flatMap fun procedure =>
        [] :: Code.lines 0 (function procedure)).flatMap (· ++ ['\n']) := by
  induction procedures with
  | nil => rfl
  | cons procedure procedures ih =>
      rw [List.forall_mem_cons] at h
      have hempty : (Code.text 0 (.line "")).toList = ['\n'] := rfl
      rw [List.flatMap_cons, List.flatMap_cons, List.flatMap_append, List.cons_append,
        List.cons_append, List.nil_append, Code.textAll, Code.textAll, String.toList_append,
        String.toList_append, hempty, ih h.2, List.flatMap_cons,
        Code.toList_text (defines_function h.1).tidy]
      rfl

/-- An empty line before each of a sequence of texts, and one at the end, is one at the
beginning and one behind each. -/
theorem flatMap_cons_nil {α β : Type} (lines : α → List (List β)) (items : List α) :
    (items.flatMap fun item => [] :: lines item) ++ [[]] =
      [] :: items.flatMap fun item => lines item ++ [[]] := by
  induction items with
  | nil => rfl
  | cons item items ih =>
      rw [List.flatMap_cons, List.flatMap_cons, List.append_assoc, ih, List.cons_append,
        List.append_assoc]
      rfl

/-- Lines before which and after which the same definitions are found. -/
def Headless (text : String) : Prop :=
  ∀ rest, definitions ((text.toList ++ rest).splitOn '\n') = definitions (rest.splitOn '\n')

theorem Headless.append {text more : String} (h : Headless text) (hmore : Headless more) :
    Headless (text ++ more) := by
  intro rest
  rw [String.toList_append, List.append_assoc, h, hmore]

theorem headless_of_lines {text : String} (h : text.toList = text.toList.dropLast ++ ['\n'] ∧
    ∀ line ∈ text.toList.dropLast.splitOn '\n', isHead line = false) : Headless text := by
  intro rest
  rw [h.1, List.append_assoc, List.singleton_append, List.splitOn_eq_splitOnP,
    List.splitOnP_append_cons _ _ (by decide), ← List.splitOn_eq_splitOnP,
    ← List.splitOn_eq_splitOnP, definitions_append h.2]

theorem headless_header : Headless header := by
  unfold header
  iterate 7 refine Headless.append ?_ ?_
  all_goals exact headless_of_lines (by decide +kernel)

theorem definitions_module {registry : Registry}
    (h : ∀ procedure ∈ registry.toList, Printable procedure) :
    definitions (linesOf (module registry)) =
      definitions (registry.toList.flatMap fun procedure =>
        Code.lines 0 (function procedure) ++ [[]]) := by
  have hunbroken : ∀ line ∈ registry.toList.flatMap (fun procedure =>
      [] :: Code.lines 0 (function procedure)), '\n' ∉ line := by
    intro line hline
    obtain ⟨procedure, hmem, hin⟩ := List.mem_flatMap.mp hline
    rcases List.mem_cons.mp hin with rfl | hlines
    · exact List.not_mem_nil
    · exact Code.unbroken_lines (defines_function (h procedure hmem)).tidy line hlines
  have hempty : ([] : List Char).splitOn '\n' = [[]] := rfl
  have hlines := splitOn_flatMap hunbroken []
  rw [List.append_nil, hempty, flatMap_cons_nil] at hlines
  rw [linesOf, module, String.toList_append, toList_functions h, headless_header, hlines,
    definitions]
  rfl

theorem exists_callee_of_isFunction {access : Access} {callee : Callee}
    (h : isFunction (callee.path access).toList = true) :
    ∃ construct, callee = .procedure (callee.path access) construct := by
  cases callee with
  | primitive type =>
      cases access
      · simp [Callee.path, isFunction, isNameCharacter] at h
      · simp [Callee.path, isFunction, isNameCharacter] at h
  | variant =>
      cases access
      · simp [Callee.path, isFunction, isNameCharacter] at h
      · simp [Callee.path, isFunction, isNameCharacter] at h
  | procedure name construct =>
      refine ⟨construct, ?_⟩
      cases access <;> rfl

theorem module_eq (registry : Registry) :
    module registry = header ++ String.join (registry.toList.map fun procedure =>
      "\n" ++ (function procedure).text 0) := by
  have hfunctions : ∀ procedures : List Procedure,
      Code.textAll 0 (procedures.flatMap fun procedure => [.line "", function procedure]) =
        String.join (procedures.map fun procedure => "\n" ++ (function procedure).text 0) := by
    intro procedures
    induction procedures with
    | nil => rfl
    | cons procedure procedures ih =>
        have hempty : Code.text 0 (.line "") = "\n" := rfl
        rw [List.flatMap_cons, List.cons_append, List.cons_append, List.nil_append, Code.textAll,
          Code.textAll, ih, hempty, List.map_cons, String.join_cons, String.append_assoc]
  rw [module, hfunctions]

end SourceText

namespace Registry

variable {policy : MapPolicy} {registry : Registry} {access : Access} {name : String}
  {procedure : Procedure}

theorem mem_toList_of_get? (h : registry.get? access name = some procedure) :
    procedure ∈ registry.toList := by
  have hmem := (ProcedureTable.get?_eq_some_iff.mp h).1
  rw [toList, List.mem_append]
  cases access
  · exact .inl hmem
  · exact .inr hmem

theorem exists_get?_of_mem_toList (h : procedure ∈ registry.toList) :
    ∃ access, registry.get? access procedure.name = some procedure := by
  rw [toList, List.mem_append] at h
  rcases h with hreader | hwriter
  · exact ⟨.read, ProcedureTable.get?_eq_some_iff.mpr ⟨hreader, rfl⟩⟩
  · exact ⟨.write, ProcedureTable.get?_eq_some_iff.mpr ⟨hwriter, rfl⟩⟩

theorem nodup_names (h : Closed policy registry) : (registry.toList.map Procedure.name).Nodup := by
  have htable : ∀ table : ProcedureTable, (table.procedures.map Procedure.name).Nodup := by
    intro table
    rw [List.Nodup, List.pairwise_map]
    refine table.ascending.imp ?_
    intro first second hlt heq
    rw [heq] at hlt
    exact String.lt_irrefl _ hlt
  rw [toList, List.map_append, List.nodup_append]
  refine ⟨htable _, htable _, ?_⟩
  intro name hreader other hwriter heq
  obtain ⟨reader, hreaderMem, rfl⟩ := List.mem_map.mp hreader
  obtain ⟨writer, hwriterMem, rfl⟩ := List.mem_map.mp hwriter
  have hread : registry.get? .read reader.name = some reader :=
    ProcedureTable.get?_eq_some_iff.mpr ⟨hreaderMem, rfl⟩
  have hwrite : registry.get? .write writer.name = some writer :=
    ProcedureTable.get?_eq_some_iff.mpr ⟨hwriterMem, rfl⟩
  obtain ⟨hreadName, -⟩ := h.exists_standsFor hread
  obtain ⟨hwriteName, -⟩ := h.exists_standsFor hwrite
  rw [hreadName, hwriteName] at heq
  cases access_eq_of_procedureName_eq heq

/-- The text of the function of a registered procedure can be read back. -/
theorem Closed.printable (h : Closed policy registry)
    (hget : registry.get? access name = some procedure) : SourceText.Printable procedure := by
  obtain ⟨hname, -, types, hstands, hprovides, -⟩ := h.exists_standsFor hget
  have hsignature : ∃ types, procedure.signature = BusType.signatureAll types := by
    rcases h _ _ _ hget with ⟨type, -, hhandles, -⟩ | ⟨signature, variant, types, hhandles, -⟩
    · exact ⟨[type], by rw [hhandles.signature_eq, BusType.signature_eq_signatureAll]⟩
    · exact ⟨types, by
        rw [hhandles.signature_eq, (Generator.signature_of_entryTypes hhandles.types_eq).1]⟩
  obtain ⟨own, hsignature⟩ := hsignature
  refine ⟨?_, ?_, ?_, ?_⟩
  · rw [hname, hsignature]
    exact SourceText.isFunction_procedureName _ _ _
  · intro letter hletter
    rw [hsignature, BusType.signatureAll, String.toList_ofList] at hletter
    exact BusType.mem_alphabet_of_mem_codesAll hletter
  · intro callee hcallee
    rw [hstands.callees_eq] at hcallee
    obtain ⟨type, htype, rfl⟩ := List.mem_map.mp hcallee
    cases hcalled : type.callee access with
    | primitive type => trivial
    | variant => trivial
    | procedure called construct =>
        obtain ⟨hcalledName, -⟩ := h.handles_called (hprovides type htype) hcalled
        rw [hcalledName, BusType.signature_eq_signatureAll]
        exact SourceText.isFunction_procedureName _ _ _
  · intro signature values hbody
    rcases h _ _ _ hget with ⟨type, -, hhandles, -⟩ | ⟨own, variant, types, hhandles, -⟩
    · have hhandling := hhandles.handling_eq
      rw [hbody] at hhandling
      generalize procedure.construct = construct at hhandling
      cases type <;> cases hhandling
    · have hown := hhandles.body_eq
      rw [hbody] at hown
      rw [hhandles.signature_eq]
      cases variant <;> cases hown
      rfl

/-- What a registered procedure calls by a name is registered, for the same access. -/
theorem Closed.exists_called (h : Closed policy registry) (hget : registry.get? access name =
    some procedure) {called : String} {construct : Construct}
    (hcallee : .procedure called construct ∈ procedure.body.callees) :
    ∃ registered ∈ registry.toList, registered.name = called ∧ registered.access = access := by
  obtain ⟨-, -, types, hstands, hprovides, -⟩ := h.exists_standsFor hget
  rw [hstands.callees_eq] at hcallee
  obtain ⟨type, htype, hcalled⟩ := List.mem_map.mp hcallee
  obtain ⟨-, registered, hregistered, -, hhandles⟩ :=
    h.handles_called (hprovides type htype) hcalled
  exact ⟨registered, mem_toList_of_get? hregistered, name_of_get? hregistered, hhandles.access_eq⟩

end Registry

namespace Generator

variable {generator : Generator}

/-- The generated module is the header and one function for each registered procedure, in
order.  The functions that a reader finds in the text have the names of the procedures, no two
of which are the same.  Each calls what its procedure does, in order; what it calls by a name
is defined in the module too, and reads if it reads or writes if it writes.  The lines of each
return to the level of indentation zero. -/
theorem module_outline (hreachable : generator.Reachable) :
    let procedures := generator.registry.toList
    let definitions :=
      SourceText.definitions (SourceText.linesOf (SourceText.module generator.registry))
    SourceText.module generator.registry = SourceText.header ++
        String.join (procedures.map fun procedure =>
          "\n" ++ (SourceText.function procedure).text 0) ∧
      definitions.map SourceText.Definition.name = procedures.map Procedure.name ∧
      (definitions.map SourceText.Definition.name).Nodup ∧
      List.Forall₂ (fun procedure definition =>
          definition.calls = procedure.body.callees.map (Callee.path procedure.access) ∧
          (∀ path ∈ definition.calls, SourceText.isFunction path.toList = true →
            path ∈ definitions.map SourceText.Definition.name ∧
              ∃ called ∈ procedures, called.name = path ∧ called.access = procedure.access) ∧
          definition.level? = some 0)
        procedures definitions := by
  intro procedures definitions
  have hclosed := hreachable.sound
  have hprintable : ∀ procedure ∈ procedures, SourceText.Printable procedure := by
    intro procedure hmem
    obtain ⟨access, hget⟩ := Registry.exists_get?_of_mem_toList hmem
    exact Registry.Closed.printable hclosed hget
  have hreads := SourceText.forall₂_definitions hprintable
  rw [← SourceText.definitions_module hprintable] at hreads
  have hnames : definitions.map SourceText.Definition.name = procedures.map Procedure.name := by
    rw [eq_comm, ← List.forall₂_eq_eq_eq, List.forall₂_map_left_iff, List.forall₂_map_right_iff]
    exact hreads.imp fun procedure definition hdefinition => hdefinition.name_eq.symm
  refine ⟨SourceText.module_eq _, hnames, ?_, ?_⟩
  · rw [hnames]
    exact Registry.nodup_names hclosed
  have hcalled : ∀ procedure ∈ procedures,
      ∀ path ∈ procedure.body.callees.map (Callee.path procedure.access),
        SourceText.isFunction path.toList = true →
          ∃ called ∈ procedures, called.name = path ∧ called.access = procedure.access := by
    intro procedure hmem path hpath hfunction
    obtain ⟨access, hget⟩ := Registry.exists_get?_of_mem_toList hmem
    obtain ⟨-, haccess, -⟩ := Registry.Closed.exists_standsFor hclosed hget
    obtain ⟨callee, hcallee, rfl⟩ := List.mem_map.mp hpath
    obtain ⟨construct, hprocedure⟩ := SourceText.exists_callee_of_isFunction hfunction
    rw [hprocedure] at hcallee
    rw [haccess] at hcallee ⊢
    exact Registry.Closed.exists_called hclosed hget hcallee
  refine ((List.forall₂_and_left _ _).mpr ⟨hcalled, hreads⟩).imp ?_
  rintro procedure definition ⟨hpaths, hdefinition⟩
  refine ⟨hdefinition.calls_eq, fun path hpath hfunction => ?_, hdefinition.level_eq⟩
  rw [hdefinition.calls_eq] at hpath
  obtain ⟨called, hmem, hname, haccess⟩ := hpaths path hpath hfunction
  refine ⟨?_, called, hmem, hname, haccess⟩
  rw [hnames, ← hname]
  exact List.mem_map_of_mem hmem

/-- A reader of dictionaries of arrays, as it is found in the text of its module. -/
theorem module_outline_dictionary :
    let reached := (performAll {} [.entry .read "a\x7bsai\x7d" false]).2
    let definitions :=
      SourceText.definitions (SourceText.linesOf (SourceText.module reached.registry))
    definitions.map SourceText.Definition.name =
        ["read_array_ai", "read_dictionary_aesaiz", "read_message_aesaiz"] ∧
      definitions.map SourceText.Definition.calls =
        [["reader.read_i32"], ["reader.read_string", "read_array_ai"],
          ["read_dictionary_aesaiz"]] := by
  have hprocedures : (performAll {} [.entry .read "a\x7bsai\x7d" false]).2.registry.toList.map
      Procedure.name = ["read_array_ai", "read_dictionary_aesaiz", "read_message_aesaiz"] := by
    rfl
  have hcallees : (performAll {} [.entry .read "a\x7bsai\x7d" false]).2.registry.toList.map
      (fun procedure => procedure.body.callees.map (Callee.path procedure.access)) =
        [["reader.read_i32"], ["reader.read_string", "read_array_ai"],
          ["read_dictionary_aesaiz"]] := by
    rfl
  intro reached definitions
  have hreachable : reached.Reachable := ⟨fun _ => .hashed, _, rfl⟩
  obtain ⟨-, hnames, -, hall⟩ := module_outline hreachable
  refine ⟨hnames.trans hprocedures, ?_⟩
  rw [← hcallees, eq_comm, ← List.forall₂_eq_eq_eq, List.forall₂_map_left_iff,
    List.forall₂_map_right_iff]
  exact hall.imp fun procedure definition hdefinition => hdefinition.1.symm

end Generator

end BusCodec
