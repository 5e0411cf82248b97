import BusCodec.Proofs.Generator.References
import BusCodec.Proofs.SourceText.Calls

/-!
The functions of the generated module.  The function of a procedure has the name of the
procedure in its head, and inside of it makes one call for each value that the procedure hands
on, in the same order.
-/

namespace BusCodec

namespace NativeType

theorem unbroken_name (style : MapStyle) : '\n' ∉ style.name.toList := by
  cases style <;> decide

mutual

theorem unbroken_text : ∀ type : NativeType, '\n' ∉ type.text.toList
  | .basic type => by
      rw [text]
      cases type <;> decide
  | .anyValue => by
      rw [text]
      decide
  | .vec item => by
      rw [text]
      simp [unbroken_text item]
  | .map style key value => by
      rw [text]
      simp [unbroken_name style, unbroken_text key, unbroken_text value]
  | .tuple [] => by
      rw [text]
      decide
  | .tuple [member] => by
      rw [text]
      simp [unbroken_text member]
  | .tuple (first :: second :: rest) => by
      rw [text]
      · simp [unbroken_text first, unbroken_textAll (second :: rest)]
      · simp
  | .ref target => by
      have htarget := unbroken_text target
      cases target with
      | basic type => cases type <;> decide
      | vec item =>
          rw [text] at htarget
          rw [text]
          simpa using htarget
      | _ =>
          rw [text]
          · simpa using htarget
          all_goals simp
  | .option inner => by
      rw [text]
      simp [unbroken_text inner]

theorem unbroken_textAll : ∀ types : List NativeType, '\n' ∉ (textAll types).toList
  | [] => by
      rw [textAll]
      decide
  | type :: types => by
      rw [textAll]
      simp [unbroken_text type, unbroken_textAll types]

end

end NativeType

namespace SourceText

variable {name : String} {names : List String} {callee : Callee} {callees : List Callee}
  {paths : List String}

/-- A text of the characters of paths. -/
def IsPath (text : String) : Prop :=
  ∀ letter ∈ text.toList, isPathCharacter letter = true

instance (text : String) : Decidable (IsPath text) :=
  List.decidableBAll (fun letter => isPathCharacter letter = true) text.toList

theorem IsPath.append {text more : String} (h : IsPath text) (hmore : IsPath more) :
    IsPath (text ++ more) := by
  intro letter hletter
  rw [String.toList_append, List.mem_append] at hletter
  exact hletter.elim (h letter) (hmore letter)

/-- What is called, if it is a function, has the name of one. -/
def Named : Callee → Prop
  | .procedure name _ => isFunction name.toList = true
  | _ => True

theorem isNameCharacter_of_isLower {letter : Char} (h : letter.isLower = true) :
    isNameCharacter letter = true := by
  change ((letter.isUpper || letter.isLower) || letter.isDigit || letter == '_') = true
  rw [h, Bool.or_true, Bool.true_or, Bool.true_or]

theorem forall_isNameCharacter {letters : List Char} (h : isFunction letters = true) :
    ∀ letter ∈ letters, isNameCharacter letter = true := by
  cases letters with
  | nil => cases h
  | cons first rest =>
      rw [isFunction, Bool.and_eq_true, List.all_eq_true] at h
      rw [List.forall_mem_cons]
      exact ⟨isNameCharacter_of_isLower h.1, h.2⟩

theorem isPath_of_isFunction (h : isFunction name.toList = true) : IsPath name := by
  intro letter hletter
  rw [isPathCharacter, forall_isNameCharacter h letter hletter]
  rfl

theorem isFunction_procedureName (access : Access) (construct : Construct)
    (types : List BusType) :
    isFunction (procedureName access construct (BusType.signatureAll types)).toList = true := by
  have hcodes : ((BusType.codesAll types).map nameLetter).all isNameCharacter = true := by
    rw [List.all_eq_true]
    intro letter hletter
    obtain ⟨code, hcode, rfl⟩ := List.mem_map.mp hletter
    exact isNameCharacter_of_isLower
      (BusType.isLower_nameLetter code (BusType.mem_alphabet_of_mem_codesAll hcode))
  have hword : construct.word.toList.all isNameCharacter = true := by
    cases construct <;> decide
  have haccess : ∀ rest, isFunction (access.word.toList ++ rest) = rest.all isNameCharacter := by
    cases access <;> exact fun rest => rfl
  have hmark : isNameCharacter '_' = true := rfl
  rw [toList_procedureName, haccess, List.all_cons, List.all_append, List.all_cons, hcodes,
    hword, hmark]
  rfl

theorem isPath_of_mem_numbered {stem : String} {count : Nat} (hstem : IsPath stem)
    (h : name ∈ numbered stem count) : IsPath name := by
  obtain ⟨index, -, rfl⟩ := List.mem_map.mp h
  refine hstem.append fun letter hletter => ?_
  have hletters : (toString index).toList = Nat.toDigits 10 index := by
    rw [Nat.toString_eq_repr, Nat.repr, String.toList_ofList]
  rw [hletters] at hletter
  have hdigit := Nat.isDigit_of_mem_toDigits (by decide) (by decide) hletter
  simp [isPathCharacter, isNameCharacter, Char.isAlphanum, hdigit]

theorem length_numbered (stem : String) (count : Nat) : (numbered stem count).length = count := by
  rw [numbered, List.length_map, List.length_range]

theorem path_procedure (access : Access) (name : String) (construct : Construct) :
    (Callee.procedure name construct).path access = name := by
  cases access <;> rfl

theorem isPath_path (access : Access) (h : Named callee) : IsPath (callee.path access) := by
  have hname : ∀ type, IsPath (primitiveName type) := by
    intro type
    cases type <;> decide
  cases callee with
  | primitive type =>
      cases access
      · exact (by decide : IsPath "reader.read_").append (hname type)
      · exact (by decide : IsPath "writer.write_").append (hname type)
  | variant => cases access <;> decide
  | procedure name construct =>
      rw [path_procedure]
      exact isPath_of_isFunction h

theorem handlesValue_path (access : Access) (h : Named callee) :
    handlesValue (callee.path access).toList = true := by
  have hmethod : ∀ method ∈ valueMethods, handlesValue method.toList = true := by
    intro method hmem
    rw [handlesValue, String.ofList_toList, List.contains_iff_mem.mpr hmem, Bool.or_true]
  have haccess : access ∈ [Access.read, Access.write] := by
    cases access <;> decide
  cases callee with
  | primitive type =>
      refine hmethod _ (List.mem_flatMap.mpr ⟨access, haccess, List.mem_cons_of_mem _ ?_⟩)
      exact List.mem_map_of_mem (by cases type <;> decide)
  | variant => exact hmethod _ (List.mem_flatMap.mpr ⟨access, haccess, List.mem_cons_self⟩)
  | procedure name construct =>
      have hfunction : isFunction name.toList = true := h
      rw [path_procedure, handlesValue, hfunction, Bool.true_or]

/-- What is called for a value, up to the arguments of the call. -/
theorem scans_path (access : Access) (h : Named callee) :
    Scans (.code []) (callee.path access ++ "(") [callee.path access] (.code []) := by
  have hscan := (scans_of_isPath (isPath_path access h) []).append (scans_bracket _)
  rw [List.nil_append, List.nil_append, handlesValue_path access h, if_pos rfl,
    String.ofList_toList] at hscan
  exact hscan

theorem scans_readCall {reader : String} {path : List Char} (hnamed : Named callee)
    (hreader : Scans (.code []) reader [] (.code path)) :
    Scans (.code []) (readCall callee reader) [callee.path .read] (.code []) := by
  have hclosing : ∀ path, Scans (.code path) ")?" [] (.code []) :=
    fun path => ⟨rfl, rfl, by decide⟩
  cases callee with
  | primitive type =>
      have hcall := (scans_path .read hnamed).append (hclosing [])
      rw [String.append_assoc] at hcall
      exact hcall
  | variant => exact (scans_path .read hnamed).append (hclosing [])
  | procedure name construct =>
      exact ((scans_path .read hnamed).append hreader).append (hclosing path)

/-- Taking a slice handles no value, whatever the slice is taken of. -/
theorem scans_asSlice (path : List Char) : Scans (.code path) ".as_slice())" [] (.code []) := by
  have hfunction : isFunction (path ++ ".as_slice".toList) = false := by
    cases path with
    | nil => rfl
    | cons first rest => simp [isFunction, isNameCharacter]
  have hmethods : ∀ method ∈ valueMethods, ¬ ".as_slice".toList <:+ method.toList := by
    decide +kernel
  have hmethod : valueMethods.contains (String.ofList (path ++ ".as_slice".toList)) = false := by
    rw [← Bool.not_eq_true, List.contains_iff_mem]
    intro hmem
    have hletters : (String.ofList (path ++ ".as_slice".toList)).toList =
        path ++ ".as_slice".toList := String.toList_ofList
    exact hmethods _ hmem ⟨path, hletters.symm⟩
  have hname := scans_of_isPath (by decide : IsPath ".as_slice") path
  have hbracket := scans_bracket (path ++ ".as_slice".toList)
  rw [handlesValue, hfunction, hmethod, Bool.false_or, if_neg (by decide)] at hbracket
  have htext : ".as_slice())" = ".as_slice" ++ "(" ++ "))" := by decide
  rw [htext]
  exact (hname.append hbracket).append (by decide : Scans (.code []) "))" [] (.code []))

/-- The text of what a writer is passed. -/
def Binding.text : Binding → String
  | .reference name => name
  | .place expression => expression
  | .parameter name => name

theorem scans_writeArgument (callee : Callee) {binding : Binding} (h : IsPath binding.text) :
    ∃ path, Scans (.code []) (writeArgument callee binding) [] (.code path) := by
  have hsome : Scans (.code []) "Some(" [] (.code []) := by decide
  have hsomeReference : Scans (.code []) "Some(&" [] (.code []) := by decide
  have hstar : Scans (.code []) "*" [] (.code []) := by decide
  have hreference : Scans (.code []) "&" [] (.code []) := by decide
  have hclosing : ∀ path, Scans (.code path) ")" [] (.code []) :=
    fun path => ⟨rfl, rfl, by decide⟩
  cases binding with
  | parameter name => exact ⟨_, scans_of_isPath h []⟩
  | reference name =>
      have hname := scans_of_isPath h []
      rw [writeArgument]
      cases argumentForm callee with
      | copied => exact ⟨_, hstar.append hname⟩
      | referenced => exact ⟨_, hname⟩
      | optionalSlice => exact ⟨_, (hsome.append hname).append (scans_asSlice _)⟩
      | optionalMap => exact ⟨_, (hsome.append hname).append (hclosing _)⟩
  | place expression =>
      have hplace := scans_of_isPath h []
      rw [writeArgument]
      cases argumentForm callee with
      | copied => exact ⟨_, hplace⟩
      | referenced => exact ⟨_, hreference.append hplace⟩
      | optionalSlice => exact ⟨_, (hsome.append hplace).append (scans_asSlice _)⟩
      | optionalMap => exact ⟨_, (hsomeReference.append hplace).append (hclosing _)⟩

theorem scans_writeCall {writer : String} {path : List Char} {binding : Binding}
    (hnamed : Named callee) (hwriter : Scans (.code []) writer [] (.code path))
    (hbinding : IsPath binding.text) :
    Scans (.code []) (writeCall callee writer binding) [callee.path .write] (.code []) := by
  obtain ⟨last, hargument⟩ := scans_writeArgument callee hbinding
  have hclosing : Scans (.code last) ")?;" [] (.code []) := ⟨rfl, rfl, by decide⟩
  have hcall := scans_path .write hnamed
  cases callee with
  | primitive type => exact (hcall.append hargument).append hclosing
  | variant => exact (hcall.append hargument).append hclosing
  | procedure name construct =>
      have hcomma : Scans (.code path) ", " [] (.code []) := ⟨rfl, rfl, by decide⟩
      exact (((hcall.append hwriter).append hcomma).append hargument).append hclosing

theorem scans_intercalate (h : ∀ name ∈ names, IsPath name) :
    ∃ path, Scans (.code []) (", ".intercalate names) [] (.code path) := by
  induction names with
  | nil => exact ⟨[], by decide⟩
  | cons first rest ih =>
      rw [List.forall_mem_cons] at h
      have hfirst := scans_of_isPath h.1 []
      cases rest with
      | nil => exact ⟨_, by simpa using hfirst⟩
      | cons second rest =>
          obtain ⟨path, hrest⟩ := ih h.2
          have hcomma : ∀ path, Scans (.code path) ", " [] (.code []) :=
            fun path => ⟨rfl, rfl, by decide⟩
          rw [String.intercalate_cons_cons]
          exact ⟨path, (hfirst.append (hcomma _)).append hrest⟩

theorem scans_tuple (h : ∀ name ∈ names, IsPath name) :
    Scans (.code []) (tuple names) [] (.code []) := by
  have hopening : Scans (.code []) "(" [] (.code []) := by decide
  unfold tuple
  split
  · rename_i item
    have hclosing : ∀ path, Scans (.code path) ",)" [] (.code []) :=
      fun path => ⟨rfl, rfl, by decide⟩
    exact (hopening.append (scans_of_isPath (h item List.mem_cons_self) [])).append (hclosing _)
  · obtain ⟨path, hnames⟩ := scans_intercalate h
    have hclosing : Scans (.code path) ")" [] (.code []) := ⟨rfl, rfl, by decide⟩
    exact (hopening.append hnames).append hclosing

/-- Visible ASCII characters stand for themselves, but for quotes and backslashes. -/
theorem escape_eq {letter : Char} (hlow : 0x20 ≤ letter.toNat) (hhigh : letter.toNat < 0x7f)
    (hquote : letter ≠ '"') (hbackslash : letter ≠ '\\') : escape letter = [letter] := by
  have hranges : ∀ range ∈ lowUnprintable, 0x7f ≤ range.1 := by
    decide +kernel
  have hprintable : isUnprintable letter = false := by
    rw [isUnprintable, if_pos (by omega), List.any_eq_false]
    intro range hrange
    have hstart := hranges range hrange
    rw [Bool.and_eq_true, decide_eq_true_eq]
    omega
  unfold escape
  split
  all_goals first
    | exact absurd hlow (by decide)
    | exact absurd rfl hquote
    | exact absurd rfl hbackslash
    | skip
  have hvisible : ¬ letter.toNat < 0x20 := by omega
  simp [hvisible, hprintable]

theorem alphabet_visible : ∀ letter ∈ BusType.alphabet, 0x20 ≤ letter.toNat ∧
    letter.toNat < 0x7f ∧ letter ≠ '"' ∧ letter ≠ '\\' := by
  simp [BusType.alphabet, BasicType.all, BasicType.code]

theorem stringLiteral_eq {text : String} (h : ∀ letter ∈ text.toList, letter ∈ BusType.alphabet) :
    stringLiteral text = "\"" ++ text ++ "\"" := by
  have hmap : text.toList.map escape = text.toList.map fun letter => [letter] := by
    refine List.map_congr_left fun letter hletter => ?_
    obtain ⟨hlow, hhigh, hquote, hbackslash⟩ := alphabet_visible letter (h letter hletter)
    exact escape_eq hlow hhigh hquote hbackslash
  have hletters : text.toList.flatMap escape = text.toList := by
    rw [List.flatMap_def, hmap, ← List.flatMap_def, List.flatMap_singleton']
  have hliteral : (stringLiteral text).toList = ['"'] ++ text.toList.flatMap escape ++ ['"'] :=
    String.toList_ofList
  apply String.toList_injective
  rw [hliteral, hletters, String.toList_append, String.toList_append]
  rfl

theorem scans_stringLiteral {text : String} (h : ∀ letter ∈ text.toList, letter ∈ BusType.alphabet)
    (path : List Char) : Scans (.code path) (stringLiteral text) [] (.code []) := by
  have hinside : ∀ letters : List Char, (∀ letter ∈ letters, letter ∈ BusType.alphabet) →
      Place.literal.calls letters = [] ∧ letters.foldl Place.next .literal = .literal := by
    intro letters
    induction letters with
    | nil => exact fun _ => ⟨rfl, rfl⟩
    | cons letter letters ih =>
        intro hletters
        rw [List.forall_mem_cons] at hletters
        obtain ⟨hcalls, hnext⟩ := ih hletters.2
        obtain ⟨-, -, hquote, hbackslash⟩ := alphabet_visible letter hletters.1
        have hstep : Place.literal.next letter = .literal := by
          rw [Place.next, if_neg hquote, if_neg hbackslash]
        rw [Place.calls, List.foldl_cons, hstep, hcalls, hnext]
        exact ⟨rfl, rfl⟩
  obtain ⟨hcalls, hnext⟩ := hinside _ h
  have hopening : Scans (.code path) "\"" [] .literal := ⟨rfl, rfl, by decide⟩
  have htext : Scans .literal text [] .literal :=
    ⟨hcalls, hnext, fun hbreak => absurd (alphabet_visible _ (h _ hbreak)).1 (by decide)⟩
  have hclosing : Scans .literal "\"" [] (.code []) := by decide
  rw [stringLiteral_eq h]
  exact (hopening.append htext).append hclosing

open Code

theorem begins_path (h : Named callee) : Begins (callee.path .write) := by
  cases callee with
  | primitive type => exact (by decide : Begins "writer.write_").append _
  | variant => exact (by decide : Begins "writer.write_variant")
  | procedure name construct =>
      have hfunction : isFunction name.toList = true := h
      cases hletters : name.toList with
      | nil =>
          rw [hletters] at hfunction
          cases hfunction
      | cons first rest =>
          rw [hletters, isFunction, Bool.and_eq_true] at hfunction
          refine ⟨first, ?_, ?_, ?_⟩
          · rw [path_procedure, hletters]
            rfl
          · rintro rfl
            cases hfunction.1
          · rintro rfl
            cases hfunction.1

theorem makes_writeCall {writer : String} {path : List Char} {binding : Binding}
    (hnamed : Named callee) (hwriter : Scans (.code []) writer [] (.code path))
    (hbinding : IsPath binding.text) :
    Makes [.line (writeCall callee writer binding)] [callee.path .write] := by
  have hscan := scans_writeCall hnamed hwriter hbinding
  have hbegins : Begins (writeCall callee writer binding) := by
    have hpath := (begins_path hnamed).append "("
    cases callee with
    | primitive type => exact (hpath.append _).append _
    | variant => exact (hpath.append _).append _
    | procedure name construct => exact (((hpath.append _).append _).append _).append _
  have hends : (writeCall callee writer binding).toList.getLast? = some ';' := by
    cases callee with
    | primitive type => exact getLast?_toList_append rfl
    | variant => exact getLast?_toList_append rfl
    | procedure name construct => exact getLast?_toList_append rfl
  refine makes_line_iff.mpr ⟨hbegins, hscan.unbroken, ?_, hscan.calls_eq⟩
  rw [hends]
  decide

theorem makes_zip {code : String × Callee → Code} {access : Access}
    (hlength : names.length = callees.length)
    (h : ∀ name ∈ names, ∀ callee ∈ callees, Makes [code (name, callee)] [callee.path access]) :
    Makes ((names.zip callees).map code) (callees.map (Callee.path access)) := by
  induction callees generalizing names with
  | nil =>
      rw [List.zip_nil_right]
      exact makes_nil
  | cons callee callees ih =>
      cases names with
      | nil => cases hlength
      | cons name names =>
          have hfirst := h name List.mem_cons_self callee List.mem_cons_self
          refine hfirst.append (ih (Nat.succ.inj hlength) fun name hname callee hcallee => ?_)
          exact h name (List.mem_cons_of_mem _ hname) callee (List.mem_cons_of_mem _ hcallee)

theorem makes_readInto {stem reader : String} {path : List Char} (hstem : IsPath stem)
    (hcallees : ∀ callee ∈ callees, Named callee)
    (hreader : Scans (.code []) reader [] (.code path)) :
    Makes (readInto (numbered stem callees.length) callees reader)
      (callees.map (Callee.path .read)) := by
  refine makes_zip (length_numbered stem _) fun name hname callee hcallee => ?_
  have hlet : Scans (.code []) "let " [] (.code []) := by decide
  have hequals : ∀ path, Scans (.code path) " = " [] (.code []) :=
    fun path => ⟨rfl, rfl, by decide⟩
  have hvariable := scans_of_isPath (isPath_of_mem_numbered hstem hname) []
  have hbegins : Begins "let " := by decide
  exact makes_line ((hlet.append hvariable).append (hequals _))
    ((hbegins.append _).append _) (scans_readCall (hcallees callee hcallee) hreader)
    ⟨rfl, rfl, by decide⟩ rfl (by decide)

/-- The lines that begin arrays of a kind of element. -/
theorem makes_arrayStart {opening closing : String} {path : List Char} {last : Char}
    (element : WireKind) (hopening : Scans (.code []) opening [] (.code path))
    (hbegins : Begins opening) (hclosing : ∀ path, Scans (.code path) closing [] (.code []))
    (hends : closing.toList.getLast? = some last) (hlast : last ≠ '{') :
    Makes [.line (opening ++ element.name ++ closing)] [] := by
  have hname : IsPath element.name := by
    rcases element with type | _ | _ | _
    · cases type <;> decide
    all_goals decide
  exact makes_line hopening hbegins (scans_of_isPath hname path) (hclosing _) hends hlast

variable {procedure : Procedure}

/-- A procedure with the text of whose function no name or literal interferes: what is meant
as a name is one, and signatures have the letters of signatures. -/
structure Printable (procedure : Procedure) : Prop where
  name : isFunction procedure.name.toList = true
  signature : ∀ letter ∈ procedure.signature.toList, letter ∈ BusType.alphabet
  callees : ∀ callee ∈ procedure.body.callees, Named callee
  expected : ∀ signature values, procedure.body = .message (some signature) values →
    signature = procedure.signature

/-- A text that opens the definition of a function of a name. -/
structure Opens (name text : String) : Prop where
  named : ∃ letter rest, text.toList = "pub fn ".toList ++ (name.toList ++ letter :: rest) ∧
    isNameCharacter letter = false
  unbroken : '\n' ∉ text.toList

theorem unbroken_of_isPath (h : IsPath name) : '\n' ∉ name.toList := by
  intro hbreak
  cases h _ hbreak

theorem opens_append {more : String} {letter : Char} (hname : isFunction name.toList = true)
    (hmore : more.toList.head? = some letter) (hletter : isNameCharacter letter = false)
    (hunbroken : '\n' ∉ more.toList) : Opens name ("pub fn " ++ name ++ more) := by
  obtain ⟨rest, hrest⟩ := List.head?_eq_some_iff.mp hmore
  have hopening : '\n' ∉ "pub fn ".toList := by decide
  have hunbrokenName := unbroken_of_isPath (isPath_of_isFunction hname)
  refine ⟨⟨letter, rest, ?_, hletter⟩,
    unbroken_append (unbroken_append hopening hunbrokenName) hunbroken⟩
  rw [String.toList_append, String.toList_append, hrest, List.append_assoc]

theorem Opens.append {text more : String} (h : Opens name text) (hmore : '\n' ∉ more.toList) :
    Opens name (text ++ more) := by
  obtain ⟨⟨letter, rest, htext, hletter⟩, hunbroken⟩ := h
  refine ⟨⟨letter, rest ++ more.toList, ?_, hletter⟩, unbroken_append hunbroken hmore⟩
  rw [String.toList_append, htext, List.append_assoc, List.append_assoc, List.cons_append]

theorem Opens.begins {text : String} (h : Opens name text) : Begins text := by
  obtain ⟨letter, rest, htext, -⟩ := h.named
  refine ⟨'p', ?_, by decide⟩
  rw [htext]
  rfl

/-- The definition of a function of a name, which makes calls. -/
inductive Defines (name : String) (paths : List String) : Code → Prop
  | block {head : String} {inside : List Code} (opens : Opens name head)
      (ends : head.toList.getLast? = some '{') (makes : Makes inside paths) :
      Defines name paths (.block head inside)

theorem unbroken_firstNative (procedure : Procedure) : '\n' ∉ (firstNative procedure).toList := by
  unfold firstNative
  split
  · exact NativeType.unbroken_text _
  · decide

theorem scans_emptyMap (procedure : Procedure) :
    Scans (.code []) (emptyMap procedure) [] (.code []) := by
  have hstyle : ∀ style : MapStyle, Scans (.code []) (style.name ++ "::new()") [] (.code []) := by
    intro style
    cases style <;> decide
  unfold emptyMap
  split
  · exact hstyle _
  · exact hstyle _
  · decide

theorem isPath_of_numbered {stem : String} (hstem : IsPath stem) (count : Nat) :
    ∀ name ∈ numbered stem count, IsPath name :=
  fun _ hname => isPath_of_mem_numbered hstem hname

theorem bodySignature_letters (h : Printable procedure) :
    ∀ letter ∈ procedure.bodySignature.toList, letter ∈ BusType.alphabet := by
  unfold Procedure.bodySignature
  split
  · have hvariant : "v".toList = ['v'] := by decide
    rw [hvariant, List.forall_mem_singleton]
    decide
  · exact h.signature

/-- The line about the signature in a variant, where there is one. -/
theorem makes_expectation {opening closing : String} (h : Printable procedure)
    (hframe : Frame opening closing) (variant : Option String) (values : List Callee) :
    procedure.body = .message variant values → Makes (match variant with
      | some signature => [.line (opening ++ stringLiteral signature ++ closing)]
      | none => []) [] := by
  intro hbody
  cases variant with
  | none => exact makes_nil
  | some signature =>
      rw [h.expected signature values hbody]
      exact hframe.makes (scans_stringLiteral h.signature [])

/-- What the reader of a message returns. -/
theorem scans_result (h : ∀ name ∈ names, IsPath name) :
    ∃ path, Scans (.code []) (match names with
      | [name] => name
      | names => tuple names) [] (.code path) := by
  split
  · exact ⟨_, scans_of_isPath (h _ List.mem_cons_self) []⟩
  · exact ⟨_, scans_tuple h⟩

theorem opens_readerHead (h : Printable procedure) :
    Opens procedure.name (readerHead procedure) :=
  ((opens_append h.name rfl (by decide) (by decide)).append
    (unbroken_firstNative procedure)).append (by decide)

theorem getLast?_readerHead (procedure : Procedure) :
    (readerHead procedure).toList.getLast? = some '{' :=
  getLast?_toList_append rfl

theorem scans_reader : Scans (.code []) "reader" [] (.code "reader".toList) := by
  decide

theorem defines_arrayReader {element : WireKind} {item : Callee} (h : Printable procedure)
    (hbody : procedure.body = .array element item) :
    Defines procedure.name [item.path .read] (readFunction procedure) := by
  have hcallees := h.callees
  rw [hbody, Body.callees, List.forall_mem_singleton] at hcallees
  rw [readFunction, hbody]
  refine .block (opens_readerHead h) (getLast?_readerHead procedure) ?_
  refine Makes.cons_of_quiet_head (makes_arrayStart element ⟨rfl, rfl, by decide⟩ (by decide)
    (fun path => ⟨rfl, rfl, by decide⟩) rfl (by decide)) ?_
  refine Makes.cons_of_quiet_head (by decide) ?_
  refine Makes.cons_of_quiet_tail (makes_block ⟨rfl, rfl, by decide⟩ (by decide) (by decide) ?_)
    (by decide)
  exact Frame.makes (by decide) (scans_readCall hcallees scans_reader)

theorem defines_dictionaryReader {key value : Callee} (h : Printable procedure)
    (hbody : procedure.body = .dictionary key value) :
    Defines procedure.name [key.path .read, value.path .read] (readFunction procedure) := by
  have hcallees := h.callees
  rw [hbody, Body.callees, List.forall_mem_cons, List.forall_mem_singleton] at hcallees
  rw [readFunction, hbody]
  refine .block (opens_readerHead h) (getLast?_readerHead procedure) ?_
  refine Makes.cons_of_quiet_head (by decide) ?_
  refine Makes.cons_of_quiet_head (Frame.makes (by decide) (scans_emptyMap procedure)) ?_
  refine Makes.cons_of_quiet_tail (makes_block ⟨rfl, rfl, by decide⟩ (by decide) (by decide) ?_)
    (by decide)
  refine Makes.cons (Frame.makes (by decide) (scans_readCall hcallees.1 scans_reader)) ?_
  exact Makes.cons_of_quiet_tail
    (Frame.makes (by decide) (scans_readCall hcallees.2 scans_reader)) (by decide)

theorem defines_structReader {members : List Callee} (h : Printable procedure)
    (hbody : procedure.body = .struct members) :
    Defines procedure.name (members.map (Callee.path .read)) (readFunction procedure) := by
  have hcallees := h.callees
  rw [hbody, Body.callees] at hcallees
  have hstem : IsPath "member" := by decide
  have hmembers := makes_readInto hstem hcallees scans_reader
  have htuple := scans_tuple (isPath_of_numbered hstem members.length)
  have hinside := hmembers.append (Frame.makes (by decide : Frame "Ok(" ")") htuple)
  rw [List.append_nil] at hinside
  rw [readFunction, hbody]
  exact .block (opens_readerHead h) (getLast?_readerHead procedure)
    (Makes.cons_of_quiet_head (by decide) hinside)

theorem defines_messageReader {variant : Option String} {values : List Callee}
    (h : Printable procedure) (hbody : procedure.body = .message variant values) :
    Defines procedure.name (values.map (Callee.path .read)) (readFunction procedure) := by
  have hcallees := h.callees
  rw [hbody, Body.callees] at hcallees
  have hstem : IsPath "value" := by decide
  have hsignature : Makes _ [] := Frame.makes
    (by decide : Frame "let mut reader = message.body_reader_for(" ")?;")
    (scans_stringLiteral (bodySignature_letters h) [])
  have hexpected := makes_expectation h
    (by decide : Frame "reader.expect_signature(" ")?;") variant values hbody
  have hvalues := makes_readInto hstem hcallees
    (by decide : Scans (.code []) "&mut reader" [] (.code "reader".toList))
  have hcomplete : Makes [.line "reader.complete()?;"] [] := by decide
  obtain ⟨path, hresult⟩ := scans_result (isPath_of_numbered hstem values.length)
  have hok : Makes _ [] := Frame.makes (by decide : Frame "Ok(" ")") hresult
  have hinside := ((hsignature.append hexpected).append hvalues).append (hcomplete.append hok)
  rw [List.append_nil, List.nil_append, List.append_nil] at hinside
  rw [readFunction, hbody]
  exact .block (((opens_append h.name rfl (by decide) (by decide)).append
    (unbroken_firstNative procedure)).append (by decide)) (getLast?_toList_append rfl) hinside

theorem defines_readFunction (h : Printable procedure) :
    Defines procedure.name (procedure.body.callees.map (Callee.path .read))
      (readFunction procedure) := by
  cases hbody : procedure.body with
  | array element item => exact defines_arrayReader h hbody
  | dictionary key value => exact defines_dictionaryReader h hbody
  | struct members => exact defines_structReader h hbody
  | message variant values => exact defines_messageReader h hbody

theorem unbroken_intercalate {texts : List String} (h : ∀ text ∈ texts, '\n' ∉ text.toList) :
    '\n' ∉ (", ".intercalate texts).toList := by
  induction texts with
  | nil => decide
  | cons first rest ih =>
      rw [List.forall_mem_cons] at h
      cases rest with
      | nil => simpa using h.1
      | cons second rest =>
          have hcomma : '\n' ∉ ", ".toList := by decide
          rw [String.intercalate_cons_cons]
          exact unbroken_append (unbroken_append h.1 hcomma) (ih h.2)

theorem unbroken_parameters (natives : List NativeType) :
    '\n' ∉ (", ".intercalate (((numbered "arg" natives.length).zip natives).map
      fun (name, type) => name ++ ": " ++ type.text)).toList := by
  refine unbroken_intercalate fun text htext => ?_
  obtain ⟨⟨name, type⟩, hpair, rfl⟩ := List.mem_map.mp htext
  have hname := unbroken_of_isPath
    (isPath_of_mem_numbered (by decide : IsPath "arg") (List.of_mem_zip hpair).1)
  have hcolon : '\n' ∉ ": ".toList := by decide
  exact unbroken_append (unbroken_append hname hcolon) (NativeType.unbroken_text type)

theorem opens_writerHead {parameter : String} (h : Printable procedure)
    (hparameter : IsPath parameter) : Opens procedure.name (writerHead procedure parameter) :=
  ((((opens_append h.name rfl (by decide) (by decide)).append
    (unbroken_of_isPath hparameter)).append (by decide)).append
      (unbroken_firstNative procedure)).append (by decide)

theorem getLast?_writerHead (procedure : Procedure) (parameter : String) :
    (writerHead procedure parameter).toList.getLast? = some '{' :=
  getLast?_toList_append rfl

theorem scans_writer : Scans (.code []) "writer" [] (.code "writer".toList) := by
  decide

theorem defines_arrayWriter {element : WireKind} {item : Callee} (h : Printable procedure)
    (hbody : procedure.body = .array element item) :
    Defines procedure.name [item.path .write] (writeFunction procedure) := by
  have hcallees := h.callees
  rw [hbody, Body.callees, List.forall_mem_singleton] at hcallees
  rw [writeFunction, hbody]
  refine .block (opens_writerHead h (by decide)) (getLast?_writerHead procedure _) ?_
  refine Makes.cons_of_quiet_head (makes_arrayStart element ⟨rfl, rfl, by decide⟩ (by decide)
    (fun path => ⟨rfl, rfl, by decide⟩) rfl (by decide)) ?_
  refine Makes.cons_of_quiet_tail (makes_block ⟨rfl, rfl, by decide⟩ (by decide) (by decide)
    (makes_block ⟨rfl, rfl, by decide⟩ (by decide) (by decide) ?_)) (by decide)
  exact makes_writeCall hcallees scans_writer (by decide)

theorem defines_dictionaryWriter {key value : Callee} (h : Printable procedure)
    (hbody : procedure.body = .dictionary key value) :
    Defines procedure.name [key.path .write, value.path .write] (writeFunction procedure) := by
  have hcallees := h.callees
  rw [hbody, Body.callees, List.forall_mem_cons, List.forall_mem_singleton] at hcallees
  rw [writeFunction, hbody]
  refine .block (opens_writerHead h (by decide)) (getLast?_writerHead procedure _) ?_
  refine Makes.cons_of_quiet_head (by decide) ?_
  refine Makes.cons_of_quiet_tail (makes_block ⟨rfl, rfl, by decide⟩ (by decide) (by decide)
    (makes_block ⟨rfl, rfl, by decide⟩ (by decide) (by decide) ?_)) (by decide)
  refine Makes.cons_of_quiet_head (by decide) ?_
  exact Makes.cons (makes_writeCall hcallees.1 scans_writer (by decide))
    (makes_writeCall hcallees.2 scans_writer (by decide))

theorem defines_structWriter {members : List Callee} (h : Printable procedure)
    (hbody : procedure.body = .struct members) :
    Defines procedure.name (members.map (Callee.path .write)) (writeFunction procedure) := by
  have hcallees := h.callees
  rw [hbody, Body.callees] at hcallees
  have hplaces := isPath_of_numbered (by decide : IsPath "value.") members.length
  have hstart : Makes [.line "writer.write_structure_start();"] [] := by decide
  have hmembers : Makes (((numbered "value." members.length).zip members).map
      fun entry => Code.line (writeCall entry.2 "writer" (.place entry.1)))
      (members.map (Callee.path .write)) :=
    makes_zip (length_numbered _ _) fun place hplace member hmember =>
      makes_writeCall (hcallees member hmember) scans_writer (hplaces place hplace)
  have hok : Makes [.line "Ok(())"] [] := by decide
  have hinside := (hstart.append hmembers).append hok
  rw [List.append_nil, List.nil_append] at hinside
  rw [writeFunction, hbody]
  exact .block (opens_writerHead h (by decide)) (getLast?_writerHead procedure _) hinside

theorem defines_messageWriter {variant : Option String} {values : List Callee}
    (h : Printable procedure) (hbody : procedure.body = .message variant values) :
    Defines procedure.name (values.map (Callee.path .write)) (writeFunction procedure) := by
  have hcallees := h.callees
  rw [hbody, Body.callees] at hcallees
  have hnames := isPath_of_numbered (by decide : IsPath "arg") values.length
  have hwriter : Scans (.code []) "&mut writer" [] (.code "writer".toList) := by decide
  have hnew : Makes [.line "let mut writer = MessageWriter::new();"] [] := by decide
  have hsignature := makes_expectation h
    (by decide : Frame "writer.write_signature_str(" ")?;") variant values hbody
  have hvalues : Makes (((numbered "arg" values.length).zip values).map
      fun entry => Code.line (writeCall entry.2 "&mut writer" (.parameter entry.1)))
      (values.map (Callee.path .write)) :=
    makes_zip (length_numbered _ _) fun name hname value hvalue =>
      makes_writeCall (hcallees value hvalue) hwriter (hnames name hname)
  have hok : Makes _ [] := Frame.makes (by decide : Frame "Ok(writer.finish(" "))")
    (scans_stringLiteral (bodySignature_letters h) [])
  have hinside := ((hnew.append hsignature).append hvalues).append hok
  rw [List.append_nil, List.append_nil, List.nil_append] at hinside
  rw [writeFunction, hbody]
  exact .block (((opens_append h.name rfl (by decide) (by decide)).append
    (unbroken_parameters procedure.native)).append (by decide)) (getLast?_toList_append rfl)
    hinside

theorem defines_writeFunction (h : Printable procedure) :
    Defines procedure.name (procedure.body.callees.map (Callee.path .write))
      (writeFunction procedure) := by
  cases hbody : procedure.body with
  | array element item => exact defines_arrayWriter h hbody
  | dictionary key value => exact defines_dictionaryWriter h hbody
  | struct members => exact defines_structWriter h hbody
  | message variant values => exact defines_messageWriter h hbody

/-- The function of a procedure makes one call for each value that the procedure hands on. -/
theorem defines_function (h : Printable procedure) :
    Defines procedure.name (procedure.body.callees.map (Callee.path procedure.access))
      (function procedure) := by
  rw [function]
  cases procedure.access with
  | read => exact defines_readFunction h
  | write => exact defines_writeFunction h

end SourceText

end BusCodec
