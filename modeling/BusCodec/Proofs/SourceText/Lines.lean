import BusCodec.SourceText.Code

/-!
Source text line by line.  A text that was put together from lines and blocks is read back as
its lines, and a reader who goes one level in behind an opening bracket and one level out at
a closing one finds every line at its indentation, and is back where it began at the end of
each block.
-/

namespace BusCodec

namespace SourceText

/-- The lines of a text.  Behind the last line break stands an empty one. -/
def linesOf (text : String) : List (List Char) :=
  text.toList.splitOn '\n'

def indentation (level : Nat) : List Char :=
  List.replicate (4 * level) ' '

/-- The level of indentation after a line, unless the line stands at another level than the
one before it says.  An opening bracket at the end of a line leads one level in, and a closing
bracket stands one level out.  Empty lines stand at any level. -/
def levelAfter (level : Nat) (line : List Char) : Option Nat :=
  let blanks := (line.takeWhile (· == ' ')).length
  match line.dropWhile (· == ' ') with
  | [] => some level
  | ['}'] => if blanks + 4 = 4 * level then some (level - 1) else none
  | content =>
      if blanks = 4 * level then
        some (if content.getLast? = some '{' then level + 1 else level)
      else none

/-- A text that begins a line, with neither a blank nor a closing bracket. -/
def Begins (text : String) : Prop :=
  ∃ letter ∈ text.toList.head?, letter ≠ ' ' ∧ letter ≠ '}'

instance (text : String) : Decidable (Begins text) :=
  Option.decidableExistsMem text.toList.head?

namespace Code

mutual

/-- Whether code is laid out by its brackets alone: each of its lines is one line, and those
that open a block are the ones that end in an opening bracket. -/
def Tidy : Code → Prop
  | .line content =>
      Begins content ∧ '\n' ∉ content.toList ∧ content.toList.getLast? ≠ some '{'
  | .block opening inside =>
      Begins opening ∧ '\n' ∉ opening.toList ∧ opening.toList.getLast? = some '{' ∧
        TidyAll inside
termination_by structural code => code

def TidyAll : List Code → Prop
  | [] => True
  | code :: rest => Tidy code ∧ TidyAll rest
termination_by structural codes => codes

end

mutual

/-- The lines of code at a level of indentation. -/
def lines (level : Nat) : Code → List (List Char)
  | .line content => [indentation level ++ content.toList]
  | .block opening inside =>
      (indentation level ++ opening.toList) ::
        (linesAll (level + 1) inside ++ [indentation level ++ ['}']])
termination_by structural code => code

def linesAll (level : Nat) : List Code → List (List Char)
  | [] => []
  | code :: rest => lines level code ++ linesAll level rest
termination_by structural codes => codes

end

end Code

theorem unbroken_append {text more : String} (h : '\n' ∉ text.toList)
    (hmore : '\n' ∉ more.toList) : '\n' ∉ (text ++ more).toList := by
  rw [String.toList_append, List.mem_append, not_or]
  exact ⟨h, hmore⟩

theorem getLast?_toList_append {text more : String} {last : Char}
    (h : more.toList.getLast? = some last) : (text ++ more).toList.getLast? = some last := by
  rw [String.toList_append, List.getLast?_append, h, Option.some_or]

theorem toList_indented {level : Nat} {content : String} (h : content ≠ "") :
    (indented level content).toList = indentation level ++ (content.toList ++ ['\n']) := by
  have hblanks : (String.join (List.replicate level "    ")).toList = indentation level := by
    induction level with
    | zero => rfl
    | succ level ih =>
        rw [List.replicate_succ, String.join_cons, String.toList_append, ih, indentation,
          indentation, Nat.mul_succ, Nat.add_comm, ← List.replicate_append_replicate]
        rfl
  rw [indented, if_neg h, String.toList_append, String.toList_append, hblanks,
    List.append_assoc]
  rfl

theorem Begins.append {text : String} (h : Begins text) (more : String) :
    Begins (text ++ more) := by
  obtain ⟨letter, hletter, hboth⟩ := h
  refine ⟨letter, ?_, hboth⟩
  rw [String.toList_append, List.head?_append, hletter]
  rfl

theorem Begins.ne_empty {text : String} (h : Begins text) : text ≠ "" := by
  rintro rfl
  obtain ⟨letter, hletter, -⟩ := h
  cases hletter

namespace Code

mutual

/-- The text of tidy code is that of its lines, each with a line break behind it. -/
theorem toList_text : ∀ {code : Code}, code.Tidy → ∀ level,
    (text level code).toList = (lines level code).flatMap (· ++ ['\n'])
  | .line content, h, level => by
      rw [text, toList_indented h.1.ne_empty, lines, List.flatMap_singleton, List.append_assoc]
  | .block opening inside, h, level => by
      have hclosing : (indented level "\x7d").toList = indentation level ++ (['}'] ++ ['\n']) :=
        toList_indented (by decide)
      rw [text, String.toList_append, String.toList_append, toList_indented h.1.ne_empty,
        hclosing, toList_textAll h.2.2.2, lines, List.flatMap_cons, List.flatMap_append,
        List.flatMap_singleton]
      simp only [List.append_assoc]

theorem toList_textAll : ∀ {codes : List Code}, TidyAll codes → ∀ level,
    (textAll level codes).toList = (linesAll level codes).flatMap (· ++ ['\n'])
  | [], _, _ => rfl
  | code :: rest, h, level => by
      rw [textAll, String.toList_append, toList_text h.1, toList_textAll h.2, linesAll,
        List.flatMap_append]

end

end Code

theorem takeWhile_indentation (level : Nat) {letter : Char} (rest : List Char)
    (h : letter ≠ ' ') :
    (indentation level ++ letter :: rest).takeWhile (· == ' ') = indentation level ∧
      (indentation level ++ letter :: rest).dropWhile (· == ' ') = letter :: rest := by
  have hblanks : ∀ blank ∈ indentation level, (blank == ' ') = true := by
    intro blank hblank
    rw [(List.mem_replicate.mp hblank).2]
    rfl
  have hletter : (letter == ' ') = false := by simpa using h
  rw [List.takeWhile_append_of_pos hblanks, List.dropWhile_append_of_pos hblanks,
    List.takeWhile_cons_of_neg (by simp [hletter]), List.dropWhile_cons_of_neg (by simp [hletter]),
    List.append_nil]
  exact ⟨rfl, rfl⟩

theorem levelAfter_begins {text : String} (h : Begins text) (level : Nat) :
    levelAfter level (indentation level ++ text.toList) =
      some (if text.toList.getLast? = some '{' then level + 1 else level) := by
  obtain ⟨letter, hletter, hblank, hbracket⟩ := h
  obtain ⟨rest, hletters⟩ := List.head?_eq_some_iff.mp hletter
  obtain ⟨htake, hdrop⟩ := takeWhile_indentation level rest hblank
  rw [levelAfter, hletters, htake, hdrop, indentation, List.length_replicate]
  split
  · rename_i heq
    cases heq
  · rename_i heq
    cases heq
    exact absurd rfl hbracket
  · rw [if_pos rfl]

theorem levelAfter_closing (level : Nat) :
    levelAfter (level + 1) (indentation level ++ ['}']) = some level := by
  obtain ⟨htake, hdrop⟩ := takeWhile_indentation level [] (by decide : '}' ≠ ' ')
  rw [levelAfter, htake, hdrop, indentation, List.length_replicate]
  exact if_pos rfl

namespace Code

mutual

/-- Tidy code ends at the level of indentation at which it begins. -/
theorem levelAfter_lines : ∀ {code : Code}, code.Tidy → ∀ level,
    (lines level code).foldlM levelAfter level = some level
  | .line content, h, level => by
      rw [lines, List.foldlM_cons, levelAfter_begins h.1, if_neg h.2.2]
      rfl
  | .block opening inside, h, level => by
      rw [lines, List.foldlM_cons, levelAfter_begins h.1, if_pos h.2.2.1, Option.bind_eq_bind,
        Option.bind_some, List.foldlM_append, levelAfter_linesAll h.2.2.2, Option.bind_eq_bind,
        Option.bind_some, List.foldlM_cons, levelAfter_closing]
      rfl

theorem levelAfter_linesAll : ∀ {codes : List Code}, TidyAll codes → ∀ level,
    (linesAll level codes).foldlM levelAfter level = some level
  | [], _, _ => rfl
  | code :: rest, h, level => by
      rw [linesAll, List.foldlM_append, levelAfter_lines h.1, Option.bind_eq_bind,
        Option.bind_some, levelAfter_linesAll h.2]

end

mutual

theorem unbroken_lines : ∀ {code : Code}, code.Tidy → ∀ {level}, ∀ letters ∈ lines level code,
    '\n' ∉ letters
  | .line content, h, level, letters, hletters => by
      rw [List.mem_singleton.mp hletters, List.mem_append, not_or]
      exact ⟨by simp [indentation], h.2.1⟩
  | .block opening inside, h, level, letters, hletters => by
      rw [lines, List.mem_cons, List.mem_append, List.mem_singleton] at hletters
      rcases hletters with rfl | hinside | rfl
      · rw [List.mem_append, not_or]
        exact ⟨by simp [indentation], h.2.1⟩
      · exact unbroken_linesAll h.2.2.2 letters hinside
      · simp [indentation]

theorem unbroken_linesAll : ∀ {codes : List Code}, TidyAll codes → ∀ {level},
    ∀ letters ∈ linesAll level codes, '\n' ∉ letters
  | [], _, _, letters, hletters => by cases hletters
  | code :: rest, h, level, letters, hletters => by
      rw [linesAll, List.mem_append] at hletters
      rcases hletters with hfirst | hrest
      · exact unbroken_lines h.1 letters hfirst
      · exact unbroken_linesAll h.2 letters hrest

end

end Code

/-- The lines of a text that was put together from lines are these lines. -/
theorem splitOn_flatMap {lines : List (List Char)} (h : ∀ line ∈ lines, '\n' ∉ line)
    (rest : List Char) :
    ((lines.flatMap (· ++ ['\n'])) ++ rest).splitOn '\n' = lines ++ rest.splitOn '\n' := by
  induction lines with
  | nil => rfl
  | cons line lines ih =>
      rw [List.forall_mem_cons] at h
      have hline : ∀ letter ∈ line, (letter == '\n') = false := by
        intro letter hletter
        rw [beq_eq_false_iff_ne]
        rintro rfl
        exact h.1 hletter
      rw [List.splitOn_eq_splitOnP] at ih ⊢
      rw [List.flatMap_cons, List.append_assoc, List.append_assoc, List.singleton_append,
        List.splitOnP_append_cons _ _ rfl, List.splitOnP_eq_singleton hline, ih h.2]
      rfl

end SourceText

end BusCodec
