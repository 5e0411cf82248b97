import BusCodec.Proofs.Signature.Parsing

/-!
The grammar of signatures.  The parser accepts a text exactly if the grammar derives it
within the limits, and what it gives back is the one derivation of the text, each of whose
types stands in the text letter by letter.
-/

namespace BusCodec

namespace Signature

mutual

/-- The text is one complete type, and the type is its derivation.  No letter stands
inside more than so many array prefixes, where the one of a dictionary counts, nor
inside more than so many brackets. -/
inductive Derives : Nat → Nat → List Char → BusType → Prop
  | basic {arrays brackets : Nat} (type : BasicType) :
      Derives arrays brackets [type.code] (.basic type)
  | variant {arrays brackets : Nat} : Derives arrays brackets ['v'] .variant
  | array {arrays brackets : Nat} {text : List Char} {element : BusType}
      (inner : Derives arrays brackets text element) :
      Derives (arrays + 1) brackets ('a' :: text) (.array element)
  | dict {arrays brackets : Nat} {text : List Char} {value : BusType} (key : BasicType)
      (inner : Derives arrays brackets text value) :
      Derives (arrays + 1) (brackets + 1) ('a' :: '{' :: key.code :: (text ++ ['}']))
        (.dict key value)
  | struct {arrays brackets : Nat} {text more : List Char} {first : BusType}
      {rest : List BusType} (head : Derives arrays brackets text first)
      (tail : DerivesAll arrays brackets more rest) :
      Derives arrays (brackets + 1) ('(' :: (text ++ (more ++ [')']))) (.struct first rest)

/-- The text is a sequence of complete types. -/
inductive DerivesAll : Nat → Nat → List Char → List BusType → Prop
  | nil {arrays brackets : Nat} : DerivesAll arrays brackets [] []
  | cons {arrays brackets : Nat} {text more : List Char} {type : BusType}
      {types : List BusType} (head : Derives arrays brackets text type)
      (tail : DerivesAll arrays brackets more types) :
      DerivesAll arrays brackets (text ++ more) (type :: types)

end

mutual

theorem Derives.codes_eq : ∀ {arrays brackets : Nat} {text : List Char} {type : BusType},
    Derives arrays brackets text type →
      text = type.codes ∧ type.arrayDepth ≤ arrays ∧ type.bracketDepth ≤ brackets
  | _, _, _, _, .basic _ => ⟨rfl, Nat.zero_le _, Nat.zero_le _⟩
  | _, _, _, _, .variant => ⟨rfl, Nat.zero_le _, Nat.zero_le _⟩
  | _, _, _, _, .array inner => by
      obtain ⟨rfl, harrays, hbrackets⟩ := inner.codes_eq
      exact ⟨rfl, Nat.succ_le_succ harrays, hbrackets⟩
  | _, _, _, _, .dict key inner => by
      obtain ⟨rfl, harrays, hbrackets⟩ := inner.codes_eq
      exact ⟨rfl, Nat.succ_le_succ harrays, Nat.succ_le_succ hbrackets⟩
  | _, _, _, _, .struct head tail => by
      obtain ⟨rfl, harrays, hbrackets⟩ := head.codes_eq
      obtain ⟨rfl, harraysAll, hbracketsAll⟩ := tail.codesAll_eq
      exact ⟨rfl, Nat.max_le.mpr ⟨harrays, harraysAll⟩,
        Nat.succ_le_succ (Nat.max_le.mpr ⟨hbrackets, hbracketsAll⟩)⟩

theorem DerivesAll.codesAll_eq : ∀ {arrays brackets : Nat} {text : List Char}
    {types : List BusType}, DerivesAll arrays brackets text types →
      text = BusType.codesAll types ∧ BusType.arrayDepthAll types ≤ arrays ∧
        BusType.bracketDepthAll types ≤ brackets
  | _, _, _, _, .nil => ⟨rfl, Nat.zero_le _, Nat.zero_le _⟩
  | _, _, _, _, .cons head tail => by
      obtain ⟨rfl, harrays, hbrackets⟩ := head.codes_eq
      obtain ⟨rfl, harraysAll, hbracketsAll⟩ := tail.codesAll_eq
      exact ⟨rfl, Nat.max_le.mpr ⟨harrays, harraysAll⟩,
        Nat.max_le.mpr ⟨hbrackets, hbracketsAll⟩⟩

end

mutual

theorem derives_codes : ∀ {arrays brackets : Nat} {type : BusType},
    type.arrayDepth ≤ arrays → type.bracketDepth ≤ brackets →
      Derives arrays brackets type.codes type
  | _, _, .basic type, _, _ => .basic type
  | _, _, .variant, _, _ => .variant
  | arrays, _, .array element, harrays, hbrackets => by
      obtain ⟨arrays, rfl⟩ := Nat.exists_eq_add_of_le' (Nat.le_trans (Nat.succ_pos _) harrays)
      exact .array (derives_codes (Nat.le_of_succ_le_succ harrays) hbrackets)
  | arrays, brackets, .dict key value, harrays, hbrackets => by
      obtain ⟨arrays, rfl⟩ := Nat.exists_eq_add_of_le' (Nat.le_trans (Nat.succ_pos _) harrays)
      obtain ⟨brackets, rfl⟩ :=
        Nat.exists_eq_add_of_le' (Nat.le_trans (Nat.succ_pos _) hbrackets)
      exact .dict key (derives_codes (Nat.le_of_succ_le_succ harrays)
        (Nat.le_of_succ_le_succ hbrackets))
  | arrays, brackets, .struct first rest, harrays, hbrackets => by
      obtain ⟨brackets, rfl⟩ :=
        Nat.exists_eq_add_of_le' (Nat.le_trans (Nat.succ_pos _) hbrackets)
      obtain ⟨hfirst, hrest⟩ := Nat.max_le.mp harrays
      obtain ⟨hfirstBrackets, hrestBrackets⟩ := Nat.max_le.mp (Nat.le_of_succ_le_succ hbrackets)
      exact .struct (derives_codes hfirst hfirstBrackets)
        (derivesAll_codesAll hrest hrestBrackets)

theorem derivesAll_codesAll : ∀ {arrays brackets : Nat} {types : List BusType},
    BusType.arrayDepthAll types ≤ arrays → BusType.bracketDepthAll types ≤ brackets →
      DerivesAll arrays brackets (BusType.codesAll types) types
  | _, _, [], _, _ => .nil
  | _, _, type :: types, harrays, hbrackets => by
      obtain ⟨hfirst, hrest⟩ := Nat.max_le.mp harrays
      obtain ⟨hfirstBrackets, hrestBrackets⟩ := Nat.max_le.mp hbrackets
      exact .cons (derives_codes hfirst hfirstBrackets)
        (derivesAll_codesAll hrest hrestBrackets)

end

theorem derivesAll_iff {arrays brackets : Nat} {text : List Char} {types : List BusType} :
    DerivesAll arrays brackets text types ↔
      text = BusType.codesAll types ∧ BusType.arrayDepthAll types ≤ arrays ∧
        BusType.bracketDepthAll types ≤ brackets := by
  refine ⟨DerivesAll.codesAll_eq, ?_⟩
  rintro ⟨rfl, harrays, hbrackets⟩
  exact derivesAll_codesAll harrays hbrackets

end Signature

namespace BusType

/-- Leaves have no children, an array has one, a dictionary has two and the first of
them is basic, and a struct has one or more. -/
def ProperlyBranched (type : BusType) : Prop :=
  match type with
  | .basic _ | .variant => type.children = []
  | .array _ => ∃ element, type.children = [element]
  | .dict _ _ => ∃ key value, type.children = [.basic key, value]
  | .struct _ _ => type.children ≠ []

theorem properlyBranched (type : BusType) : type.ProperlyBranched := by
  cases type with
  | basic type => rfl
  | variant => rfl
  | array element => exact ⟨element, rfl⟩
  | dict key value => exact ⟨key, value, rfl⟩
  | struct first rest => exact List.cons_ne_nil first rest

/-- Types with the offsets of their first letters, where the letters of the first one
begin at the given offset. -/
def placed (offset : Nat) : List BusType → List (Nat × BusType)
  | [] => []
  | type :: types => (offset, type) :: placed (offset + type.codes.length) types

/-- How many letters of a type stand before those of its children. -/
def opening : BusType → Nat
  | .basic _ | .variant => 0
  | .array _ | .struct _ _ => 1
  | .dict _ _ => 2

/-- A node of a sequence of types: one of them or a child of a node, with the offset of
its first letter. -/
inductive Node (types : List BusType) : Nat → BusType → Prop
  | top {offset : Nat} {type : BusType} (place : (offset, type) ∈ placed 0 types) :
      Node types offset type
  | child {offset inner : Nat} {type child : BusType} (parent : Node types offset type)
      (place : (inner, child) ∈ placed (offset + type.opening) type.children) :
      Node types inner child

theorem codes_eq_children (type : BusType) :
    type.children = [] ∨ ∃ before after, type.codes = before ++ (codesAll type.children ++ after) ∧
      before.length = type.opening := by
  cases type with
  | basic type => exact .inl rfl
  | variant => exact .inl rfl
  | array element =>
      refine .inr ⟨['a'], [], ?_, rfl⟩
      simp [codes, children, codesAll]
  | dict key value =>
      refine .inr ⟨['a', '{'], ['}'], ?_, rfl⟩
      simp [codes, children, codesAll]
  | struct first rest =>
      refine .inr ⟨['('], [')'], ?_, rfl⟩
      simp [codes, children, codesAll]

theorem exists_append_of_placed {offset place : Nat} {types : List BusType} {type : BusType}
    (h : (place, type) ∈ placed offset types) :
    ∃ before after, codesAll types = before ++ (type.codes ++ after) ∧
      place = offset + before.length := by
  induction types generalizing offset with
  | nil => cases h
  | cons first types ih =>
      rcases List.mem_cons.mp h with heq | hrest
      · cases heq
        exact ⟨[], codesAll types, rfl, rfl⟩
      · obtain ⟨before, after, hcodes, hplace⟩ := ih hrest
        refine ⟨first.codes ++ before, after, ?_, ?_⟩
        · rw [codesAll, hcodes, List.append_assoc]
        · rw [hplace, List.length_append, Nat.add_assoc]

theorem mem_of_placed {offset place : Nat} {types : List BusType} {type : BusType}
    (h : (place, type) ∈ placed offset types) : type ∈ types := by
  induction types generalizing offset with
  | nil => cases h
  | cons first types ih =>
      rcases List.mem_cons.mp h with heq | hrest
      · cases heq
        exact List.mem_cons_self
      · exact List.mem_cons_of_mem first (ih hrest)

/-- The letters of a node are in the text where the node is. -/
theorem Node.letters {types : List BusType} {offset : Nat} {type : BusType}
    (h : Node types offset type) :
    ∃ before after, codesAll types = before ++ (type.codes ++ after) ∧
      before.length = offset := by
  induction h with
  | top place =>
      obtain ⟨before, after, hcodes, rfl⟩ := exists_append_of_placed place
      exact ⟨before, after, hcodes, (Nat.zero_add _).symm⟩
  | @child offset inner type child parent place ih =>
      obtain ⟨before, after, hcodes, hbefore⟩ := ih
      obtain ⟨left, right, hchildren, rfl⟩ := exists_append_of_placed place
      rcases codes_eq_children type with hnil | ⟨opened, closed, htype, hopened⟩
      · rw [hnil] at place
        cases place
      · refine ⟨before ++ (opened ++ left), right ++ (closed ++ after), ?_, ?_⟩
        · rw [hcodes, htype, hchildren]
          simp only [List.append_assoc]
        · rw [List.length_append, List.length_append, hbefore, hopened, Nat.add_assoc]

theorem WithinLimits.child {type child : BusType} (h : WithinLimits [type])
    (hchild : child ∈ type.children) : WithinLimits [child] := by
  cases type with
  | basic type => cases hchild
  | variant => cases hchild
  | array element =>
      rw [List.mem_singleton.mp hchild]
      exact h.element
  | dict key value =>
      simp only [children, List.mem_cons, List.not_mem_nil, or_false] at hchild
      rcases hchild with rfl | rfl
      · refine withinLimits_singleton_iff.mpr ⟨?_, ?_, ?_⟩
        · exact (by decide : 1 ≤ Signature.maxLength)
        · exact Nat.zero_le Signature.maxNesting
        · exact Nat.zero_le Signature.maxNesting
      · exact h.value
  | struct first rest => exact h.members child hchild

theorem Node.withinLimits {types : List BusType} {offset : Nat} {type : BusType}
    (h : Node types offset type) (hlimits : WithinLimits types) : WithinLimits [type] := by
  induction h with
  | top place => exact hlimits.of_mem (mem_of_placed place)
  | child parent place ih => exact ih.child (mem_of_placed place)

theorem join_signature (types : List BusType) :
    String.join (types.map signature) = signatureAll types := by
  induction types with
  | nil => rfl
  | cons type types ih =>
      rw [List.map_cons, String.join_cons, ih, signature, signatureAll, signatureAll, codesAll,
        String.ofList_append]

/-- The parser accepts what the grammar derives within the limits, and gives back the
derivation, of which there is one. -/
theorem parseAll_eq_ok_iff_derivesAll (text : String) :
    (∀ types, parseAll text = .ok types ↔
      text.utf8ByteSize ≤ 255 ∧ Signature.DerivesAll 32 32 text.toList types) ∧
    (∀ type, parse text = .ok type ↔ parseAll text = .ok [type]) ∧
    ∀ types, parseAll text = .ok types →
      (∀ arrays brackets others, Signature.DerivesAll arrays brackets text.toList others →
        others = types) ∧
      String.join (types.map signature) = text ∧
      ∀ offset node, Node types offset node →
        (∃ before after, text.toList = before ++ (node.signature.toList ++ after) ∧
          before.length = offset) ∧
        node.ProperlyBranched ∧
        parse node.signature = .ok node := by
  refine ⟨?_, fun type => parse_eq_ok_iff_parseAll, ?_⟩
  · intro types
    rw [parseAll_eq_ok_iff, Signature.derivesAll_iff]
    constructor
    · rintro ⟨rfl, hlength, hnesting⟩
      rw [FitInside, Nat.zero_add, Nat.zero_add] at hnesting
      rw [utf8ByteSize_signatureAll, signatureAll, String.toList_ofList]
      exact ⟨hlength, rfl, hnesting⟩
    · rintro ⟨hlength, hcodes, hnesting⟩
      have htext : text = signatureAll types := by
        rw [signatureAll, ← hcodes, String.ofList_toList]
      rw [htext, utf8ByteSize_signatureAll] at hlength
      refine ⟨htext, hlength, ?_⟩
      rw [FitInside, Nat.zero_add, Nat.zero_add]
      exact hnesting
  · intro types h
    obtain ⟨rfl, hlimits⟩ := parseAll_eq_ok_iff.mp h
    refine ⟨?_, join_signature types, ?_⟩
    · intro arrays brackets others hderives
      have hcodes := hderives.codesAll_eq.1
      rw [signatureAll, String.toList_ofList] at hcodes
      exact (nameLettersAll_injective (congrArg (List.map nameLetter) hcodes)).symm
    · intro offset node hnode
      refine ⟨?_, properlyBranched node, parse_signature (hnode.withinLimits hlimits)⟩
      obtain ⟨before, after, hcodes, hbefore⟩ := hnode.letters
      refine ⟨before, after, ?_, hbefore⟩
      rw [signatureAll, signature, String.toList_ofList, String.toList_ofList, hcodes]

end BusType

end BusCodec
