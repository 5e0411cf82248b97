import BusCodec.Procedure.Basic

/-!
A text is the signature of at most one sequence of types, and it stays so when
its brackets are replaced by the letters that names use for them.  The letters
of a type never continue the letters of another, so types read one after the
other are told apart.
-/

namespace BusCodec

namespace BusType

theorem nameLetter_code (type : BasicType) : nameLetter type.code = type.code := by
  cases type <;> rfl

/-- A type begins neither with the letter for a curly bracket nor with the one
for a closing bracket. -/
theorem exists_first_nameLetter (type : BusType) :
    ∃ letter rest, type.codes.map nameLetter = letter :: rest ∧
      letter ≠ 'e' ∧ letter ≠ 'z' := by
  cases type with
  | basic type =>
      refine ⟨type.code, [], ?_, ?_⟩
      · simp [codes, nameLetter_code]
      · cases type <;> decide
  | variant => exact ⟨'v', [], rfl, by decide, by decide⟩
  | array element => exact ⟨'a', element.codes.map nameLetter, rfl, by decide, by decide⟩
  | dict key value => exact ⟨'a', _, rfl, by decide, by decide⟩
  | struct first rest => exact ⟨'r', _, rfl, by decide, by decide⟩

mutual

theorem nameLetters_append_inj : ∀ {type other : BusType} {x y : List Char},
    type.codes.map nameLetter ++ x = other.codes.map nameLetter ++ y →
      type = other ∧ x = y
  | .basic type, other, x, y, h => by
      cases other with
      | basic other =>
          simp only [codes, List.map_cons, List.map_nil, nameLetter_code,
            List.cons_append, List.nil_append, List.cons.injEq] at h
          exact ⟨congrArg _ (BasicType.code_injective h.1), h.2⟩
      | _ => cases type <;> simp [codes, nameLetter, BasicType.code] at h
  | .variant, other, x, y, h => by
      cases other with
      | variant => simpa [codes] using h
      | basic other => cases other <;> simp [codes, nameLetter, BasicType.code] at h
      | _ => simp [codes, nameLetter] at h
  | .array element, other, x, y, h => by
      cases other with
      | array other =>
          simp only [codes, List.map_cons, List.cons_append, List.cons.injEq,
            true_and] at h
          obtain ⟨rfl, hrest⟩ := nameLetters_append_inj h
          exact ⟨rfl, hrest⟩
      | dict key value =>
          obtain ⟨letter, rest, hcodes, hcurly, -⟩ := exists_first_nameLetter element
          simp only [codes, List.map_cons, List.cons_append, hcodes,
            List.cons.injEq] at h
          exact absurd h.2.1 hcurly
      | basic other => cases other <;> simp [codes, nameLetter, BasicType.code] at h
      | _ => simp [codes, nameLetter] at h
  | .dict key value, other, x, y, h => by
      cases other with
      | dict otherKey otherValue =>
          simp only [codes, List.map_cons, List.map_append, List.map_nil,
            List.cons_append, List.append_assoc, List.nil_append, nameLetter_code,
            List.cons.injEq, true_and] at h
          obtain ⟨rfl, hrest⟩ := nameLetters_append_inj h.2
          simp only [List.cons.injEq, true_and] at hrest
          exact ⟨by rw [BasicType.code_injective h.1], hrest⟩
      | array element =>
          obtain ⟨letter, rest, hcodes, hcurly, -⟩ := exists_first_nameLetter element
          simp only [codes, List.map_cons, List.cons_append, hcodes,
            List.cons.injEq] at h
          exact absurd h.2.1.symm hcurly
      | basic other => cases other <;> simp [codes, nameLetter, BasicType.code] at h
      | _ => simp [codes, nameLetter] at h
  | .struct first rest, other, x, y, h => by
      cases other with
      | struct otherFirst otherRest =>
          simp only [codes, List.map_cons, List.map_append, List.map_nil,
            List.cons_append, List.append_assoc, List.nil_append,
            List.cons.injEq, true_and] at h
          obtain ⟨rfl, hmembers⟩ := nameLetters_append_inj h
          obtain ⟨rfl, hrest⟩ := nameLettersAll_append_inj hmembers
          exact ⟨rfl, hrest⟩
      | basic other => cases other <;> simp [codes, nameLetter, BasicType.code] at h
      | _ => simp [codes, nameLetter] at h

/-- The members of a struct are told apart up to the closing bracket. -/
theorem nameLettersAll_append_inj : ∀ {types others : List BusType} {x y : List Char},
    (codesAll types).map nameLetter ++ nameLetter ')' :: x =
        (codesAll others).map nameLetter ++ nameLetter ')' :: y →
      types = others ∧ x = y
  | [], [], x, y, h => by simpa [codesAll] using h
  | [], other :: others, x, y, h => by
      obtain ⟨letter, rest, hcodes, -, hclose⟩ := exists_first_nameLetter other
      simp only [codesAll, List.map_nil, List.map_append, hcodes, List.nil_append,
        List.cons_append, List.cons.injEq] at h
      exact absurd h.1.symm hclose
  | type :: types, [], x, y, h => by
      obtain ⟨letter, rest, hcodes, -, hclose⟩ := exists_first_nameLetter type
      simp only [codesAll, List.map_nil, List.map_append, hcodes, List.nil_append,
        List.cons_append, List.cons.injEq] at h
      exact absurd h.1 hclose
  | type :: types, other :: others, x, y, h => by
      simp only [codesAll, List.map_append, List.append_assoc] at h
      obtain ⟨rfl, htypes⟩ := nameLetters_append_inj h
      obtain ⟨rfl, hrest⟩ := nameLettersAll_append_inj htypes
      exact ⟨rfl, hrest⟩

end

theorem codes_append_inj {type other : BusType} {x y : List Char}
    (h : type.codes ++ x = other.codes ++ y) : type = other ∧ x = y := by
  have hletters := congrArg (List.map nameLetter) h
  rw [List.map_append, List.map_append] at hletters
  obtain ⟨rfl, -⟩ := nameLetters_append_inj hletters
  exact ⟨rfl, List.append_cancel_left h⟩

theorem codes_injective {type other : BusType} (h : type.codes = other.codes) :
    type = other := by
  have happend : type.codes ++ [] = other.codes ++ [] := by rw [h]
  exact (codes_append_inj happend).1

theorem signature_injective {type other : BusType}
    (h : type.signature = other.signature) : type = other :=
  codes_injective (String.ofList_injective h)

theorem nameLettersAll_injective {types others : List BusType}
    (h : (codesAll types).map nameLetter = (codesAll others).map nameLetter) :
    types = others := by
  have happend : (codesAll types).map nameLetter ++ nameLetter ')' :: [] =
      (codesAll others).map nameLetter ++ nameLetter ')' :: [] := by rw [h]
  exact (nameLettersAll_append_inj happend).1

end BusType

end BusCodec
