import BusCodec.Proofs.Signature.Parsing

/-!
Names tell procedures apart.  The name of a procedure gives its construct and the
types in its signature, although brackets are no part of names.
-/

namespace BusCodec

namespace BusType

theorem nameLetter_ne_underscore : ∀ letter ∈ alphabet, nameLetter letter ≠ '_' := by
  simp [alphabet, BasicType.all, BasicType.code, nameLetter]

theorem isLower_nameLetter : ∀ letter ∈ alphabet, (nameLetter letter).isLower = true :=
  List.all_eq_true.mp (by decide)

theorem underscore_not_mem (types : List BusType) :
    '_' ∉ (codesAll types).map nameLetter := by
  rw [List.mem_map]
  rintro ⟨letter, hletter, hname⟩
  exact nameLetter_ne_underscore letter (mem_alphabet_of_mem_codesAll hletter) hname

end BusType

theorem toList_procedureName (access : Access) (construct : Construct)
    (types : List BusType) :
    (procedureName access construct (BusType.signatureAll types)).toList =
      access.word.toList ++ '_' :: (construct.word.toList ++
        '_' :: (BusType.codesAll types).map nameLetter) := by
  simp [procedureName, nameOfSignature, BusType.signatureAll]

theorem word_append_inj {construct other : Construct} {x y : List Char}
    (hx : '_' ∉ x) (hy : '_' ∉ y)
    (h : construct.word.toList ++ '_' :: x = other.word.toList ++ '_' :: y) :
    construct = other ∧ x = y := by
  have hlonger : ∀ letters rest : List Char, '_' ∉ letters →
      letters ≠ 'v' :: '_' :: rest := by
    rintro letters rest hmem rfl
    exact hmem (List.mem_cons_of_mem _ List.mem_cons_self)
  cases construct <;> cases other <;> simp [Construct.word] at h
  all_goals first
    | exact ⟨rfl, h⟩
    | exact absurd h (hlonger x y hx)
    | exact absurd h.symm (hlonger y x hy)

theorem procedureName_inj {access : Access} {construct other : Construct}
    {types others : List BusType}
    (h : procedureName access construct (BusType.signatureAll types) =
      procedureName access other (BusType.signatureAll others)) :
    construct = other ∧ types = others := by
  have hletters := congrArg String.toList h
  rw [toList_procedureName, toList_procedureName] at hletters
  have hwords := (List.cons.inj (List.append_cancel_left hletters)).2
  obtain ⟨hconstruct, htypes⟩ := word_append_inj (BusType.underscore_not_mem types)
    (BusType.underscore_not_mem others) hwords
  exact ⟨hconstruct, BusType.nameLettersAll_injective htypes⟩

theorem access_eq_of_procedureName_eq {access otherAccess : Access}
    {construct otherConstruct : Construct} {signature other : String}
    (h : procedureName access construct signature =
      procedureName otherAccess otherConstruct other) : access = otherAccess := by
  have hletters := congrArg String.toList h
  simp only [procedureName, String.toList_append] at hletters
  cases access <;> cases otherAccess
  · rfl
  · exact absurd (List.head_eq_of_cons_eq hletters) (by decide)
  · exact absurd (List.head_eq_of_cons_eq hletters) (by decide)
  · rfl

/-- The name of a procedure tells its access, its construct and its signature, if the
signature is a valid one.  A signature alone is known from the letters that names use for
it, all of which are lower-case. -/
theorem procedureName_injective {signature other : String} {types others : List BusType}
    (hsignature : BusType.parseAll signature = .ok types)
    (hother : BusType.parseAll other = .ok others) :
    (∀ access construct otherAccess otherConstruct,
      procedureName access construct signature =
          procedureName otherAccess otherConstruct other →
        access = otherAccess ∧ construct = otherConstruct ∧ signature = other) ∧
      (∀ access otherAccess, procedureName access .message signature ≠
        procedureName otherAccess .variantMessage other) ∧
      (nameOfSignature signature = nameOfSignature other → signature = other) ∧
      ∀ letter ∈ (nameOfSignature signature).toList, letter.isLower = true := by
  obtain ⟨rfl, -⟩ := BusType.parseAll_eq_ok_iff.mp hsignature
  obtain ⟨rfl, -⟩ := BusType.parseAll_eq_ok_iff.mp hother
  have hnames : ∀ access construct otherAccess otherConstruct,
      procedureName access construct (BusType.signatureAll types) =
          procedureName otherAccess otherConstruct (BusType.signatureAll others) →
        access = otherAccess ∧ construct = otherConstruct ∧
          BusType.signatureAll types = BusType.signatureAll others := by
    intro access construct otherAccess otherConstruct h
    obtain rfl := access_eq_of_procedureName_eq h
    obtain ⟨hconstruct, htypes⟩ := procedureName_inj h
    exact ⟨rfl, hconstruct, by rw [htypes]⟩
  refine ⟨hnames, ?_, ?_, ?_⟩
  · intro access otherAccess h
    cases (hnames _ _ _ _ h).2.1
  · intro h
    rw [nameOfSignature, nameOfSignature, BusType.signatureAll, BusType.signatureAll,
      String.toList_ofList, String.toList_ofList] at h
    rw [BusType.nameLettersAll_injective (String.ofList_injective h)]
  · intro letter hletter
    rw [nameOfSignature, BusType.signatureAll, String.toList_ofList, String.toList_ofList,
      List.mem_map] at hletter
    obtain ⟨code, hcode, rfl⟩ := hletter
    exact BusType.isLower_nameLetter code (BusType.mem_alphabet_of_mem_codesAll hcode)

/-- A body that begins with a variant, and a body that is one. -/
theorem procedureName_injective_variant :
    procedureName .read .message "va{s(ay)}" ≠
      procedureName .read .variantMessage "a{s(ay)}" := by
  have hplain : BusType.parseAll "va{s(ay)}" =
      .ok [.variant, .dict .string (.struct (.array (.basic .byte)) [])] := rfl
  have hvariant : BusType.parseAll "a{s(ay)}" =
      .ok [.dict .string (.struct (.array (.basic .byte)) [])] := rfl
  exact (procedureName_injective hplain hvariant).2.1 .read .read

end BusCodec
