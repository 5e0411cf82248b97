import BusCodec.Proofs.Generator.Prototypes

/-!
The text of a native type tells which bus type it stands for.  The text is a sequence of
tokens, none of which is the beginning of another one, so that the tokens are known from the
text; and the tokens of a type are never followed by more tokens of the same type, so that
types read one after the other are told apart.
-/

namespace BusCodec

/-- A piece of the text of a native type. -/
inductive NativeToken
  | basic (type : BasicType)
  | anyValue
  /-- The name of a vector and its opening bracket. -/
  | vec
  /-- The name of a map and its opening bracket. -/
  | map (style : MapStyle)
  /-- What separates the key of a map from the value, and the members of a tuple. -/
  | comma
  /-- The closing bracket of a vector, a map or an optional type. -/
  | close
  | openTuple
  | closeTuple
  /-- The closing bracket of a tuple of one member, and the comma before it. -/
  | closeSingle
  | ref
  /-- The name of the type of borrowed strings. -/
  | slice
  | openSlice
  | closeSlice
  | option
  deriving DecidableEq

namespace NativeToken

def text : NativeToken → String
  | .basic type => NativeType.basicName type
  | .anyValue => "Value"
  | .vec => "Vec<"
  | .map style => style.name ++ "<"
  | .comma => ", "
  | .close => ">"
  | .openTuple => "("
  | .closeTuple => ")"
  | .closeSingle => ",)"
  | .ref => "&"
  | .slice => "str"
  | .openSlice => "["
  | .closeSlice => "]"
  | .option => "Option<"

def letters (token : NativeToken) : List Char :=
  token.text.toList

def all : List NativeToken :=
  BasicType.all.map .basic ++ [.map .hashed, .map .ordered, .anyValue, .vec, .comma, .close,
    .openTuple, .closeTuple, .closeSingle, .ref, .slice, .openSlice, .closeSlice, .option]

theorem mem_all (token : NativeToken) : token ∈ all := by
  cases token with
  | basic type => cases type <;> decide
  | map style => cases style <;> decide
  | _ => decide

/-- No token is the beginning of another one. -/
theorem eq_of_begins : ∀ first ∈ all, ∀ second ∈ all,
    first.letters <+: second.letters → first = second := by
  decide +kernel

theorem letters_ne_nil : ∀ token ∈ all, token.letters ≠ [] := by
  decide +kernel

theorem letters_append_inj {first second : NativeToken} {x y : List Char}
    (h : first.letters ++ x = second.letters ++ y) : first = second ∧ x = y := by
  have heq : first = second := by
    rcases List.prefix_or_prefix_of_prefix (List.prefix_append first.letters x)
      (h ▸ List.prefix_append second.letters y) with hprefix | hprefix
    · exact eq_of_begins first (mem_all first) second (mem_all second) hprefix
    · exact (eq_of_begins second (mem_all second) first (mem_all first) hprefix).symm
  subst heq
  exact ⟨rfl, List.append_cancel_left h⟩

/-- A sequence of tokens is known from its letters. -/
theorem flatMap_letters_injective {tokens others : List NativeToken}
    (h : tokens.flatMap letters = others.flatMap letters) : tokens = others := by
  induction tokens generalizing others with
  | nil =>
      cases others with
      | nil => rfl
      | cons other others =>
          have hnil := (List.append_eq_nil_iff.mp h.symm).1
          exact absurd hnil (letters_ne_nil other (mem_all other))
  | cons token tokens ih =>
      cases others with
      | nil =>
          have hnil := (List.append_eq_nil_iff.mp h).1
          exact absurd hnil (letters_ne_nil token (mem_all token))
      | cons other others =>
          obtain ⟨rfl, hrest⟩ := letters_append_inj h
          rw [ih hrest]

/-- What closes a tuple after its first member and the members behind it. -/
def closing {α : Type} : List α → NativeToken
  | [] => .closeSingle
  | _ :: _ => .closeTuple

end NativeToken

namespace NativeType

mutual

/-- The pieces of the text of a native type. -/
def tokens : NativeType → List NativeToken
  | .basic type => [.basic type]
  | .anyValue => [.anyValue]
  | .vec item => .vec :: (tokens item ++ [.close])
  | .map style key value => .map style :: (tokens key ++ .comma :: (tokens value ++ [.close]))
  | .tuple [] => [.openTuple, .closeTuple]
  | .tuple (first :: rest) =>
      .openTuple :: (tokens first ++ (tokensAll rest ++ [NativeToken.closing rest]))
  | .ref (.basic .string) => [.ref, .slice]
  | .ref (.vec item) => .ref :: .openSlice :: (tokens item ++ [.closeSlice])
  | .ref target => .ref :: tokens target
  | .option inner => .option :: (tokens inner ++ [.close])
termination_by structural type => type

def tokensAll : List NativeType → List NativeToken
  | [] => []
  | member :: members => .comma :: (tokens member ++ tokensAll members)
termination_by structural members => members

end

/-- References to all types but strings and vectors are written alike. -/
theorem toList_text_ref {target : NativeType} (htext : (ref target).text = "&" ++ target.text)
    (htokens : (ref target).tokens = .ref :: target.tokens)
    (h : target.text.toList = target.tokens.flatMap NativeToken.letters) :
    (ref target).text.toList = (ref target).tokens.flatMap NativeToken.letters := by
  rw [htext, htokens, String.toList_append, h]
  rfl

mutual

theorem toList_text : ∀ native : NativeType,
    native.text.toList = native.tokens.flatMap NativeToken.letters
  | .basic type => by simp [text, tokens, NativeToken.letters, NativeToken.text]
  | .anyValue => rfl
  | .vec item => by
      simp [text, tokens, NativeToken.letters, NativeToken.text, toList_text item]
  | .map style key value => by
      simp [text, tokens, NativeToken.letters, NativeToken.text, toList_text key,
        toList_text value]
  | .tuple [] => rfl
  | .tuple [member] => by
      simp [text, tokens, tokensAll, NativeToken.letters, NativeToken.text, NativeToken.closing,
        toList_text member]
  | .tuple (first :: second :: rest) => by
      simp [text, tokens, NativeToken.letters, NativeToken.text, NativeToken.closing,
        toList_text first, toList_textAll (second :: rest)]
  | .ref (.basic type) => by cases type <;> rfl
  | .ref .anyValue => rfl
  | .ref (.vec item) => by
      simp [text, tokens, NativeToken.letters, NativeToken.text, toList_text item]
  | .ref (.map style key value) => toList_text_ref rfl rfl (toList_text (.map style key value))
  | .ref (.tuple members) => toList_text_ref rfl rfl (toList_text (.tuple members))
  | .ref (.ref target) => toList_text_ref rfl rfl (toList_text (.ref target))
  | .ref (.option inner) => toList_text_ref rfl rfl (toList_text (.option inner))
  | .option inner => by
      simp [text, tokens, NativeToken.letters, NativeToken.text, toList_text inner]

theorem toList_textAll : ∀ members : List NativeType,
    (textAll members).toList = (tokensAll members).flatMap NativeToken.letters
  | [] => rfl
  | member :: members => by
      simp [textAll, tokensAll, NativeToken.letters, NativeToken.text, toList_text member,
        toList_textAll members]

end

theorem tokens_eq_of_text_eq {native other : NativeType} (h : native.text = other.text) :
    native.tokens = other.tokens := by
  apply NativeToken.flatMap_letters_injective
  rw [← toList_text, ← toList_text, h]

end NativeType

namespace BusType

open NativeToken

mutual

/-- The tokens of the native type that owns the values of a type. -/
def nativeTokens (policy : MapPolicy) : BusType → List NativeToken
  | .basic type => [.basic type]
  | .variant => [.anyValue]
  | .array element => .vec :: (nativeTokens policy element ++ [.close])
  | .dict key value =>
      .map (policy (BusType.dict key value).signature) :: .basic key :: .comma ::
        (nativeTokens policy value ++ [.close])
  | .struct first rest =>
      .openTuple :: (nativeTokens policy first ++ (nativeTokensAll policy rest ++ [closing rest]))
termination_by structural type => type

def nativeTokensAll (policy : MapPolicy) : List BusType → List NativeToken
  | [] => []
  | type :: types => .comma :: (nativeTokens policy type ++ nativeTokensAll policy types)
termination_by structural types => types

end

theorem closing_ne_comma {α : Type} (items : List α) : closing items ≠ .comma := by
  cases items <;> exact NativeToken.noConfusion

mutual

/-- Types that are read one after the other are told apart by their tokens, whatever the
policies. -/
theorem nativeTokens_append_inj {policy otherPolicy : MapPolicy} :
    ∀ {type other : BusType} {x y : List NativeToken},
      type.nativeTokens policy ++ x = other.nativeTokens otherPolicy ++ y →
        type = other ∧ x = y
  | .basic type, other, x, y, h => by
      cases other with
      | basic other => simpa [nativeTokens] using h
      | _ => simp [nativeTokens] at h
  | .variant, other, x, y, h => by
      cases other with
      | variant => simpa [nativeTokens] using h
      | _ => simp [nativeTokens] at h
  | .array element, other, x, y, h => by
      cases other with
      | array other =>
          simp only [nativeTokens, List.cons_append, List.append_assoc, List.nil_append,
            List.cons.injEq, true_and] at h
          obtain ⟨rfl, hrest⟩ := nativeTokens_append_inj h
          exact ⟨rfl, (List.cons.inj hrest).2⟩
      | _ => simp [nativeTokens] at h
  | .dict key value, other, x, y, h => by
      cases other with
      | dict otherKey otherValue =>
          simp only [nativeTokens, List.cons_append, List.append_assoc, List.nil_append,
            List.cons.injEq, NativeToken.basic.injEq, true_and] at h
          obtain ⟨-, rfl, hvalue⟩ := h
          obtain ⟨rfl, hrest⟩ := nativeTokens_append_inj hvalue
          exact ⟨rfl, (List.cons.inj hrest).2⟩
      | _ => simp [nativeTokens] at h
  | .struct first rest, other, x, y, h => by
      cases other with
      | struct otherFirst otherRest =>
          simp only [nativeTokens, List.cons_append, List.append_assoc, List.nil_append,
            List.cons.injEq, true_and] at h
          obtain ⟨rfl, hmembers⟩ := nativeTokens_append_inj h
          obtain ⟨rfl, hrest⟩ := nativeTokensAll_append_inj (closing_ne_comma rest)
            (closing_ne_comma otherRest) hmembers
          exact ⟨rfl, (List.cons.inj hrest).2⟩
      | _ => simp [nativeTokens] at h

/-- The members of a tuple are told apart up to a token that is no comma. -/
theorem nativeTokensAll_append_inj {policy otherPolicy : MapPolicy} :
    ∀ {types others : List BusType} {first second : NativeToken} {x y : List NativeToken},
      first ≠ .comma → second ≠ .comma →
      nativeTokensAll policy types ++ first :: x =
        nativeTokensAll otherPolicy others ++ second :: y →
      types = others ∧ first :: x = second :: y
  | [], [], first, second, x, y, _, _, h => ⟨rfl, h⟩
  | [], other :: others, first, second, x, y, hfirst, _, h =>
      absurd (List.cons.inj h).1 hfirst
  | type :: types, [], first, second, x, y, _, hsecond, h =>
      absurd (List.cons.inj h).1.symm hsecond
  | type :: types, other :: others, first, second, x, y, hfirst, hsecond, h => by
      simp only [nativeTokensAll, List.cons_append, List.append_assoc, List.cons.injEq,
        true_and] at h
      obtain ⟨rfl, htypes⟩ := nativeTokens_append_inj h
      obtain ⟨rfl, hrest⟩ := nativeTokensAll_append_inj hfirst hsecond htypes
      exact ⟨rfl, hrest⟩

end

/-- The token of a basic type behind a reference sign. -/
def targetToken (type : BasicType) : NativeToken :=
  if type = .string then .slice else .basic type

/-- The tokens of a reference to the native type of a type, after the reference sign. -/
def targetTokens (policy : MapPolicy) (type : BusType) : List NativeToken :=
  match type with
  | .basic type => [targetToken type]
  | .array element => .openSlice :: (element.nativeTokens policy ++ [.closeSlice])
  | type => type.nativeTokens policy

theorem targetToken_injective {type other : BasicType} (h : targetToken type = targetToken other) :
    type = other := by
  rw [targetToken, targetToken] at h
  split at h <;> split at h
  · exact ‹type = .string›.trans ‹other = .string›.symm
  · cases h
  · cases h
  · exact NativeToken.basic.inj h

theorem targetToken_cases (type : BasicType) :
    targetToken type = .slice ∨ targetToken type = .basic type := by
  rw [targetToken]
  split
  · exact .inl rfl
  · exact .inr rfl

theorem eq_of_targetTokens_append {policy otherPolicy : MapPolicy} {type other : BusType}
    {x y : List NativeToken}
    (h : type.targetTokens policy ++ x = other.targetTokens otherPolicy ++ y) :
    type = other := by
  cases type with
  | basic type =>
      cases other with
      | basic other => rw [targetToken_injective (List.cons.inj h).1]
      | _ =>
          rcases targetToken_cases type with htoken | htoken <;>
            simp [targetTokens, nativeTokens, htoken] at h
  | array element =>
      cases other with
      | array other =>
          simp only [targetTokens, List.cons_append, List.append_assoc, List.cons.injEq,
            true_and] at h
          rw [(nativeTokens_append_inj h).1]
      | basic other =>
          rcases targetToken_cases other with htoken | htoken <;>
            simp [targetTokens, htoken] at h
      | _ => simp [targetTokens, nativeTokens] at h
  | _ =>
      cases other with
      | array element => simp [targetTokens, nativeTokens] at h
      | basic other =>
          rcases targetToken_cases other with htoken | htoken <;>
            simp [targetTokens, nativeTokens, htoken] at h
      | _ => exact (nativeTokens_append_inj h).1

/-- The native types that own values are neither references nor optional. -/
theorem exists_nativeTokens_cons (policy : MapPolicy) (type : BusType) :
    ∃ first rest, type.nativeTokens policy = first :: rest ∧ first ≠ .ref ∧ first ≠ .option := by
  cases type <;> exact ⟨_, _, rfl, NativeToken.noConfusion, NativeToken.noConfusion⟩

end BusType

namespace NativeType

variable {policy otherPolicy : MapPolicy} {access otherAccess : Access}
  {nullable otherNullable : Bool} {type other : BusType} {native otherNative whole : NativeType}

mutual

theorem tokens_of_owned {policy : MapPolicy} : ∀ {type : BusType} {whole : NativeType},
    owned policy type = .ok whole → whole.tokens = type.nativeTokens policy
  | .basic type, whole, h => by
      cases h
      rfl
  | .variant, whole, h => by
      cases h
      rfl
  | .array element, whole, h => by
      obtain ⟨item, hitem, rfl⟩ := owned_array_eq_ok h
      rw [tokens, BusType.nativeTokens, tokens_of_owned hitem]
  | .dict key value, whole, h => by
      obtain ⟨native, hvalue, rfl⟩ := owned_dict_eq_ok h
      rw [tokens, BusType.nativeTokens, tokens_of_owned hvalue]
      rfl
  | .struct first rest, whole, h => by
      obtain ⟨members, hmembers, rfl⟩ := owned_struct_eq_ok h
      cases forall₂_of_mapM_eq_ok hmembers with
      | @cons _ native _ natives hfirst hrest =>
          have hclosing : NativeToken.closing natives = NativeToken.closing rest := by
            cases hrest <;> rfl
          rw [tokens, BusType.nativeTokens, tokens_of_owned hfirst, tokensAll_of_owned hrest,
            hclosing]

theorem tokensAll_of_owned {policy : MapPolicy} : ∀ {types : List BusType}
    {natives : List NativeType},
    List.Forall₂ (fun type native => owned policy type = .ok native) types natives →
      tokensAll natives = BusType.nativeTokensAll policy types
  | [], _, .nil => rfl
  | type :: types, _, .cons hfirst hrest => by
      rw [tokensAll, BusType.nativeTokensAll, tokens_of_owned hfirst, tokensAll_of_owned hrest]

end

theorem tokens_ref_of_owned (h : owned policy type = .ok whole) :
    (ref whole).tokens = .ref :: type.targetTokens policy := by
  cases type with
  | basic type =>
      cases h
      cases type <;> rfl
  | variant =>
      cases h
      rfl
  | array element =>
      obtain ⟨item, hitem, rfl⟩ := owned_array_eq_ok h
      rw [tokens, BusType.targetTokens, tokens_of_owned hitem]
  | dict key value =>
      have htokens := tokens_of_owned h
      obtain ⟨native, -, rfl⟩ := owned_dict_eq_ok h
      exact congrArg _ htokens
  | struct first rest =>
      have htokens := tokens_of_owned h
      obtain ⟨members, -, rfl⟩ := owned_struct_eq_ok h
      exact congrArg _ htokens

/-- A native type owns its values, or is a reference, or an optional reference. -/
theorem tokens_cases (h : ofBusType policy access nullable type = .ok native) :
    native.tokens = type.nativeTokens policy ∨
      native.tokens = .ref :: type.targetTokens policy ∨
      native.tokens = .option :: .ref :: (type.targetTokens policy ++ [.close]) := by
  obtain ⟨whole, howned, hnative⟩ := ofBusType_eq_ok h
  have hplain := tokens_of_owned howned
  have href := tokens_ref_of_owned howned
  have hoption : (option (ref whole)).tokens =
      .option :: .ref :: (type.targetTokens policy ++ [.close]) := by
    rw [tokens, href]
    rfl
  cases access with
  | read => exact .inl (hnative ▸ hplain)
  | write =>
      have hforms : native = whole ∨ native = .ref whole ∨ native = .option (.ref whole) := by
        cases type <;> simp only [borrowed] at hnative <;> first
          | exact .inr (.inl hnative)
          | (split at hnative <;> simp [hnative])
      rcases hforms with rfl | rfl | rfl
      · exact .inl hplain
      · exact .inr (.inl href)
      · exact .inr (.inr hoption)

theorem type_eq_of_tokens_eq (h : ofBusType policy access nullable type = .ok native)
    (hother : ofBusType otherPolicy otherAccess otherNullable other = .ok otherNative)
    (htokens : native.tokens = otherNative.tokens) : type = other := by
  obtain ⟨first, rest, hfirst, href, hoption⟩ := BusType.exists_nativeTokens_cons policy type
  obtain ⟨otherFirst, otherRest, hotherFirst, hotherRef, hotherOption⟩ :=
    BusType.exists_nativeTokens_cons otherPolicy other
  rcases tokens_cases h with hform | hform | hform
  · rcases tokens_cases hother with hotherForm | hotherForm | hotherForm
    · have happend : type.nativeTokens policy ++ [] = other.nativeTokens otherPolicy ++ [] := by
        rw [← hform, ← hotherForm, htokens]
      exact (BusType.nativeTokens_append_inj happend).1
    · rw [hform, hotherForm, hfirst] at htokens
      exact absurd (List.cons.inj htokens).1 href
    · rw [hform, hotherForm, hfirst] at htokens
      exact absurd (List.cons.inj htokens).1 hoption
  · rcases tokens_cases hother with hotherForm | hotherForm | hotherForm
    · rw [hform, hotherForm, hotherFirst] at htokens
      exact absurd (List.cons.inj htokens).1.symm hotherRef
    · rw [hform, hotherForm] at htokens
      have happend : type.targetTokens policy ++ [] = other.targetTokens otherPolicy ++ [] := by
        rw [(List.cons.inj htokens).2]
      exact BusType.eq_of_targetTokens_append happend
    · rw [hform, hotherForm] at htokens
      exact absurd (List.cons.inj htokens).1 NativeToken.noConfusion
  · rcases tokens_cases hother with hotherForm | hotherForm | hotherForm
    · rw [hform, hotherForm, hotherFirst] at htokens
      exact absurd (List.cons.inj htokens).1.symm hotherOption
    · rw [hform, hotherForm] at htokens
      exact absurd (List.cons.inj htokens).1 NativeToken.noConfusion
    · rw [hform, hotherForm] at htokens
      exact BusType.eq_of_targetTokens_append (List.cons.inj (List.cons.inj htokens).2).2

end NativeType

/-- A procedure has a native type for each complete type of its signature, and the one at the
place of the type is the given one.  Readers of several values, which return a tuple, have none
for the single types. -/
def Procedure.Carries (procedure : Procedure) (type : BusType) (native : NativeType) : Prop :=
  ∃ types, BusType.parseAll procedure.signature = .ok types ∧
    types.length = procedure.native.length ∧ (type, native) ∈ types.zip procedure.native

namespace Registry

variable {policy : MapPolicy} {registry : Registry} {access : Access} {type : BusType}
  {native : NativeType} {procedure : Procedure}

theorem ofBusType_of_mem_zip {types : List BusType} {natives : List NativeType}
    {f : BusType → Except Error NativeType}
    (h : List.Forall₂ (fun type native => f type = .ok native) types natives)
    (hmem : (type, native) ∈ types.zip natives) : f type = .ok native :=
  List.forall₂_iff_zip.mp h |>.2 hmem

/-- What a registered procedure has for a type is what stands for the type. -/
theorem Closed.ofBusType_of_carries (h : Closed policy registry) {name : String}
    (hget : registry.get? access name = some procedure) (hcarries : procedure.Carries type native) :
    NativeType.ofBusType policy access (access == .write) type = .ok native := by
  obtain ⟨types, hparse, hlength, hmem⟩ := hcarries
  rcases h _ _ _ hget with
    ⟨own, hlimits, hhandles, -⟩ | ⟨signature, variant, own, hhandles, -⟩
  · obtain ⟨single, hsingle, hnative⟩ := hhandles.native_eq
    rw [hhandles.signature_eq, BusType.parse_eq_ok_iff_parseAll.mp (BusType.parse_signature hlimits)]
      at hparse
    cases hparse
    rw [hnative] at hmem
    exact ofBusType_of_mem_zip (.cons hsingle .nil) hmem
  · obtain ⟨natives, hnatives, hnative⟩ := hhandles.native_eq
    rw [hhandles.signature_eq, (Generator.entryTypes_eq_ok_iff.mp hhandles.types_eq).1] at hparse
    cases hparse
    have hall := NativeType.forall₂_of_mapM_eq_ok hnatives
    refine ofBusType_of_mem_zip ?_ hmem
    cases access with
    | write =>
        rw [hnative]
        exact hall
    | read =>
        -- A reader returns one value, so there is one type.
        match types, natives, hall with
        | [], _, .nil => cases hmem
        | [_], [_], hall =>
            rw [hnative]
            exact hall
        | _ :: _ :: _, _ :: _ :: _, _ =>
            rw [hnative] at hlength
            cases hlength

end Registry

namespace Generator

/-- The text of a native type determines the type that it stands for, and so the signature of
the type, for readers and for writers, whether or not input may be absent and whatever the
policy.  In generated code, no two types share the text of a result or of a parameter. -/
theorem type_eq_of_text_eq :
    (∀ policy otherPolicy access otherAccess nullable otherNullable type other native otherNative,
      NativeType.ofBusType policy access nullable type = .ok native →
        NativeType.ofBusType otherPolicy otherAccess otherNullable other = .ok otherNative →
          native.text = otherNative.text → type.signature = other.signature ∧ type = other) ∧
      ∀ generator otherGenerator : Generator,
        generator.Reachable → otherGenerator.Reachable →
          ∀ access otherAccess name otherName procedure otherProcedure,
            generator.registry.get? access name = some procedure →
              otherGenerator.registry.get? otherAccess otherName = some otherProcedure →
                ∀ type other native otherNative, procedure.Carries type native →
                  otherProcedure.Carries other otherNative →
                    native.text = otherNative.text → type = other := by
  constructor
  · intro policy otherPolicy access otherAccess nullable otherNullable type other native
      otherNative hnative hother htext
    have htype := NativeType.type_eq_of_tokens_eq hnative hother
      (NativeType.tokens_eq_of_text_eq htext)
    exact ⟨congrArg BusType.signature htype, htype⟩
  · intro generator otherGenerator hreachable hotherReachable access otherAccess name otherName
      procedure otherProcedure hget hotherGet type other native otherNative hcarries hother htext
    have hnative := Registry.Closed.ofBusType_of_carries hreachable.sound hget hcarries
    have hotherNative := Registry.Closed.ofBusType_of_carries hotherReachable.sound hotherGet hother
    exact NativeType.type_eq_of_tokens_eq hnative hotherNative
      (NativeType.tokens_eq_of_text_eq htext)

/-- The writer of a dictionary of tuples takes an optional reference.  The readers of the
dictionary, and of a message that holds one, return the same native type. -/
theorem type_eq_of_text_eq_dictionary :
    let native := NativeType.map .hashed (.basic .string) (.tuple [.basic .int32])
    let reached := (performAll {} [.entry .read "a\x7bs(i)\x7d" false]).2
    (∃ type other,
      NativeType.ofBusType (fun _ => .hashed) .write true type = .ok (.option (.ref native)) ∧
        NativeType.ofBusType (fun _ => .hashed) .write true other =
          .ok (.option (.ref native)) ∧
        type.signature = other.signature) ∧
      ∃ entry reader type other,
        reached.registry.get? .read "read_message_aesrizz" = some entry ∧
          reached.registry.get? .read "read_dictionary_aesrizz" = some reader ∧
          entry.Carries type native ∧ reader.Carries other native ∧ type = other := by
  have hentry : (performAll {} [.entry .read "a\x7bs(i)\x7d" false]).2.registry.get? .read
      "read_message_aesrizz" = some ⟨"read_message_aesrizz", .read, .message, "a\x7bs(i)\x7d",
        [.map .hashed (.basic .string) (.tuple [.basic .int32])],
        .message none [.procedure "read_dictionary_aesrizz" .dictionary]⟩ := by
    rfl
  have hreader : (performAll {} [.entry .read "a\x7bs(i)\x7d" false]).2.registry.get? .read
      "read_dictionary_aesrizz" = some ⟨"read_dictionary_aesrizz", .read, .dictionary,
        "a\x7bs(i)\x7d", [.map .hashed (.basic .string) (.tuple [.basic .int32])],
        .dictionary (.primitive .string) (.procedure "read_struct_riz" .struct)⟩ := by
    rfl
  intro native reached
  have hparse : BusType.parseAll "a\x7bs(i)\x7d" =
      .ok [.dict .string (.struct (.basic .int32) [])] := rfl
  have hcarries : ∀ name construct body, Procedure.Carries
      ⟨name, .read, construct, "a\x7bs(i)\x7d", [native], body⟩
      (.dict .string (.struct (.basic .int32) [])) native :=
    fun _ _ _ => ⟨_, hparse, rfl, List.mem_cons_self⟩
  have hnative : NativeType.ofBusType (fun _ => .hashed) .write true
      (.dict .string (.struct (.basic .int32) [])) = .ok (.option (.ref native)) := rfl
  have hreachable : reached.Reachable := ⟨fun _ => .hashed, _, rfl⟩
  refine ⟨⟨_, _, hnative, hnative, ?_⟩,
    ⟨_, _, _, _, hentry, hreader, hcarries _ _ _, hcarries _ _ _, ?_⟩⟩
  · exact (type_eq_of_text_eq.1 _ _ _ _ _ _ _ _ _ _ hnative hnative rfl).1
  · exact type_eq_of_text_eq.2 _ _ hreachable hreachable _ _ _ _ _ _ hentry hreader _ _ _ _
      (hcarries _ _ _) (hcarries _ _ _) rfl

end Generator

end BusCodec
