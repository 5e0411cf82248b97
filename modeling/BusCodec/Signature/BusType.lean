import BusCodec.Signature.BasicType

/-!
Complete types and their signature text.  The text is computed from the type,
so a type and its signature cannot disagree.
-/

namespace BusCodec

/-- A complete type.  A dictionary is keyed by a basic type, and a struct has at
least one member. -/
inductive BusType
  | basic (type : BasicType)
  | variant
  | array (element : BusType)
  | dict (key : BasicType) (value : BusType)
  | struct (first : BusType) (rest : List BusType)
  deriving Repr, Inhabited

namespace BusType

mutual

/-- The letters of a type's signature. -/
def codes : BusType → List Char
  | .basic type => [type.code]
  | .variant => ['v']
  | .array element => 'a' :: codes element
  | .dict key value => 'a' :: '{' :: key.code :: (codes value ++ ['}'])
  | .struct first rest => '(' :: (codes first ++ (codesAll rest ++ [')']))
termination_by structural type => type

def codesAll : List BusType → List Char
  | [] => []
  | type :: types => codes type ++ codesAll types
termination_by structural types => types

end

def signature (type : BusType) : String :=
  String.ofList type.codes

def signatureAll (types : List BusType) : String :=
  String.ofList (codesAll types)

/-- The types that a type is built from, in the order of its signature. -/
def children : BusType → List BusType
  | .basic _ | .variant => []
  | .array element => [element]
  | .dict key value => [.basic key, value]
  | .struct first rest => first :: rest

/-- How elements of the type are laid out in an array region.  A dictionary is
an array of entries. -/
def wireKind : BusType → WireKind
  | .basic type => .basic type
  | .variant => .variant
  | .array _ | .dict _ _ => .array
  | .struct _ _ => .struct

def basic? : BusType → Option BasicType
  | .basic type => some type
  | _ => none

mutual

/-- How many arrays are nested in one another.  A dictionary counts as one
array. -/
def arrayDepth : BusType → Nat
  | .basic _ | .variant => 0
  | .array element => arrayDepth element + 1
  | .dict _ value => arrayDepth value + 1
  | .struct first rest => max (arrayDepth first) (arrayDepthAll rest)
termination_by structural type => type

def arrayDepthAll : List BusType → Nat
  | [] => 0
  | type :: types => max (arrayDepth type) (arrayDepthAll types)
termination_by structural types => types

end

mutual

/-- How many pairs of brackets, round or curly, are nested in one another. -/
def bracketDepth : BusType → Nat
  | .basic _ | .variant => 0
  | .array element => bracketDepth element
  | .dict _ value => bracketDepth value + 1
  | .struct first rest => max (bracketDepth first) (bracketDepthAll rest) + 1
termination_by structural type => type

def bracketDepthAll : List BusType → Nat
  | [] => 0
  | type :: types => max (bracketDepth type) (bracketDepthAll types)
termination_by structural types => types

end

theorem codesAll_append (types more : List BusType) :
    codesAll (types ++ more) = codesAll types ++ codesAll more := by
  induction types with
  | nil => rfl
  | cons type types ih => simp [codesAll, ih]

theorem codes_ne_nil (type : BusType) : type.codes ≠ [] := by
  cases type <;> simp [codes]

end BusType

end BusCodec
