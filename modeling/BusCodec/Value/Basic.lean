import BusCodec.Signature.BusType
import BusCodec.Value.BasicValue
import BusCodec.Error

/-!
Values that carry their own types, as variants hold them.  An array and a
dictionary name their signature, which nothing forces to be the right one; the
wire format checks it when the value is written.
-/

namespace BusCodec

/-- A value of any type.  A dictionary lists its entries in the order in which
they were first inserted. -/
inductive Value
  | basic (value : BasicValue)
  | variant (inner : Value)
  | array (signature : String) (items : List Value)
  | dict (signature : String) (entries : List (Key × Value))
  | struct (members : List Value)
  deriving Inhabited

abbrev Entries : Type := List (Key × Value)

namespace Entries

/-- Sets the value of a key.  A key that is there keeps its place and gets the
new value. -/
def insert (key : Key) (value : Value) : Entries → Entries
  | [] => [(key, value)]
  | (other, old) :: rest =>
      if other = key then (key, value) :: rest else (other, old) :: insert key value rest

/-- The dictionary that a sequence of entries builds, where a later entry
replaces an earlier one of the same key. -/
def ofList (entries : List (Key × Value)) : Entries :=
  entries.foldl (fun dict entry => insert entry.1 entry.2 dict) []

end Entries

namespace Value

def arrayOf (element : String) (items : List Value) : Value :=
  .array ("a" ++ element) items

/-- A dictionary of the given key and value signatures. -/
def dictOf (key value : String) (entries : List (Key × Value)) : Value :=
  .dict ("a\x7b" ++ key ++ value ++ "\x7d") (Entries.ofList entries)

mutual

/-- The signature of a value: the one that it names, or the one that its
constructors give. -/
def signature : Value → String
  | .basic value => value.type.signatureText
  | .variant _ => "v"
  | .array signature _ => signature
  | .dict signature _ => signature
  | .struct members => "(" ++ signatureAll members ++ ")"
termination_by structural value => value

def signatureAll : List Value → String
  | [] => ""
  | value :: values => signature value ++ signatureAll values
termination_by structural values => values

end

def basicType? : Value → Option BasicType
  | .basic value => some value.type
  | _ => none

def toKey : Value → Except Error Key
  | .basic value =>
      match Key.ofBasic? value with
      | some key => .ok key
      | none => .error .doubleEntryKey
  | value => .error (.valueShape "basic type" value.signature)

/-- A value used as the one of the expected signature must have it. -/
def checkShape (expected : String) (value : Value) : Except Error Unit :=
  if value.signature = expected then .ok ()
  else .error (.valueShape expected value.signature)

mutual

/-- The number of containers on the longest path into a value. -/
def height : Value → Nat
  | .basic _ => 0
  | .variant inner => height inner + 1
  | .array _ items => heightAll items + 1
  | .dict _ entries => heightEntries entries + 1
  | .struct members => heightAll members + 1
termination_by structural value => value

def heightAll : List Value → Nat
  | [] => 0
  | value :: values => max (height value) (heightAll values)
termination_by structural values => values

def heightEntries : List (Key × Value) → Nat
  | [] => 0
  | (_, value) :: entries => max (height value) (heightEntries entries)
termination_by structural entries => entries

end

end Value

end BusCodec
