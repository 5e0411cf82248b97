/-!
JSON documents.
-/

namespace BusCodec

/-- A JSON value.  A string that spells half of a surrogate pair stands for no
text, and a number is kept as it is spelled. -/
inductive Json
  | null
  | boolean (value : Bool)
  | number (literal : String)
  | string (text : Option String)
  | array (items : List Json)
  | object (members : List (Option String × Json))
  deriving Repr, Inhabited

namespace Json

def ofText (text : String) : Json :=
  .string (some text)

/-- An object of the given names and values. -/
def ofMembers (members : List (String × Json)) : Json :=
  .object (members.map fun (name, value) => (some name, value))

def text? : Json → Option String
  | .string text => text
  | _ => none

/-- The items of an array, each of them read. -/
def listOf? {α : Type} (read : Json → Option α) : Json → Option (List α)
  | .array items => items.mapM read
  | _ => none

/-- What a reader makes of a value that may be missing or null. -/
def nullable? {α : Type} (read : Json → Option α) : Option Json → Option (Option α)
  | none | some .null => some none
  | some value => (read value).map some

/-- The name of a choice, which is given as a string, or as an object with the
name as its one member and null as the value. -/
def choice? : Json → Option String
  | .string text => text
  | .object [(name, .null)] => name
  | _ => none

def member? (name : String) : List (Option String × Json) → Option Json
  | [] => none
  | (other, value) :: rest => if other = some name then some value else member? name rest

/-- The values of a record with the given fields, in the order of the fields.  A
record is given as an object or, by position, as an array.  Fields may be
missing, but an object cannot have one of them twice, and an array cannot have
more values than there are fields. -/
def record? (fields : List String) : Json → Option (List (Option Json))
  | .object members =>
      if members.all (fun member => member.1.isSome) &&
          fields.all (fun field => members.countP (fun member => member.1 == some field) ≤ 1)
      then some (fields.map fun field => member? field members)
      else none
  | .array items =>
      if items.length ≤ fields.length then
        some (items.map some ++ List.replicate (fields.length - items.length) none)
      else none
  | _ => none

end Json

end BusCodec
