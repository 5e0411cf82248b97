import BusCodec.Interface.Basic
import BusCodec.Json.Parser

/-!
Interface descriptions as JSON.  Sections and the names and directions of
arguments may be left out, and members that are not known are ignored.
-/

namespace BusCodec

namespace Direction

def word : Direction → String
  | input => "in"
  | output => "out"

def ofWord? : String → Option Direction
  | "in" => some input
  | "out" => some output
  | _ => none

/-- The direction that a choice names. -/
def ofJson? (json : Json) : Option Direction := do
  ofWord? (← json.choice?)

end Direction

namespace PropertyAccess

def word : PropertyAccess → String
  | read => "read"
  | write => "write"
  | readWrite => "readwrite"

def ofWord? : String → Option PropertyAccess
  | "read" => some read
  | "write" => some write
  | "readwrite" => some readWrite
  | _ => none

/-- The access that a choice names. -/
def ofJson? (json : Json) : Option PropertyAccess := do
  ofWord? (← json.choice?)

end PropertyAccess

namespace Json

/-- The items of a section, which is empty when it is left out. -/
def section? {α : Type} (read : Json → Option α) : Option Json → Option (List α)
  | none => some []
  | some json => json.listOf? read

end Json

namespace Argument

def ofJson? (json : Json) : Option Argument := do
  match ← json.record? ["name", "type", "direction"] with
  | [name, some type, direction] =>
      return ⟨← Json.nullable? Json.text? name, ← type.text?,
        ← Json.nullable? Direction.ofJson? direction⟩
  | _ => none

def toJson (argument : Argument) : Json :=
  .ofMembers
    [("name", argument.name.elim .null .ofText),
      ("type", .ofText argument.signature),
      ("direction", argument.direction.elim .null fun d => .ofText d.word)]

end Argument

namespace Method

def ofJson? (json : Json) : Option Method := do
  match ← json.record? ["name", "args"] with
  | [some name, arguments] =>
      return ⟨← name.text?, ← Json.section? Argument.ofJson? arguments⟩
  | _ => none

def toJson (method : Method) : Json :=
  .ofMembers
    [("name", .ofText method.name), ("args", .array (method.arguments.map Argument.toJson))]

end Method

namespace Signal

def ofJson? (json : Json) : Option Signal := do
  match ← json.record? ["name", "args"] with
  | [some name, arguments] =>
      return ⟨← name.text?, ← Json.section? Argument.ofJson? arguments⟩
  | _ => none

def toJson (signal : Signal) : Json :=
  .ofMembers
    [("name", .ofText signal.name), ("args", .array (signal.arguments.map Argument.toJson))]

end Signal

namespace Property

def ofJson? (json : Json) : Option Property := do
  match ← json.record? ["name", "type", "access"] with
  | [some name, some type, some access] =>
      return ⟨← name.text?, ← type.text?, ← PropertyAccess.ofJson? access⟩
  | _ => none

def toJson (property : Property) : Json :=
  .ofMembers
    [("name", .ofText property.name), ("type", .ofText property.signature),
      ("access", .ofText property.access.word)]

end Property

namespace Interface

def ofJson? (json : Json) : Option Interface := do
  match ← json.record? ["name", "methods", "signals", "properties"] with
  | [some name, methods, signals, properties] =>
      return ⟨← name.text?, ← Json.section? Method.ofJson? methods,
        ← Json.section? Signal.ofJson? signals, ← Json.section? Property.ofJson? properties⟩
  | _ => none

def toJson (interface : Interface) : Json :=
  .ofMembers
    [("name", .ofText interface.name),
      ("methods", .array (interface.methods.map Method.toJson)),
      ("signals", .array (interface.signals.map Signal.toJson)),
      ("properties", .array (interface.properties.map Property.toJson))]

def listOfJson? (json : Json) : Option (List Interface) :=
  json.listOf? ofJson?

def parseList? (text : String) : Option (List Interface) := do
  listOfJson? (← Json.parse? text)

end Interface

end BusCodec
