import BusCodec.Signature.Parser
import BusCodec.Procedure.Basic

/-!
Interface descriptions: what an object on the bus offers, and which procedures
each member of an interface asks for.
-/

namespace BusCodec

/-- Which way an argument of a method goes. -/
inductive Direction
  | input
  | output
  deriving DecidableEq, Repr, Inhabited

structure Argument where
  name : Option String
  signature : String
  direction : Option Direction
  deriving DecidableEq, Repr, Inhabited

structure Method where
  name : String
  arguments : List Argument
  deriving DecidableEq, Repr, Inhabited

structure Signal where
  name : String
  arguments : List Argument
  deriving DecidableEq, Repr, Inhabited

/-- What may be done with a property. -/
inductive PropertyAccess
  | read
  | write
  | readWrite
  deriving DecidableEq, Repr, Inhabited

structure Property where
  name : String
  signature : String
  access : PropertyAccess
  deriving DecidableEq, Repr, Inhabited

structure Interface where
  name : String
  methods : List Method
  signals : List Signal
  properties : List Property
  deriving DecidableEq, Repr, Inhabited

inductive Member
  | method (method : Method)
  | signal (signal : Signal)
  | property (property : Property)
  deriving DecidableEq, Repr, Inhabited

/-- A wish for an entry procedure: its access, the signature of its values, and
whether they travel inside a variant. -/
structure Request where
  access : Access
  signature : String
  variant : Bool
  deriving DecidableEq, Repr, Inhabited

namespace Argument

/-- Whether the argument is an output.  Arguments without a direction are
inputs. -/
def isOutput (argument : Argument) : Bool :=
  argument.direction == some .output

/-- The signature of a message body that holds the arguments.  Each of them must
be one complete type by itself. -/
def bodySignature : List Argument → Except GrammarError String
  | [] => .ok ""
  | argument :: arguments => do
      let _ ← BusType.parse argument.signature
      let rest ← bodySignature arguments
      return argument.signature ++ rest

end Argument

namespace Request

/-- The request for a message body, unless it is empty. -/
def forBody (access : Access) (signature : String) : List Request :=
  if signature = "" then [] else [⟨access, signature, false⟩]

end Request

namespace Method

/-- A caller writes the inputs of a method and reads its outputs. -/
def requests (method : Method) : Except GrammarError (List Request) := do
  let inputs ← Argument.bodySignature (method.arguments.filter fun a => !a.isOutput)
  let outputs ← Argument.bodySignature (method.arguments.filter Argument.isOutput)
  return Request.forBody .write inputs ++ Request.forBody .read outputs

end Method

namespace Signal

/-- The arguments of a signal are read. -/
def requests (signal : Signal) : Except GrammarError (List Request) := do
  return Request.forBody .read (← Argument.bodySignature signal.arguments)

end Signal

namespace Property

/-- The value of a property travels in a variant, one way or both. -/
def requests (property : Property) : List Request :=
  let reading := ⟨.read, property.signature, true⟩
  let writing := ⟨.write, property.signature, true⟩
  match property.access with
  | .read => [reading]
  | .write => [writing]
  | .readWrite => [reading, writing]

end Property

namespace Member

def name : Member → String
  | method m => m.name
  | signal s => s.name
  | property p => p.name

/-- The entry procedures that a member needs, in the order in which they are
generated. -/
def requests : Member → Except GrammarError (List Request)
  | method m => m.requests
  | signal s => s.requests
  | property p => .ok p.requests

end Member

namespace Interface

/-- The methods, then the signals, then the properties. -/
def members (interface : Interface) : List Member :=
  interface.methods.map .method ++ interface.signals.map .signal ++
    interface.properties.map .property

end Interface

end BusCodec
