import BusCodec.Attempt
import BusCodec.Procedure.Registry
import BusCodec.Signature.Parser

/-!
Generating procedures.  Asking for a signature registers the procedure for it
and for everything nested in it, unless they are registered already.
-/

namespace BusCodec

/-- A generator: the choice of map types, and what has been generated. -/
structure Generator where
  policy : MapPolicy := fun _ => .hashed
  registry : Registry := {}

/-- A computation that generates procedures. -/
abbrev Generate (α : Type) : Type :=
  Attempt Generator α

namespace Generator

def register (procedure : Procedure) : Generate Unit :=
  Attempt.update fun generator =>
    { generator with registry := generator.registry.insert procedure }

def isRegistered (access : Access) (name : String) : Generate Bool := do
  return (← Attempt.state).registry.contains access name

/-- The native type that a procedure returns or takes for a bus type. -/
def native (access : Access) (type : BusType) : Generate NativeType := do
  let policy := (← Attempt.state).policy
  Attempt.lift (NativeType.ofBusType policy access (access == .write) type)

/-- Registers the procedure for a container, unless there is one, and calls it.
The body is generated only after the type has been found to have a native one. -/
def container (access : Access) (construct : Construct) (type : BusType)
    (body : Generate Body) : Generate Callee := do
  let name := procedureName access construct type.signature
  if ← isRegistered access name then return .procedure name construct
  let native ← native access type
  let body ← body
  register ⟨name, access, construct, type.signature, [native], body⟩
  return .procedure name construct

mutual

/-- What to call for a value of a type. -/
def callee (access : Access) : BusType → Generate Callee
  | .basic type => return .primitive type
  | .variant => return .variant
  | .array element => container access .array (.array element) do
      return .array element.wireKind (← callee access element)
  | .dict key value => container access .dictionary (.dict key value) do
      return .dictionary (.primitive key) (← callee access value)
  | .struct first rest => container access .struct (.struct first rest) do
      let first ← callee access first
      let rest ← callees access rest
      return .struct (first :: rest)
termination_by structural type => type

def callees (access : Access) : List BusType → Generate (List Callee)
  | [] => return []
  | type :: types => do
      let first ← callee access type
      let rest ← callees access types
      return first :: rest
termination_by structural types => types

end

def natives (access : Access) : List BusType → Generate (List NativeType)
  | [] => return []
  | type :: types => do
      let first ← native access type
      let rest ← natives access types
      return first :: rest

/-- The native types of an entry procedure.  A reader returns one value, which is
a tuple unless there is exactly one type. -/
def entryNative (access : Access) (natives : List NativeType) : List NativeType :=
  match access, natives with
  | .read, [native] => [native]
  | .read, natives => [.tuple natives]
  | .write, natives => natives

/-- The types of a message body, and how it is handled.  A variant holds exactly
one type. -/
def entryTypes (signature : String) (variant : Bool) :
    Except GrammarError (Construct × List BusType) := do
  let types ← BusType.parseAll signature
  match types, variant with
  | [], _ => throw .empty
  | first :: _ :: _, true => throw (.trailing first.signature.utf8ByteSize)
  | types, true => return (.variantMessage, types)
  | types, false => return (.message, types)

/-- The name of the procedure that handles a whole message body of the given
signature, which is registered unless it is there.  As a variant, the body is a
variant that holds exactly that type. -/
def entry (access : Access) (signature : String) (variant : Bool) :
    Generate String := do
  let (construct, types) ← Attempt.liftGrammar (entryTypes signature variant)
  let name := procedureName access construct signature
  if ← isRegistered access name then return name
  let natives ← natives access types
  let values ← callees access types
  let expected := if variant then some signature else none
  register ⟨name, access, construct, signature, entryNative access natives,
    .message expected values⟩
  return name

end Generator

end BusCodec
