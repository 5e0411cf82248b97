import BusCodec.Procedure.NativeType

/-!
Procedures that read or write values of one signature.  A procedure handles one
level of a type and calls other procedures, by name, for what is nested in it.
-/

namespace BusCodec

namespace Access

def word : Access → String
  | read => "read"
  | write => "write"

end Access

/-- What a procedure handles. -/
inductive Construct
  | array
  | dictionary
  | struct
  /-- A message body of one value or more. -/
  | message
  /-- A message body that is a variant of a known type. -/
  | variantMessage
  deriving DecidableEq, Repr, Inhabited

namespace Construct

def word : Construct → String
  | array => "array"
  | dictionary => "dictionary"
  | struct => "struct"
  | message => "message"
  | variantMessage => "message_v"

end Construct

/-- The letter that stands for a letter of a signature in a name.  Brackets
cannot be part of a name.  The letters that replace them are no type codes, and
a closing bracket is known from the one that it closes. -/
def nameLetter : Char → Char
  | '(' => 'r'
  | '{' => 'e'
  | ')' | '}' => 'z'
  | letter => letter

def nameOfSignature (signature : String) : String :=
  String.ofList (signature.toList.map nameLetter)

def procedureName (access : Access) (construct : Construct) (signature : String) : String :=
  access.word ++ "_" ++ construct.word ++ "_" ++ nameOfSignature signature

/-- What a procedure calls for a value nested in its own. -/
inductive Callee
  /-- The reader or writer of a basic type. -/
  | primitive (type : BasicType)
  /-- The reader or writer of variants. -/
  | variant
  /-- Another procedure of the same access. -/
  | procedure (name : String) (construct : Construct)
  deriving DecidableEq, Repr, Inhabited

/-- What a procedure does. -/
inductive Body
  | array (element : WireKind) (item : Callee)
  | dictionary (key value : Callee)
  | struct (members : List Callee)
  /-- A message body.  If it is a variant, it names the signature that the
  variant must have. -/
  | message (variant : Option String) (values : List Callee)
  deriving DecidableEq, Repr, Inhabited

/-- A procedure.  A reader has one native type, that of its result.  A writer has
one for each value it takes. -/
structure Procedure where
  name : String
  access : Access
  construct : Construct
  signature : String
  native : List NativeType
  body : Body
  deriving Repr, Inhabited

namespace Procedure

/-- The signature in the header of a message that the procedure handles. -/
def bodySignature (procedure : Procedure) : String :=
  match procedure.body with
  | .message (some _) _ => "v"
  | _ => procedure.signature

/-- Whether the procedure handles whole message bodies. -/
def isEntry (procedure : Procedure) : Bool :=
  match procedure.body with
  | .message _ _ => true
  | _ => false

end Procedure

end BusCodec
