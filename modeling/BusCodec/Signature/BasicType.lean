/-!
The thirteen basic types of the bus: their one-letter codes, their alignments
on the wire, and the alignment classes that array regions are opened with.
-/

namespace BusCodec

/-- A type without component types. -/
inductive BasicType
  | byte
  | boolean
  | int16
  | uint16
  | int32
  | uint32
  | int64
  | uint64
  | double
  | string
  | objectPath
  | signature
  | unixFd
  deriving DecidableEq, Repr, Inhabited

namespace BasicType

/-- Every basic type, in the order in which the bus numbers them. -/
def all : List BasicType :=
  [byte, boolean, int16, uint16, int32, uint32, int64, uint64, double, string,
    objectPath, signature, unixFd]

/-- The letter that stands for the type in a signature. -/
def code : BasicType → Char
  | byte => 'y'
  | boolean => 'b'
  | int16 => 'n'
  | uint16 => 'q'
  | int32 => 'i'
  | uint32 => 'u'
  | int64 => 'x'
  | uint64 => 't'
  | double => 'd'
  | string => 's'
  | objectPath => 'o'
  | signature => 'g'
  | unixFd => 'h'

/-- The type that a letter stands for, if it stands for a basic type. -/
def ofCode? (letter : Char) : Option BasicType :=
  all.find? fun b => b.code == letter

def signatureText (b : BasicType) : String :=
  String.singleton b.code

def name : BasicType → String
  | byte => "Byte"
  | boolean => "Bool"
  | int16 => "Int16"
  | uint16 => "UInt16"
  | int32 => "Int32"
  | uint32 => "UInt32"
  | int64 => "Int64"
  | uint64 => "UInt64"
  | double => "Double"
  | string => "String"
  | objectPath => "ObjectPath"
  | signature => "Signature"
  | unixFd => "UnixFd"

/-- The place of the type in `all`. -/
def rank : BasicType → Nat
  | byte => 0
  | boolean => 1
  | int16 => 2
  | uint16 => 3
  | int32 => 4
  | uint32 => 5
  | int64 => 6
  | uint64 => 7
  | double => 8
  | string => 9
  | objectPath => 10
  | signature => 11
  | unixFd => 12

/-- Values of every type but the three text types are passed by copy. -/
def isCopy : BasicType → Bool
  | string | objectPath | signature => false
  | _ => true

/-- The byte boundary at which a value of the type starts.  Texts start at the
boundary of their length field. -/
def alignment : BasicType → Nat
  | byte | signature => 1
  | int16 | uint16 => 2
  | boolean | int32 | uint32 | string | objectPath | unixFd => 4
  | int64 | uint64 | double => 8

theorem ofCode?_code (b : BasicType) : ofCode? b.code = some b := by
  cases b <;> rfl

theorem code_of_ofCode? {letter : Char} {b : BasicType}
    (h : ofCode? letter = some b) : b.code = letter := by
  have hfound := List.find?_some h
  simpa using hfound

theorem code_injective {b c : BasicType} (h : b.code = c.code) : b = c := by
  have hb := ofCode?_code b
  rw [h, ofCode?_code c] at hb
  exact (Option.some.inj hb).symm

end BasicType

/-- What the wire format needs to know about the element type of an array: the
basic type, or which kind of container it is. -/
inductive WireKind
  | basic (type : BasicType)
  | array
  | struct
  | variant
  deriving DecidableEq, Repr, Inhabited

namespace WireKind

/-- The byte boundary at which elements of the kind start. -/
def alignment : WireKind → Nat
  | basic type => type.alignment
  | array => 4
  | struct => 8
  | variant => 1

def name : WireKind → String
  | basic type => type.name
  | array => "Array"
  | struct => "Struct"
  | variant => "Variant"

theorem alignment_pos (kind : WireKind) : 0 < kind.alignment := by
  rcases kind with b | _ | _ | _
  · cases b <;> decide
  all_goals decide

theorem alignment_dvd_eight (kind : WireKind) : kind.alignment ∣ 8 := by
  rcases kind with b | _ | _ | _
  · cases b <;> decide
  all_goals decide

end WireKind

end BusCodec
