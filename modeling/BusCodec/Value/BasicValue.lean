import BusCodec.Signature.BasicType

/-!
Values of the basic types, and those of them that can be dictionary keys.
-/

namespace BusCodec

/-- A value of a basic type.  A double is given by its 64 bits, so that every
bit pattern is kept.  Texts are not checked here: the wire format refuses the
ones that are no object path or no signature. -/
inductive BasicValue
  | byte (value : UInt8)
  | boolean (value : Bool)
  | int16 (value : Int16)
  | uint16 (value : UInt16)
  | int32 (value : Int32)
  | uint32 (value : UInt32)
  | int64 (value : Int64)
  | uint64 (value : UInt64)
  | double (bits : UInt64)
  | string (text : String)
  | objectPath (text : String)
  | signature (text : String)
  | unixFd (index : UInt32)
  deriving DecidableEq, Inhabited

namespace BasicValue

def type : BasicValue → BasicType
  | byte _ => .byte
  | boolean _ => .boolean
  | int16 _ => .int16
  | uint16 _ => .uint16
  | int32 _ => .int32
  | uint32 _ => .uint32
  | int64 _ => .int64
  | uint64 _ => .uint64
  | double _ => .double
  | string _ => .string
  | objectPath _ => .objectPath
  | signature _ => .signature
  | unixFd _ => .unixFd

/-- The number that a value is ordered by among values of its type.  Doubles and
texts have none. -/
def number : BasicValue → Int
  | byte value => value.toNat
  | boolean value => if value then 1 else 0
  | int16 value => value.toInt
  | uint16 value => value.toNat
  | int32 value => value.toInt
  | uint32 value => value.toNat
  | int64 value => value.toInt
  | uint64 value => value.toNat
  | double _ => 0
  | string _ | objectPath _ | signature _ => 0
  | unixFd index => index.toNat

/-- The text that a value is ordered by among values of its type. -/
def text : BasicValue → String
  | string text | objectPath text | signature text => text
  | _ => ""

end BasicValue

/-- A basic value that can be a dictionary key.  Doubles cannot, as they have no
total equality. -/
structure Key where
  value : BasicValue
  notDouble : value.type ≠ .double
  deriving DecidableEq

namespace Key

/-- Keys are ordered by type, then by number, then by text. -/
def compare (a b : Key) : Ordering :=
  (Ord.compare a.value.type.rank b.value.type.rank).then
    ((Ord.compare a.value.number b.value.number).then
      (Ord.compare a.value.text b.value.text))

def ofBasic? (value : BasicValue) : Option Key :=
  if h : value.type ≠ .double then some ⟨value, h⟩ else none

/-- Puts a key into an ascending sequence of keys, unless it is there. -/
def insertSorted (key : Key) : List Key → List Key
  | [] => [key]
  | first :: rest =>
      match key.compare first with
      | .lt => key :: first :: rest
      | .eq => first :: rest
      | .gt => first :: insertSorted key rest

/-- The distinct keys of a sequence, in ascending order. -/
def sorted (keys : List Key) : List Key :=
  keys.foldr insertSorted []

end Key

end BusCodec
