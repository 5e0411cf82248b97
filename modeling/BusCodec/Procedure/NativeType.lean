import BusCodec.Signature.BusType
import BusCodec.Error

/-!
The types of the generated code, and which of them stands for which bus type.
-/

namespace BusCodec

/-- Whether a procedure reads values or writes them. -/
inductive Access
  | read
  | write
  deriving DecidableEq, Repr, Inhabited

/-- The two map types that a dictionary can be kept in. -/
inductive MapStyle
  | hashed
  | ordered
  deriving DecidableEq, Repr, Inhabited

/-- The map type that is wanted for a dictionary of a given signature. -/
abbrev MapPolicy : Type :=
  String → MapStyle

namespace MapStyle

def name : MapStyle → String
  | hashed => "HashMap"
  | ordered => "BTreeMap"

end MapStyle

/-- A type of the generated code. -/
inductive NativeType
  | basic (type : BasicType)
  | anyValue
  | vec (item : NativeType)
  | map (style : MapStyle) (key value : NativeType)
  | tuple (members : List NativeType)
  | ref (target : NativeType)
  | option (inner : NativeType)
  deriving Repr, Inhabited

namespace NativeType

def basicName : BasicType → String
  | .byte => "u8"
  | .boolean => "bool"
  | .int16 => "i16"
  | .uint16 => "u16"
  | .int32 => "i32"
  | .uint32 => "u32"
  | .int64 => "i64"
  | .uint64 => "u64"
  | .double => "f64"
  | .string => "String"
  | .objectPath => "ObjectPath"
  | .signature => "Signature"
  | .unixFd => "UnixFd"

mutual

/-- The text of a type.  Strings and vectors are borrowed as slices, and a
tuple of one member ends in a comma. -/
def text : NativeType → String
  | .basic type => basicName type
  | .anyValue => "Value"
  | .vec item => "Vec<" ++ text item ++ ">"
  | .map style key value => style.name ++ "<" ++ text key ++ ", " ++ text value ++ ">"
  | .tuple [] => "()"
  | .tuple [member] => "(" ++ text member ++ ",)"
  | .tuple (first :: rest) => "(" ++ text first ++ textAll rest ++ ")"
  | .ref (.basic .string) => "&str"
  | .ref (.vec item) => "&[" ++ text item ++ "]"
  | .ref target => "&" ++ text target
  | .option inner => "Option<" ++ text inner ++ ">"
termination_by structural type => type

/-- The texts of the members of a tuple after its first, each behind a comma. -/
def textAll : List NativeType → String
  | [] => ""
  | member :: members => ", " ++ text member ++ textAll members
termination_by structural members => members

end

mutual

/-- Whether a map of the given style occurs in a type. -/
def usesMap (style : MapStyle) : NativeType → Bool
  | .basic _ | .anyValue => false
  | .vec item => usesMap style item
  | .map own key value => own == style || usesMap style key || usesMap style value
  | .tuple members => usesMapAny style members
  | .ref target => usesMap style target
  | .option inner => usesMap style inner
termination_by structural type => type

/-- Whether a map of the given style occurs in one of a sequence of types. -/
def usesMapAny (style : MapStyle) : List NativeType → Bool
  | [] => false
  | member :: members => usesMap style member || usesMapAny style members
termination_by structural members => members

end

mutual

/-- The native type that owns values of a bus type.  Doubles cannot key a map. -/
def owned (policy : MapPolicy) : BusType → Except Error NativeType
  | .basic type => .ok (.basic type)
  | .variant => .ok .anyValue
  | .array element => return .vec (← owned policy element)
  | .dict .double _ => .error .doubleMapKey
  | .dict key value =>
      return .map (policy (BusType.dict key value).signature) (.basic key)
        (← owned policy value)
  | .struct first rest => return .tuple ((← owned policy first) :: (← ownedAll policy rest))
termination_by structural type => type

/-- The native types that own values of a sequence of bus types. -/
def ownedAll (policy : MapPolicy) : List BusType → Except Error (List NativeType)
  | [] => .ok []
  | type :: types => return (← owned policy type) :: (← ownedAll policy types)
termination_by structural types => types

end

/-- An owned type as a writer takes it: borrowed, unless it is copied.  When
absent input is allowed, arrays and dictionaries may be left out. -/
def borrowed (nullable : Bool) (type : BusType) (owned : NativeType) : NativeType :=
  match type with
  | .basic type => if type.isCopy then owned else .ref owned
  | .array _ | .dict _ _ => if nullable then .option (.ref owned) else .ref owned
  | .variant | .struct _ _ => .ref owned

/-- The native type that a procedure returns or takes for a bus type. -/
def ofBusType (policy : MapPolicy) (access : Access) (nullable : Bool)
    (type : BusType) : Except Error NativeType := do
  let native ← owned policy type
  match access with
  | .read => return native
  | .write => return borrowed nullable type native

end NativeType

end BusCodec
