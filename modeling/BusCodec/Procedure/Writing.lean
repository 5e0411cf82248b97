import BusCodec.Procedure.Registry
import BusCodec.Wire.DecodeValue
import BusCodec.Wire.Encode

/-!
Running registered writers.  As with readers, calls are counted: a writer that
is called again for the same value would be called for ever.
-/

namespace BusCodec

namespace Value

/-- The signature of a value that may be absent, for a message. -/
def signatureOrNothing : Option Value → String
  | some value => value.signature
  | none => "nothing"

end Value

namespace Callee

/-- Writes one value, with the given way to run a writer. -/
def write (run : String → Option Value → Encode Unit) (callee : Callee) (value : Value) :
    Encode Unit :=
  match callee, value with
  | .primitive type, .basic basic =>
      if basic.type = type then Encode.basic basic
      else Attempt.fail (.valueShape type.signatureText value.signature)
  | .primitive type, value =>
      Attempt.fail (.valueShape type.signatureText value.signature)
  | .variant, .variant inner => Encode.variant inner
  | .variant, value => Attempt.fail (.valueShape "v" value.signature)
  | .procedure name _, value => run name (some value)

/-- Writes values one after the other, each with its callee, as long as there are
both. -/
def writeAll (run : String → Option Value → Encode Unit) :
    List Callee → List Value → Encode Unit
  | callee :: callees, value :: values => do
      write run callee value
      writeAll run callees values
  | _, _ => pure ()

def writeItems (run : String → Option Value → Encode Unit) (item : Callee) :
    List Value → Encode Unit
  | [] => pure ()
  | value :: values => do
      write run item value
      writeItems run item values

def writeEntries (run : String → Option Value → Encode Unit) (key value : Callee) :
    List (Key × Value) → Encode Unit
  | [] => pure ()
  | (entryKey, entry) :: entries => do
      Encode.alignStruct
      write run key (.basic entryKey.value)
      write run value entry
      writeEntries run key value entries

end Callee

namespace Procedure

/-- Writes a message body of the given values, one for each callee. -/
def writeBody (run : String → Option Value → Encode Unit) (procedure : Procedure)
    (values : List Value) : Encode Unit :=
  match procedure.body with
  | .message variant callees =>
      if callees.length ≠ values.length then
        Attempt.fail (.valueShape procedure.signature (Value.signatureAll values))
      else do
        match variant with
        | some signature => Encode.signature signature
        | none => pure ()
        Callee.writeAll run callees values
  | _ => Attempt.fail (.unknownProcedure procedure.name)

/-- Writes a value, which must fit the procedure.  An absent array or dictionary
is written as an empty one. -/
def write (run : String → Option Value → Encode Unit) (procedure : Procedure)
    (value : Option Value) : Encode Unit := do
  match value with
  | some value =>
      if !procedure.isEntry then Attempt.lift (value.checkShape procedure.signature)
  | none => pure ()
  match procedure.body, value with
  | .array element item, value =>
      let array ← Encode.openArray element
      match value with
      | some (.array _ items) => Callee.writeItems run item items
      | _ => pure ()
      Encode.closeArray array
  | .dictionary key entry, value =>
      let array ← Encode.openArray .struct
      match value with
      | some (.dict _ entries) => Callee.writeEntries run key entry entries
      | _ => pure ()
      Encode.closeArray array
  | .struct members, some (.struct values) =>
      Encode.alignStruct
      Callee.writeAll run members values
  | .message _ [_], some value => procedure.writeBody run [value]
  | .message _ _, some (.struct values) => procedure.writeBody run values
  | .message _ _, some value => procedure.writeBody run [value]
  | _, value =>
      Attempt.fail (.valueShape procedure.signature (Value.signatureOrNothing value))

end Procedure

namespace Registry

/-- Runs a writer, when calls may be nested so many levels deep. -/
def writeWithin (registry : Registry) : Nat → String → Option Value → Encode Unit
  | 0, _, _ => Attempt.fail .endless
  | levels + 1, name, value => do
      let procedure ← Attempt.lift (registry.find .write name)
      procedure.write (registry.writeWithin levels) value

/-- More levels than calls can be nested without one writer being called twice
for the same value, where the values nested in one another are so many. -/
def writeLevels (registry : Registry) (height : Nat) : Nat :=
  registry.writers.size * (height + 1) + 1

/-- Runs a writer for a value, which may be absent. -/
def writeValue (registry : Registry) (name : String) (value : Option Value) :
    Encode Unit :=
  registry.writeWithin (registry.writeLevels (value.elim 0 Value.height)) name value

def writeCallee (registry : Registry) (callee : Callee) (value : Value) : Encode Unit :=
  callee.write registry.writeValue value

/-- Runs a writer and gives the bytes that it writes. -/
def write (registry : Registry) (name : String) (value : Option Value) :
    Except Error ByteArray :=
  Encode.toBody (registry.writeValue name value)

/-- Writes a message with an entry writer, from one value for each of its
types. -/
def writeMessage (registry : Registry) (name : String) (values : List Value) :
    Except Error Message := do
  let procedure ← registry.findEntry .write name
  let run := registry.writeWithin (registry.writeLevels (Value.heightAll values))
  let body ← Encode.toBody (procedure.writeBody run values)
  return ⟨body, procedure.bodySignature⟩

end Registry

end BusCodec
