import BusCodec.Procedure.Registry
import BusCodec.Wire.DecodeValue

/-!
Running registered readers.  A registry filled by hand may hold readers that
call one another in a circle, so calls are counted: a reader that is called
again at the same place of the buffer would be called for ever.
-/

namespace BusCodec

namespace Callee

/-- Reads one value, with the given way to run a reader. -/
def read (run : String → Decode Value) : Callee → Decode Value
  | .primitive type => return .basic (← Decode.basic type)
  | .variant => return .variant (← Decode.variant)
  | .procedure name _ => run name

def readAll (run : String → Decode Value) : List Callee → Decode (List Value)
  | [] => return []
  | callee :: callees => do
      let value ← read run callee
      let values ← readAll run callees
      return value :: values

end Callee

namespace Body

/-- The value of a message body: the value itself if there is exactly one. -/
def messageValue : List Value → Value
  | [value] => value
  | values => .struct values

/-- Reads what a body describes, as a value of the given signature. -/
def read (run : String → Decode Value) (signature : String) : Body → Decode Value
  | .array element item => do
      let region ← Region.start element
      return .array signature (← region.collect (item.read run))
  | .dictionary key value => do
      let region ← Region.start .struct
      let entries ← region.collect (Decode.entry (key.read run) (value.read run))
      return .dict signature (Entries.ofList entries)
  | .struct members => do
      Decode.alignStruct
      return .struct (← Callee.readAll run members)
  | .message (some expected) values => do
      Decode.expectSignature expected
      return messageValue (← Callee.readAll run values)
  | .message none values => return messageValue (← Callee.readAll run values)

end Body

namespace Registry

/-- Runs a reader, when calls may be nested so many levels deep. -/
def readWithin (registry : Registry) : Nat → String → Decode Value
  | 0, _ => Decode.fail .endless
  | levels + 1, name => do
      let procedure ← Decode.lift (registry.find .read name)
      procedure.body.read (registry.readWithin levels) procedure.signature

/-- More levels than calls can be nested without one reader being called twice at
the same place of a buffer. -/
def readLevels (registry : Registry) (buffer : Buffer) : Nat :=
  registry.readers.size * (buffer.bytes.size + 1) + 1

/-- Runs a reader from the cursor on. -/
def readValue (registry : Registry) (name : String) : Decode Value :=
  fun buffer => registry.readWithin (registry.readLevels buffer) name buffer

def readCallee (registry : Registry) (callee : Callee) : Decode Value :=
  callee.read registry.readValue

def readBuffer (registry : Registry) (name : String) (buffer : Buffer) :
    Except Error Value :=
  let whole : Decode Value := do
    let value ← registry.readValue name
    Decode.complete
    return value
  (whole buffer {}).1

/-- Runs a reader over a whole little-endian body. -/
def read (registry : Registry) (name : String) (body : ByteArray) : Except Error Value :=
  registry.readBuffer name ⟨.little, body⟩

/-- Reads a message with an entry reader, which must be for its signature. -/
def readMessage (registry : Registry) (name : String) (message : Message) :
    Except Error Value := do
  let procedure ← registry.findEntry .read name
  message.checkSignature procedure.bodySignature
  registry.readBuffer name message.buffer

end Registry

end BusCodec
