import BusCodec.Procedure.Registry
import BusCodec.SourceText.Code
import BusCodec.SourceText.Literal

/-!
The generated module: one function for each registered procedure, which does
what running the procedure does.
-/

namespace BusCodec

namespace SourceText

def header : String :=
  "// @generated by dbus-marshal-gen. Do not edit.\n" ++
  "\n" ++
  "#![allow(dead_code, unused_imports)]\n" ++
  "\n" ++
  "use byteorder::ByteOrder;\n" ++
  "use dbus_marshal_gen::wire::\x7bMessageWriter, Reader, WireCode\x7d;\n" ++
  "use dbus_marshal_gen::\x7bMessage, ObjectPath, Result, Signature, UnixFd, Value\x7d;\n" ++
  "use std::collections::\x7bBTreeMap, HashMap\x7d;\n"

/-- The name that readers and writers of a basic type end in. -/
def primitiveName : BasicType → String
  | .byte => "byte"
  | .boolean => "bool"
  | .int16 => "i16"
  | .uint16 => "u16"
  | .int32 => "i32"
  | .uint32 => "u32"
  | .int64 => "i64"
  | .uint64 => "u64"
  | .double => "double"
  | .string => "string"
  | .objectPath => "object_path"
  | .signature => "signature"
  | .unixFd => "unix_fd"

/-- A tuple of expressions.  A tuple of one ends in a comma. -/
def tuple : List String → String
  | [item] => "(" ++ item ++ ",)"
  | items => "(" ++ ", ".intercalate items ++ ")"

/-- The names `stem0`, `stem1` and so on. -/
def numbered (stem : String) (count : Nat) : List String :=
  (List.range count).map fun i => s!"{stem}{i}"

/-- The expression that reads a value from the reader that another expression
names. -/
def readCall (callee : Callee) (reader : String) : String :=
  match callee with
  | .primitive type => "reader.read_" ++ primitiveName type ++ "()?"
  | .variant => "reader.read_variant_value()?"
  | .procedure name _ => name ++ "(" ++ reader ++ ")?"

/-- How the caller of a writer holds the value that it passes. -/
inductive Binding
  /-- As a reference, such as a loop variable. -/
  | reference (name : String)
  /-- At a place of its own, such as a member of a tuple. -/
  | place (expression : String)
  /-- As a parameter, which has the form that the callee takes. -/
  | parameter (name : String)
  deriving DecidableEq, Repr, Inhabited

/-- The form in which a callee takes its value. -/
inductive ArgumentForm
  | copied
  | referenced
  /-- A slice of the items, or nothing. -/
  | optionalSlice
  /-- A reference to the map, or nothing. -/
  | optionalMap
  deriving DecidableEq, Repr, Inhabited

/-- The form in which a callee takes its value. -/
def argumentForm : Callee → ArgumentForm
  | .primitive type => if type.isCopy then .copied else .referenced
  | .procedure _ .array => .optionalSlice
  | .procedure _ .dictionary => .optionalMap
  | _ => .referenced

/-- The expression for a value that is passed to a callee. -/
def writeArgument (callee : Callee) : Binding → String
  | .parameter name => name
  | .reference name =>
      match argumentForm callee with
      | .copied => "*" ++ name
      | .referenced => name
      | .optionalSlice => "Some(" ++ name ++ ".as_slice())"
      | .optionalMap => "Some(" ++ name ++ ")"
  | .place expression =>
      match argumentForm callee with
      | .copied => expression
      | .referenced => "&" ++ expression
      | .optionalSlice => "Some(" ++ expression ++ ".as_slice())"
      | .optionalMap => "Some(&" ++ expression ++ ")"

/-- The statement that writes a value to the writer that an expression names. -/
def writeCall (callee : Callee) (writer : String) (binding : Binding) : String :=
  let argument := writeArgument callee binding
  match callee with
  | .primitive type => "writer.write_" ++ primitiveName type ++ "(" ++ argument ++ ")?;"
  | .variant => "writer.write_variant(" ++ argument ++ ")?;"
  | .procedure name _ => name ++ "(" ++ writer ++ ", " ++ argument ++ ")?;"

def firstNative (procedure : Procedure) : String :=
  match procedure.native with
  | native :: _ => native.text
  | [] => "()"

/-- The expression for an empty map of the type that a procedure returns. -/
def emptyMap (procedure : Procedure) : String :=
  match procedure.native with
  | .map style _ _ :: _ => style.name ++ "::new()"
  | .option (.ref (.map style _ _)) :: _ => style.name ++ "::new()"
  | _ => "HashMap::new()"

/-- The statements that read a sequence of values into variables. -/
def readInto (names : List String) (callees : List Callee) (reader : String) : List Code :=
  (names.zip callees).map fun (name, callee) =>
    .line ("let " ++ name ++ " = " ++ readCall callee reader ++ ";")

def readerHead (procedure : Procedure) : String :=
  "pub fn " ++ procedure.name ++ "<B: ByteOrder>(reader: &mut Reader<'_, B>) -> Result<" ++
    firstNative procedure ++ "> \x7b"

def readFunction (procedure : Procedure) : Code :=
  match procedure.body with
  | .array element item =>
      .block (readerHead procedure)
        [.line ("let end = reader.read_array_start(WireCode::" ++ element.name ++ ")?;"),
          .line "let mut items = Vec::new();",
          .block "while reader.has_next(&end)? \x7b"
            [.line ("items.push(" ++ readCall item "reader" ++ ");")],
          .line "Ok(items)"]
  | .dictionary key value =>
      .block (readerHead procedure)
        [.line "let end = reader.read_array_start(WireCode::Struct)?;",
          .line ("let mut items = " ++ emptyMap procedure ++ ";"),
          .block "while reader.has_next(&end)? \x7b"
            [.line ("let key = " ++ readCall key "reader" ++ ";"),
              .line ("let value = " ++ readCall value "reader" ++ ";"),
              .line "items.insert(key, value);"],
          .line "Ok(items)"]
  | .struct members =>
      let names := numbered "member" members.length
      .block (readerHead procedure)
        ([.line "reader.align_struct()?;"] ++ readInto names members "reader" ++
          [.line ("Ok(" ++ tuple names ++ ")")])
  | .message variant values =>
      let names := numbered "value" values.length
      let expected := match variant with
        | some signature =>
            [.line ("reader.expect_signature(" ++ stringLiteral signature ++ ")?;")]
        | none => []
      let result := match names with
        | [name] => name
        | names => tuple names
      .block
        ("pub fn " ++ procedure.name ++ "(message: &Message) -> Result<" ++
          firstNative procedure ++ "> \x7b")
        ([.line ("let mut reader = message.body_reader_for(" ++
            stringLiteral procedure.bodySignature ++ ")?;")] ++
          expected ++ readInto names values "&mut reader" ++
          [.line "reader.complete()?;", .line ("Ok(" ++ result ++ ")")])

def writerHead (procedure : Procedure) (parameter : String) : String :=
  "pub fn " ++ procedure.name ++ "(writer: &mut MessageWriter, " ++ parameter ++ ": " ++
    firstNative procedure ++ ") -> Result<()> \x7b"

def writeFunction (procedure : Procedure) : Code :=
  match procedure.body with
  | .array element item =>
      .block (writerHead procedure "values")
        [.line ("let start = writer.write_array_start(WireCode::" ++ element.name ++ ");"),
          .block "if let Some(values) = values \x7b"
            [.block "for value in values \x7b"
              [.line (writeCall item "writer" (.reference "value"))]],
          .line "writer.write_array_end(start)"]
  | .dictionary key value =>
      .block (writerHead procedure "values")
        [.line "let start = writer.write_array_start(WireCode::Struct);",
          .block "if let Some(values) = values \x7b"
            [.block "for (key, value) in values \x7b"
              [.line "writer.write_structure_start();",
                .line (writeCall key "writer" (.reference "key")),
                .line (writeCall value "writer" (.reference "value"))]],
          .line "writer.write_array_end(start)"]
  | .struct members =>
      let places := numbered "value." members.length
      let writes := (places.zip members).map fun (place, member) =>
        Code.line (writeCall member "writer" (.place place))
      .block (writerHead procedure "value")
        ([.line "writer.write_structure_start();"] ++ writes ++ [.line "Ok(())"])
  | .message variant values =>
      let parameters :=
        ((numbered "arg" procedure.native.length).zip procedure.native).map
          fun (name, type) => name ++ ": " ++ type.text
      let signature := match variant with
        | some signature =>
            [.line ("writer.write_signature_str(" ++ stringLiteral signature ++ ")?;")]
        | none => []
      let writes := ((numbered "arg" values.length).zip values).map fun (name, value) =>
        Code.line (writeCall value "&mut writer" (.parameter name))
      .block
        ("pub fn " ++ procedure.name ++ "(" ++ ", ".intercalate parameters ++
          ") -> Result<Message> \x7b")
        ([.line "let mut writer = MessageWriter::new();"] ++ signature ++ writes ++
          [.line ("Ok(writer.finish(" ++ stringLiteral procedure.bodySignature ++ "))")])

def function (procedure : Procedure) : Code :=
  match procedure.access with
  | .read => readFunction procedure
  | .write => writeFunction procedure

/-- The text of the module for the procedures of a registry. -/
def module (registry : Registry) : String :=
  header ++ Code.textAll 0
    (registry.toList.flatMap fun procedure => [.line "", function procedure])

end SourceText

end BusCodec
