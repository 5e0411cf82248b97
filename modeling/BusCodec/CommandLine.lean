import BusCodec.Generator.Interfaces
import BusCodec.Interface.Json
import BusCodec.SourceText.Module

/-!
The command line: which procedures are asked for, what is reported, and the
module that is written.
-/

namespace BusCodec

namespace CommandLine

structure Options where
  /-- Message body signatures to generate readers for. -/
  reads : List String := []
  /-- Message body signatures to generate writers for. -/
  writes : List String := []
  /-- The file of interface descriptions. -/
  interfaces : Option String := none
  /-- Whether dictionaries are kept in ordered maps. -/
  orderedMaps : Bool := false
  /-- The file that the module is written to, in place of the output. -/
  output : Option String := none
  deriving DecidableEq, Repr, Inhabited

/-- What a run does: the exit status, the messages, one for each line, and the
text of the module, if one is written. -/
structure Outcome where
  status : Nat
  messages : List String
  module : Option String
  deriving DecidableEq, Repr, Inhabited

namespace Options

/-- Reads arguments into options.  A value follows its option, or stands behind
an equals sign. -/
def parse (options : Options) : List String → Except String Options
  | [] => .ok options
  | "--ordered-maps" :: rest => parse { options with orderedMaps := true } rest
  | "--read" :: value :: rest => parse { options with reads := options.reads ++ [value] } rest
  | "--write" :: value :: rest =>
      parse { options with writes := options.writes ++ [value] } rest
  | "--interfaces" :: value :: rest => parse { options with interfaces := some value } rest
  | "--output" :: value :: rest => parse { options with output := some value } rest
  | "-o" :: value :: rest => parse { options with output := some value } rest
  | argument :: rest =>
      match argument.splitOn "=" with
      | "--read" :: value :: more =>
          parse { options with reads := options.reads ++ ["=".intercalate (value :: more)] } rest
      | "--write" :: value :: more =>
          parse { options with writes := options.writes ++ ["=".intercalate (value :: more)] }
            rest
      | "--interfaces" :: value :: more =>
          parse { options with interfaces := some ("=".intercalate (value :: more)) } rest
      | "--output" :: value :: more =>
          parse { options with output := some ("=".intercalate (value :: more)) } rest
      | _ => .error ("error: unexpected argument '" ++ argument ++ "' found")

end Options

def failure (text : String) : Outcome :=
  ⟨1, ["Error: " ++ text], none⟩

def mapPolicy (orderedMaps : Bool) : MapPolicy :=
  fun _ => if orderedMaps then .ordered else .hashed

/-- Generates the entry procedures of an access for message bodies, and a message
for each signature that fails. -/
def generateAll (access : Access) (generator : Generator) :
    List String → List String × Generator
  | [] => ([], generator)
  | signature :: signatures =>
      let (outcome, reached) := generator.entry access signature false
      let (messages, last) := generateAll access reached signatures
      match outcome with
      | .ok _ => (messages, last)
      | .error error =>
          (s!"[ERROR] --{access.word} {signature}: {error.message}" :: messages, last)

/-- The messages for the members that could not be generated. -/
def reportMessages (report : InterfaceReport) : List String :=
  report.failures.map fun failure =>
    s!"[ERROR] {report.interface}.{failure.member}: {failure.error.message}"

/-- Generates everything asked for.  The module is written even if some of it
could not be generated. -/
def generate (options : Options) (interfaces : List Interface) : Outcome :=
  let generator : Generator := { policy := mapPolicy options.orderedMaps }
  let (readMessages, generator) := generateAll .read generator options.reads
  let (writeMessages, generator) := generateAll .write generator options.writes
  let (reports, generator) := generator.processInterfaces interfaces
  let messages := readMessages ++ writeMessages ++ reports.flatMap reportMessages
  let module := SourceText.module generator.registry
  if messages.isEmpty then ⟨0, [], some module⟩
  else
    let summary := s!"Error: {messages.length} signatures could not be generated"
    ⟨1, messages ++ [summary], some module⟩

/-- Runs the command, given the contents of the file of interface descriptions if
it could be read.  Nothing is generated when the file cannot be used. -/
def run (options : Options) (contents : Option String) : Outcome :=
  match options.interfaces with
  | none => generate options []
  | some file =>
      match contents with
      | none => failure ("reading " ++ file)
      | some text =>
          match Interface.parseList? text with
          | some interfaces => generate options interfaces
          | none => failure ("parsing " ++ file)

end CommandLine

end BusCodec
