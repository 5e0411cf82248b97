import BusCodec.CommandLine

/-!
The program: reads the interface file, runs the command and writes the module.
-/

namespace BusCodec

namespace CommandLine

/-- The contents of a file, if it can be read as text. -/
def contentsOf (file : String) : IO (Option String) := do
  try
    return some (← IO.FS.readFile file)
  catch _ =>
    return none

/-- Writes the module of a run and gives the exit status. -/
def write (options : Options) (outcome : Outcome) : IO UInt32 := do
  let messages := outcome.messages.dropLast
  let last := outcome.messages.getLast?
  for message in messages do
    IO.eprintln message
  match outcome.module, options.output with
  | none, _ => pure ()
  | some module, none => IO.print module
  | some module, some file =>
      try
        IO.FS.writeFile file module
      catch _ =>
        IO.eprintln ("Error: writing " ++ file)
        return 1
  for message in last.toList do
    IO.eprintln message
  return UInt32.ofNat outcome.status

/-- Runs the command line with the given arguments.  Arguments that are not
understood end it before anything is read. -/
def perform (arguments : List String) : IO UInt32 := do
  match Options.parse {} arguments with
  | .error text =>
      IO.eprintln text
      return 2
  | .ok options =>
      let contents ← match options.interfaces with
        | some file => contentsOf file
        | none => pure none
      write options (run options contents)

end CommandLine

end BusCodec

def main (arguments : List String) : IO UInt32 :=
  BusCodec.CommandLine.perform arguments
