/-!
Source text as lines and blocks.  Blocks close themselves, so the text of a
function always ends at the indentation that it began at.
-/

namespace BusCodec

namespace SourceText

/-- A piece of source text. -/
inductive Code
  | line (text : String)
  /-- A line that opens a bracket, the code inside of it, and the line that
  closes the bracket. -/
  | block (opening : String) (inside : List Code)
  deriving Repr, Inhabited

/-- The text of one line at a level of indentation.  An empty line is not
indented. -/
def indented (level : Nat) (text : String) : String :=
  if text = "" then "\n"
  else String.join (List.replicate level "    ") ++ text ++ "\n"

namespace Code

mutual

/-- The text of a piece of code at a level of indentation. -/
def text (level : Nat) : Code → String
  | .line content => indented level content
  | .block opening inside =>
      indented level opening ++ textAll (level + 1) inside ++ indented level "\x7d"
termination_by structural code => code

def textAll (level : Nat) : List Code → String
  | [] => ""
  | code :: rest => text level code ++ textAll level rest
termination_by structural codes => codes

end

end Code

end SourceText

end BusCodec
