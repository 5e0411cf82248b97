import BusCodec.SourceText.Unprintable

/-!
String literals of the generated module.
-/

namespace BusCodec

namespace SourceText

def numberEscape (c : Char) : List Char :=
  ['\\', 'u', '{'] ++ Nat.toDigits 16 c.toNat ++ ['}']

/-- A character inside a string literal.  The escapes with a letter of their own
are used where there is one, and characters that cannot be seen are given by
their numbers. -/
def escape (c : Char) : List Char :=
  match c with
  | '\x00' => ['\\', '0']
  | '\t' => ['\\', 't']
  | '\n' => ['\\', 'n']
  | '\r' => ['\\', 'r']
  | '\\' => ['\\', '\\']
  | '"' => ['\\', '"']
  | c =>
      if c.toNat < 0x20 || isUnprintable c then numberEscape c else [c]

def stringLiteral (text : String) : String :=
  String.ofList (['"'] ++ text.toList.flatMap escape ++ ['"'])

end SourceText

end BusCodec
