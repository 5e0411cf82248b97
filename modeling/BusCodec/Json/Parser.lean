import BusCodec.Json.Basic

/-!
Reading JSON text.  Each function gives the value at the start of a text and the
rest of it, or nothing if there is none.
-/

namespace BusCodec

namespace Json

/-- The characters that may stand between the parts of a document. -/
def isBlank (c : Char) : Bool :=
  c == ' ' || c == '\n' || c == '\t' || c == '\r'

/-- A text without the blanks that it starts with. -/
def skipBlank (text : List Char) : List Char :=
  text.dropWhile isBlank

def hexDigit? (c : Char) : Option Nat :=
  if '0' ≤ c && c ≤ '9' then some (c.toNat - 48)
  else if 'a' ≤ c && c ≤ 'f' then some (c.toNat - 87)
  else if 'A' ≤ c && c ≤ 'F' then some (c.toNat - 55)
  else none

/-- The code unit that four hexadecimal digits stand for. -/
def hexUnit? (a b c d : Char) : Option Nat := do
  return (((← hexDigit? a) * 16 + (← hexDigit? b)) * 16 + (← hexDigit? c)) * 16 +
    (← hexDigit? d)

/-- The character that a letter stands for after a backslash. -/
def escapeLetter? : Char → Option Char
  | '"' => some '"'
  | '\\' => some '\\'
  | '/' => some '/'
  | 'b' => some '\x08'
  | 'f' => some '\x0c'
  | 'n' => some '\n'
  | 'r' => some '\r'
  | 't' => some '\t'
  | _ => none

/-- The contents of a string after its opening quote: characters by their
numbers, and the code units of numeric escapes. -/
def stringUnits? : List Char → Option (List Nat × List Char)
  | [] => none
  | '"' :: rest => some ([], rest)
  | '\\' :: 'u' :: a :: b :: c :: d :: rest => do
      let unit ← hexUnit? a b c d
      let (units, rest) ← stringUnits? rest
      return (unit :: units, rest)
  | '\\' :: letter :: rest => do
      let c ← escapeLetter? letter
      let (units, rest) ← stringUnits? rest
      return (c.toNat :: units, rest)
  | c :: rest =>
      if c.toNat < 0x20 then none
      else do
        let (units, rest) ← stringUnits? rest
        return (c.toNat :: units, rest)

/-- Whether a code unit is the first half of a surrogate pair. -/
def isLeading (unit : Nat) : Bool :=
  0xd800 ≤ unit && unit < 0xdc00

/-- Whether a code unit is the second half of a surrogate pair. -/
def isTrailing (unit : Nat) : Bool :=
  0xdc00 ≤ unit && unit < 0xe000

/-- The text of a sequence of code units, unless it has half of a pair. -/
def textOfUnits? : List Nat → Option (List Char)
  | [] => some []
  | first :: second :: rest =>
      if isLeading first then
        if isTrailing second then
          (textOfUnits? rest).map
            (Char.ofNat (0x10000 + (first - 0xd800) * 0x400 + (second - 0xdc00)) :: ·)
        else none
      else if isTrailing first then none
      else (textOfUnits? (second :: rest)).map (Char.ofNat first :: ·)
  | [unit] =>
      if isLeading unit || isTrailing unit then none else some [Char.ofNat unit]

/-- A string after its opening quote. -/
def string? (text : List Char) : Option (Option String × List Char) := do
  let (units, rest) ← stringUnits? text
  return ((textOfUnits? units).map String.ofList, rest)

def digits? (text : List Char) : Option (List Char × List Char) :=
  match text.takeWhile Char.isDigit with
  | [] => none
  | digits => some (digits, text.dropWhile Char.isDigit)

/-- The digits of an integer, which start with a zero only if it is the only
digit. -/
def integer? (text : List Char) : Option (List Char × List Char) := do
  let (digits, rest) ← digits? text
  match digits with
  | '0' :: _ :: _ => none
  | digits => some (digits, rest)

/-- The point and digits of a fraction, if there is one. -/
def fraction? : List Char → Option (List Char × List Char)
  | '.' :: rest => do
      let (digits, rest) ← digits? rest
      return ('.' :: digits, rest)
  | text => some ([], text)

/-- The mark, sign and digits of an exponent, if there is one. -/
def exponent? : List Char → Option (List Char × List Char)
  | mark :: rest =>
      if mark == 'e' || mark == 'E' then
        match rest with
        | '+' :: rest => do
            let (digits, rest) ← digits? rest
            return (mark :: '+' :: digits, rest)
        | '-' :: rest => do
            let (digits, rest) ← digits? rest
            return (mark :: '-' :: digits, rest)
        | rest => do
            let (digits, rest) ← digits? rest
            return (mark :: digits, rest)
      else some ([], mark :: rest)
  | [] => some ([], [])

def number? (text : List Char) : Option (Json × List Char) := do
  let (sign, text) := match text with
    | '-' :: rest => (['-'], rest)
    | text => ([], text)
  let (whole, text) ← integer? text
  let (fraction, text) ← fraction? text
  let (exponent, text) ← exponent? text
  return (.number (String.ofList (sign ++ whole ++ fraction ++ exponent)), text)

mutual

/-- A value.  Values may be nested as deep as the fuel allows. -/
def value? : Nat → List Char → Option (Json × List Char)
  | 0, _ => none
  | fuel + 1, text =>
      match skipBlank text with
      | 'n' :: 'u' :: 'l' :: 'l' :: rest => some (.null, rest)
      | 't' :: 'r' :: 'u' :: 'e' :: rest => some (.boolean true, rest)
      | 'f' :: 'a' :: 'l' :: 's' :: 'e' :: rest => some (.boolean false, rest)
      | '"' :: rest => do
          let (text, rest) ← string? rest
          return (.string text, rest)
      | '[' :: rest =>
          match skipBlank rest with
          | ']' :: rest => some (.array [], rest)
          | rest => do
              let (items, rest) ← items? fuel rest
              return (.array items, rest)
      | '{' :: rest =>
          match skipBlank rest with
          | '}' :: rest => some (.object [], rest)
          | rest => do
              let (members, rest) ← members? fuel rest
              return (.object members, rest)
      | text => number? text
termination_by structural fuel => fuel

/-- The items of an array up to its closing bracket. -/
def items? : Nat → List Char → Option (List Json × List Char)
  | 0, _ => none
  | fuel + 1, text => do
      let (first, rest) ← value? fuel text
      match skipBlank rest with
      | ',' :: rest => do
          let (more, rest) ← items? fuel rest
          return (first :: more, rest)
      | ']' :: rest => some ([first], rest)
      | _ => none
termination_by structural fuel => fuel

/-- The members of an object up to its closing bracket. -/
def members? : Nat → List Char → Option (List (Option String × Json) × List Char)
  | 0, _ => none
  | fuel + 1, text =>
      match skipBlank text with
      | '"' :: rest => do
          let (name, rest) ← string? rest
          match skipBlank rest with
          | ':' :: rest => do
              let (value, rest) ← value? fuel rest
              match skipBlank rest with
              | ',' :: rest => do
                  let (more, rest) ← members? fuel rest
                  return ((name, value) :: more, rest)
              | '}' :: rest => some ([(name, value)], rest)
              | _ => none
          | _ => none
      | _ => none
termination_by structural fuel => fuel

end

/-- The value that a text spells.  Every step of the reading takes at least one
character, so the fuel is enough for any text. -/
def parse? (text : String) : Option Json := do
  let letters := text.toList
  let (value, rest) ← value? (2 * letters.length + 1) letters
  if (skipBlank rest).isEmpty then some value else none

end Json

end BusCodec
