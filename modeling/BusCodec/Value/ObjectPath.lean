/-!
Object paths: `/` alone, or a sequence of non-empty elements with a `/` before
each of them.
-/

namespace BusCodec

namespace ObjectPath

/-- The characters that an element may have. -/
def isElementChar (c : Char) : Bool :=
  c.isAlphanum || c == '_'

/-- Whether the text after a slash is a sequence of elements.  The flag tells
whether the element being read has a character yet. -/
def isElements (started : Bool) : List Char → Bool
  | [] => started
  | '/' :: rest => started && isElements false rest
  | c :: rest => isElementChar c && isElements true rest

def isValid (path : String) : Bool :=
  match path.toList with
  | ['/'] => true
  | '/' :: rest => isElements false rest
  | _ => false

end ObjectPath

end BusCodec
