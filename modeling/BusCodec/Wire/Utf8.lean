/-!
Where bytes that spell no text go wrong.  The first byte of a letter tells how many bytes
follow it and between which bounds they lie, so that the bytes can be checked one after
another, up to the first that does not fit.
-/

namespace BusCodec

/-- What is wrong with bytes that are no text. -/
structure Utf8Fault where
  /-- How many bytes come before the one that begins no letter. -/
  validUpTo : Nat
  /-- How many bytes make up what is no letter, unless more bytes could complete it. -/
  length? : Option Nat
  deriving DecidableEq, Repr, Inhabited

namespace Utf8

/-- The least and the greatest number of a byte in some place. -/
structure Bounds where
  least : Nat
  greatest : Nat
  deriving DecidableEq, Repr, Inhabited

def Bounds.Admits (bounds : Bounds) (byte : UInt8) : Prop :=
  bounds.least ≤ byte.toNat ∧ byte.toNat ≤ bounds.greatest

instance (bounds : Bounds) (byte : UInt8) : Decidable (bounds.Admits byte) :=
  inferInstanceAs (Decidable (_ ∧ _))

/-- The bounds of a byte that goes on with a letter. -/
def continuing : Bounds := ⟨0x80, 0xbf⟩

/-- The bounds of the second byte of a letter.  They are closer where a letter would have a
shorter encoding, be a surrogate or have too large a number. -/
def second (first : UInt8) : Bounds :=
  if first.toNat = 0xe0 then ⟨0xa0, 0xbf⟩
  else if first.toNat = 0xed then ⟨0x80, 0x9f⟩
  else if first.toNat = 0xf0 then ⟨0x90, 0xbf⟩
  else if first.toNat = 0xf4 then ⟨0x80, 0x8f⟩
  else continuing

/-- The bounds of the bytes behind the first byte of a letter. -/
def following? (first : UInt8) : Option (List Bounds) :=
  if first.toNat < 0x80 then some []
  else if first.toNat < 0xc2 then none
  else if first.toNat < 0xe0 then some [second first]
  else if first.toNat < 0xf0 then some [second first, continuing]
  else if first.toNat < 0xf5 then some [second first, continuing, continuing]
  else none

/-- Takes a byte.  The bytes that a letter still lacks are awaited, before and after. -/
def step : List Bounds → UInt8 → Option (List Bounds)
  | [], byte => following? byte
  | bounds :: awaited, byte => if bounds.Admits byte then some awaited else none

/-- What is wrong with the bytes from an index on, inside the letter that has begun. -/
def fault (begun index : Nat) (awaited : List Bounds) : List UInt8 → Utf8Fault
  | [] => ⟨begun, none⟩
  | byte :: bytes =>
      match step awaited byte with
      | none => ⟨begun, some (max 1 (index - begun))⟩
      | some [] => fault (index + 1) (index + 1) [] bytes
      | some awaited => fault begun (index + 1) awaited bytes

end Utf8

/-- What is wrong with bytes that are no text. -/
def Utf8Fault.ofBytes (bytes : ByteArray) : Utf8Fault :=
  Utf8.fault 0 0 [] bytes.data.toList

end BusCodec
