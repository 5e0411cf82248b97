/-!
Words as bytes, in either byte order, and byte boundaries.
-/

namespace BusCodec

/-- The order in which the bytes of a word are laid out. -/
inductive ByteOrder
  | little
  | big
  deriving DecidableEq, Repr, Inhabited

namespace Word

/-- How many words of the given number of bytes there are. -/
def limit : Nat → Nat
  | 0 => 1
  | width + 1 => 256 * limit width

/-- The lowest `width` bytes of a number, the lowest first. -/
def toBytes : Nat → Nat → List UInt8
  | 0, _ => []
  | width + 1, word => UInt8.ofNat word :: toBytes width (word / 256)

/-- The number that a sequence of bytes spells, the lowest first. -/
def ofBytes : List UInt8 → Nat
  | [] => 0
  | byte :: bytes => byte.toNat + 256 * ofBytes bytes

theorem length_toBytes (width word : Nat) : (toBytes width word).length = width := by
  induction width generalizing word with
  | zero => rfl
  | succ width ih => simp [toBytes, ih]

theorem ofBytes_toBytes (width word : Nat) :
    ofBytes (toBytes width word) = word % limit width := by
  induction width generalizing word with
  | zero => simp [toBytes, ofBytes, limit, Nat.mod_one]
  | succ width ih =>
      have hbyte : (UInt8.ofNat word).toNat = word % 256 := UInt8.toNat_ofNat'
      simp only [toBytes, ofBytes, ih, hbyte, limit]
      rw [Nat.mod_mul]

theorem ofBytes_lt (bytes : List UInt8) : ofBytes bytes < limit bytes.length := by
  induction bytes with
  | nil => simp [ofBytes, limit]
  | cons byte bytes ih =>
      have hbyte := byte.toNat_lt
      simp only [ofBytes, List.length_cons, limit]
      omega

theorem toBytes_ofBytes (bytes : List UInt8) :
    toBytes bytes.length (ofBytes bytes) = bytes := by
  induction bytes with
  | nil => rfl
  | cons byte bytes ih =>
      have hbyte := byte.toNat_lt
      have hlow : UInt8.ofNat (byte.toNat + 256 * ofBytes bytes) = byte := by
        apply UInt8.toNat_inj.mp
        rw [UInt8.toNat_ofNat']
        omega
      have hrest : (byte.toNat + 256 * ofBytes bytes) / 256 = ofBytes bytes := by
        omega
      simp [toBytes, ofBytes, hlow, hrest, ih]

end Word

namespace ByteOrder

/-- The lowest `width` bytes of a number, in the byte order. -/
def encode (order : ByteOrder) (width word : Nat) : List UInt8 :=
  match order with
  | little => Word.toBytes width word
  | big => (Word.toBytes width word).reverse

/-- The number that a sequence of bytes spells in the byte order. -/
def decode (order : ByteOrder) (bytes : List UInt8) : Nat :=
  match order with
  | little => Word.ofBytes bytes
  | big => Word.ofBytes bytes.reverse

theorem length_encode (order : ByteOrder) (width word : Nat) :
    (order.encode width word).length = width := by
  cases order <;> simp [encode, Word.length_toBytes]

theorem decode_encode (order : ByteOrder) (width word : Nat) :
    order.decode (order.encode width word) = word % Word.limit width := by
  cases order <;> simp [decode, encode, Word.ofBytes_toBytes]

theorem encode_decode (order : ByteOrder) (bytes : List UInt8) :
    order.encode bytes.length (order.decode bytes) = bytes := by
  cases order with
  | little => exact Word.toBytes_ofBytes bytes
  | big =>
      have h := Word.toBytes_ofBytes bytes.reverse
      simp only [List.length_reverse] at h
      simp [encode, decode, h]

theorem decode_lt (order : ByteOrder) (bytes : List UInt8) :
    order.decode bytes < Word.limit bytes.length := by
  cases order with
  | little => exact Word.ofBytes_lt bytes
  | big =>
      have h := Word.ofBytes_lt bytes.reverse
      rwa [List.length_reverse] at h

end ByteOrder

/-- The first index at or after the given one that is a multiple of the
alignment. -/
def alignUp (index alignment : Nat) : Nat :=
  (index + alignment - 1) / alignment * alignment

theorem le_alignUp (index : Nat) {alignment : Nat} (h : 0 < alignment) :
    index ≤ alignUp index alignment := by
  have hmod := Nat.mod_lt (index + alignment - 1) h
  have hdiv := Nat.div_add_mod (index + alignment - 1) alignment
  rw [Nat.mul_comm] at hdiv
  unfold alignUp
  omega

theorem alignUp_lt (index : Nat) {alignment : Nat} (h : 0 < alignment) :
    alignUp index alignment < index + alignment := by
  have hdiv := Nat.div_add_mod (index + alignment - 1) alignment
  rw [Nat.mul_comm] at hdiv
  unfold alignUp
  omega

theorem dvd_alignUp (index alignment : Nat) : alignment ∣ alignUp index alignment :=
  Nat.dvd_mul_left _ _

end BusCodec
