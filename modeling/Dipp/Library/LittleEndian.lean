import Mathlib.Algebra.Order.Ring.Nat
import Mathlib.Data.Nat.Basic
import Mathlib.Tactic.Ring

/-!
# Fixed-width little-endian numbers

The byte image of an unsigned machine word: its value modulo the width, least
significant byte first. Reading a word back uses as many bytes as it is given,
so a decoder only has to cut out the right slice first.
-/

namespace LittleEndian

/-- The low `width` bytes of a number, least significant first. -/
def encode : (width n : ℕ) → List UInt8
  | 0, _ => []
  | width + 1, n => UInt8.ofNat n :: encode width (n / 256)

/-- The number with the given bytes, least significant first. -/
def decode : List UInt8 → ℕ
  | [] => 0
  | byte :: rest => byte.toNat + 256 * decode rest

/-- An encoded word occupies exactly its width. -/
@[simp] theorem length_encode (width n : ℕ) : (encode width n).length = width := by
  induction width generalizing n with
  | zero => rfl
  | succ width ih => simp only [encode, List.length_cons, ih]

/-- Decoding an encoded number returns it modulo the width. -/
theorem decode_encode (width n : ℕ) : decode (encode width n) = n % 256 ^ width := by
  induction width generalizing n with
  | zero => simp only [encode, decode, pow_zero, Nat.mod_one]
  | succ width ih =>
    have hlow : (UInt8.ofNat n).toNat = n % 256 := UInt8.toNat_ofNat'
    rw [encode, decode, ih, hlow, pow_succ', Nat.mod_mul (a := 256) (b := 256 ^ width)]

/-- A number that fits the width survives the round trip. -/
theorem decode_encode_of_lt {width n : ℕ} (h : n < 256 ^ width) :
    decode (encode width n) = n := by
  rw [decode_encode, Nat.mod_eq_of_lt h]

/-- The bytes of a number in two parts. -/
theorem decode_append (low high : List UInt8) :
    decode (low ++ high) = decode low + 256 ^ low.length * decode high := by
  induction low with
  | nil => simp [decode]
  | cons byte rest ih =>
    rw [List.cons_append, decode, decode, ih, List.length_cons, pow_succ']
    ring

/-- The decoded number is bounded by the number of bytes read. -/
theorem decode_lt (bytes : List UInt8) : decode bytes < 256 ^ bytes.length := by
  induction bytes with
  | nil => simp [decode]
  | cons byte rest ih =>
    have hbyte := byte.toNat_lt
    rw [decode, List.length_cons, pow_succ']
    omega

/-- Bytes are the encoding of the number they are decoded as. -/
theorem encode_decode (bytes : List UInt8) : encode bytes.length (decode bytes) = bytes := by
  induction bytes with
  | nil => rfl
  | cons byte rest ih =>
    have hbyte := byte.toNat_lt
    have hlow : UInt8.ofNat (byte.toNat + 256 * decode rest) = byte := by
      apply UInt8.toNat_inj.mp
      rw [UInt8.toNat_ofNat']
      omega
    have hhigh : (byte.toNat + 256 * decode rest) / 256 = decode rest := by omega
    rw [List.length_cons, decode, encode, hlow, hhigh, ih]

end LittleEndian
