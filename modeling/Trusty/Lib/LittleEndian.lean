import Mathlib

/-!
# Little-endian numbers

A number in a given count of bytes, the least significant byte first.
-/

namespace LittleEndian

/-- The lowest `count` bytes of `value`. -/
def encode : (count : Nat) → (value : Nat) → List UInt8
  | 0, _ => []
  | count + 1, value => .ofNat value :: encode count (value / 256)

def decode : List UInt8 → Nat
  | [] => 0
  | byte :: rest => byte.toNat + 256 * decode rest

@[simp] theorem length_encode (count value : Nat) : (encode count value).length = count := by
  induction count generalizing value with
  | zero => rfl
  | succ count ih => simp only [encode, List.length_cons, ih]

theorem decode_lt (bytes : List UInt8) : decode bytes < 256 ^ bytes.length := by
  induction bytes with
  | nil => decide
  | cons byte rest ih =>
  have small : byte.toNat < 256 := byte.toNat_lt
  simp only [decode, List.length_cons, pow_succ]
  omega

theorem decode_encode {count value : Nat} (fits : value < 256 ^ count) : decode (encode count value) = value := by
  induction count generalizing value with
  | zero =>
    simp only [pow_zero, Nat.lt_one_iff] at fits
    simp only [encode, decode, fits]
  | succ count ih =>
  have rest : value / 256 < 256 ^ count := by
    exact Nat.div_lt_of_lt_mul (by omega)
  have low : (UInt8.ofNat value).toNat = value % 256 := UInt8.toNat_ofNat'
  simp only [encode, decode, ih rest, low]
  omega

theorem drop_encode (count value : Nat) (rest : List UInt8) : (encode count value ++ rest).drop count = rest :=
  List.drop_left' (length_encode count value)

theorem decode_take {count value : Nat} (fits : value < 256 ^ count) (rest : List UInt8) :
    decode ((encode count value ++ rest).take count) = value := by
  rw [List.take_left' (length_encode count value), decode_encode fits]

theorem encode_decode (bytes : List UInt8) : encode bytes.length (decode bytes) = bytes := by
  induction bytes with
  | nil => rfl
  | cons byte rest ih =>
  have small : byte.toNat < 256 := byte.toNat_lt
  have high : (byte.toNat + 256 * decode rest) / 256 = decode rest := by omega
  have low : UInt8.ofNat (byte.toNat + 256 * decode rest) = byte := by
    apply UInt8.toNat_inj.mp
    rw [UInt8.toNat_ofNat']
    omega
  simp only [List.length_cons, encode, decode, high, low, ih]

end LittleEndian
