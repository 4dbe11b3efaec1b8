import Mathlib

/-!
# Alignment

Rounding to multiples of a power of two by masks, in machine words, and what it
means for numbers.
-/

namespace Align

/-- Pairs are indexed by `Fin 2`. -/
instance neZero_two : NeZero 2 := ⟨two_ne_zero⟩

open BitVec

variable {width : Nat}

/-- `value & ~(align - 1)`. -/
def down (value align : BitVec width) : BitVec width := value &&& ~~~(align - 1)

/-- `(value + align - 1) & ~(align - 1)`. -/
def up (value align : BitVec width) : BitVec width := down (value + align - 1) align

/-- The next multiple of `2 ^ bits`. -/
def nextMultiple (bits value : Nat) : Nat := (value + (2 ^ bits - 1)) / 2 ^ bits * 2 ^ bits

theorem nextMultiple_bounds (bits value : Nat) :
    value ≤ nextMultiple bits value ∧ nextMultiple bits value ≤ value + (2 ^ bits - 1) := by
  unfold nextMultiple
  have division := Nat.div_add_mod (value + (2 ^ bits - 1)) (2 ^ bits)
  rw [mul_comm] at division
  omega

theorem nextMultiple_dvd (bits value : Nat) : 2 ^ bits ∣ nextMultiple bits value := dvd_mul_left _ _

theorem nextMultiple_add {bits base : Nat} (aligned : 2 ^ bits ∣ base) (value : Nat) :
    nextMultiple bits (base + value) = base + nextMultiple bits value := by
  obtain ⟨count, rfl⟩ := aligned
  have positive : 0 < 2 ^ bits := Nat.two_pow_pos bits
  unfold nextMultiple
  rw [Nat.add_assoc, Nat.mul_add_div positive, Nat.add_mul, Nat.mul_comm count]

theorem add_step_le {bits value limit : Nat} (aligned : 2 ^ bits ∣ value)
    (alignedLimit : 2 ^ bits ∣ limit) (below : value < limit) : value + 2 ^ bits ≤ limit := by
  obtain ⟨first, rfl⟩ := aligned
  obtain ⟨second, rfl⟩ := alignedLimit
  have less : first < second := Nat.lt_of_mul_lt_mul_left below
  calc 2 ^ bits * first + 2 ^ bits = 2 ^ bits * (first + 1) := (Nat.mul_succ _ _).symm
    _ ≤ 2 ^ bits * second := Nat.mul_le_mul_left _ less

theorem toNat_and_not_mask {value mask : BitVec width} {bits : Nat} (ones : mask.toNat = 2 ^ bits - 1) :
    (value &&& ~~~mask).toNat = value.toNat / 2 ^ bits * 2 ^ bits := by
  apply Nat.eq_of_testBit_eq
  intro i
  have maskBit : mask.getLsbD i = decide (i < bits) := by
    rw [BitVec.getLsbD, ones, Nat.testBit_two_pow_sub_one]
  have left : (value &&& ~~~mask).toNat.testBit i = (value &&& ~~~mask).getLsbD i := rfl
  have outside : width ≤ i → value.getLsbD i = false := getLsbD_of_ge value i
  rw [left, getLsbD_and, getLsbD_not, maskBit, Nat.testBit_mul_two_pow, Nat.testBit_div_two_pow]
  by_cases below : i < bits
  · simp [below, show ¬bits ≤ i by omega]
  rw [Nat.sub_add_cancel (by omega)]
  by_cases inside : i < width
  · simp [below, inside, show bits ≤ i by omega, BitVec.getLsbD]
  · simp [outside (by omega), show value.toNat.testBit i = false from outside (by omega)]

theorem one_toNat (wide : 0 < width) : (1 : BitVec width).toNat = 1 := by
  simp [Nat.mod_eq_of_lt (Nat.one_lt_two_pow (by omega : width ≠ 0))]

theorem mask_toNat (wide : 0 < width) {align : BitVec width} {bits : Nat}
    (power : align.toNat = 2 ^ bits) : (align - 1).toNat = 2 ^ bits - 1 := by
  have positive : 0 < 2 ^ bits := Nat.two_pow_pos bits
  have one := one_toNat wide
  rw [toNat_sub_of_le (by rw [le_def, one, power]; omega), power, one]

theorem down_toNat (wide : 0 < width) (value : BitVec width) {align : BitVec width} {bits : Nat}
    (power : align.toNat = 2 ^ bits) : (down value align).toNat = value.toNat / 2 ^ bits * 2 ^ bits :=
  toNat_and_not_mask (mask_toNat wide power)

theorem up_toNat (wide : 0 < width) {value align : BitVec width} {bits : Nat} (power : align.toNat = 2 ^ bits)
    (room : value.toNat + (2 ^ bits - 1) < 2 ^ width) : (up value align).toNat = nextMultiple bits value.toNat := by
  unfold up nextMultiple
  rw [down_toNat wide _ power, add_sub_assoc, toNat_add, mask_toNat wide power, Nat.mod_eq_of_lt room]

theorem cast_toNat {value : Nat} (below : value < 2 ^ width) : (value : BitVec width).toNat = value := by
  simp [Nat.mod_eq_of_lt below]

theorem cast_self (value : BitVec width) : ((value.toNat : Nat) : BitVec width) = value := by
  apply eq_of_toNat_eq
  rw [cast_toNat value.isLt]

end Align
