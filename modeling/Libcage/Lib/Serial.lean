import Mathlib.Data.BitVec
import Mathlib.Tactic.Common

/-!
# `Libcage.Lib.Serial`: serial numbers

Serial numbers of a fixed width count upward from a base and wrap around.
`num base k` is the number `k` steps above `base`. Protocol code compares two
numbers by the difference to a third one, `x - base ≤ y - base`. The lemmas turn
such differences back into natural numbers, as long as the counters are less than
one lap apart.
-/

set_option autoImplicit false

namespace Libcage.Lib

variable {w : Nat}

/-- The serial number `k` steps above `base`. -/
def num (base : BitVec w) (k : Nat) : BitVec w := base + BitVec.ofNat w k

@[simp] theorem num_zero (base : BitVec w) : num base 0 = base := by
  simp [num]

/-- The next number is one more. -/
theorem num_succ (base : BitVec w) (k : Nat) : num base (k + 1) = num base k + 1 := by
  rw [num, num, BitVec.add_assoc]
  congr 1
  exact BitVec.ofNat_add k 1

/-- Counting on from a number counts on from its base. -/
theorem num_num (base : BitVec w) (j k : Nat) : num (num base j) k = num base (j + k) := by
  rw [num, num, num, BitVec.add_assoc, BitVec.ofNat_add]

/-- Some steps back from a number. -/
theorem num_add_sub (base : BitVec w) (j k : Nat) :
    num base (j + k) - BitVec.ofNat w k = num base j := by
  rw [← num_num, num, add_sub_cancel_right]

/-- Every number is some steps above the base. -/
theorem num_toNat_sub (base x : BitVec w) : num base (x - base).toNat = x := by
  rw [num, BitVec.ofNat_toNat, BitVec.setWidth_eq, add_sub_cancel]

/-- The difference of two numbers over one base. -/
theorem num_sub_num (base : BitVec w) {j k : Nat} (h : j ≤ k) :
    num base k - num base j = BitVec.ofNat w (k - j) := by
  obtain ⟨d, rfl⟩ := Nat.exists_eq_add_of_le h
  rw [← num_num, Nat.add_sub_cancel_left, num, add_sub_cancel_left]

/-- The difference of two numbers less than a lap apart, the higher one first. -/
theorem toNat_num_sub_num_of_le (base : BitVec w) {j k : Nat} (h : j ≤ k)
    (hk : k - j < 2 ^ w) : (num base k - num base j).toNat = k - j := by
  rw [num_sub_num base h, BitVec.toNat_ofNat, Nat.mod_eq_of_lt hk]

/-- Numbers less than a lap apart are equal only at equal counts. -/
theorem num_inj (base : BitVec w) {j k : Nat} (h : j ≤ k) (hk : k - j < 2 ^ w)
    (he : num base j = num base k) : j = k := by
  have hd := toNat_num_sub_num_of_le base h hk
  rw [he, sub_self] at hd
  have hzero : (0 : BitVec w).toNat = 0 := by simp
  omega

/-- The signed difference of two numbers less than half a lap apart. -/
theorem toInt_num_sub_num (base : BitVec w) {j k : Nat} (hlo : -2 ^ w ≤ ((j : Int) - k) * 2)
    (hhi : ((j : Int) - k) * 2 < 2 ^ w) : (num base j - num base k).toInt = (j : Int) - k := by
  have hdiff : num base j - num base k = BitVec.ofInt w ((j : Int) - k) := by
    rw [num, num, add_sub_add_left_eq_sub, sub_eq_add_neg (j : Int), BitVec.ofInt_add,
      BitVec.ofInt_neg, BitVec.ofInt_natCast, BitVec.ofInt_natCast, ← sub_eq_add_neg]
  rw [hdiff, BitVec.toInt_ofInt]
  exact Int.bmod_eq_of_le_mul_two (by push_cast; omega) (by push_cast; omega)

end Libcage.Lib
