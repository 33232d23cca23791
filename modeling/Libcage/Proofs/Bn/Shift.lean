import Libcage.Proofs.Bn.Digits

/-!
# `Libcage.Proofs.Bn.Shift`: the shifts

The loops that move limbs read each limb before they overwrite it, so the array
they leave is given limb by limb (`limbAt_moveBack`, `limbAt_moveFront`,
`limbAt_carryBack`, `limbAt_carryFront`). `limbAt_shiftLeftBits` and
`limbAt_shiftRightBits` put a whole shift together, and bit by bit it is the
shift of the number (`num_shiftLeftBits`, `num_shiftRightBits`).
-/

set_option autoImplicit false

namespace Libcage.Bn

open Lib

variable {N : Nat}

/-! ## The loops -/

theorem limbAt_moveBack (n : Nat) {i : Nat} (h : i ≤ N) (arr : Limbs N) (j : Nat) :
    limbAt (moveBack n i h arr) j =
      if n ≤ j ∧ j < i then limbAt arr (j - n) else limbAt arr j := by
  induction i generalizing arr with
  | zero => simp [moveBack]
  | succ i ih =>
    rw [moveBack]
    split
    · rw [ih, limbAt_set, limbAt_set, ← limbAt_eq]
      grind
    · rw [if_neg (by omega)]

theorem limbAt_moveFront (n : Nat) {k : Nat} (h : k + n ≤ N) (arr : Limbs N) (j : Nat) :
    limbAt (moveFront n k h arr) j =
      if N - n - k ≤ j ∧ j < N - n then limbAt arr (j + n) else limbAt arr j := by
  induction k generalizing arr with
  | zero => rw [moveFront, if_neg (by omega)]
  | succ k ih =>
    rw [moveFront, ih, limbAt_set, limbAt_set, ← limbAt_eq]
    grind

theorem limbAt_zeroFrom {lo k : Nat} (h : lo + k ≤ N) (arr : Limbs N) (j : Nat) :
    limbAt (zeroFrom lo k h arr) j = if lo ≤ j ∧ j < lo + k then 0 else limbAt arr j := by
  induction k generalizing lo arr with
  | zero => rw [zeroFrom, if_neg (by omega)]
  | succ k ih =>
    rw [zeroFrom, ih, limbAt_set]
    grind

/-- The limb that a shift to the right by `m` bits makes of a limb and the one
before it. -/
def shiftedBack (m : Nat) (x before : Limb) : Limb :=
  (x >>> m) ||| (((((1 : Limb) <<< m) - 1) &&& before) <<< (32 - m))

/-- The limb that a shift to the left by `m` bits makes of a limb and the one
behind it. -/
def shiftedFront (m : Nat) (x behind : Limb) : Limb := (x <<< m) ||| (behind >>> (32 - m))

theorem limbAt_carryBack (n m : Nat) {i : Nat} (h : i ≤ N) (arr : Limbs N) (j : Nat) :
    limbAt (carryBack n m i h arr) j =
      if n + 1 ≤ j ∧ j < i then shiftedBack m (limbAt arr j) (limbAt arr (j - 1))
      else limbAt arr j := by
  induction i generalizing arr with
  | zero => simp [carryBack]
  | succ i ih =>
    rw [carryBack]
    split
    · rw [ih, limbAt_set, limbAt_set, ← limbAt_eq arr, ← limbAt_eq arr]
      grind [shiftedBack]
    · rw [if_neg (by omega)]

theorem limbAt_carryFront (n m : Nat) {k : Nat} (h : k + n + 1 ≤ N) (arr : Limbs N) (j : Nat) :
    limbAt (carryFront n m k h arr) j =
      if N - n - 1 - k ≤ j ∧ j < N - n - 1 then
        shiftedFront m (limbAt arr j) (limbAt arr (j + 1))
      else limbAt arr j := by
  induction k generalizing arr with
  | zero => rw [carryFront, if_neg (by omega)]
  | succ k ih =>
    rw [carryFront, ih, limbAt_set, limbAt_set, ← limbAt_eq arr, ← limbAt_eq arr]
    grind [shiftedFront]

theorem ushiftRight_width (x : Limb) : x >>> (32 : Nat) = 0 :=
  BitVec.ushiftRight_eq_zero (Nat.le_refl 32)

@[simp] theorem shiftedFront_zero (x behind : Limb) : shiftedFront 0 x behind = x := by
  simp [shiftedFront, ushiftRight_width]

@[simp] theorem shiftedBack_zero (x before : Limb) : shiftedBack 0 x before = x := by
  simp [shiftedBack]

theorem shiftedFront_last (m : Nat) (x : Limb) : shiftedFront m x 0 = x <<< m := by
  simp [shiftedFront]

theorem shiftedBack_first (m : Nat) (x : Limb) : shiftedBack m x 0 = x >>> m := by
  simp [shiftedBack]

/-! ## Whole shifts, limb by limb -/

/-- Moving `n` limbs to the front and clearing the last ones drops `n` limbs. -/
theorem limbAt_dropFront {n : Nat} (hn : n ≤ N) (arr : Limbs N) (j : Nat) :
    limbAt (zeroFrom (N - n) n (by omega) (moveFront n (N - n) (by omega) arr)) j =
      limbAt arr (j + n) := by
  rw [limbAt_zeroFrom, limbAt_moveFront]
  grind [limbAt_of_le]

/-- Moving the limbs back and clearing the first ones drops the last `n` limbs. -/
theorem limbAt_dropBack {n : Nat} (hn : n ≤ N) (arr : Limbs N) {j : Nat} (hj : j < N) :
    limbAt (zeroFrom 0 n (by omega) (moveBack n N (Nat.le_refl N) arr)) j =
      if j < n then 0 else limbAt arr (j - n) := by
  rw [limbAt_zeroFrom, limbAt_moveBack]
  grind

/-- A shift by at most the width to the left: limb `j` is made of the limbs `n`
and `n + 1` behind it. -/
theorem limbAt_shiftLeftBits {bits : Nat} (h : bits ≤ 32 * N) (arr : Limbs N) :
    ∃ res, shiftLeftBits bits arr = some res ∧ ∀ j < N, limbAt res j =
      shiftedFront (bits % 32) (limbAt arr (j + bits / 32)) (limbAt arr (j + bits / 32 + 1)) := by
  have hn : bits / 32 ≤ N := by omega
  rw [shiftLeftBits, dif_pos hn]
  split
  next hm =>
    -- whole limbs only: with `N ≤ n` nothing but the full width is left
    have hm0 : bits % 32 = 0 := by omega
    exact ⟨_, rfl, fun j _ => by rw [limbAt_dropFront hn, hm0, shiftedFront_zero]⟩
  next hm =>
    refine ⟨_, rfl, fun j hj => ?_⟩
    rw [limbAt_set, ← limbAt_eq]
    simp only [limbAt_carryFront, limbAt_dropFront hn]
    obtain hlt | rfl | hgt := Nat.lt_trichotomy j (N - bits / 32 - 1)
    · rw [if_neg (by omega), if_pos (by omega), Nat.add_right_comm]
    · rw [if_pos rfl, if_neg (by omega), limbAt_of_le (i := _ + 1) (by omega), shiftedFront_last]
    · rw [if_neg (by omega), if_neg (by omega), limbAt_of_le (by omega),
        limbAt_of_le (i := _ + 1) (by omega)]
      simp [shiftedFront]

/-- A shift by at most the width to the right: limb `j` is made of the limbs `n`
and `n + 1` before it. -/
theorem limbAt_shiftRightBits {bits : Nat} (h : bits ≤ 32 * N) (arr : Limbs N) :
    ∃ res, shiftRightBits bits arr = some res ∧ ∀ j < N, limbAt res j =
      shiftedBack (bits % 32) (if j < bits / 32 then 0 else limbAt arr (j - bits / 32))
        (if j < bits / 32 + 1 then 0 else limbAt arr (j - bits / 32 - 1)) := by
  have hn : bits / 32 ≤ N := by omega
  rw [shiftRightBits, dif_pos hn]
  split
  next hm =>
    have hm0 : bits % 32 = 0 := by omega
    exact ⟨_, rfl, fun j hj => by rw [limbAt_dropBack hn arr hj, hm0, shiftedBack_zero]⟩
  next hm =>
    refine ⟨_, rfl, fun j hj => ?_⟩
    rw [limbAt_set, ← limbAt_eq]
    simp only [limbAt_carryBack]
    obtain hlt | rfl | hgt := Nat.lt_trichotomy j (bits / 32)
    · rw [if_neg (by omega), if_neg (by omega), limbAt_dropBack hn arr hj, if_pos hlt,
        if_pos (by omega)]
      simp [shiftedBack]
    · rw [if_pos rfl, if_neg (by omega), limbAt_dropBack hn arr hj, if_pos (Nat.lt_succ_self _),
        shiftedBack_first]
    · rw [if_neg (by omega), if_pos (by omega), limbAt_dropBack hn arr hj,
        limbAt_dropBack hn arr (j := j - 1) (by omega), if_neg (by omega), if_neg (by omega),
        if_neg (by omega), Nat.sub_right_comm]

/-! ## Whole shifts, as numbers -/

/-- A bit of a limb shifted to the left comes from the limb, or from the one
behind it. -/
theorem getLsbD_shiftedFront {m r : Nat} (hm : m < 32) (hr : r < 32) (x behind : Limb) :
    (shiftedFront m x behind).getLsbD r =
      if m ≤ r then x.getLsbD (r - m) else behind.getLsbD (32 - m + r) := by
  rw [shiftedFront, BitVec.getLsbD_or, BitVec.getLsbD_shiftLeft, BitVec.getLsbD_ushiftRight]
  split
  next hle =>
    rw [BitVec.getLsbD_of_ge behind _ (by omega)]
    simp [hr, Nat.not_lt.mpr hle]
  next hlt => simp [hr, Nat.not_le.mp hlt]

/-- The mask of `shift_right` holds the last `m` bits. -/
theorem getLsbD_mask {m : Nat} (hm : m < 32) (i : Nat) :
    (((1 : Limb) <<< m) - 1).getLsbD i = decide (i < m) := by
  have hpow : 2 ^ m < 2 ^ 32 := Nat.pow_lt_pow_right (by decide) hm
  have hpos := Nat.two_pow_pos m
  have hnum : (((1 : Limb) <<< m) - 1).toNat = 2 ^ m - 1 := by
    have hshift : ((1 : Limb) <<< m).toNat = 2 ^ m := by
      rw [BitVec.toNat_shiftLeft, Nat.shiftLeft_eq]
      exact (Nat.mod_eq_of_lt (by simpa using hpow)).trans (Nat.one_mul _)
    have hone : (1 : Limb).toNat = 1 := rfl
    rw [BitVec.toNat_sub, hshift, hone]
    omega
  rw [BitVec.getLsbD, hnum, Nat.testBit_two_pow_sub_one]

/-- A bit of a limb shifted to the right comes from the limb, or from the one
before it. -/
theorem getLsbD_shiftedBack {m r : Nat} (hm : m < 32) (hr : r < 32) (x before : Limb) :
    (shiftedBack m x before).getLsbD r =
      if r + m < 32 then x.getLsbD (r + m) else before.getLsbD (r + m - 32) := by
  rw [shiftedBack, BitVec.getLsbD_or, BitVec.getLsbD_shiftLeft, BitVec.getLsbD_ushiftRight,
    BitVec.getLsbD_and, getLsbD_mask hm]
  split
  next hlt =>
    have hout : r < 32 - m := by omega
    simp [hout, Nat.add_comm]
  next hge =>
    have hin : ¬ r < 32 - m := by omega
    have hidx : r - (32 - m) = r + m - 32 := by omega
    have hlow : r + m - 32 < m := by omega
    rw [BitVec.getLsbD_of_ge x _ (by omega)]
    simp [hr, hin, hlow, hidx]

/-- A shift to the left by at most the width multiplies by a power of two. -/
theorem num_shiftLeftBits {bits : Nat} (h : bits ≤ 32 * N) (arr : Limbs N) :
    ∃ res, shiftLeftBits bits arr = some res ∧ num res = num arr * 2 ^ bits % 2 ^ (32 * N) := by
  obtain ⟨res, hres, hlimb⟩ := limbAt_shiftLeftBits h arr
  refine ⟨res, hres, Nat.eq_of_testBit_eq fun t => ?_⟩
  rw [num_testBit, Nat.testBit_mod_two_pow, Nat.testBit_mul_two_pow, num_testBit]
  by_cases ht : t < 32 * N
  · rw [hlimb _ (by omega), getLsbD_shiftedFront (by omega) (by omega), decide_eq_true ht,
      Bool.true_and, Bool.true_and, decide_eq_true (show t - bits < 32 * N by omega),
      Bool.true_and]
    by_cases hle : bits ≤ t
    · -- the bit comes from `bits` places behind, in the same limb or in the next one
      rw [decide_eq_true hle, Bool.true_and]
      split
      · congr 2 <;> omega
      · congr 2 <;> omega
    · rw [decide_eq_false hle, Bool.false_and]
      split
      · rw [limbAt_of_le (by omega)]
        exact BitVec.getLsbD_zero
      · rw [limbAt_of_le (by omega)]
        exact BitVec.getLsbD_zero
  · simp [ht]

/-- A shift to the right by at most the width divides by a power of two. -/
theorem num_shiftRightBits {bits : Nat} (h : bits ≤ 32 * N) (arr : Limbs N) :
    ∃ res, shiftRightBits bits arr = some res ∧ num res = num arr / 2 ^ bits := by
  obtain ⟨res, hres, hlimb⟩ := limbAt_shiftRightBits h arr
  refine ⟨res, hres, Nat.eq_of_testBit_eq fun t => ?_⟩
  rw [num_testBit, Nat.testBit_div_two_pow, num_testBit]
  by_cases ht : t < 32 * N
  · rw [hlimb _ (by omega), getLsbD_shiftedBack (by omega) (by omega), decide_eq_true ht,
      Bool.true_and]
    by_cases hin : t + bits < 32 * N
    · rw [decide_eq_true hin, Bool.true_and]
      split
      · rw [if_neg (by omega)]
        congr 2 <;> omega
      · rw [if_neg (by omega)]
        congr 2 <;> omega
    · rw [decide_eq_false hin, Bool.false_and]
      split
      · rw [if_pos (by omega)]
        exact BitVec.getLsbD_zero
      · rw [if_pos (by omega)]
        exact BitVec.getLsbD_zero
  · have hout : ¬ t + bits < 32 * N := by omega
    simp [ht, hout]

end Libcage.Bn
