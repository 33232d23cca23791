import Mathlib.Algebra.Order.Ring.Nat
import Mathlib.Data.Nat.Bitwise
import Mathlib.Tactic.Ring

/-!
# `Libcage.Lib.Limbs`: numbers written in limbs

A number of `n` limbs of `w` bits is a digit function, limb `0` the most
significant one, and `horner w d n` is the number it denotes. The definition
follows Horner's rule, so a loop that runs from the last limb to the first is
proved by induction on the limbs that are left: `horner_succ` splits the last
limb off. A loop that runs from the first limb to the last is proved by
induction on `lastLimbs`, the number the last `k` limbs denote, whose step
lemma `lastLimbs_succ` splits the first limb off.

`horner_testBit` reads a bit of the number as a bit of a limb, which is what
every shift and every bitwise operator needs.
-/

set_option autoImplicit false

namespace Libcage.Lib

variable {w n k : Nat} {d e : Nat → Nat}

/-- The number whose limbs of `w` bits are `d 0`, …, `d (n - 1)`, most
significant limb first. -/
def horner (w : Nat) (d : Nat → Nat) : Nat → Nat
  | 0 => 0
  | n + 1 => horner w d n * 2 ^ w + d n

/-- The number the last `k` of the `n` limbs denote. -/
def lastLimbs (w : Nat) (d : Nat → Nat) (n k : Nat) : Nat :=
  horner w (fun j => d (n - k + j)) k

@[simp] theorem horner_zero (w : Nat) (d : Nat → Nat) : horner w d 0 = 0 := rfl

theorem horner_succ (w : Nat) (d : Nat → Nat) (n : Nat) :
    horner w d (n + 1) = horner w d n * 2 ^ w + d n := rfl

/-- Only the first `n` limbs count. -/
theorem horner_congr (h : ∀ i < n, d i = e i) : horner w d n = horner w e n := by
  induction n with
  | zero => rfl
  | succ n ih =>
    rw [horner_succ, horner_succ, ih (fun i hi => h i (by omega)), h n (by omega)]

/-- A number of `n` limbs is below `2 ^ (w * n)`. -/
theorem horner_lt (h : ∀ i < n, d i < 2 ^ w) : horner w d n < 2 ^ (w * n) := by
  induction n with
  | zero => simp
  | succ n ih =>
    have hlow := h n (by omega)
    have hhigh := ih (fun i hi => h i (by omega))
    calc horner w d (n + 1)
        < horner w d n * 2 ^ w + 2 ^ w := by rw [horner_succ]; omega
      _ = (horner w d n + 1) * 2 ^ w := by ring
      _ ≤ 2 ^ (w * n) * 2 ^ w := Nat.mul_le_mul_right _ hhigh
      _ = 2 ^ (w * (n + 1)) := by rw [Nat.mul_succ, pow_add]

/-- A number splits at every limb. -/
theorem horner_add (w : Nat) (d : Nat → Nat) (m k : Nat) :
    horner w d (m + k) = horner w d m * 2 ^ (w * k) + horner w (fun j => d (m + j)) k := by
  induction k with
  | zero => simp
  | succ k ih =>
    rw [← Nat.add_assoc, horner_succ, horner_succ, ih, Nat.mul_succ, pow_add]
    ring

/-- The most significant limb first. -/
theorem horner_cons (w : Nat) (d : Nat → Nat) (n : Nat) :
    horner w d (n + 1) = d 0 * 2 ^ (w * n) + horner w (fun j => d (1 + j)) n := by
  rw [Nat.add_comm n 1, horner_add]
  simp [horner_succ]

@[simp] theorem lastLimbs_zero (w : Nat) (d : Nat → Nat) (n : Nat) : lastLimbs w d n 0 = 0 := rfl

@[simp] theorem lastLimbs_self (w : Nat) (d : Nat → Nat) (n : Nat) :
    lastLimbs w d n n = horner w d n := by
  simp [lastLimbs]

theorem lastLimbs_succ (hk : k + 1 ≤ n) :
    lastLimbs w d n (k + 1) = d (n - (k + 1)) * 2 ^ (w * k) + lastLimbs w d n k := by
  rw [lastLimbs, horner_cons, lastLimbs]
  have hcongr : ∀ j < k, d (n - (k + 1) + (1 + j)) = d (n - k + j) := by
    intro j _
    congr 1
    omega
  rw [horner_congr hcongr, Nat.add_zero]

theorem lastLimbs_lt (hk : k ≤ n) (h : ∀ i < n, d i < 2 ^ w) :
    lastLimbs w d n k < 2 ^ (w * k) :=
  horner_lt (fun j hj => h _ (by omega))

/-- Numbers with a greater leading limb are greater, whatever the limbs behind
it are. -/
theorem lastLimbs_lt_of_limb_lt (hk : k + 1 ≤ n) (hd : ∀ i < n, d i < 2 ^ w)
    (hlt : d (n - (k + 1)) < e (n - (k + 1))) :
    lastLimbs w d n (k + 1) < lastLimbs w e n (k + 1) := by
  have hlow := lastLimbs_lt (k := k) (by omega) hd
  rw [lastLimbs_succ hk, lastLimbs_succ hk]
  calc d (n - (k + 1)) * 2 ^ (w * k) + lastLimbs w d n k
      < d (n - (k + 1)) * 2 ^ (w * k) + 2 ^ (w * k) := by omega
    _ = (d (n - (k + 1)) + 1) * 2 ^ (w * k) := by ring
    _ ≤ e (n - (k + 1)) * 2 ^ (w * k) := Nat.mul_le_mul_right _ hlt
    _ ≤ _ := Nat.le_add_right _ _

/-- Numbers compare by their first limbs, and by the rest where these agree. -/
theorem lastLimbs_succ_lt_iff (hk : k + 1 ≤ n) (hd : ∀ i < n, d i < 2 ^ w)
    (he : ∀ i < n, e i < 2 ^ w) :
    lastLimbs w d n (k + 1) < lastLimbs w e n (k + 1) ↔
      d (n - (k + 1)) < e (n - (k + 1)) ∨
        d (n - (k + 1)) = e (n - (k + 1)) ∧ lastLimbs w d n k < lastLimbs w e n k := by
  obtain hlt | heq | hgt := Nat.lt_trichotomy (d (n - (k + 1))) (e (n - (k + 1)))
  · simp [hlt, lastLimbs_lt_of_limb_lt hk hd hlt]
  · simp [lastLimbs_succ hk, heq]
  · have hge := lastLimbs_lt_of_limb_lt hk he hgt
    simp [Nat.not_lt.mpr hge.le, Nat.not_lt.mpr hgt.le, hgt.ne']

/-- Numbers are equal if their first limbs and the rest are. -/
theorem lastLimbs_succ_eq_iff (hk : k + 1 ≤ n) (hd : ∀ i < n, d i < 2 ^ w)
    (he : ∀ i < n, e i < 2 ^ w) :
    lastLimbs w d n (k + 1) = lastLimbs w e n (k + 1) ↔
      d (n - (k + 1)) = e (n - (k + 1)) ∧ lastLimbs w d n k = lastLimbs w e n k := by
  have hlt := lastLimbs_succ_lt_iff hk hd he
  have hgt := lastLimbs_succ_lt_iff hk he hd
  omega

/-- The limbs of a number are determined by the number. -/
theorem horner_inj (hd : ∀ i < n, d i < 2 ^ w) (he : ∀ i < n, e i < 2 ^ w)
    (h : horner w d n = horner w e n) : ∀ i < n, d i = e i := by
  induction n with
  | zero => simp
  | succ n ih =>
    rw [horner_succ, horner_succ] at h
    have hlow : d n = e n := by
      have := congrArg (· % 2 ^ w) h
      simpa only [Nat.mul_add_mod_of_lt (hd n (by omega)),
        Nat.mul_add_mod_of_lt (he n (by omega))] using this
    have hhigh : horner w d n = horner w e n := by
      rw [hlow] at h
      exact Nat.eq_of_mul_eq_mul_right (Nat.two_pow_pos w) (Nat.add_right_cancel h)
    intro i hi
    obtain rfl | hlt := Nat.eq_or_lt_of_le (Nat.le_of_lt_succ hi)
    · exact hlow
    · exact ih (fun i hi => hd i (by omega)) (fun i hi => he i (by omega)) hhigh i hlt

/-- Bit `t` of a number is bit `t % w` of limb `t / w`, counted from the last. -/
theorem horner_testBit (hw : 0 < w) (h : ∀ i < n, d i < 2 ^ w) (t : Nat) :
    (horner w d n).testBit t = (decide (t < w * n) && (d (n - 1 - t / w)).testBit (t % w)) := by
  induction n generalizing t with
  | zero => simp
  | succ n ih =>
    rw [horner_succ, Nat.mul_comm, Nat.testBit_two_pow_mul_add _ (h n (by omega))]
    by_cases ht : t < w
    · have hlt : t < w * (n + 1) := Nat.lt_of_lt_of_le ht (Nat.le_mul_of_pos_right w (by omega))
      simp [ht, hlt, Nat.div_eq_of_lt ht, Nat.mod_eq_of_lt ht]
    · -- one limb down, the quotient drops by one and the remainder stays
      have hle : w ≤ t := Nat.le_of_not_lt ht
      have hdiv : t / w = (t - w) / w + 1 := Nat.div_eq_sub_div hw hle
      have hmod : t % w = (t - w) % w := Nat.mod_eq_sub_mod hle
      have hrange : t - w < w * n ↔ t < w * (n + 1) := by rw [Nat.mul_succ]; omega
      have hlimb : n + 1 - 1 - t / w = n - 1 - (t - w) / w := by omega
      rw [if_neg ht, ih (fun i hi => h i (by omega)), hmod, hlimb, decide_eq_decide.mpr hrange]

end Libcage.Lib
