import Libcage.Proofs.Bn.Arithmetic
import Mathlib.Data.Int.ModEq

/-!
# `Libcage.Proofs.Bn.Modular`: what the arithmetic operators compute

`+`, `+=` and `*` of two numbers and `+` and `-` of a limb are the sum, the
product and the difference modulo `2 ^ (32 * N)`. `-` of two numbers is the
difference unless a limb makes a false borrow, and `*` of a limb is the product
unless a limb gives a carry, since the loop drops it (`modular_iff`).
-/

set_option autoImplicit false

namespace Libcage.Bn

open Lib

variable {N : Nat}

/-- What an operand of an assignment form denotes: another object, or the
object assigned to. -/
inductive Operand.Denotes (a : Bn N) : Operand N → Bn N → Prop
  | other (b : Bn N) : Denotes a (other b) b
  | self : Denotes a self a

theorem Operand.Denotes.isLocal {a b : Bn N} {rhs : Operand N} (h : rhs.Denotes a b) :
    rhs.Local := by
  cases h with
  | other => exact other_local b
  | self => exact self_local

theorem Operand.Denotes.read {a b : Bn N} {rhs : Operand N} (h : rhs.Denotes a b) :
    rhs a.mNum = b.mNum := by
  cases h <;> rfl

/-- A difference modulo `m`, as a sum. -/
theorem eq_sub_emod_iff {x a b m : Nat} (hx : x < m) :
    (x : ℤ) = ((a : ℤ) - b) % m ↔ x + b ≡ a [MOD m] := by
  have hmod : (x : ℤ) % m = x := Int.emod_eq_of_lt (by omega) (by omega)
  rw [← Int.natCast_modEq_iff, Nat.cast_add, ← hmod]
  constructor
  · intro h
    have hsub : (x : ℤ) ≡ a - b [ZMOD m] := h
    simpa [hmod] using hsub.add_right b
  · intro h
    have hsub := h.sub_right b
    rw [hmod, add_sub_cancel_right] at hsub
    exact hsub

/-! ## Whole loops -/

section Loops

variable {mNum rhs : Operand N}

theorem num_loopBn_plus (hm : mNum.Local) (hr : rhs.Local) (n : Limbs N) :
    num (loopBn plusRound mNum rhs N (Nat.le_refl N) n 0) =
      (num (mNum n) + num (rhs n)) % 2 ^ (32 * N) := by
  obtain ⟨out, hout⟩ := loopBn_plus hm hr N (Nat.le_refl N) n 0 (by decide)
  have hlt := num_lt (loopBn plusRound mNum rhs N (Nat.le_refl N) n 0)
  have hsum : num (mNum n) + num (rhs n) =
      num (loopBn plusRound mNum rhs N (Nat.le_refl N) n 0) + out * 2 ^ (32 * N) := hout.symm
  rw [hsum, Nat.add_mul_mod_self_right, Nat.mod_eq_of_lt hlt]

theorem num_macroT_plus (hm : mNum.Local) (pos : 0 < N) (n : Limbs N) (t : Limb) :
    num (macroT plusRoundT mNum pos n t) = (num (mNum n) + t.toNat) % 2 ^ (32 * N) := by
  rw [macroT_eq_loopT]
  obtain ⟨out, hout⟩ := loopT_plus hm N (Nat.le_refl N) n t
  have hlt := num_lt (loopT plusRoundT mNum N (Nat.le_refl N) n t)
  have hsum : num (mNum n) + t.toNat =
      num (loopT plusRoundT mNum N (Nat.le_refl N) n t) + out * 2 ^ (32 * N) := hout.symm
  rw [hsum, Nat.add_mul_mod_self_right, Nat.mod_eq_of_lt hlt]

theorem num_macroT_minus (hm : mNum.Local) (pos : 0 < N) (n : Limbs N) (t : Limb) :
    (num (macroT minusRoundT mNum pos n t) : ℤ) =
      ((num (mNum n) : ℤ) - t.toNat) % (2 ^ (32 * N) : ℕ) := by
  rw [macroT_eq_loopT, eq_sub_emod_iff (num_lt _)]
  obtain ⟨out, hout⟩ := loopT_minus hm N (Nat.le_refl N) n t
  have hdiff : num (loopT minusRoundT mNum N (Nat.le_refl N) n t) + t.toNat =
      num (mNum n) + out * 2 ^ (32 * N) := hout
  rw [hdiff]
  simp [Nat.ModEq]

theorem num_loopBn_minus (hm : mNum.Local) (hr : rhs.Local) (n : Limbs N) :
    (num (loopBn minusRound mNum rhs N (Nat.le_refl N) n 0) : ℤ) =
        ((num (mNum n) : ℤ) - num (rhs n)) % (2 ^ (32 * N) : ℕ) ↔
      ∀ i < N, 0 < i → ¬ FalseBorrow (mNum n) (rhs n) i := by
  have hnone : (0 : Limb).toNat = borrowAt (mNum n) (rhs n) N := by
    simp [borrowAt]
  rw [eq_sub_emod_iff (num_lt _), ← loopBn_minus_iff hm hr (mNum n) (rhs n) N (Nat.le_refl N) n 0
    (fun _ _ => rfl) (fun _ _ => rfl) hnone]
  rfl

theorem num_timesRows (a b : Limbs N) :
    num (timesRows a b N (Nat.le_refl N) (Vector.replicate N 0)) =
      num a * num b % 2 ^ (32 * N) := by
  have hrows := num_timesRows_modEq (a := a) (b := b) N (Nat.le_refl N) (Vector.replicate N 0)
  rw [← Nat.mod_eq_of_lt (num_lt (timesRows a b N (Nat.le_refl N) (Vector.replicate N 0)))]
  simpa [Nat.ModEq, num] using hrows

theorem num_timesLoopT (a : Limbs N) (t : Limb) :
    num (timesLoopT a t N (Nat.le_refl N) (Vector.replicate N 0)) =
        num a * t.toNat % 2 ^ (32 * N) ↔
      ∀ i < N, 0 < i → digit a i * t.toNat < 2 ^ 32 := by
  have hlt := num_lt (timesLoopT a t N (Nat.le_refl N) (Vector.replicate N 0))
  rw [← timesLoopT_iff N (Nat.le_refl N) (Vector.replicate N 0) (by simp), ← num, ← num,
    Nat.ModEq, Nat.mod_eq_of_lt hlt]

end Loops

/-! ## The operators -/

/-- All arithmetic operators and their assignment forms compute the sum, the
difference and the product modulo `2 ^ (32 * N)`. -/
structure Modular (a b : Bn N) (t : Limb) : Prop where
  plus : (a.plus b).value = (a.value + b.value) % 2 ^ (32 * N)
  plusAssign : ∀ rhs : Operand N, rhs.Denotes a b →
    (a.plusAssign rhs).value = (a.value + b.value) % 2 ^ (32 * N)
  plusT : (a.plusT t).value = (a.value + t.toNat) % 2 ^ (32 * N)
  plusAssignT : (a.plusAssignT t).value = (a.value + t.toNat) % 2 ^ (32 * N)
  minus : ((a.minus b).value : ℤ) = ((a.value : ℤ) - b.value) % (2 ^ (32 * N) : ℕ)
  minusAssign : ∀ rhs : Operand N, rhs.Denotes a b →
    ((a.minusAssign rhs).value : ℤ) = ((a.value : ℤ) - b.value) % (2 ^ (32 * N) : ℕ)
  minusT : ((a.minusT t).value : ℤ) = ((a.value : ℤ) - t.toNat) % (2 ^ (32 * N) : ℕ)
  minusAssignT : ((a.minusAssignT t).value : ℤ) = ((a.value : ℤ) - t.toNat) % (2 ^ (32 * N) : ℕ)
  times : (a.times b).value = a.value * b.value % 2 ^ (32 * N)
  timesAssign : (a.timesAssign b).value = a.value * b.value % 2 ^ (32 * N)
  timesT : (a.timesT t).value = a.value * t.toNat % 2 ^ (32 * N)
  timesAssignT : (a.timesAssignT t).value = a.value * t.toNat % 2 ^ (32 * N)

theorem value_plus (a b : Bn N) : (a.plus b).value = (a.value + b.value) % 2 ^ (32 * N) :=
  num_loopBn_plus (other_local a) (other_local b) (unset N)

theorem value_plusAssign (a b : Bn N) (rhs : Operand N) (h : rhs.Denotes a b) :
    (a.plusAssign rhs).value = (a.value + b.value) % 2 ^ (32 * N) := by
  have hloop := num_loopBn_plus self_local h.isLocal a.mNum
  rw [h.read] at hloop
  exact hloop

theorem value_plusT (a : Bn N) (t : Limb) :
    (a.plusT t).value = (a.value + t.toNat) % 2 ^ (32 * N) :=
  num_macroT_plus (other_local a) a.pos (unset N) t

theorem value_plusAssignT (a : Bn N) (t : Limb) :
    (a.plusAssignT t).value = (a.value + t.toNat) % 2 ^ (32 * N) :=
  num_macroT_plus self_local a.pos a.mNum t

theorem value_minusT (a : Bn N) (t : Limb) :
    ((a.minusT t).value : ℤ) = ((a.value : ℤ) - t.toNat) % (2 ^ (32 * N) : ℕ) :=
  num_macroT_minus (other_local a) a.pos (unset N) t

theorem value_minusAssignT (a : Bn N) (t : Limb) :
    ((a.minusAssignT t).value : ℤ) = ((a.value : ℤ) - t.toNat) % (2 ^ (32 * N) : ℕ) :=
  num_macroT_minus self_local a.pos a.mNum t

theorem value_times (a b : Bn N) : (a.times b).value = a.value * b.value % 2 ^ (32 * N) :=
  num_timesRows a.mNum b.mNum

/-- `-` is the difference just if no limb behind the first makes a false
borrow. -/
theorem value_minus_iff (a b : Bn N) :
    ((a.minus b).value : ℤ) = ((a.value : ℤ) - b.value) % (2 ^ (32 * N) : ℕ) ↔
      ∀ i < N, 0 < i → ¬ FalseBorrow a.mNum b.mNum i :=
  num_loopBn_minus (other_local a) (other_local b) (unset N)

theorem value_minusAssign_iff (a b : Bn N) (rhs : Operand N) (h : rhs.Denotes a b) :
    ((a.minusAssign rhs).value : ℤ) = ((a.value : ℤ) - b.value) % (2 ^ (32 * N) : ℕ) ↔
      ∀ i < N, 0 < i → ¬ FalseBorrow a.mNum b.mNum i := by
  have hloop := num_loopBn_minus self_local h.isLocal a.mNum
  rw [h.read] at hloop
  exact hloop

/-- `*` of a limb is the product just if no limb behind the first gives a
carry. -/
theorem value_timesT_iff (a : Bn N) (t : Limb) :
    (a.timesT t).value = a.value * t.toNat % 2 ^ (32 * N) ↔
      ∀ i < N, 0 < i → digit a.mNum i * t.toNat < 2 ^ 32 :=
  num_timesLoopT a.mNum t

/-- The arithmetic is modular just if no limb behind the first makes a false
borrow in `a - b` and none gives a carry in `a * t`. -/
theorem modular_iff (N : Nat) (a b : Bn N) (t : Limb) :
    Modular a b t ↔
      (∀ i < N, 0 < i → ¬ FalseBorrow a.mNum b.mNum i) ∧
        ∀ i < N, 0 < i → digit a.mNum i * t.toNat < 2 ^ 32 := by
  constructor
  · intro h
    exact ⟨(value_minus_iff a b).mp h.minus, (value_timesT_iff a t).mp h.timesT⟩
  · rintro ⟨hborrow, hcarry⟩
    exact {
      plus := value_plus a b
      plusAssign := value_plusAssign a b
      plusT := value_plusT a t
      plusAssignT := value_plusAssignT a t
      minus := (value_minus_iff a b).mpr hborrow
      minusAssign := fun rhs h => (value_minusAssign_iff a b rhs h).mpr hborrow
      minusT := value_minusT a t
      minusAssignT := value_minusAssignT a t
      times := value_times a b
      timesAssign := value_times a b
      timesT := (value_timesT_iff a t).mpr hcarry
      timesAssignT := (value_timesT_iff a t).mpr hcarry }

/-- `0xffffffff - 0` is not `0xffffffff`: all ones less zero is taken for a
borrow, which runs through all limbs before it. -/
theorem not_modular :
    ¬ ∀ (N : Nat) (a b : Bn N) (t : Limb), Modular a b t := by
  intro h
  have hminus := (h 5 (uint160 0 0 0 0 0xffffffff) (uint160 0 0 0 0 0) 0).minus
  revert hminus
  decide

end Libcage.Bn
