import Libcage.Bn
import Mathlib.Data.Nat.ModEq

/-!
# `Libcage.Proofs.Bn.Digits`: the limbs of a `bn` as digits

How `digit` and `num` follow the writes of the loops, and that a `bn` is
determined by the natural it denotes (`Bn.ext_value`).
-/

set_option autoImplicit false

namespace Libcage.Bn

open Lib

variable {N : Nat} {arr arr' : Limbs N} {i j : Nat} {x : Limb}

theorem limbAt_eq (arr : Limbs N) (h : i < N) : limbAt arr i = arr[i] := by
  simp [limbAt, h]

theorem digit_eq (arr : Limbs N) (h : i < N) : digit arr i = arr[i].toNat := by
  rw [digit, limbAt_eq _ h]

theorem digit_lt (arr : Limbs N) (i : Nat) : digit arr i < 2 ^ 32 := (limbAt arr i).isLt

@[simp] theorem limbAt_of_le (h : N ≤ i) : limbAt arr i = 0 := by
  simp [limbAt, h]

theorem limbAt_set (h : i < N) :
    limbAt (arr.set i x h) j = if j = i then x else limbAt arr j := by
  rw [limbAt, Vector.getElem?_set]
  by_cases hji : j = i
  · simp [hji]
  · simp [hji, Ne.symm hji, limbAt]

theorem digit_set (h : i < N) :
    digit (arr.set i x h) j = if j = i then x.toNat else digit arr j := by
  rw [digit, limbAt_set]
  split <;> rfl

@[simp] theorem digit_set_self (h : i < N) : digit (arr.set i x h) i = x.toNat := by
  rw [digit_set, if_pos rfl]

theorem digit_set_of_ne (h : i < N) (hji : j ≠ i) : digit (arr.set i x h) j = digit arr j := by
  rw [digit_set, if_neg hji]

/-- A write leaves the number of the limbs before it. -/
theorem horner_set (h : i < N) : horner 32 (digit (arr.set i x h)) i = horner 32 (digit arr) i :=
  horner_congr fun _ hj => digit_set_of_ne h (by omega)

theorem num_lt (arr : Limbs N) : num arr < 2 ^ (32 * N) := horner_lt (fun i _ => digit_lt arr i)

theorem value_lt (a : Bn N) : a.value < 2 ^ (32 * N) := num_lt a.mNum

/-- An array is determined by the natural it denotes. -/
theorem num_inj (h : num arr = num arr') : arr = arr' := by
  apply Vector.ext
  intro i hi
  have hd := horner_inj (fun i _ => digit_lt arr i) (fun i _ => digit_lt arr' i) h i hi
  rw [digit_eq _ hi, digit_eq _ hi] at hd
  exact BitVec.eq_of_toNat_eq hd

/-- A `bn` is determined by the natural it denotes. -/
theorem ext_value {a b : Bn N} (h : a.value = b.value) : a = b := by
  cases a
  cases b
  simpa using num_inj h

@[simp] theorem digit_replicate_zero : digit (Vector.replicate N 0#32 : Limbs N) i = 0 := by
  by_cases h : i < N
  · simp [digit_eq _ h]
  · simp [digit, Nat.le_of_not_lt h]

@[simp] theorem horner_replicate_zero (n : Nat) :
    horner 32 (digit (Vector.replicate N 0#32 : Limbs N)) n = 0 := by
  induction n with
  | zero => rfl
  | succ n ih => simp [horner_succ, ih]

/-- Bit `t` of the number is bit `t % 32` of limb `t / 32`, counted from the
last. -/
theorem num_testBit (arr : Limbs N) (t : Nat) :
    (num arr).testBit t =
      (decide (t < 32 * N) && (limbAt arr (N - 1 - t / 32)).getLsbD (t % 32)) :=
  horner_testBit (by decide) (fun i _ => digit_lt arr i) t

end Libcage.Bn
