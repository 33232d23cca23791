import Libcage.Proofs.Bn.Digits
import Mathlib.Tactic.Linarith

/-!
# `Libcage.Proofs.Bn.Arithmetic`: the carry loops

Each loop is followed from the last limb to the first. With `i` limbs left, the
first `i` limbs of the result and the carry are what the first `i` limbs of the
operands and the carry brought in still have to give (`loopBn_plus`,
`loopT_plus`, `loopT_minus`, `timesRow_modEq`).
-/

set_option autoImplicit false

namespace Libcage.Bn

open Lib

variable {N : Nat}

/-- An operand reads a limb where it is: what `n` has in other limbs does not
count. -/
def Operand.Local (op : Operand N) : Prop :=
  ∀ n n' : Limbs N, ∀ i (_ : i < N), n[i] = n'[i] → (op n)[i] = (op n')[i]

theorem other_local (a : Bn N) : Operand.Local (other a) := fun _ _ _ _ _ => rfl

theorem self_local : Operand.Local (self : Operand N) := fun _ _ _ _ h => h

/-- Writing limb `i` leaves the limbs before it to be read as they were. -/
theorem Operand.Local.digit_set {op : Operand N} (hop : op.Local) {i j : Nat} (hi : i < N)
    (hj : j < i) (n : Limbs N) (x : Limb) : digit (op (n.set i x)) j = digit (op n) j := by
  rw [digit_eq _ (by omega), digit_eq _ (by omega), hop (n.set i x) n j (by omega)]
  exact Vector.getElem_set_ne hi (by omega) (by omega)

theorem Operand.Local.horner_set {op : Operand N} (hop : op.Local) {i : Nat} (hi : i < N)
    (n : Limbs N) (x : Limb) :
    horner 32 (digit (op (n.set i x))) i = horner 32 (digit (op n)) i :=
  horner_congr fun _ hj => hop.digit_set hi hj n x

/-! ## Addition -/

/-- One round of `PLUS_BN` adds two limbs and a carry of one bit. -/
theorem plusRound_spec (m rhs c : Limb) (hc : c.toNat ≤ 1) :
    m.toNat + rhs.toNat + c.toNat =
        (plusRound m rhs c).1.toNat + (plusRound m rhs c).2.toNat * 2 ^ 32 ∧
      (plusRound m rhs c).2.toNat ≤ 1 := by
  have hm := m.isLt
  have hr := rhs.isLt
  simp only [plusRound, BitVec.lt_def, BitVec.toNat_add]
  split
  · simp only [BitVec.toNat_add]
    simp
    omega
  · split <;> simp [BitVec.toNat_add] <;> omega

/-- One round of `PLUS_T` adds a limb and a carry of any size. -/
theorem plusRoundT_spec (m c : Limb) :
    m.toNat + c.toNat = (plusRoundT m c).1.toNat + (plusRoundT m c).2.toNat * 2 ^ 32 := by
  have hm := m.isLt
  have hc := c.isLt
  simp only [plusRoundT, BitVec.lt_def, BitVec.toNat_add]
  split <;> simp [BitVec.toNat_add] <;> omega

/-- One round of `MINUS_T` subtracts a borrow of any size. -/
theorem minusRoundT_spec (m c : Limb) :
    m.toNat + (minusRoundT m c).2.toNat * 2 ^ 32 = (minusRoundT m c).1.toNat + c.toNat := by
  have hm := m.isLt
  have hc := c.isLt
  simp only [minusRoundT, BitVec.lt_def, BitVec.toNat_sub]
  split <;> simp [BitVec.toNat_sub] <;> omega

section Loops

variable {round : Limb → Limb → Limb → Round} {roundT : Limb → Limb → Round}
  {mNum rhs : Operand N}

/-- The loop over two operands leaves the limbs from `i` on. -/
theorem digit_loopBn {i j : Nat} (hij : i ≤ j) (h : i ≤ N) (n : Limbs N) (c : Limb) :
    digit (loopBn round mNum rhs i h n c) j = digit n j := by
  induction i generalizing n c with
  | zero => rfl
  | succ i ih =>
    rw [loopBn, ih (by omega)]
    exact digit_set_of_ne _ (by omega)

/-- The loop over one operand leaves the limbs from `i` on. -/
theorem digit_loopT {i j : Nat} (hij : i ≤ j) (h : i ≤ N) (n : Limbs N) (c : Limb) :
    digit (loopT roundT mNum i h n c) j = digit n j := by
  induction i generalizing n c with
  | zero => rfl
  | succ i ih =>
    rw [loopT, ih (by omega)]
    exact digit_set_of_ne _ (by omega)

/-- The first `i + 1` limbs after the loop: those of the rest of the loop, and
the limb of this round. -/
theorem horner_loopBn (i : Nat) (h : i + 1 ≤ N) (n : Limbs N) (c : Limb) :
    horner 32 (digit (loopBn round mNum rhs (i + 1) h n c)) (i + 1) =
      horner 32 (digit (loopBn round mNum rhs i (Nat.le_of_succ_le h)
          (n.set i (round (mNum n)[i] (rhs n)[i] c).1) (round (mNum n)[i] (rhs n)[i] c).2)) i
        * 2 ^ 32 + (round (mNum n)[i] (rhs n)[i] c).1.toNat := by
  rw [horner_succ, loopBn, digit_loopBn (Nat.le_refl i), digit_set_self]

theorem horner_loopT (i : Nat) (h : i + 1 ≤ N) (n : Limbs N) (c : Limb) :
    horner 32 (digit (loopT roundT mNum (i + 1) h n c)) (i + 1) =
      horner 32 (digit (loopT roundT mNum i (Nat.le_of_succ_le h)
          (n.set i (roundT (mNum n)[i] c).1) (roundT (mNum n)[i] c).2)) i
        * 2 ^ 32 + (roundT (mNum n)[i] c).1.toNat := by
  rw [horner_succ, loopT, digit_loopT (Nat.le_refl i), digit_set_self]

/-- The last limb and the limbs before it are one loop from the last limb on,
with `rhs` for the carry. -/
theorem macroT_eq_loopT (pos : 0 < N) (n : Limbs N) (r : Limb) :
    macroT roundT mNum pos n r = loopT roundT mNum N (Nat.le_refl N) n r := by
  cases N with
  | zero => exact absurd pos (Nat.lt_irrefl 0)
  | succ N => rfl

/-- `PLUS_BN` with `i` limbs left. -/
theorem loopBn_plus (hm : mNum.Local) (hr : rhs.Local) (i : Nat) (h : i ≤ N) (n : Limbs N)
    (c : Limb) (hc : c.toNat ≤ 1) :
    ∃ out, horner 32 (digit (loopBn plusRound mNum rhs i h n c)) i + out * 2 ^ (32 * i) =
      horner 32 (digit (mNum n)) i + horner 32 (digit (rhs n)) i + c.toNat := by
  induction i generalizing n c with
  | zero => exact ⟨c.toNat, by simp⟩
  | succ i ih =>
    obtain ⟨hsum, hcarry⟩ := plusRound_spec (mNum n)[i] (rhs n)[i] c hc
    obtain ⟨out, hout⟩ := ih (by omega) (n.set i (plusRound (mNum n)[i] (rhs n)[i] c).1) _ hcarry
    rw [hm.horner_set, hr.horner_set] at hout
    refine ⟨out, ?_⟩
    rw [horner_loopBn, horner_succ, horner_succ, digit_eq _ (by omega), digit_eq _ (by omega),
      Nat.mul_succ, pow_add]
    linarith

/-- `PLUS_T` with `i` limbs left. -/
theorem loopT_plus (hm : mNum.Local) (i : Nat) (h : i ≤ N) (n : Limbs N) (c : Limb) :
    ∃ out, horner 32 (digit (loopT plusRoundT mNum i h n c)) i + out * 2 ^ (32 * i) =
      horner 32 (digit (mNum n)) i + c.toNat := by
  induction i generalizing n c with
  | zero => exact ⟨c.toNat, by simp⟩
  | succ i ih =>
    have hsum := plusRoundT_spec (mNum n)[i] c
    obtain ⟨out, hout⟩ := ih (by omega) (n.set i (plusRoundT (mNum n)[i] c).1)
      (plusRoundT (mNum n)[i] c).2
    rw [hm.horner_set] at hout
    refine ⟨out, ?_⟩
    rw [horner_loopT, horner_succ, digit_eq _ (by omega), Nat.mul_succ, pow_add]
    linarith

/-- `MINUS_T` with `i` limbs left. -/
theorem loopT_minus (hm : mNum.Local) (i : Nat) (h : i ≤ N) (n : Limbs N) (c : Limb) :
    ∃ out, horner 32 (digit (loopT minusRoundT mNum i h n c)) i + c.toNat =
      horner 32 (digit (mNum n)) i + out * 2 ^ (32 * i) := by
  induction i generalizing n c with
  | zero => exact ⟨c.toNat, by simp⟩
  | succ i ih =>
    have hdiff := minusRoundT_spec (mNum n)[i] c
    obtain ⟨out, hout⟩ := ih (by omega) (n.set i (minusRoundT (mNum n)[i] c).1)
      (minusRoundT (mNum n)[i] c).2
    rw [hm.horner_set] at hout
    refine ⟨out, ?_⟩
    rw [horner_loopT, horner_succ, digit_eq _ (by omega), Nat.mul_succ, pow_add]
    linarith

/-- The last limb `MINUS_BN` writes with `i + 1` limbs left is right whatever the
borrow is. -/
theorem minusRound_fst (m r c : Limb) : (minusRound m r c).1 = m - r - c := by
  simp only [minusRound]
  split
  · rfl
  · split <;> rfl

/-- The borrow brought into the limbs before limb `i`: the limbs behind are
smaller than what is taken from them. -/
def borrowAt (a b : Limbs N) (i : Nat) : Nat :=
  if lastLimbs 32 (digit a) N (N - i) < lastLimbs 32 (digit b) N (N - i) then 1 else 0

/-- Limb `i` makes `MINUS_BN` borrow where nothing is to borrow: all ones less
zero, with no borrow brought in, is mistaken for the result of a borrow. -/
def FalseBorrow (a b : Limbs N) (i : Nat) : Prop :=
  digit a i = 2 ^ 32 - 1 ∧ digit b i = 0 ∧ borrowAt a b (i + 1) = 0

/-- One round of `MINUS_BN`: the borrow is right unless it is a false one, which
the round passes on. -/
theorem minusRound_snd {m r c : Limb} (hc : c.toNat ≤ 1) :
    (minusRound m r c).2.toNat =
      if (m.toNat = 2 ^ 32 - 1 ∧ r.toNat = 0 ∧ c.toNat = 0) ∨ m.toNat < r.toNat + c.toNat
      then 1 else 0 := by
  have hm := m.isLt
  have hr := r.isLt
  have hones : ∀ x : Limb, x = -1 ↔ x.toNat = 2 ^ 32 - 1 := fun x => by
    rw [← BitVec.toNat_inj]
    rfl
  simp only [minusRound, BitVec.lt_def, hones, BitVec.toNat_sub]
  split
  · rw [if_pos (Or.inr (by omega))]
    rfl
  · split
    · rw [if_pos (by omega)]
      rfl
    · rw [if_neg (by omega)]
      rfl

/-- The borrow out of a limb, from the limbs themselves. -/
theorem borrowAt_eq (a b : Limbs N) {i : Nat} (hi : i < N) :
    borrowAt a b i = if digit a i < digit b i + borrowAt a b (i + 1) then 1 else 0 := by
  have hk : N - i = N - (i + 1) + 1 := by omega
  have hidx : N - (N - (i + 1) + 1) = i := by omega
  have hiff := lastLimbs_succ_lt_iff (n := N) (k := N - (i + 1)) (by omega)
    (fun j _ => digit_lt a j) (fun j _ => digit_lt b j)
  rw [hidx] at hiff
  simp only [borrowAt, hk, hiff]
  split_ifs <;> omega

/-- `MINUS_BN` gets the limb it writes last right modulo the base, whatever the
limbs before it get. -/
theorem loopBn_minus_mod (mNum rhs : Operand N) (i : Nat) (h : i + 1 ≤ N) (n : Limbs N) (c : Limb) :
    (horner 32 (digit (loopBn minusRound mNum rhs (i + 1) h n c)) (i + 1) +
        digit (rhs n) i + c.toNat) % 2 ^ 32 = digit (mNum n) i % 2 ^ 32 := by
  have hm := (mNum n)[i].isLt
  have hr := (rhs n)[i].isLt
  have hc := c.isLt
  rw [horner_loopBn, minusRound_fst, digit_eq _ (by omega), digit_eq _ (by omega), BitVec.toNat_sub,
    BitVec.toNat_sub]
  omega

/-- The limb a round of `MINUS_BN` writes, with the borrow it should pass on. -/
theorem minusRound_spec {m r c : Limb} (hc : c.toNat ≤ 1) :
    (minusRound m r c).1.toNat + r.toNat + c.toNat =
      m.toNat + (if m.toNat < r.toNat + c.toNat then 1 else 0) * 2 ^ 32 := by
  have hm := m.isLt
  have hr := r.isLt
  rw [minusRound_fst, BitVec.toNat_sub, BitVec.toNat_sub]
  split_ifs <;> omega

/-- Two numbers with the same last limb agree if the limbs before it do. -/
theorem modEq_append_iff (x y s i : Nat) :
    x * 2 ^ 32 + s ≡ y * 2 ^ 32 + s [MOD 2 ^ (32 * (i + 1))] ↔ x ≡ y [MOD 2 ^ (32 * i)] := by
  rw [Nat.mul_succ, pow_add, Nat.ModEq.add_iff_right rfl,
    Nat.ModEq.mul_right_cancel_iff' (by positivity)]

/-- After a false borrow the limb before is one too small. -/
theorem loopBn_minus_of_false (a b : Limbs N) (i : Nat) (hi : 0 < i) (h : i ≤ N) (n : Limbs N)
    (ha : ∀ j < i, digit (mNum n) j = digit a j) (hb : ∀ j < i, digit (rhs n) j = digit b j) :
    ¬ horner 32 (digit (loopBn minusRound mNum rhs i h n 1)) i + horner 32 (digit b) i
        ≡ horner 32 (digit a) i [MOD 2 ^ (32 * i)] := by
  cases i with
  | zero => exact absurd hi (Nat.lt_irrefl 0)
  | succ i =>
    intro hmod
    have hlast := loopBn_minus_mod mNum rhs i h n 1
    have hdvd : 2 ^ 32 ∣ 2 ^ (32 * (i + 1)) := pow_dvd_pow 2 (by omega)
    have hlow := hmod.of_dvd hdvd
    rw [ha i (by omega), hb i (by omega)] at hlast
    rw [horner_succ 32 (digit b), horner_succ 32 (digit a), Nat.ModEq] at hlow
    have hone : (1 : Limb).toNat = 1 := rfl
    omega

/-- `MINUS_BN` with `i` limbs left and the right borrow brought in: the result
is the difference just if no limb behind the first makes a false borrow. -/
theorem loopBn_minus_iff (hm : mNum.Local) (hr : rhs.Local) (a b : Limbs N) (i : Nat)
    (h : i ≤ N) (n : Limbs N) (c : Limb) (ha : ∀ j < i, digit (mNum n) j = digit a j)
    (hb : ∀ j < i, digit (rhs n) j = digit b j) (hc : c.toNat = borrowAt a b i) :
    horner 32 (digit (loopBn minusRound mNum rhs i h n c)) i + horner 32 (digit b) i + c.toNat
        ≡ horner 32 (digit a) i [MOD 2 ^ (32 * i)] ↔
      ∀ j < i, 0 < j → ¬ FalseBorrow a b j := by
  induction i generalizing n c with
  | zero => simp [Nat.modEq_one]
  | succ i ih =>
    have hc1 : c.toNat ≤ 1 := by
      rw [hc, borrowAt]
      split <;> omega
    have hround := minusRound_spec (m := (mNum n)[i]) (r := (rhs n)[i]) hc1
    have hborrow := minusRound_snd (m := (mNum n)[i]) (r := (rhs n)[i]) hc1
    rw [← digit_eq (mNum n) h, ← digit_eq (rhs n) h, ha i (by omega),
      hb i (by omega), hc] at hround hborrow
    rw [← borrowAt_eq a b h] at hround
    have ha' := fun x j hj => (hm.digit_set h hj n x).trans (ha j (Nat.lt_succ_of_lt hj))
    have hb' := fun x j hj => (hr.digit_set h hj n x).trans (hb j (Nat.lt_succ_of_lt hj))
    rw [Nat.forall_lt_succ_right, horner_loopBn]
    generalize minusRound (mNum n)[i] (rhs n)[i] c = round at hround hborrow ⊢
    generalize hrest : horner 32 (digit (loopBn minusRound mNum rhs i _ _ round.2)) i = rest
    -- the limb of this round is the one of the difference, so it cancels
    have hlimb : rest * 2 ^ 32 + round.1.toNat + horner 32 (digit b) (i + 1) + c.toNat =
        (rest + horner 32 (digit b) i + borrowAt a b i) * 2 ^ 32 + digit a i := by
      rw [horner_succ, hc]
      linarith
    rw [hlimb, horner_succ, modEq_append_iff, ← hrest]
    by_cases hf : FalseBorrow a b i
    · -- a false borrow: nothing is to borrow, and one is passed on
      obtain ⟨hones, hzero, hnone⟩ := hf
      have hright : borrowAt a b i = 0 := by
        rw [borrowAt_eq a b h, if_neg (by omega)]
      have hone : round.2 = 1 := by
        apply BitVec.eq_of_toNat_eq
        rw [hborrow, if_pos (Or.inl ⟨hones, hzero, hnone⟩)]
        rfl
      rw [hright, hone, Nat.add_zero]
      obtain rfl | hi := Nat.eq_zero_or_pos i
      · simp [Nat.modEq_one]
      · have hwrong := loopBn_minus_of_false a b i hi (by omega) _ (ha' round.1) (hb' round.1)
        exact iff_of_false hwrong (fun hall => hall.2 hi ⟨hones, hzero, hnone⟩)
    · have hright : round.2.toNat = borrowAt a b i := by
        rw [hborrow, borrowAt_eq a b h]
        exact if_congr (or_iff_right hf) rfl rfl
      rw [← hright, ih (by omega) _ round.2 (ha' _) (hb' _) hright]
      exact (and_iff_left fun _ => hf).symm

end Loops

/-! ## Multiplication -/

/-- One round of a multiplication: `u` holds the product, the limb and the carry
without overflow. -/
theorem timesRound_spec (n r m c : Limb) :
    (timesRound n r m c).1.toNat + (timesRound n r m c).2.toNat * 2 ^ 32 =
      n.toNat + r.toNat * m.toNat + c.toNat := by
  have hn := n.isLt
  have hc := c.isLt
  have hprod : r.toNat * m.toNat ≤ (2 ^ 32 - 1) * (2 ^ 32 - 1) :=
    Nat.mul_le_mul (Nat.le_pred_of_lt r.isLt) (Nat.le_pred_of_lt m.isLt)
  have hu : (n.setWidth 64 + r.setWidth 64 * m.setWidth 64 + c.setWidth 64).toNat =
      n.toNat + r.toNat * m.toNat + c.toNat := by
    have hwide : ∀ x : Limb, x.toNat % 2 ^ 64 = x.toNat := fun x =>
      Nat.mod_eq_of_lt (Nat.lt_trans x.isLt (by decide))
    simp only [BitVec.toNat_add, BitVec.toNat_mul, BitVec.toNat_setWidth, hwide]
    generalize r.toNat * m.toNat = p at hprod ⊢
    omega
  have hmask : (((1 : BitVec 64) <<< 32) - 1).toNat = 2 ^ 32 - 1 := rfl
  simp only [timesRound, BitVec.toNat_setWidth, BitVec.toNat_and, BitVec.toNat_ushiftRight, hu,
    hmask, Nat.and_two_pow_sub_one_eq_mod, Nat.shiftRight_eq_div_pow]
  omega

section Rows

variable {a b : Limbs N} {i : Nat}

/-- A round of a row whose target is limb `l`. -/
theorem timesRow_succ (hi : i < N) {j l : Nat} (h : j + 1 ≤ N) (hl : l + N = i + j + 1)
    (n : Limbs N) (c : Limb) :
    timesRow a b i hi (j + 1) h n c =
      timesRow a b i hi j (by omega) (n.set l (timesRound n[l] b[j] a[i] c).1 (by omega))
        (timesRound n[l] b[j] a[i] c).2 := by
  obtain rfl : l = i + j - (N - 1) := by omega
  rw [timesRow, if_pos (by omega)]

/-- A row leaves the limbs behind its last target. -/
theorem digit_timesRow (hi : i < N) {j t : Nat} (h : j ≤ N) (ht : i + j < t + N) (n : Limbs N)
    (c : Limb) : digit (timesRow a b i hi j h n c) t = digit n t := by
  induction j generalizing n c with
  | zero => rfl
  | succ j ih =>
    rw [timesRow]
    split
    · rw [ih (by omega) (by omega)]
      exact digit_set_of_ne _ (by omega)
    · exact ih (by omega) (by omega) n c

/-- A row of `operator *` with `l` targets left adds `a[i]` times the limbs of
`b` that meet them. -/
theorem timesRow_modEq (hi : i < N) (l j : Nat) (h : j ≤ N) (hl : l + N = i + j + 1)
    (n : Limbs N) (c : Limb) :
    horner 32 (digit (timesRow a b i hi j h n c)) l ≡
      horner 32 (digit n) l + digit a i * horner 32 (fun k => digit b (N - 1 - i + k)) l + c.toNat
      [MOD 2 ^ (32 * l)] := by
  induction l generalizing j n c with
  | zero => simp [Nat.modEq_one]
  | succ l ih =>
    cases j with
    | zero => omega
    | succ j =>
      have hround := timesRound_spec n[l] b[j] a[i] c
      have hih := ih j (by omega) (by omega) (n.set l (timesRound n[l] b[j] a[i] c).1)
        (timesRound n[l] b[j] a[i] c).2
      have hj : N - 1 - i + l = j := by omega
      rw [timesRow_succ hi h (l := l) (by omega), horner_succ, digit_timesRow hi _ (by omega),
        digit_set_self]
      rw [horner_set] at hih
      generalize timesRound n[l] b[j] a[i] c = round at hround hih ⊢
      -- the limb of this round cancels, and its carry goes to the rest of the row
      have hlimb : horner 32 (digit n) (l + 1) +
            digit a i * horner 32 (fun k => digit b (N - 1 - i + k)) (l + 1) + c.toNat =
          (horner 32 (digit n) l + digit a i * horner 32 (fun k => digit b (N - 1 - i + k)) l +
            round.2.toNat) * 2 ^ 32 + round.1.toNat := by
        rw [horner_succ, horner_succ, hj, digit_eq n (by omega), digit_eq a hi,
          digit_eq b h]
        linarith
      rw [hlimb, modEq_append_iff]
      exact hih

/-- A whole row adds `a[i]` times `b`, moved to the limb of the row. -/
theorem num_timesRow_modEq (hi : i < N) (n : Limbs N) :
    num (timesRow a b i hi N (Nat.le_refl N) n 0) ≡
      num n + digit a i * 2 ^ (32 * (N - 1 - i)) * num b [MOD 2 ^ (32 * N)] := by
  have hrow := timesRow_modEq (a := a) (b := b) hi (i + 1) N (Nat.le_refl N) (by omega) n 0
  have hback : ∀ j, digit (timesRow a b i hi N (Nat.le_refl N) n 0) (i + 1 + j) =
      digit n (i + 1 + j) := fun j => digit_timesRow hi _ (by omega) n 0
  obtain ⟨k, hk⟩ : ∃ k, k = N - 1 - i := ⟨_, rfl⟩
  have hsplit : ∀ d, horner 32 d N =
      horner 32 d (i + 1) * 2 ^ (32 * k) + horner 32 (fun j => d (i + 1 + j)) k := by
    intro d
    rw [← horner_add, show i + 1 + k = N by omega]
  have hb : num b = horner 32 (digit b) k * 2 ^ (32 * (i + 1)) +
      horner 32 (fun j => digit b (k + j)) (i + 1) := by
    rw [← horner_add, show k + (i + 1) = N by omega, num]
  have hmod : 2 ^ (32 * N) = 2 ^ (32 * (i + 1)) * 2 ^ (32 * k) := by
    rw [← pow_add, show 32 * N = 32 * (i + 1) + 32 * k by omega]
  rw [← hk] at hrow ⊢
  rw [num, num, hsplit, hsplit, horner_congr (fun j _ => hback j), hb, hmod]
  generalize horner 32 (fun j => digit b (k + j)) (i + 1) = met at hrow ⊢
  generalize horner 32 (fun j => digit n (i + 1 + j)) k = back
  calc horner 32 (digit (timesRow a b i hi N (Nat.le_refl N) n 0)) (i + 1) * 2 ^ (32 * k) + back
      ≡ (horner 32 (digit n) (i + 1) + digit a i * met + 0) * 2 ^ (32 * k) + back
        [MOD 2 ^ (32 * (i + 1)) * 2 ^ (32 * k)] := (hrow.mul_right' _).add_right _
    _ ≡ (horner 32 (digit n) (i + 1) + digit a i * met + 0) * 2 ^ (32 * k) + back +
          digit a i * horner 32 (digit b) k * (2 ^ (32 * (i + 1)) * 2 ^ (32 * k))
        [MOD 2 ^ (32 * (i + 1)) * 2 ^ (32 * k)] :=
        -- the leading limbs of `b` fall out of the number
        (Nat.ModEq.refl _).trans (by simp [Nat.ModEq])
    _ = horner 32 (digit n) (i + 1) * 2 ^ (32 * k) + back + digit a i * 2 ^ (32 * k) *
          (horner 32 (digit b) k * 2 ^ (32 * (i + 1)) + met) := by ring

/-- The rows that are left add the limbs of `a` before them times `b`. -/
theorem num_timesRows_modEq (i : Nat) (h : i ≤ N) (n : Limbs N) :
    num (timesRows a b i h n) ≡
      num n + horner 32 (digit a) i * 2 ^ (32 * (N - i)) * num b [MOD 2 ^ (32 * N)] := by
  induction i generalizing n with
  | zero => simp [timesRows, Nat.ModEq.refl]
  | succ i ih =>
    rw [timesRows]
    have hpow : 2 ^ (32 * (N - i)) = 2 ^ 32 * 2 ^ (32 * (N - 1 - i)) := by
      rw [← pow_add]
      congr 1
      omega
    have hidx : N - (i + 1) = N - 1 - i := by omega
    calc num (timesRows a b i (by omega) (timesRow a b i (by omega) N (Nat.le_refl N) n 0))
        ≡ num (timesRow a b i (by omega) N (Nat.le_refl N) n 0) +
            horner 32 (digit a) i * 2 ^ (32 * (N - i)) * num b [MOD 2 ^ (32 * N)] :=
          ih (by omega) _
      _ ≡ num n + digit a i * 2 ^ (32 * (N - 1 - i)) * num b +
            horner 32 (digit a) i * 2 ^ (32 * (N - i)) * num b [MOD 2 ^ (32 * N)] :=
          (num_timesRow_modEq (by omega) n).add_right _
      _ = num n + horner 32 (digit a) (i + 1) * 2 ^ (32 * (N - (i + 1))) * num b := by
          rw [horner_succ, hpow, hidx]
          ring

end Rows

/-! ## Multiplication by a limb -/

section Scalar

variable {a : Limbs N} {t : Limb} {i : Nat}

theorem digit_timesLoopT {j : Nat} (hij : i ≤ j) (h : i ≤ N) (n : Limbs N) :
    digit (timesLoopT a t i h n) j = digit n j := by
  induction i generalizing n with
  | zero => rfl
  | succ i ih =>
    rw [timesLoopT, ih (by omega)]
    exact digit_set_of_ne _ (by omega)

/-- A round of `operator *(T)` leaves the product of the limb without its
carry. -/
theorem horner_timesLoopT (h : i + 1 ≤ N) (n : Limbs N) (hzero : digit n i = 0) :
    horner 32 (digit (timesLoopT a t (i + 1) h n)) (i + 1) =
      horner 32 (digit (timesLoopT a t i (by omega) (n.set i (timesRound n[i] t a[i] 0).1))) i
        * 2 ^ 32 + digit a i * t.toNat % 2 ^ 32 := by
  have hround := timesRound_spec n[i] t a[i] 0
  have hlt := (timesRound n[i] t a[i] 0).1.isLt
  rw [digit_eq _ h] at hzero
  rw [horner_succ, timesLoopT, digit_timesLoopT (Nat.le_refl i), digit_set_self, digit_eq _ h]
  have hnone : (0 : Limb).toNat = 0 := rfl
  rw [hzero, Nat.mul_comm t.toNat] at hround
  omega

/-- The limb before is right modulo the base, and leaves no room for a carry. -/
theorem timesLoopT_mod (hi : 0 < i) (h : i ≤ N) (n : Limbs N) (hzero : ∀ j < i, digit n j = 0) :
    horner 32 (digit (timesLoopT a t i h n)) i ≡ horner 32 (digit a) i * t.toNat
      [MOD 2 ^ 32] := by
  cases i with
  | zero => exact absurd hi (Nat.lt_irrefl 0)
  | succ i =>
    rw [horner_timesLoopT h n (hzero i (by omega)), horner_succ, Nat.add_mul, Nat.mul_right_comm]
    simp [Nat.ModEq]

/-- With `i` limbs left, `operator *(T)` is right just if no limb behind the
first gives a carry. -/
theorem timesLoopT_iff (i : Nat) (h : i ≤ N) (n : Limbs N) (hzero : ∀ j < i, digit n j = 0) :
    horner 32 (digit (timesLoopT a t i h n)) i ≡ horner 32 (digit a) i * t.toNat
        [MOD 2 ^ (32 * i)] ↔
      ∀ j < i, 0 < j → digit a j * t.toNat < 2 ^ 32 := by
  induction i generalizing n with
  | zero => simp [Nat.modEq_one]
  | succ i ih =>
    have hzero' : ∀ x, ∀ j < i, digit (n.set i x) j = 0 := fun x j hj => by
      rw [digit_set_of_ne h (by omega), hzero j (by omega)]
    have hih := ih (by omega) _ (hzero' (timesRound n[i] t a[i] 0).1)
    rw [Nat.forall_lt_succ_right, horner_timesLoopT h n (hzero i (by omega))]
    -- the carry of the last limb is missing
    have hcarry : horner 32 (digit a) (i + 1) * t.toNat =
        (horner 32 (digit a) i * t.toNat + digit a i * t.toNat / 2 ^ 32) * 2 ^ 32 +
          digit a i * t.toNat % 2 ^ 32 := by
      have hdiv := Nat.div_add_mod (digit a i * t.toNat) (2 ^ 32)
      rw [horner_succ]
      linarith
    rw [hcarry, modEq_append_iff]
    by_cases hc : digit a i * t.toNat < 2 ^ 32
    · rw [Nat.div_eq_of_lt hc, Nat.add_zero, hih]
      exact (and_iff_left fun _ => hc).symm
    · have hq : digit a i * t.toNat / 2 ^ 32 % 2 ^ 32 ≠ 0 := by
        have hprod : digit a i * t.toNat < 2 ^ 32 * 2 ^ 32 :=
          Nat.mul_lt_mul'' (digit_lt a i) t.isLt
        omega
      obtain rfl | hi := Nat.eq_zero_or_pos i
      · simp [Nat.modEq_one]
      · refine iff_of_false (fun hmod => hq ?_) (fun hall => hc (hall.2 hi))
        have hlow := timesLoopT_mod (a := a) (t := t) hi (by omega) _
          (hzero' (timesRound n[i] t a[i] 0).1)
        have hsame : horner 32 (digit a) i * t.toNat + digit a i * t.toNat / 2 ^ 32 ≡
            horner 32 (digit a) i * t.toNat + 0 [MOD 2 ^ 32] :=
          (hmod.of_dvd (pow_dvd_pow 2 (by omega))).symm.trans hlow
        exact Nat.ModEq.add_left_cancel' _ hsame

end Scalar

end Libcage.Bn
