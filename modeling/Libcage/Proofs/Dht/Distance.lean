import Mathlib.Data.Nat.Bitwise
import Libcage.Dht.Rttable

/-!
# `Libcage.Proofs.Dht.Distance`: the distance of two ids

The distance of two ids is their bitwise difference, read as a number. A row of a routing
table has the ids whose distance from the own id has the same highest bit. `rank` is the place
of a row when the rows are ordered by the distance from another id, and
`distance_lt_of_rank` says that this is an order of the ids.
-/

set_option autoImplicit false

namespace Libcage.Proofs.Dht

open Libcage.Dht
open Libcage.Rdp (Id)

/-- The distance of two ids. -/
def distance (id x : Id) : Nat := (id ^^^ x).toNat

theorem distance_injective (id : Id) : Function.Injective (distance id) := by
  intro x y h
  exact (BitVec.xor_right_inj id).mp (BitVec.eq_of_toNat_eq h)

/-- The comparisons of the source. -/
theorem lt_iff_distance {id x y : Id} : x ^^^ id < y ^^^ id ↔ distance id x < distance id y := by
  rw [BitVec.xor_comm x, BitVec.xor_comm y]
  exact BitVec.lt_def

/-! ### The highest bit -/

/-- `i` is the highest bit of `e`, or `-1` where no bit is set. -/
structure TopBit (e : Id) (i : Int) : Prop where
  lower : -1 ≤ i
  upper : i < 160
  set : 0 ≤ i → e.getLsbD i.toNat = true
  clear : ∀ j : Nat, i < j → e.getLsbD j = false

theorem getLsbD_zero (j : Nat) : (0 : Id).getLsbD j = false := BitVec.getLsbD_zero

/-- A bit of an id, tested with a mask. -/
theorem and_mask_ne_zero_iff {d : Id} {i : Nat} (hi : i < 160) :
    d &&& 1#160 <<< i ≠ 0 ↔ d.getLsbD i = true := by
  have hbit : ∀ j, (d &&& 1#160 <<< i).getLsbD j = (d.getLsbD j && decide (j = i)) := by
    intro j
    rw [BitVec.getLsbD_and, ← BitVec.twoPow_eq, BitVec.getLsbD_twoPow]
    grind
  constructor
  · intro hne
    by_contra hclear
    refine hne (BitVec.eq_of_getLsbD_eq fun j _ => ?_)
    rw [hbit, getLsbD_zero]
    grind
  · intro hset hzero
    have h := hbit i
    rw [hzero, getLsbD_zero, hset] at h
    simp at h

theorem and_mask_pos_iff {d : Id} {i : Nat} (hi : i < 160) :
    d &&& 1#160 <<< i > 0 ↔ d.getLsbD i = true := by
  rw [← and_mask_ne_zero_iff hi]
  exact BitVec.pos_iff_ne_zero _

/-- The loop finds the highest bit below the one it starts at. -/
theorem topBit_id2iLoop {d : Id} {n : Nat} (hn : n ≤ 160)
    (hclear : ∀ j, n ≤ j → d.getLsbD j = false) : TopBit d (id2iLoop d n) := by
  induction n with
  | zero =>
    refine ⟨le_rfl, by simp [id2iLoop], fun h => by simp [id2iLoop] at h, fun j _ => ?_⟩
    exact hclear j (Nat.zero_le j)
  | succ n ih =>
    rw [id2iLoop]
    split
    · rename_i hpos
      have hset := (and_mask_pos_iff hn).mp hpos
      refine ⟨by omega, by omega, fun _ => ?_, fun j hj => ?_⟩
      · rw [Int.toNat_natCast]
        exact hset
      · exact hclear j (by omega)
    · rename_i hnot
      have hbit : d.getLsbD n = false := by
        rw [Bool.eq_false_iff]
        exact fun hset => hnot ((and_mask_pos_iff hn).mpr hset)
      refine ih (by omega) fun j hj => ?_
      rcases Nat.eq_or_lt_of_le hj with rfl | hlt
      · exact hbit
      · exact hclear j hlt

/-- The row of an id is the highest bit of its distance from the own id. -/
theorem topBit_id2i (own x : Id) : TopBit (own ^^^ x) (id2i own x) :=
  topBit_id2iLoop le_rfl fun j hj => BitVec.getLsbD_of_ge _ j hj

theorem TopBit.unique {e : Id} {i j : Int} (hi : TopBit e i) (hj : TopBit e j) : i = j := by
  have hle : ∀ {i j : Int}, TopBit e i → TopBit e j → i ≤ j := by
    intro i j hi hj
    by_contra hlt
    have hlower := hj.lower
    have hclear := hj.clear i.toNat (by omega)
    rw [hi.set (by omega)] at hclear
    cases hclear
  have h1 := hle hi hj
  have h2 := hle hj hi
  omega

theorem topBit_zero : TopBit 0 (-1) := by
  refine ⟨le_rfl, by decide, fun h => absurd h (by decide), fun j _ => ?_⟩
  exact getLsbD_zero j

/-- Only the own id has no row. -/
theorem id2i_eq_neg_one_iff {own x : Id} : id2i own x = -1 ↔ own ^^^ x = 0 := by
  have htop := topBit_id2i own x
  constructor
  · intro h
    refine BitVec.eq_of_getLsbD_eq fun j _ => ?_
    rw [htop.clear j (by omega), getLsbD_zero]
  · intro h
    rw [h] at htop
    exact htop.unique topBit_zero

/-! ### The order of the rows -/

/-- The place of a row by the distance from an id whose distance from the own id is `d`. -/
def rank (d : Id) (i : Int) : Int :=
  if 0 ≤ i ∧ d.getLsbD i.toNat = true then -(i + 1) else i + 1

/-- Two distances are compared at their highest different bit. -/
theorem xor_lt_of_rank {d e f : Id} {i j : Int} (he : TopBit e i) (hf : TopBit f j)
    (h : rank d i < rank d j) : (d ^^^ e).toNat < (d ^^^ f).toNat := by
  have hlowerI := he.lower
  have hlowerJ := hf.lower
  unfold rank at h
  -- The higher one of the two rows decides.
  rcases lt_trichotomy i j with hlt | rfl | hgt
  · have hd : d.getLsbD j.toNat = false := by
      by_contra hset
      rw [Bool.not_eq_false] at hset
      rw [if_pos (c := 0 ≤ j ∧ _) ⟨by omega, hset⟩] at h
      split at h <;> omega
    apply Nat.lt_of_testBit j.toNat
    · rw [BitVec.testBit_toNat, BitVec.getLsbD_xor, hd, he.clear j.toNat (by omega)]
      rfl
    · rw [BitVec.testBit_toNat, BitVec.getLsbD_xor, hd, hf.set (by omega)]
      rfl
    · intro k hk
      rw [BitVec.testBit_toNat, BitVec.testBit_toNat, BitVec.getLsbD_xor, BitVec.getLsbD_xor,
        he.clear k (by omega), hf.clear k (by omega)]
  · exact absurd h (lt_irrefl _)
  · have hd : d.getLsbD i.toNat = true := by
      by_contra hclear
      rw [if_neg (c := 0 ≤ i ∧ _) fun hset => hclear hset.2] at h
      split at h <;> omega
    apply Nat.lt_of_testBit i.toNat
    · rw [BitVec.testBit_toNat, BitVec.getLsbD_xor, hd, he.set (by omega)]
      rfl
    · rw [BitVec.testBit_toNat, BitVec.getLsbD_xor, hd, hf.clear i.toNat (by omega)]
      rfl
    · intro k hk
      rw [BitVec.testBit_toNat, BitVec.testBit_toNat, BitVec.getLsbD_xor, BitVec.getLsbD_xor,
        he.clear k (by omega), hf.clear k (by omega)]

/-- The ids of a row with a lower rank are closer. -/
theorem distance_lt_of_rank {own id x y : Id}
    (h : rank (own ^^^ id) (id2i own x) < rank (own ^^^ id) (id2i own y)) :
    distance id x < distance id y := by
  have hxor : ∀ z, id ^^^ z = (own ^^^ id) ^^^ (own ^^^ z) := by
    intro z
    rw [BitVec.xor_comm own id, BitVec.xor_assoc, ← BitVec.xor_assoc own own, BitVec.xor_self,
      BitVec.zero_xor]
  rw [distance, distance, hxor x, hxor y]
  exact xor_lt_of_rank (topBit_id2i own x) (topBit_id2i own y) h

/-- Different rows have different ranks. -/
theorem rank_injective {d : Id} {i j : Int} (hi : -1 ≤ i) (hj : -1 ≤ j)
    (h : rank d i = rank d j) : i = j := by
  unfold rank at h
  split at h
  · rename_i hset
    split at h <;> omega
  · rename_i hset
    split at h <;> omega

end Libcage.Proofs.Dht
