import Libcage.Dht.FindNode
import Libcage.Lib.Search
import Libcage.Proofs.Dht.Lookup
import Libcage.Proofs.Dht.MergeNodes

/-!
# `Libcage.Proofs.Dht.Search`: the parts of a search

The rows of the routing tables are levels of the distance (`levels_id2i`), a lookup begins a
search with the closest contacts (`lookup_closest`), and a merge with nodes that are named once
keeps the closest ones (`mergeNodes_closest`).
-/

set_option autoImplicit false

namespace Libcage.Proofs.Dht

open Libcage.Lib
open Libcage.Dht
open Libcage.Rdp (Id Table)

/-! ### The rows are levels -/

theorem id2i_comm (x y : Id) : id2i x y = id2i y x := by
  rw [id2i, id2i, BitVec.xor_comm]

/-- The difference of two distances. -/
theorem xor_of_common (x y z : Id) : y ^^^ z = (x ^^^ y) ^^^ (x ^^^ z) := by
  rw [BitVec.xor_comm x y, BitVec.xor_assoc, ← BitVec.xor_assoc x x, BitVec.xor_self,
    BitVec.zero_xor]

/-- Two ids in one row of a third differ only below its bit. -/
theorem id2i_lt_of_same_row {x y z : Id} (hne : y ≠ x) (h : id2i x z = id2i x y) :
    id2i y z < id2i y x := by
  have hxy := topBit_id2i x y
  have hxz := topBit_id2i x z
  have hyz := topBit_id2i y z
  have hrow : 0 ≤ id2i x y := by
    by_contra hneg
    have hlower := hxy.lower
    have hzero := id2i_eq_neg_one_iff.mp (show id2i x y = -1 by omega)
    exact hne (BitVec.xor_eq_zero_iff.mp hzero).symm
  rw [id2i_comm y x]
  by_contra hge
  -- The highest bit of the difference is not above that of the row, and there it is clear.
  have hset := hyz.set (by omega)
  rw [xor_of_common x y z, BitVec.getLsbD_xor] at hset
  rcases eq_or_lt_of_le (not_lt.mp hge) with heq | hlt
  · have hxzset := hxz.set (by omega)
    rw [h, heq] at hxzset
    have hxyset := hxy.set hrow
    rw [heq] at hxyset
    rw [hxyset, hxzset] at hset
    cases hset
  · rw [hxy.clear _ (by omega), hxz.clear _ (by omega)] at hset
    cases hset

/-- Seen from an id that is farther, two near ids are in one row. -/
theorem id2i_eq_of_lt {x y z : Id} (h : id2i y z < id2i y x) : id2i x z = id2i x y := by
  have hyx := topBit_id2i y x
  have hyz := topBit_id2i y z
  have hlower := hyz.lower
  rw [id2i_comm x y]
  have htop : TopBit (x ^^^ z) (id2i y x) := by
    refine ⟨hyx.lower, hyx.upper, fun hpos => ?_, fun j hj => ?_⟩
    · rw [xor_of_common y x z, BitVec.getLsbD_xor, hyx.set hpos, hyz.clear _ (by omega)]
      rfl
    · rw [xor_of_common y x z, BitVec.getLsbD_xor, hyx.clear j hj, hyz.clear j (by omega)]
      rfl
  exact (topBit_id2i x z).unique htop

/-- The row of the other id decides which one is closer to a third. -/
theorem own_closer_iff (x y t : Id) :
    distance t x < distance t y ↔ 0 < rank (x ^^^ t) (id2i x y) := by
  have hown : rank (x ^^^ t) (id2i x x) = 0 := by
    rw [id2i_eq_neg_one_iff.mpr (BitVec.xor_self), rank, if_neg (by omega)]
    rfl
  rcases lt_trichotomy (rank (x ^^^ t) (id2i x x)) (rank (x ^^^ t) (id2i x y)) with hlt | heq | hgt
  · exact iff_of_true (distance_lt_of_rank hlt) (hown ▸ hlt)
  · -- Only the id itself has the row of the id.
    have hrow := rank_injective (topBit_id2i x x).lower (topBit_id2i x y).lower heq
    rw [id2i_eq_neg_one_iff.mpr (BitVec.xor_self)] at hrow
    have hxy := BitVec.xor_eq_zero_iff.mp (id2i_eq_neg_one_iff.mp hrow.symm)
    rw [← heq, hown, hxy]
    exact iff_of_false (lt_irrefl _) (lt_irrefl _)
  · exact iff_of_false (lt_asymm (distance_lt_of_rank hgt)) (not_lt.mpr (hown ▸ hgt.le))

theorem levels_id2i : Levels distance id2i where
  near := id2i_lt_of_same_row
  isosceles := id2i_eq_of_lt
  apart h t := by rw [own_closer_iff, own_closer_iff, h]

/-! ### The lists of a search -/

section
variable {id : Id} {t : Rttable}

/-- A lookup finds the closest ones of the contacts and the own id. -/
theorem lookup_closest (h : RowsOk t.id t.table t.nodes) (id : Id) {rounds : Nat}
    (hrounds : 160 < rounds) :
    ∃ nodes, t.lookup rounds id numFindNode [] = .ok nodes ∧
      Closest (distance id) numFindNode (insert t.id t.nodes) (nodes.map Cageaddr.id) := by
  obtain ⟨is, hlookup, hinitial, henough⟩ := lookup_rows h id numFindNode hrounds
  exact ⟨_, hlookup, closest_of_initial h hinitial (henough.imp_left fun hle => by omega)⟩

theorem SortedBy.of_ids {v : List Cageaddr}
    (h : (v.map Cageaddr.id).Pairwise fun a b => distance id a < distance id b) : SortedBy id v :=
  (List.pairwise_map.mp h).imp le_of_lt

theorem rounds_le_one {v1 v2 : List Cageaddr} (h1 : (v1.map Cageaddr.id).Nodup)
    (h2 : (v2.map Cageaddr.id).Nodup) (x : Id) : rounds v1 v2 x ≤ 1 := by
  rw [rounds]
  exact max_le (List.nodup_iff_count_le_one.mp h1 x) (List.nodup_iff_count_le_one.mp h2 x)

/-- A merge of two lists without an id twice keeps the closest ids of both. -/
theorem mergeNodes_closest {max : Nat} {v1 v2 : List Cageaddr}
    (h1 : (v1.map Cageaddr.id).Pairwise fun a b => distance id a < distance id b)
    (h2 : (v2.map Cageaddr.id).Pairwise fun a b => distance id a < distance id b) :
    Closest (distance id) max (idsOf v1 v2) ((mergeNodes id max v1 v2 []).map Cageaddr.id) := by
  have hsorted : (mergeNodes id max v1 v2 []).Pairwise fun a b =>
      distance id a.id < distance id b.id :=
    sorted_mergeNodes (SortedBy.of_ids h1) (SortedBy.of_ids h2)
  apply closest_of_mem_iff (List.pairwise_map.mpr hsorted)
  intro y
  rw [mem_mergeNodes (SortedBy.of_ids h1) (SortedBy.of_ids h2) (fun x => mem_idsOf.mpr) [] y,
    ← mem_idsOf]
  -- Every closer id takes one round.
  have hsum : ∑ x ∈ closer (distance id) (idsOf v1 v2) y, rounds v1 v2 x =
      (closer (distance id) (idsOf v1 v2) y).card := by
    rw [Finset.card_eq_sum_ones]
    apply Finset.sum_congr rfl
    intro x hx
    have hpos := mem_idsOf.mp (mem_closer.mp hx).1
    have hle := rounds_le_one (nodup_of_sorted h1) (nodup_of_sorted h2) x
    omega
  simp [hsum]

/-- The nodes of a reply are merged into a search that has named no id twice. -/
theorem merge_closest {max : Nat} {nodes new : List Cageaddr}
    (h : (nodes.map Cageaddr.id).Pairwise fun a b => distance id a < distance id b)
    (hnew : (new.map Cageaddr.id).Nodup) :
    Closest (distance id) max ((nodes.map Cageaddr.id).toFinset ∪ (new.map Cageaddr.id).toFinset)
      ((mergeNodes id max nodes (sortNodes id new) []).map Cageaddr.id) := by
  have hids : idsOf nodes (sortNodes id new) =
      (nodes.map Cageaddr.id).toFinset ∪ (new.map Cageaddr.id).toFinset := by
    ext x
    simp [idsOf, mem_sortNodes]
  rw [← hids]
  exact mergeNodes_closest h (sorted_sortNodes id hnew)

end

end Libcage.Proofs.Dht
