import Mathlib.Algebra.BigOperators.Group.Finset.Piecewise
import Mathlib.Algebra.Order.BigOperators.Group.Finset
import Libcage.Dht.Query
import Libcage.Lib.Closest
import Libcage.Proofs.Dht.Distance

/-!
# `Libcage.Proofs.Dht.MergeNodes`: merging two lists of candidates

`merge_nodes` has `max` rounds, and a round takes one node off the front of a list, or one off
both where they have the same id. A node that is in the result already takes a round too.
`mem_mergeNodes` says which ids come into the result: those for which the rounds of all closer
ids leave one. `mergedWell_iff` says when these are the closest ones.
-/

set_option autoImplicit false

namespace Libcage.Proofs.Dht

open Libcage.Lib
open Libcage.Dht
open Libcage.Rdp (Id Table)

/-- A list in the order of the distance. -/
def SortedBy (id : Id) (v : List Cageaddr) : Prop :=
  v.Pairwise fun a b => distance id a.id ≤ distance id b.id

/-- The ids of two lists. -/
def idsOf (v1 v2 : List Cageaddr) : Finset Id := ((v1 ++ v2).map Cageaddr.id).toFinset

/-- The rounds that the copies of an id take. -/
def rounds (v1 v2 : List Cageaddr) (x : Id) : Nat :=
  max ((v1.map Cageaddr.id).count x) ((v2.map Cageaddr.id).count x)

/-- The result has the closest ids of both lists, once each and in order, and no node that is
in neither. -/
structure MergedWell (id : Id) (max : Nat) (v1 v2 : List Cageaddr) : Prop where
  closest : Closest (distance id) max (idsOf v1 v2) ((mergeNodes id max v1 v2 []).map Cageaddr.id)
  mem : ∀ a ∈ mergeNodes id max v1 v2 [], a ∈ v1 ∨ a ∈ v2

/-- The rounds are enough for all ids closer than one that has to be in the result, and for
this one. -/
def BudgetFits (id : Id) (max : Nat) (v1 v2 : List Cageaddr) : Prop :=
  ∀ y ∈ idsOf v1 v2, (closer (distance id) (idsOf v1 v2) y).card < max →
    ∑ x ∈ closer (distance id) (idsOf v1 v2) y, rounds v1 v2 x < max

/-! ### One round -/

/-- A node is taken off two lists, and another two are left. -/
structure Front (id : Id) (v1 v2 : List Cageaddr) (addr : Cageaddr) (v1' v2' : List Cageaddr) :
    Prop where
  mem : addr ∈ v1 ∨ addr ∈ v2
  left : ∀ a ∈ v1', a ∈ v1
  right : ∀ a ∈ v2', a ∈ v2
  sortedLeft : SortedBy id v1'
  sortedRight : SortedBy id v2'
  least : ∀ a, a ∈ v1 ∨ a ∈ v2 → distance id addr.id ≤ distance id a.id
  rounds : ∀ x, rounds v1 v2 x = rounds v1' v2' x + if x = addr.id then 1 else 0

section
variable {id : Id} {v1 v2 v1' v2' : List Cageaddr} {addr : Cageaddr} {n : Nat}
  {already : List Id}

theorem rounds_pos_iff {x : Id} : 0 < rounds v1 v2 x ↔ ∃ a, (a ∈ v1 ∨ a ∈ v2) ∧ a.id = x := by
  rw [rounds, lt_max_iff, List.count_pos_iff, List.count_pos_iff, List.mem_map, List.mem_map]
  simp only [or_and_right, exists_or]

theorem mem_idsOf {x : Id} : x ∈ idsOf v1 v2 ↔ 0 < rounds v1 v2 x := by
  rw [rounds_pos_iff, idsOf, List.mem_toFinset, List.mem_map]
  simp only [List.mem_append]

theorem count_cons_id (a : Cageaddr) (v : List Cageaddr) (x : Id) :
    ((a :: v).map Cageaddr.id).count x =
      (v.map Cageaddr.id).count x + if x = a.id then 1 else 0 := by
  rw [List.map_cons, List.count_cons]
  by_cases hx : x = a.id
  · simp [hx]
  · simp [hx, Ne.symm hx]

/-- An id is not in a list whose nodes are all farther. -/
theorem count_eq_zero_of_lt {x : Id} {v : List Cageaddr}
    (h : ∀ a ∈ v, distance id x < distance id a.id) : (v.map Cageaddr.id).count x = 0 := by
  rw [List.count_eq_zero, List.mem_map]
  rintro ⟨a, ha, rfl⟩
  exact lt_irrefl _ (h a ha)

theorem SortedBy.head {a : Cageaddr} {v : List Cageaddr} (h : SortedBy id (a :: v)) :
    (∀ b ∈ a :: v, distance id a.id ≤ distance id b.id) ∧ SortedBy id v := by
  obtain ⟨hhead, htail⟩ := List.pairwise_cons.mp h
  refine ⟨fun b hb => ?_, htail⟩
  rcases List.mem_cons.mp hb with rfl | hb
  · exact le_rfl
  · exact hhead b hb

/-- The front of the second list, where the first one is empty or starts with a farther
node. -/
theorem front_right {b : Cageaddr} (h1 : SortedBy id v1) (h2 : SortedBy id (b :: v2))
    (hlt : ∀ a ∈ v1, distance id b.id < distance id a.id) :
    Front id v1 (b :: v2) b v1 v2 where
  mem := Or.inr (List.mem_cons_self ..)
  left := fun a ha => ha
  right := fun a ha => List.mem_cons_of_mem b ha
  sortedLeft := h1
  sortedRight := h2.head.2
  least := by
    rintro a (ha | ha)
    · exact (hlt a ha).le
    · exact h2.head.1 a ha
  rounds := by
    intro x
    rw [rounds, rounds, count_cons_id]
    split
    · rename_i hx
      rw [hx, count_eq_zero_of_lt hlt]
      omega
    · omega

theorem front_left {a : Cageaddr} (h1 : SortedBy id (a :: v1)) (h2 : SortedBy id v2)
    (hlt : ∀ b ∈ v2, distance id a.id < distance id b.id) :
    Front id (a :: v1) v2 a v1 v2 where
  mem := Or.inl (List.mem_cons_self ..)
  left := fun b hb => List.mem_cons_of_mem a hb
  right := fun b hb => hb
  sortedLeft := h1.head.2
  sortedRight := h2
  least := by
    rintro b (hb | hb)
    · exact h1.head.1 b hb
    · exact (hlt b hb).le
  rounds := by
    intro x
    rw [rounds, rounds, count_cons_id]
    split
    · rename_i hx
      rw [hx, count_eq_zero_of_lt hlt]
      omega
    · omega

/-- The fronts of both lists, where they have the same id. -/
theorem front_both {a b : Cageaddr} (h1 : SortedBy id (a :: v1)) (h2 : SortedBy id (b :: v2))
    (heq : a.id = b.id) : Front id (a :: v1) (b :: v2) a v1 v2 where
  mem := Or.inl (List.mem_cons_self ..)
  left := fun c hc => List.mem_cons_of_mem a hc
  right := fun c hc => List.mem_cons_of_mem b hc
  sortedLeft := h1.head.2
  sortedRight := h2.head.2
  least := by
    rintro c (hc | hc)
    · exact h1.head.1 c hc
    · rw [heq]
      exact h2.head.1 c hc
  rounds := by
    intro x
    rw [rounds, rounds, count_cons_id, count_cons_id, heq]
    omega

/-- A round ends the merge, or takes a node. -/
theorem mergeNodes_round (h1 : SortedBy id v1) (h2 : SortedBy id v2) (n : Nat)
    (already : List Id) :
    (v1 = [] ∧ v2 = [] ∧ mergeNodes id (n + 1) v1 v2 already = []) ∨
      ∃ addr v1' v2', Front id v1 v2 addr v1' v2' ∧ mergeNodes id (n + 1) v1 v2 already =
        mergeNodes.push addr already (mergeNodes id n v1' v2') := by
  cases v1 with
  | nil =>
    cases v2 with
    | nil => exact Or.inl ⟨rfl, rfl, rfl⟩
    | cons b v2 => exact Or.inr ⟨b, [], v2, front_right h1 h2 (by simp), rfl⟩
  | cons a v1 =>
    cases v2 with
    | nil => exact Or.inr ⟨a, v1, [], front_left h1 h2 (by simp), rfl⟩
    | cons b v2 =>
      right
      rw [mergeNodes]
      split
      · rename_i heq
        exact ⟨a, v1, v2, front_both h1 h2 heq, rfl⟩
      · rename_i hne
        split
        · rename_i hlt
          have hlt' : distance id a.id < distance id b.id := lt_iff_distance.mp hlt
          exact ⟨a, v1, b :: v2, front_left h1 h2 fun c hc => hlt'.trans_le (h2.head.1 c hc), rfl⟩
        · rename_i hge
          -- The distances are different, as the ids are.
          have hlt' : distance id b.id < distance id a.id := by
            have hdistinct : distance id b.id ≠ distance id a.id :=
              fun heq => hne (distance_injective id heq).symm
            have hle : ¬ distance id a.id < distance id b.id :=
              fun hlt => hge (lt_iff_distance.mpr hlt)
            omega
          exact ⟨b, a :: v1, v2, front_right h1 h2 fun c hc => hlt'.trans_le (h1.head.1 c hc), rfl⟩

/-! ### The result -/

/-- The nodes of the result are of the lists and are new. -/
theorem of_mem_mergeNodes (h1 : SortedBy id v1) (h2 : SortedBy id v2) {a : Cageaddr}
    (ha : a ∈ mergeNodes id n v1 v2 already) : (a ∈ v1 ∨ a ∈ v2) ∧ a.id ∉ already := by
  induction n generalizing v1 v2 already with
  | zero =>
    rw [mergeNodes] at ha
    cases ha
  | succ n ih =>
    rcases mergeNodes_round h1 h2 n already with ⟨-, -, hnil⟩ | ⟨addr, v1', v2', hfront, hround⟩
    · rw [hnil] at ha
      cases ha
    · rw [hround, mergeNodes.push] at ha
      split at ha
      · obtain ⟨hmem, hnew⟩ := ih hfront.sortedLeft hfront.sortedRight ha
        exact ⟨hmem.imp (hfront.left a) (hfront.right a), hnew⟩
      · rename_i haddr
        rcases List.mem_cons.mp ha with rfl | ha
        · exact ⟨hfront.mem, haddr⟩
        · obtain ⟨hmem, hnew⟩ := ih hfront.sortedLeft hfront.sortedRight ha
          exact ⟨hmem.imp (hfront.left a) (hfront.right a),
            fun hin => hnew (List.mem_cons_of_mem _ hin)⟩

/-- The result is in the order of the distance, without an id twice. -/
theorem sorted_mergeNodes (h1 : SortedBy id v1) (h2 : SortedBy id v2) :
    (mergeNodes id n v1 v2 already).Pairwise fun a b => distance id a.id < distance id b.id := by
  induction n generalizing v1 v2 already with
  | zero =>
    rw [mergeNodes]
    exact List.Pairwise.nil
  | succ n ih =>
    rcases mergeNodes_round h1 h2 n already with ⟨-, -, hnil⟩ | ⟨addr, v1', v2', hfront, hround⟩
    · rw [hnil]
      exact List.Pairwise.nil
    · rw [hround, mergeNodes.push]
      split
      · exact ih hfront.sortedLeft hfront.sortedRight
      · refine List.pairwise_cons.mpr ⟨?_, ih hfront.sortedLeft hfront.sortedRight⟩
        intro b hb
        obtain ⟨hmem, hnew⟩ := of_mem_mergeNodes hfront.sortedLeft hfront.sortedRight hb
        have hle := hfront.least b (hmem.imp (hfront.left b) (hfront.right b))
        have hne : distance id addr.id ≠ distance id b.id := by
          intro heq
          rw [distance_injective id heq] at hnew
          exact hnew (List.mem_cons_self ..)
        omega

/-- The id of a round is the closest, and nothing comes before it. -/
theorem sum_first (hfront : Front id v1 v2 addr v1' v2') (s : Finset Id) :
    ∑ x ∈ closer (distance id) s addr.id, rounds v1 v2 x = 0 := by
  apply Finset.sum_eq_zero
  intro x hx
  by_contra hpos
  obtain ⟨a, ha, rfl⟩ := rounds_pos_iff.mp (Nat.pos_of_ne_zero hpos)
  have hle := hfront.least a ha
  have hlt := (mem_closer.mp hx).2
  omega

/-- Any other id of the lists has one round less before it. -/
theorem sum_next {s : Finset Id} (hfront : Front id v1 v2 addr v1' v2') (hs : addr.id ∈ s)
    {y : Id} (hy : y ≠ addr.id) (hpos : 0 < rounds v1 v2 y) :
    ∑ x ∈ closer (distance id) s y, rounds v1 v2 x =
      ∑ x ∈ closer (distance id) s y, rounds v1' v2' x + 1 := by
  have hlt : distance id addr.id < distance id y := by
    obtain ⟨a, ha, rfl⟩ := rounds_pos_iff.mp hpos
    have hle := hfront.least a ha
    have hne : distance id addr.id ≠ distance id a.id :=
      fun heq => hy (distance_injective id heq).symm
    omega
  have hmem : addr.id ∈ closer (distance id) s y := mem_closer.mpr ⟨hs, hlt⟩
  rw [Finset.sum_congr rfl fun x _ => hfront.rounds x, Finset.sum_add_distrib,
    Finset.sum_ite_eq', if_pos hmem]

/-- An id comes into the result when it is in the lists, is new, and the rounds of the closer
ids leave one for it. -/
theorem mem_mergeNodes (h1 : SortedBy id v1) (h2 : SortedBy id v2) {s : Finset Id}
    (hs : ∀ x, 0 < rounds v1 v2 x → x ∈ s) (already : List Id) (y : Id) :
    y ∈ (mergeNodes id n v1 v2 already).map Cageaddr.id ↔ 0 < rounds v1 v2 y ∧ y ∉ already ∧
      ∑ x ∈ closer (distance id) s y, rounds v1 v2 x < n := by
  -- By the room in the result. A round takes the closest contact that is left.
  induction n generalizing v1 v2 already with
  | zero =>
    rw [mergeNodes]
    simp
  | succ n ih =>
    rcases mergeNodes_round h1 h2 n already with ⟨rfl, rfl, hnil⟩ | ⟨addr, v1', v2', hfront, hround⟩
    · rw [hnil]
      simp [rounds]
    · have hin : 0 < rounds v1 v2 addr.id := by
        rw [hfront.rounds, if_pos rfl]
        omega
      have hs' : ∀ x, 0 < rounds v1' v2' x → x ∈ s := by
        intro x hx
        apply hs
        rw [hfront.rounds]
        omega
      rw [hround, mergeNodes.push]
      by_cases hy : y = addr.id
      · -- No id is closer than the one in front.
        have hrest := ih hfront.sortedLeft hfront.sortedRight hs' already
        rw [hy] at hrest ⊢
        rw [sum_first hfront]
        split
        · rename_i haddr
          rw [hrest]
          simp [haddr]
        · rename_i haddr
          simp [haddr, hin]
      · have hrounds : rounds v1 v2 y = rounds v1' v2' y := by
          rw [hfront.rounds, if_neg hy, Nat.add_zero]
        -- The round that is over was one for a closer id.
        have hsum : 0 < rounds v1' v2' y →
            ∑ x ∈ closer (distance id) s y, rounds v1 v2 x =
              ∑ x ∈ closer (distance id) s y, rounds v1' v2' x + 1 :=
          fun hpos => sum_next hfront (hs _ hin) hy (hrounds ▸ hpos)
        rw [hrounds]
        split
        · rw [ih hfront.sortedLeft hfront.sortedRight hs' _]
          refine and_congr_right fun hpos => and_congr_right fun _ => ?_
          rw [hsum hpos]
          omega
        · rw [List.map_cons, List.mem_cons, or_iff_right hy,
            ih hfront.sortedLeft hfront.sortedRight hs' _, List.mem_cons, not_or, and_iff_right hy]
          refine and_congr_right fun hpos => and_congr_right fun _ => ?_
          rw [hsum hpos]
          omega

end

/-- Every closer id takes a round at least. -/
theorem card_closer_le {id : Id} {v1 v2 : List Cageaddr} (y : Id) :
    (closer (distance id) (idsOf v1 v2) y).card ≤
      ∑ x ∈ closer (distance id) (idsOf v1 v2) y, rounds v1 v2 x := by
  rw [Finset.card_eq_sum_ones]
  apply Finset.sum_le_sum
  intro x hx
  exact mem_idsOf.mp (mem_closer.mp hx).1

/-- Two lists are merged as they should exactly when the copies of closer ids leave enough
rounds. -/
theorem mergedWell_iff (id : Id) (max : Nat) (v1 v2 : List Cageaddr) (h1 : SortedBy id v1)
    (h2 : SortedBy id v2) : MergedWell id max v1 v2 ↔ BudgetFits id max v1 v2 := by
  have hmem := fun y => mem_mergeNodes (n := max) h1 h2 (fun x => mem_idsOf.mpr) [] y
  have hsorted : ((mergeNodes id max v1 v2 []).map Cageaddr.id).Pairwise
      fun a b => distance id a < distance id b := by
    rw [List.pairwise_map]
    exact sorted_mergeNodes h1 h2
  constructor
  · intro h y hy hfew
    have hin := (h.closest.mem_iff y).mpr ⟨hy, hfew⟩
    exact ((hmem y).mp hin).2.2
  · intro hfits
    refine ⟨closest_of_mem_iff hsorted fun y => ?_, fun a ha => (of_mem_mergeNodes h1 h2 ha).1⟩
    rw [hmem, ← mem_idsOf]
    constructor
    · rintro ⟨hy, -, hsum⟩
      exact ⟨hy, (card_closer_le y).trans_lt hsum⟩
    · rintro ⟨hy, hfew⟩
      exact ⟨hy, by simp, hfits y hy hfew⟩

/-- A node with a small id. -/
def smallNode (k : Nat) : Cageaddr := ⟨.ofNat 160 k, .inet 7 (.ofNat 32 k)⟩

/-- One list has two nodes, and the other one has one of them and another. -/
theorem mergedWell_iff_three :
    MergedWell 0 2 [smallNode 1, smallNode 3] [smallNode 1, smallNode 2] ↔
      BudgetFits 0 2 [smallNode 1, smallNode 3] [smallNode 1, smallNode 2] :=
  mergedWell_iff 0 2 _ _ (by unfold SortedBy; decide) (by unfold SortedBy; decide)

/-- A peer sends one node twice, and the other node is left out although there is room for
two. -/
theorem padded_list_displaces : ¬ ∀ (id : Id) (max : Nat) (v1 v2 : List Cageaddr),
    SortedBy id v1 → SortedBy id v2 → MergedWell id max v1 v2 := by
  intro h
  have hmerged := h 0 2 [smallNode 2] [smallNode 1, smallNode 1] (by unfold SortedBy; decide)
    (by unfold SortedBy; decide)
  have hlength := hmerged.closest.length
  revert hlength
  decide

end Libcage.Proofs.Dht
