import Mathlib.Algebra.BigOperators.Group.Finset.Piecewise
import Libcage.Dht.Lookup
import Libcage.Lib.Closest
import Libcage.Proofs.Dht.Distance
import Libcage.Proofs.Dht.Rttable

/-!
# `Libcage.Proofs.Dht.Lookup`: a lookup finds the closest contacts

The rows of a table and the own id are ordered by their distance from the id that is looked
up. `id2i4lookup` takes the rows before the own id in this order, and then the own id.
`id2i4lookupR` takes the rows behind it. `Initial` says that no row was left out before one
that was taken, and `lookup_exact` that the contacts of the rows are enough.
-/

set_option autoImplicit false

namespace Libcage.Proofs.Dht

open Libcage.Lib
open Libcage.Dht
open Libcage.Rdp (Id Table)

/-- A row that is there, or the own id. -/
def IsRow (t : Rttable) (i : Int) : Prop := i = -1 ∨ (t.table.lookup i).isSome = true

/-- The number of contacts in some rows. -/
def count (t : Rttable) (is : Finset Int) : Nat := ∑ i ∈ is, (t.members i).length

/-- Some rows, and with each of them all rows of a lower rank. -/
structure Initial (t : Rttable) (id : Id) (is : Finset Int) : Prop where
  row : ∀ i ∈ is, IsRow t i
  lower : ∀ i ∈ is, ∀ j, IsRow t j → rank (t.id ^^^ id) j < rank (t.id ^^^ id) i → j ∈ is

/-- The rows before the own id, from row `k` on. -/
def TakenFrom (t : Rttable) (id : Id) (k : Nat) (is : Finset Int) : Prop :=
  ∀ j : Int, j ∈ is ↔ (k : Int) ≤ j ∧ (t.id ^^^ id).getLsbD j.toNat = true ∧
    (t.table.lookup j).isSome = true

/-- The rows before the own id, the own id, and the rows behind it without those that are
still to come. -/
def TakenBut (t : Rttable) (id : Id) (todo : List Int) (is : Finset Int) : Prop :=
  ∀ j : Int, j ∈ is ↔ j = -1 ∨ 0 ≤ j ∧ (t.table.lookup j).isSome = true ∧
    ((t.id ^^^ id).getLsbD j.toNat = true ∨ j ∉ todo)

section
variable {t : Rttable} {id : Id} {is : Finset Int}

/-! ### Counting -/

theorem members_of_lookup {i : Int} (hi : 0 ≤ i) {row : List Cageaddr}
    (h : t.table.lookup i = some row) : t.members i = row := by
  rw [Rttable.members, if_neg (by omega)]
  exact rowOf_of_lookup h

/-- One more row. -/
theorem count_insert {i : Int} (h : i ∉ is) :
    count t (insert i is) = count t is + (t.members i).length := by
  rw [count, Finset.sum_insert h, Nat.add_comm]
  rfl

local instance rows_trans : IsTrans Int (· ≤ ·) := inferInstance

local instance rows_antisymm : Std.Antisymm (α := Int) (· ≤ ·) := inferInstance

/-- What is taken from some rows. -/
def taken (t : Rttable) (is : Finset Int) : List Cageaddr :=
  (is.sort (· ≤ ·)).flatMap t.members

theorem mem_taken {a : Cageaddr} : a ∈ taken t is ↔ ∃ i ∈ is, a ∈ t.members i := by
  rw [taken, List.mem_flatMap]
  simp only [Finset.mem_sort]

theorem length_taken : (taken t is).length = count t is := by
  rw [taken, List.length_flatMap, count, ← List.sum_toFinset _ (Finset.sort_nodup _ _),
    Finset.sort_toFinset]

/-! ### The first loop -/

/-- The rows before the own id start with those of the higher bits. -/
theorem TakenFrom.initial {k : Nat} (h : TakenFrom t id k is)
    (hrows : ∀ i, (t.table.lookup i).isSome = true → 0 ≤ i) : Initial t id is := by
  refine ⟨fun i hi => Or.inr ((h i).mp hi).2.2, fun i hi j hj hlt => ?_⟩
  obtain ⟨hk, hset, -⟩ := (h i).mp hi
  unfold rank at hlt
  rw [if_pos (c := 0 ≤ i ∧ _) ⟨by omega, hset⟩] at hlt
  rcases hj with rfl | hj
  · rw [if_neg (by omega)] at hlt
    omega
  · split at hlt
    · rename_i hsetJ
      exact (h j).mpr ⟨by omega, hsetJ.2, hj⟩
    · rename_i hclear
      -- A row behind the own id has a positive rank.
      have hpos := hrows j hj
      omega

theorem TakenBut.initial {todo : List Int} (h : TakenBut t id todo is)
    (hrows : ∀ i, (t.table.lookup i).isSome = true → 0 ≤ i)
    (htodo : ∀ i, (t.table.lookup i).isSome = true → i ∉ todo → ∀ j ∈ todo, i < j) :
    Initial t id is := by
  refine ⟨fun i hi => ((h i).mp hi).imp_right fun hrow => hrow.2.1, fun i hi j hj hlt => ?_⟩
  rw [h]
  rcases hj with rfl | hj
  · exact Or.inl rfl
  · have hposJ := hrows j hj
    refine Or.inr ⟨hposJ, hj, ?_⟩
    by_contra hnot
    rw [not_or, not_not] at hnot
    obtain ⟨hclear, hin⟩ := hnot
    -- The row behind the own id that is to come is farther than all that were taken.
    unfold rank at hlt
    rw [if_neg (c := 0 ≤ j ∧ _) fun hset => hclear hset.2] at hlt
    rcases (h i).mp hi with rfl | ⟨hposI, hrowI, hside⟩
    · rw [if_neg (by omega)] at hlt
      omega
    · split at hlt
      · omega
      · rename_i hclearI
        have hout := hside.resolve_left fun hset => hclearI ⟨hposI, hset⟩
        have hless := htodo i hrowI hout j hin
        omega

/-- What the first loop gives. -/
def FirstDone (t : Rttable) (id : Id) (max : Int) (r : Int × Finset Int) : Prop :=
  r.1 = count t r.2 ∧ (max ≤ r.1 ∧ Initial t id r.2 ∨ TakenBut t id t.table.keys r.2)

/-- The bits below `k` of the distance. -/
def BitsBelow (t : Rttable) (id id0 : Id) (k : Nat) : Prop :=
  ∀ j, (t.id ^^^ id0).getLsbD j = (decide (j < k) && (t.id ^^^ id).getLsbD j)

/-- The own id is left, and it is the last one of the first loop. -/
theorem TakenFrom.own {id0 : Id} {k : Nat} (h : TakenFrom t id k is) (hbits : BitsBelow t id id0 k)
    (hzero : t.id ^^^ id0 = 0) : TakenBut t id t.table.keys (insert (-1) is) := by
  intro j
  rw [Finset.mem_insert, h]
  refine or_congr_right ⟨?_, ?_⟩
  · rintro ⟨hk, hset, hrow⟩
    exact ⟨by omega, hrow, Or.inl hset⟩
  · rintro ⟨hpos, hrow, hside⟩
    have hset : (t.id ^^^ id).getLsbD j.toNat = true := by
      refine hside.resolve_right fun hout => hout ?_
      exact AList.mem_keys.mp (AList.lookup_isSome.mp hrow)
    refine ⟨?_, hset, hrow⟩
    -- No bit below `k` is set any more.
    by_contra hlt
    have hbit := hbits j.toNat
    rw [hzero, getLsbD_zero, hset, decide_eq_true (by omega)] at hbit
    cases hbit

/-- The next row of the first loop. -/
theorem TakenFrom.next {id0 : Id} {k i : Nat} (h : TakenFrom t id k is)
    (hbits : BitsBelow t id id0 k) (htop : TopBit (t.id ^^^ id0) i) :
    i < k ∧ (t.id ^^^ id).getLsbD i = true ∧
      ∀ is', (∀ j, j ∈ is' ↔ j ∈ is ∨ j = i ∧ (t.table.lookup j).isSome = true) →
        TakenFrom t id i is' := by
  have hset := htop.set (by omega)
  rw [Int.toNat_natCast, hbits] at hset
  obtain ⟨hlt, hbit⟩ := Bool.and_eq_true_iff.mp hset
  have hlt := of_decide_eq_true hlt
  refine ⟨hlt, hbit, fun is' hmem j => ?_⟩
  rw [hmem, h]
  constructor
  · rintro (⟨hk, hsetJ, hrow⟩ | ⟨rfl, hrow⟩)
    · exact ⟨by omega, hsetJ, hrow⟩
    · exact ⟨le_rfl, by rwa [Int.toNat_natCast], hrow⟩
  · rintro ⟨hi, hsetJ, hrow⟩
    by_cases hk : (k : Int) ≤ j
    · exact Or.inl ⟨hk, hsetJ, hrow⟩
    · right
      refine ⟨?_, hrow⟩
      -- Between the highest bit and `k` none is set.
      by_contra hne
      have hclear := htop.clear j.toNat (by omega)
      rw [hbits, hsetJ, decide_eq_true (by omega)] at hclear
      cases hclear

/-- The bits that are left after the highest one is cleared. -/
theorem BitsBelow.next {id0 : Id} {k i : Nat} (h : BitsBelow t id id0 k)
    (htop : TopBit (t.id ^^^ id0) i) : BitsBelow t id (id0 ^^^ 1#160 <<< i) i := by
  intro j
  have hupper := htop.upper
  have hmask : (1#160 <<< i).getLsbD j = decide (j = i) := by
    rw [← BitVec.twoPow_eq, BitVec.getLsbD_twoPow]
    grind
  rw [← BitVec.xor_assoc, BitVec.getLsbD_xor, hmask]
  rcases lt_trichotomy j i with hlt | rfl | hgt
  · have hset := htop.set (by omega)
    rw [Int.toNat_natCast, h] at hset
    have hik := of_decide_eq_true (Bool.and_eq_true_iff.mp hset).1
    have hjk : j < k := by omega
    rw [h, decide_eq_true hlt, decide_eq_true hjk, decide_eq_false (by omega)]
    simp
  · have hset := htop.set (by omega)
    rw [Int.toNat_natCast] at hset
    simp [hset]
  · rw [htop.clear j (by omega), decide_eq_false (by omega : ¬ j = i),
      decide_eq_false (by omega : ¬ j < i)]
    simp

/-- The first loop ends. -/
theorem id2i4lookupLoop_ends (hrows : ∀ i, (t.table.lookup i).isSome = true → 0 ≤ i) (max : Int)
    {rounds k : Nat} (hk : k < rounds) {id0 : Id} {n : Int} (hbits : BitsBelow t id id0 k)
    (htaken : TakenFrom t id k is) (hn : n = count t is) :
    ∃ r, t.id2i4lookupLoop max rounds id0 n is = .ok r ∧ FirstDone t id max r := by
  -- By the bits that are left: each round takes the row of the highest one.
  induction rounds generalizing k id0 n is with
  | zero => exact absurd hk (Nat.not_lt_zero k)
  | succ rounds ih =>
    rw [Rttable.id2i4lookupLoop]
    split
    · split
      · -- No bit is left, and the node itself comes last.
        rename_i hzero
        refine ⟨_, rfl, ?_, Or.inr (htaken.own hbits hzero)⟩
        have hout : (-1 : Int) ∉ is := fun hin => by
          have hle := ((htaken (-1)).mp hin).1
          omega
        dsimp only
        rw [count_insert hout, hn]
        rfl
      · rename_i hne
        have htop := topBit_id2i t.id id0
        have hrow : id2i t.id id0 ≠ -1 := fun heq => hne (id2i_eq_neg_one_iff.mp heq)
        have hlower := htop.lower
        obtain ⟨i, hi⟩ := Int.eq_ofNat_of_zero_le (show 0 ≤ id2i t.id id0 by omega)
        rw [hi] at htop
        obtain ⟨hlt, -, hnext⟩ := htaken.next hbits htop
        have hbits' := hbits.next htop
        dsimp only
        rw [hi, Int.toNat_natCast]
        cases hlook : t.table.lookup (i : Int) with
        | some row =>
          refine ih (by omega) hbits' (hnext _ fun j => ?_) ?_
          · rw [Finset.mem_insert, or_comm]
            refine or_congr_right ⟨?_, fun h => h.1⟩
            rintro rfl
            exact ⟨rfl, by rw [hlook]; rfl⟩
          · have hout : (i : Int) ∉ is := fun hin => by
              have hle := ((htaken i).mp hin).1
              omega
            rw [count_insert hout, members_of_lookup (by omega) hlook, hn]
            omega
        | none =>
          -- A row that is not there takes no contact in.
          refine ih (by omega) hbits' (hnext _ fun j => ?_) hn
          refine (or_iff_left ?_).symm
          rintro ⟨rfl, hsome⟩
          rw [hlook] at hsome
          cases hsome
    · exact ⟨_, rfl, hn, Or.inl ⟨by omega, htaken.initial hrows⟩⟩

theorem id2i4lookup_ends (hrows : ∀ i, (t.table.lookup i).isSome = true → 0 ≤ i) (id : Id)
    (max : Int) {rounds : Nat} (h : 160 < rounds) :
    ∃ r, t.id2i4lookup rounds id max = .ok r ∧ FirstDone t id max r := by
  refine id2i4lookupLoop_ends hrows max h (fun j => ?_) (fun j => ?_) ?_
  · by_cases hj : j < 160
    · simp [hj]
    · rw [BitVec.getLsbD_of_ge _ j (by omega)]
      simp [hj]
  · constructor
    · intro hin
      exact absurd hin (Finset.notMem_empty j)
    · rintro ⟨hj, hset, -⟩
      rw [BitVec.getLsbD_of_ge _ _ (by omega)] at hset
      cases hset
  · simp [count]

/-! ### The second loop -/

/-- What is left of the rows in the order of a map: they are in the table, and the others are
lower. -/
structure RowsLeft (t : Rttable) (todo : List (Sigma fun _ : Int => List Cageaddr)) : Prop where
  sorted : todo.Pairwise fun a b => a.1 < b.1
  mem : ∀ e ∈ todo, t.table.lookup e.1 = some e.2
  others : ∀ i, (t.table.lookup i).isSome = true → i ∉ todo.map Sigma.fst →
    ∀ j ∈ todo.map Sigma.fst, i < j

theorem rowsInOrder_perm (t : Rttable) : t.rowsInOrder.Perm t.table.entries :=
  List.mergeSort_perm _ _

theorem mem_rowsInOrder {e : Sigma fun _ : Int => List Cageaddr} :
    e ∈ t.rowsInOrder ↔ t.table.lookup e.1 = some e.2 := by
  rw [(rowsInOrder_perm t).mem_iff]
  exact AList.mem_lookup_iff.symm

theorem mem_keys_rowsInOrder {i : Int} :
    i ∈ t.rowsInOrder.map Sigma.fst ↔ (t.table.lookup i).isSome = true := by
  rw [List.mem_map]
  constructor
  · rintro ⟨e, he, rfl⟩
    rw [mem_rowsInOrder.mp he]
    rfl
  · intro h
    obtain ⟨row, hrow⟩ := Option.isSome_iff_exists.mp h
    exact ⟨⟨i, row⟩, mem_rowsInOrder.mpr hrow, rfl⟩

theorem rowsLeft_rowsInOrder (t : Rttable) : RowsLeft t t.rowsInOrder := by
  refine ⟨?_, fun e he => mem_rowsInOrder.mp he, fun i hrow hout => ?_⟩
  · have hle : t.rowsInOrder.Pairwise fun a b => a.1 ≤ b.1 := by
      refine (List.pairwise_mergeSort ?_ ?_ _).imp fun h => of_decide_eq_true h
      · intro a b c hab hbc
        exact decide_eq_true ((of_decide_eq_true hab).trans (of_decide_eq_true hbc))
      · intro a b
        simpa using le_total a.1 b.1
    have hnodup : (t.rowsInOrder.map Sigma.fst).Nodup :=
      ((rowsInOrder_perm t).map Sigma.fst).nodup_iff.mpr t.table.nodupKeys
    exact hle.imp₂ (fun a b hab hne => lt_of_le_of_ne hab hne) (List.pairwise_map.mp hnodup)
  · exact absurd (mem_keys_rowsInOrder.mpr hrow) hout

/-- One row less. -/
theorem RowsLeft.tail {e : Sigma fun _ : Int => List Cageaddr}
    {todo : List (Sigma fun _ : Int => List Cageaddr)} (h : RowsLeft t (e :: todo)) :
    RowsLeft t todo ∧ e.1 ∉ todo.map Sigma.fst := by
  obtain ⟨hhead, htail⟩ := List.pairwise_cons.mp h.sorted
  have hlow : ∀ j ∈ todo.map Sigma.fst, e.1 < j := by
    intro j hj
    obtain ⟨e', he', rfl⟩ := List.mem_map.mp hj
    exact hhead e' he'
  refine ⟨⟨htail, fun e' he' => h.mem e' (List.mem_cons_of_mem e he'), ?_⟩,
    fun hin => lt_irrefl _ (hlow _ hin)⟩
  intro i hrow hout j hj
  by_cases hi : i = e.1
  · rw [hi]
    exact hlow j hj
  · refine h.others i hrow ?_ j ?_
    · simp [hi, hout]
    · exact List.mem_cons_of_mem _ hj

/-- The rows have numbers from 0 on. -/
theorem RowsOk.zero_le (h : RowsOk t.id t.table t.nodes) {i : Int}
    (hrow : (t.table.lookup i).isSome = true) : 0 ≤ i := by
  obtain ⟨row, hlook⟩ := Option.isSome_iff_exists.mp hrow
  obtain ⟨a, ha⟩ := List.exists_mem_of_length_pos (h.size i row hlook).1
  rw [← rowOf_of_lookup hlook] at ha
  have hid := h.row i a ha
  have hlower := (topBit_id2i t.id a.id).lower
  have hown : id2i t.id a.id ≠ -1 := by
    intro heq
    have hzero := id2i_eq_neg_one_iff.mp heq
    exact h.own i a ha ((BitVec.xor_eq_zero_iff.mp hzero).symm)
  omega

theorem RowsOk.lt_bits (h : RowsOk t.id t.table t.nodes) {i : Int}
    (hrow : (t.table.lookup i).isSome = true) : i < 160 := by
  obtain ⟨row, hlook⟩ := Option.isSome_iff_exists.mp hrow
  obtain ⟨a, ha⟩ := List.exists_mem_of_length_pos (h.size i row hlook).1
  rw [← rowOf_of_lookup hlook] at ha
  rw [← h.row i a ha]
  exact (topBit_id2i t.id a.id).upper

/-- The test of the second loop. -/
theorem mask_iff {i : Nat} (hi : i < 160) (d : Id) :
    1#160 <<< i &&& ~~~d ≠ 0 ↔ d.getLsbD i = false := by
  rw [BitVec.and_comm, and_mask_ne_zero_iff hi, BitVec.getLsbD_not]
  simp [hi]

/-- A row behind the own id is taken. -/
theorem TakenBut.take {i : Int} {todo : List Int} (h : TakenBut t id (i :: todo) is)
    (hpos : 0 ≤ i) (hrow : (t.table.lookup i).isSome = true) (hnew : i ∉ todo) :
    TakenBut t id todo (insert i is) := by
  intro j
  rw [Finset.mem_insert, h]
  by_cases hj : j = i
  · subst hj
    simp [hpos, hrow, hnew]
  · simp [hj]

/-- A row that was taken by the first loop is passed over. -/
theorem TakenBut.skip {i : Int} {todo : List Int} (h : TakenBut t id (i :: todo) is)
    (hset : (t.id ^^^ id).getLsbD i.toNat = true) : TakenBut t id todo is := by
  intro j
  rw [h]
  by_cases hj : j = i
  · subst hj
    simp [hset]
  · simp [hj]

/-- A row behind the own id has not been taken by the first loop. -/
theorem TakenBut.notMem {i : Int} {todo : List Int} (h : TakenBut t id (i :: todo) is)
    (hpos : 0 ≤ i) (hclear : (t.id ^^^ id).getLsbD i.toNat = false) : i ∉ is := by
  rw [h]
  rintro (heq | ⟨-, -, hset | hnot⟩)
  · omega
  · rw [hclear] at hset
    cases hset
  · exact hnot (List.mem_cons_self ..)

/-- The second loop takes rows until there are enough contacts, or all rows. -/
theorem id2i4lookupRLoop_spec (hrows : RowsOk t.id t.table t.nodes) (max : Int)
    {todo : List (Sigma fun _ : Int => List Cageaddr)} (hleft : RowsLeft t todo) {n n0 : Int}
    (htaken : TakenBut t id (todo.map Sigma.fst) is) (hn : n0 + n = count t is) :
    ∃ is', (Rttable.id2i4lookupRLoop (~~~(t.id ^^^ id)) max todo n is).2 = is' ∧
      Initial t id is' ∧ (n0 + max ≤ count t is' ∨ ∀ i, IsRow t i → i ∈ is') := by
  induction todo generalizing n is with
  | nil =>
    -- All rows have been looked at, and none was left out.
    refine ⟨is, rfl, htaken.initial (fun i => hrows.zero_le) hleft.others, Or.inr fun i hi => ?_⟩
    rcases hi with rfl | hi
    · exact (htaken _).mpr (Or.inl rfl)
    · exact (htaken i).mpr (Or.inr ⟨hrows.zero_le hi, hi, Or.inr (by simp)⟩)
  | cons e todo ih =>
    obtain ⟨hleft', hnew⟩ := hleft.tail
    have hlook := hleft.mem e (List.mem_cons_self ..)
    have hrow : (t.table.lookup e.1).isSome = true := by rw [hlook]; rfl
    have hpos := hrows.zero_le hrow
    have hlt := hrows.lt_bits hrow
    have hmask := mask_iff (i := e.1.toNat) (by omega) (t.id ^^^ id)
    rw [Rttable.id2i4lookupRLoop]
    split
    · -- Enough is taken: `max` counts down to zero.
      exact ⟨is, rfl, htaken.initial (fun i => hrows.zero_le) hleft.others, Or.inl (by omega)⟩
    · split
      · rename_i hbit
        have hout := htaken.notMem hpos (hmask.mp hbit)
        refine ih hleft' (htaken.take hpos hrow hnew) ?_
        rw [count_insert hout, members_of_lookup hpos hlook]
        omega
      · rename_i hbit
        -- The first loop took this row, so nothing changes.
        have hset : (t.id ^^^ id).getLsbD e.1.toNat = true := by
          rw [← Bool.not_eq_false]
          exact fun hclear => hbit (hmask.mpr hclear)
        exact ih hleft' (htaken.skip hset) hn

/-! ### The result -/

/-- The own id and the contacts of the rows, by their rows. -/
theorem RowsOk.members (h : RowsOk t.id t.table t.nodes) {i : Int} {a : Cageaddr}
    (ha : a ∈ t.members i) : id2i t.id a.id = i := by
  rw [Rttable.members] at ha
  split at ha
  · rename_i hi
    rw [List.mem_singleton.mp ha, hi]
    exact id2i_eq_neg_one_iff.mpr BitVec.xor_self
  · exact h.row i a ha

theorem mem_own_or_nodes (h : RowsOk t.id t.table t.nodes) {x : Id} :
    x ∈ insert t.id t.nodes ↔ ∃ i, IsRow t i ∧ ∃ a ∈ t.members i, a.id = x := by
  rw [Finset.mem_insert, h.nodes]
  constructor
  · rintro (rfl | ⟨i, a, ha, rfl⟩)
    · exact ⟨-1, Or.inl rfl, ⟨t.id, .loopback⟩, List.mem_singleton_self _, rfl⟩
    · have hrow : (t.table.lookup i).isSome = true := by
        cases hlook : t.table.lookup i with
        | none =>
          rw [rowOf, hlook] at ha
          cases ha
        | some row => rfl
      have hpos := h.zero_le hrow
      refine ⟨i, Or.inr hrow, a, ?_, rfl⟩
      rw [Rttable.members, if_neg (by omega)]
      exact ha
  · rintro ⟨i, -, a, ha, rfl⟩
    rw [Rttable.members] at ha
    split at ha
    · rw [List.mem_singleton.mp ha]
      exact Or.inl rfl
    · exact Or.inr ⟨i, a, ha, rfl⟩

theorem RowsOk.nodup_members (h : RowsOk t.id t.table t.nodes) (i : Int) :
    ((t.members i).map Cageaddr.id).Nodup := by
  rw [Rttable.members]
  split
  · exact List.nodup_singleton _
  · exact h.distinct i

/-- No id is taken twice. -/
theorem RowsOk.nodup_taken (h : RowsOk t.id t.table t.nodes) (is : Finset Int) :
    ((taken t is).map Cageaddr.id).Nodup := by
  rw [taken, List.map_flatMap, List.nodup_flatMap]
  refine ⟨fun i _ => h.nodup_members i, ?_⟩
  refine (Finset.sort_nodup is (· ≤ ·)).imp fun hne x hx hy => hne ?_
  obtain ⟨a, ha, rfl⟩ := List.mem_map.mp hx
  obtain ⟨b, hb, heq⟩ := List.mem_map.mp hy
  rw [← h.members ha, ← h.members hb, heq]

/-- The nodes sorted by the distance. -/
theorem sorted_sortNodes (id : Id) {nodes : List Cageaddr} (h : (nodes.map Cageaddr.id).Nodup) :
    ((sortNodes id nodes).map Cageaddr.id).Pairwise fun a b => distance id a < distance id b := by
  have hle : (sortNodes id nodes).Pairwise fun a b => distance id a.id ≤ distance id b.id := by
    refine (List.pairwise_mergeSort ?_ ?_ _).imp fun h => BitVec.le_def.mp (of_decide_eq_true h)
    · intro a b c hab hbc
      exact decide_eq_true (BitVec.le_trans (of_decide_eq_true hab) (of_decide_eq_true hbc))
    · intro a b
      simpa using BitVec.le_total (id ^^^ a.id) (id ^^^ b.id)
  have hnodup : ((sortNodes id nodes).map Cageaddr.id).Nodup :=
    ((List.mergeSort_perm _ _).map _).nodup_iff.mpr h
  rw [List.pairwise_map]
  refine hle.imp₂ (fun a b hab hne => lt_of_le_of_ne hab fun heq => hne ?_)
    (List.pairwise_map.mp hnodup)
  exact distance_injective id heq

theorem mem_sortNodes {nodes : List Cageaddr} {a : Cageaddr} :
    a ∈ sortNodes id nodes ↔ a ∈ nodes := List.mem_mergeSort

theorem length_sortNodes (nodes : List Cageaddr) : (sortNodes id nodes).length = nodes.length :=
  (List.mergeSort_perm _ _).length_eq

/-- The ids of what is taken. -/
theorem mem_ids_taken {x : Id} : x ∈ (sortNodes id (taken t is)).map Cageaddr.id ↔
    ∃ i ∈ is, ∃ a ∈ t.members i, a.id = x := by
  simp only [List.mem_map, mem_sortNodes, mem_taken]
  constructor
  · rintro ⟨a, ⟨i, hi, ha⟩, rfl⟩
    exact ⟨i, hi, a, ha, rfl⟩
  · rintro ⟨i, hi, a, ha, rfl⟩
    exact ⟨a, ⟨i, hi, ha⟩, rfl⟩

/-- What is in a row that was not taken is farther than what was taken, as the row has a higher
rank. -/
theorem distance_lt_of_initial (h : RowsOk t.id t.table t.nodes) (hinitial : Initial t id is)
    {i j : Int} (hi : i ∈ is) (hrow : IsRow t j) (hj : j ∉ is) {a b : Cageaddr}
    (ha : a ∈ t.members i) (hb : b ∈ t.members j) : distance id a.id < distance id b.id := by
  have hidA := h.members ha
  have hidB := h.members hb
  suffices hrank : rank (t.id ^^^ id) (id2i t.id a.id) < rank (t.id ^^^ id) (id2i t.id b.id) from
    distance_lt_of_rank hrank
  rw [hidA, hidB]
  refine lt_of_le_of_ne (not_lt.mp fun hlt => hj (hinitial.lower i hi j hrow hlt)) fun heq => ?_
  have hlowerI := (topBit_id2i t.id a.id).lower
  have hlowerJ := (topBit_id2i t.id b.id).lower
  rw [hidA] at hlowerI
  rw [hidB] at hlowerJ
  exact hj (rank_injective hlowerI hlowerJ heq ▸ hi)

/-- Enough rows, none left out: the closest contacts are at the front of them. -/
theorem closest_of_initial (h : RowsOk t.id t.table t.nodes) (hinitial : Initial t id is) {n : Nat}
    (henough : n ≤ count t is ∨ ∀ i, IsRow t i → i ∈ is) :
    Closest (distance id) n (insert t.id t.nodes)
      (((sortNodes id (taken t is)).take n).map Cageaddr.id) := by
  have hsorted := sorted_sortNodes id (h.nodup_taken is)
  rw [List.map_take]
  refine closest_take hsorted ?_ ?_ ?_
  · intro x hx
    -- What is taken are nodes of the table.
    obtain ⟨i, hi, a, ha, rfl⟩ := mem_ids_taken.mp hx
    exact (mem_own_or_nodes h).mpr ⟨i, hinitial.row i hi, a, ha, rfl⟩
  · intro x hx y hy hout
    obtain ⟨i, hi, a, ha, rfl⟩ := mem_ids_taken.mp hx
    obtain ⟨j, hrow, b, hb, rfl⟩ := (mem_own_or_nodes h).mp hy
    -- The row of `y` was left out, so it is behind every row that was taken.
    have hj : j ∉ is := fun hj => hout (mem_ids_taken.mpr ⟨j, hj, b, hb, rfl⟩)
    exact distance_lt_of_initial h hinitial hi hrow hj ha hb
  · have hlength : ((sortNodes id (taken t is)).map Cageaddr.id).length = count t is := by
      rw [List.length_map, length_sortNodes, length_taken]
    rcases henough with hle | hall
    · omega
    · -- Every row was taken, so there are no more nodes than that.
      have hsub : insert t.id t.nodes ⊆ ((sortNodes id (taken t is)).map Cageaddr.id).toFinset := by
        intro x hx
        obtain ⟨i, hrow, a, ha, rfl⟩ := (mem_own_or_nodes h).mp hx
        exact List.mem_toFinset.mpr (mem_ids_taken.mpr ⟨i, hall i hrow, a, ha, rfl⟩)
      have hcard := Finset.card_le_card hsub
      have htoFinset := List.toFinset_card_le ((sortNodes id (taken t is)).map Cageaddr.id)
      omega

/-- The rows that a lookup takes. -/
theorem lookup_rows (h : RowsOk t.id t.table t.nodes) (id : Id) (num : Int) {rounds : Nat}
    (hrounds : 160 < rounds) :
    ∃ is, t.lookup rounds id num [] = .ok ((sortNodes id (taken t is)).take num.toNat) ∧
      Initial t id is ∧ (num ≤ count t is ∨ ∀ i, IsRow t i → i ∈ is) := by
  obtain ⟨⟨n, is⟩, hfirst, hn, hdone⟩ := id2i4lookup_ends (fun i => h.zero_le) id num hrounds
  dsimp only at hn hdone
  unfold Rttable.lookup
  rw [hfirst, ok_bind]
  dsimp only
  split
  · rename_i hfew
    -- The first loop came to the own id, and the second one goes on behind it.
    have htaken := hdone.resolve_left fun hmany => absurd hmany.1 (by omega)
    have hkeys : TakenBut t id (t.rowsInOrder.map Sigma.fst) is := by
      intro j
      rw [htaken j, ((rowsInOrder_perm t).map Sigma.fst).mem_iff]
      rfl
    obtain ⟨is', hsecond, hinitial, henough⟩ :=
      id2i4lookupRLoop_spec h (num - n) (rowsLeft_rowsInOrder t) hkeys
        (show n + 0 = (count t is : Int) by omega)
    refine ⟨is', ?_, hinitial, henough.imp_left fun hle => by omega⟩
    rw [Rttable.id2i4lookupR, hsecond]
    rfl
  · rename_i hmany
    refine ⟨is, rfl, ?_, Or.inl (by omega)⟩
    rcases hdone with ⟨-, hinitial⟩ | htaken
    · exact hinitial
    · refine htaken.initial (fun i => h.zero_le) fun i hrow hout => absurd ?_ hout
      exact AList.mem_keys.mp (AList.lookup_isSome.mp hrow)

/-- A lookup ends with the closest ones of the contacts and the own id, closest first. -/
theorem lookup_exact (h : RowsOk t.id t.table t.nodes) (id : Id) (num : Int) (hnum : 1 ≤ num)
    (rounds : Nat) (hrounds : 160 < rounds) :
    ∃ ret, t.lookup rounds id num [] = .ok ret ∧
      Closest (distance id) num.toNat (insert t.id t.nodes) (ret.map Cageaddr.id) ∧
      ret.length = min num.toNat (t.nodes.card + 1) ∧
      ∀ a ∈ ret, a = ⟨t.id, .loopback⟩ ∨ ∃ i, a ∈ t.row i := by
  obtain ⟨is, hlookup, hinitial, henough⟩ := lookup_rows h id num hrounds
  have hclosest := closest_of_initial h hinitial (n := num.toNat)
    (henough.imp_left fun hle => by omega)
  have hown : t.id ∉ t.nodes := by
    intro hin
    obtain ⟨i, a, ha, heq⟩ := (h.nodes t.id).mp hin
    exact h.own i a ha heq
  refine ⟨_, hlookup, hclosest, ?_, fun a ha => ?_⟩
  · rw [← Finset.card_insert_of_notMem hown, ← hclosest.length, List.length_map]
  · obtain ⟨i, -, ha⟩ := mem_taken.mp (mem_sortNodes.mp (List.mem_of_mem_take ha))
    rw [Rttable.members] at ha
    split at ha
    · exact Or.inl (List.mem_singleton.mp ha)
    · exact Or.inr ⟨i, ha⟩

end

/-- The table of a node that knows one other node. -/
def oneContact : Rttable :=
  { Rttable.init 0 with
    table := AList.insert 159 [neighbour 1] ∅
    nodes := {(neighbour 1).id} }

theorem oneContact_rows : RowsOk oneContact.id oneContact.table oneContact.nodes := by
  have hrow : id2i (Rttable.init 0).id (neighbour 1).id = 159 := by decide +kernel
  have hadd : (Rttable.init 0).add [] (neighbour 1) = .ok oneContact := by
    unfold Rttable.add
    rw [if_neg (by decide)]
    simp only [hrow]
    rfl
  exact (((tableInv_init 0).add [] (neighbour 1)).of_ok hadd).ok.rows

/-- One of the two is closer to the id 5. -/
theorem lookup_exact_one : ∃ ret, oneContact.lookup 161 5 1 [] = .ok ret ∧ ret.length = 1 := by
  obtain ⟨ret, hlookup, -, hlength, -⟩ :=
    lookup_exact oneContact_rows 5 1 (by decide) 161 (by decide)
  exact ⟨ret, hlookup, hlength⟩

end Libcage.Proofs.Dht
