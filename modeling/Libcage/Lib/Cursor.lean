import Libcage.Lib.Index

/-!
# `Libcage.Lib.Cursor`: walking an ordered table that changes

A `std::map` is walked in the order of its keys. `start` is the first key and `next` the one
behind a key, in the table as it is then. Entries that are put in on the way are met or not,
depending on where they come, and an iterator on an entry that is taken out must not be used
any more.

`Ahead t c ns` says that a walk at `c` still has the keys `ns` of its beginning before it.
`Ahead.start` begins a walk and `Ahead.move` moves it on, whether the key at the cursor was
there at the beginning (`Ahead.cons`) or came in on the way.
-/

set_option autoImplicit false

namespace Libcage.Lib.Cursor

universe u
variable {κ α : Type u}

section
variable [LE κ] [DecidableLE κ]

/-- The keys in their order. -/
def inOrder (t : AList fun _ : κ => α) : List κ := t.keys.mergeSort fun a b => decide (a ≤ b)

/-- `begin()`. -/
def start (t : AList fun _ : κ => α) : Option κ := (inOrder t).head?

/-- The key behind `k`, or `end()`. -/
def next [LT κ] [DecidableLT κ] (t : AList fun _ : κ => α) (k : κ) : Option κ :=
  (inOrder t).find? fun j => decide (k < j)

theorem mem_inOrder {t : AList fun _ : κ => α} {k : κ} : k ∈ inOrder t ↔ k ∈ t := by
  unfold inOrder
  rw [List.mem_mergeSort]
  exact AList.mem_keys.symm

theorem nodup_inOrder (t : AList fun _ : κ => α) : (inOrder t).Nodup :=
  (List.mergeSort_perm _ _).nodup_iff.mpr t.nodupKeys

/-- At the end there is no higher key. -/
theorem next_eq_none [LT κ] [DecidableLT κ] {t : AList fun _ : κ => α} {k : κ}
    (h : next t k = none) {j : κ} (hj : j ∈ t) : ¬ k < j := by
  have hnot := List.find?_eq_none.mp h j (mem_inOrder.mpr hj)
  simpa using hnot

end

section
variable [LT κ] {t t' : AList fun _ : κ => α} {k : κ} {ns : List κ}

/-- A walk at `c` has the keys `ns` before it. -/
structure Ahead (t : AList fun _ : κ => α) (c : Option κ) (ns : List κ) : Prop where
  sorted : ns.Pairwise (· < ·)
  mem : ∀ n ∈ ns, n ∈ t
  cursor : ∀ k, c = some k → k ∈ t
  reach : ∀ n ∈ ns, ∃ k, c = some k ∧ (k = n ∨ k < n)

/-- At the end nothing is left. -/
theorem Ahead.done (h : Ahead t none ns) : ns = [] := by
  cases ns with
  | nil => rfl
  | cons n ns =>
    obtain ⟨k, hk, -⟩ := h.reach n (List.mem_cons_self ..)
    cases hk

/-- A key that came in on the way is before all that are left. -/
theorem Ahead.before (h : Ahead t (some k) ns) (hk : k ∉ ns) : ∀ n ∈ ns, k < n := by
  intro n hn
  obtain ⟨k', hk', hreach⟩ := h.reach n hn
  obtain rfl := Option.some.inj hk'
  rcases hreach with rfl | hlt
  · exact absurd hn hk
  · exact hlt

variable [LE κ] [Std.IsLinearOrder κ] [Std.LawfulOrderLT κ]

/-- A key of the beginning is met as the first of those that are left. -/
theorem Ahead.cons (h : Ahead t (some k) ns) (hk : k ∈ ns) :
    ∃ ns', ns = k :: ns' ∧ ∀ n ∈ ns', k < n := by
  cases ns with
  | nil => cases hk
  | cons n ns =>
    obtain ⟨hfirst, -⟩ := List.pairwise_cons.mp h.sorted
    obtain ⟨k', hk', hreach⟩ := h.reach n (List.mem_cons_self ..)
    obtain rfl := Option.some.inj hk'
    have heq : k = n := by
      rcases hreach with heq | hlt
      · exact heq
      · -- A cursor before the first key that is left is on none of them.
        rcases List.mem_cons.mp hk with heq | hmem
        · exact heq
        · exact absurd (Std.lt_trans hlt (hfirst k hmem)) Std.lt_irrefl
    rw [heq]
    exact ⟨ns, rfl, hfirst⟩

variable [DecidableLE κ]

theorem sorted_inOrder (t : AList fun _ : κ => α) : (inOrder t).Pairwise (· < ·) := by
  have hle : (inOrder t).Pairwise (· ≤ ·) := by
    refine (List.pairwise_mergeSort ?_ ?_ _).imp fun h => of_decide_eq_true h
    · intro a b c hab hbc
      exact decide_eq_true (Std.le_trans (of_decide_eq_true hab) (of_decide_eq_true hbc))
    · intro a b
      simpa using Std.le_total (a := a) (b := b)
  exact hle.imp₂ (fun _ _ hab hne => Std.lt_of_le_of_ne hab hne) (nodup_inOrder t)

/-- A walk begins with all keys before it. -/
theorem Ahead.start (t : AList fun _ : κ => α) : Ahead t (start t) (inOrder t) where
  sorted := sorted_inOrder t
  mem n hn := mem_inOrder.mp hn
  cursor k hk := mem_inOrder.mp (List.mem_of_mem_head? hk)
  reach n hn := by
    have hsorted := sorted_inOrder t
    unfold Cursor.start
    cases hkeys : inOrder t with
    | nil =>
      rw [hkeys] at hn
      cases hn
    | cons k ks =>
      rw [hkeys] at hn hsorted
      refine ⟨k, rfl, ?_⟩
      rcases List.mem_cons.mp hn with rfl | hn
      · exact Or.inl rfl
      · exact Or.inr ((List.pairwise_cons.mp hsorted).1 n hn)

variable [DecidableLT κ]

/-- The next key is there and is higher, and every other higher key is behind it. -/
theorem next_eq_some {k' : κ} (h : next t k = some k') :
    k' ∈ t ∧ k < k' ∧ ∀ j ∈ t, k < j → k' = j ∨ k' < j := by
  obtain ⟨hlt, before, after, hkeys, hbefore⟩ := List.find?_eq_some_iff_append.mp h
  have hsorted := sorted_inOrder t
  rw [hkeys, List.pairwise_append] at hsorted
  refine ⟨?_, of_decide_eq_true hlt, ?_⟩
  · rw [← mem_inOrder, hkeys]
    exact List.mem_append_right _ (List.mem_cons_self ..)
  · intro j hj hkj
    rw [← mem_inOrder, hkeys, List.mem_append] at hj
    rcases hj with hj | hj
    · have hnot := hbefore j hj
      simp [hkj] at hnot
    · rcases List.mem_cons.mp hj with rfl | hj
      · exact Or.inl rfl
      · exact Or.inr ((List.pairwise_cons.mp hsorted.2.1).1 j hj)

/-- The walk moves on. What is left is before the cursor, and is still there when it has
moved. -/
theorem Ahead.move (hsorted : ns.Pairwise (· < ·)) (hbefore : ∀ n ∈ ns, k < n)
    (hmem : ∀ n ∈ ns, n ∈ t) (hmem' : ∀ n ∈ ns, n ∈ t')
    (hnext : ∀ k', next t k = some k' → k' ∈ t') : Ahead t' (next t k) ns where
  sorted := hsorted
  mem := hmem'
  cursor := hnext
  reach n hn := by
    cases hc : next t k with
    | none => exact absurd (hbefore n hn) (next_eq_none hc (hmem n hn))
    | some k' => exact ⟨k', rfl, (next_eq_some hc).2.2 n (hmem n hn) (hbefore n hn)⟩

end

end Libcage.Lib.Cursor
