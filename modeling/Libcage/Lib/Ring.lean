import Mathlib.Data.List.Rotate
import Mathlib.Data.Nat.ModEq
import Mathlib.Tactic.Common

/-!
# `Libcage.Lib.Ring`: rings of slots

A ring is a list of slots read modulo its length. `pos head len k` is the slot
`k` places behind `head`, and `entry xs head k` what it holds. A queue kept in a
ring is described entry by entry: an update of one slot changes one entry
(`entry_set_self`, `entry_set_ne`), and moving the head on renumbers the entries
(`entry_pos`). Each slot is one of the entries of a turn (`countP_entries`).
-/

set_option autoImplicit false

namespace Libcage.Lib.Ring

variable {α : Type*}

/-- The slot `k` places behind `head` in a ring of `len` slots. -/
def pos (head len k : Nat) : Nat := (head + k) % len

/-- What the slot `k` places behind `head` holds. -/
def entry (xs : List α) (head k : Nat) : Option α := xs[pos head xs.length k]?

/-- A position is inside the ring. -/
theorem pos_lt {len : Nat} (head k : Nat) (h : 0 < len) : pos head len k < len :=
  Nat.mod_lt _ h

theorem pos_zero {head len : Nat} (h : head < len) : pos head len 0 = head := by
  rw [pos, Nat.add_zero, Nat.mod_eq_of_lt h]

/-- One index step from a position is the next position. -/
theorem pos_succ (head len k : Nat) : (pos head len k + 1) % len = pos head len (k + 1) := by
  rw [pos, pos, Nat.mod_add_mod, Nat.add_assoc]

/-- Counting from a position counts on from the head. -/
theorem pos_pos (head len j k : Nat) : pos (pos head len j) len k = pos head len (j + k) := by
  rw [pos, pos, pos, Nat.mod_add_mod, Nat.add_assoc]

/-- A whole turn leads back to the head. -/
theorem pos_len {head len : Nat} (h : head < len) : pos head len len = head := by
  rw [pos, Nat.add_mod_right, Nat.mod_eq_of_lt h]

/-- Two places less than one turn apart share no slot. -/
theorem pos_inj {head len j k : Nat} (hj : j < len) (hk : k < len)
    (h : pos head len j = pos head len k) : j = k := by
  have hmod : Nat.ModEq len j k := Nat.ModEq.add_left_cancel' head h
  rwa [Nat.ModEq, Nat.mod_eq_of_lt hj, Nat.mod_eq_of_lt hk] at hmod

/-- Every entry of a ring that is not empty has a slot. -/
theorem exists_entry {xs : List α} (head k : Nat) (h : 0 < xs.length) :
    ∃ x, entry xs head k = some x :=
  ⟨_, List.getElem?_eq_getElem (pos_lt head k h)⟩

/-- The entry whose slot is overwritten. -/
theorem entry_set_self {xs : List α} (head k : Nat) (h : 0 < xs.length) (x : α) :
    entry (xs.set (pos head xs.length k) x) head k = some x := by
  rw [entry, List.length_set, List.getElem?_set_self (pos_lt head k h)]

/-- Every other entry less than a turn away. -/
theorem entry_set_ne {xs : List α} {head j k : Nat} (hj : j < xs.length) (hk : k < xs.length)
    (hne : j ≠ k) (x : α) : entry (xs.set (pos head xs.length k) x) head j = entry xs head j := by
  have hpos : pos head xs.length k ≠ pos head xs.length j := fun he =>
    hne (pos_inj hj hk he.symm)
  rw [entry, entry, List.length_set, List.getElem?_set_ne hpos]

/-- The entries seen from a head that moved on. -/
theorem entry_pos (xs : List α) (head j k : Nat) :
    entry xs (pos head xs.length j) k = entry xs head (j + k) := by
  rw [entry, entry, pos_pos]

/-- The slot of an entry is that of the one a turn before. -/
theorem entry_turn {xs : List α} {k : Nat} (head : Nat) (h : xs.length ≤ k) :
    entry xs head k = entry xs head (k - xs.length) := by
  unfold entry pos
  rw [show head + k = head + (k - xs.length) + xs.length by omega, Nat.add_mod_right]

/-- The entry in front is the one at the head. -/
theorem entry_zero {xs : List α} {head : Nat} (h : head < xs.length) :
    entry xs head 0 = xs[head]? := by
  rw [entry, pos_zero h]

/-! ### Counting slots -/

/-- Counting the elements of a list is counting over their positions. -/
theorem countP_eq_countP_range (p : α → Bool) (xs : List α) :
    xs.countP p = (List.range xs.length).countP fun i => (xs[i]?).any p := by
  induction xs with
  | nil => rfl
  | cons x xs ih =>
    rw [List.countP_cons, List.length_cons, List.range_succ_eq_map, List.countP_cons,
      List.countP_map, ih]
    rfl

/-- Counting the slots is counting the entries of one turn. -/
theorem countP_entries (p : α → Bool) (xs : List α) (head : Nat) :
    xs.countP p = (List.range xs.length).countP fun k => (entry xs head k).any p := by
  rw [← (List.rotate_perm xs head).countP_eq p, countP_eq_countP_range, List.length_rotate]
  refine List.countP_congr fun k hk => ?_
  rw [List.getElem?_rotate (List.mem_range.mp hk), Nat.add_comm k head]
  rfl

end Libcage.Lib.Ring
