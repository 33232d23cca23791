import Mathlib.Data.Finset.Max
import Mathlib.Data.Finset.Card
import Mathlib.Data.List.Nodup
import Mathlib.Tactic.Common

/-!
# `Libcage.Lib.Closest`: the closest elements of a set

`dist` is a measure with values in a linear order. `Closest dist n s r` says that the list `r`
has the `n` closest elements of the set `s`, closest first, or all of them where there are
fewer. `Closest.mem_iff` and `closest_of_mem_iff` say which elements these are by the number of
elements that are closer, and `closest_take` finds them at the front of a sorted part of the set.
-/

set_option autoImplicit false

namespace Libcage.Lib

universe u v
variable {α : Type u} {β : Type v} [LinearOrder β]

/-- The elements of a set that are closer than `y`. -/
def closer (dist : α → β) (s : Finset α) (y : α) : Finset α := s.filter fun x => dist x < dist y

/-- The closest elements of a set, in the order of their distance. -/
structure Closest (dist : α → β) (n : Nat) (s : Finset α) (r : List α) : Prop where
  sorted : r.Pairwise fun a b => dist a < dist b
  mem : ∀ a ∈ r, a ∈ s
  length : r.length = min n s.card
  closest : ∀ a ∈ r, ∀ b ∈ s, b ∉ r → dist a < dist b

section
variable {dist : α → β} {n : Nat} {s : Finset α} {r : List α}

theorem mem_closer {x y : α} : x ∈ closer dist s y ↔ x ∈ s ∧ dist x < dist y :=
  Finset.mem_filter

/-- A sorted list has no element twice. -/
theorem nodup_of_sorted (h : r.Pairwise fun a b => dist a < dist b) : r.Nodup :=
  h.imp fun hlt heq => (ne_of_lt hlt) (congrArg dist heq)

variable [DecidableEq α]

theorem card_toFinset_of_sorted (h : r.Pairwise fun a b => dist a < dist b) :
    r.toFinset.card = r.length :=
  List.toFinset_card_of_nodup (nodup_of_sorted h)

/-- Fewer than `n` elements are closer than one of the `n` closest, and no fewer than `n` are
closer than another one. -/
theorem Closest.mem_iff (h : Closest dist n s r) (y : α) :
    y ∈ r ↔ y ∈ s ∧ (closer dist s y).card < n := by
  have hcard := card_toFinset_of_sorted h.sorted
  constructor
  · intro hy
    refine ⟨h.mem y hy, ?_⟩
    -- What is closer than `y` is in the list and is not `y`.
    have hsub : closer dist s y ⊆ r.toFinset.erase y := by
      intro x hx
      obtain ⟨hxs, hlt⟩ := mem_closer.mp hx
      rw [Finset.mem_erase, List.mem_toFinset]
      refine ⟨fun heq => (ne_of_lt hlt) (congrArg dist heq), ?_⟩
      by_contra hxr
      exact lt_asymm hlt (h.closest y hy x hxs hxr)
    have hle := Finset.card_le_card hsub
    have hpos : 0 < r.toFinset.card := Finset.card_pos.mpr ⟨y, List.mem_toFinset.mpr hy⟩
    rw [Finset.card_erase_of_mem (List.mem_toFinset.mpr hy)] at hle
    have hlength := h.length
    omega
  · rintro ⟨hys, hlt⟩
    by_contra hyr
    have hsub : r.toFinset ⊆ closer dist s y := by
      intro x hx
      have hxr := List.mem_toFinset.mp hx
      exact mem_closer.mpr ⟨h.mem x hxr, h.closest x hxr y hys hyr⟩
    have hle := Finset.card_le_card hsub
    have hproper : (closer dist s y).card < s.card := by
      refine Finset.card_lt_card ⟨Finset.filter_subset _ _, fun hall => ?_⟩
      exact lt_irrefl _ (mem_closer.mp (hall hys)).2
    have hlength := h.length
    omega

/-- A list of the elements that fewer than `n` are closer than. -/
theorem closest_of_mem_iff (hsorted : r.Pairwise fun a b => dist a < dist b)
    (h : ∀ y, y ∈ r ↔ y ∈ s ∧ (closer dist s y).card < n) : Closest dist n s r := by
  have hmem : ∀ a ∈ r, a ∈ s := fun a ha => ((h a).mp ha).1
  have hsub : r.toFinset ⊆ s := fun x hx => hmem x (List.mem_toFinset.mp hx)
  have hcard := card_toFinset_of_sorted hsorted
  have hle := Finset.card_le_card hsub
  refine ⟨hsorted, hmem, ?_, ?_⟩
  · -- The last element has all the others before it.
    have hupper : r.length ≤ n := by
      rcases r.eq_nil_or_concat' with rfl | ⟨front, last, rfl⟩
      · exact Nat.zero_le n
      · have hlast := ((h last).mp (by simp)).2
        have hfront : front.toFinset ⊆ closer dist s last := by
          intro x hx
          have hxf := List.mem_toFinset.mp hx
          rw [List.pairwise_append] at hsorted
          exact mem_closer.mpr ⟨hmem x (by simp [hxf]), hsorted.2.2 x hxf last (by simp)⟩
        have hnodup : front.Nodup := (List.nodup_append.mp (nodup_of_sorted hsorted)).1
        have hfrontCard := Finset.card_le_card hfront
        rw [List.toFinset_card_of_nodup hnodup] at hfrontCard
        rw [List.length_append, List.length_singleton]
        omega
    -- The closest element that is missing has `n` elements before it.
    have hlower : min n s.card ≤ r.length := by
      by_cases hall : s ⊆ r.toFinset
      · have hge := Finset.card_le_card hall
        omega
      · have hmissing : (s \ r.toFinset).Nonempty := Finset.sdiff_nonempty.mpr hall
        obtain ⟨b, hb, hmin⟩ := Finset.exists_min_image _ dist hmissing
        obtain ⟨hbs, hbr⟩ := Finset.mem_sdiff.mp hb
        have hcloser : closer dist s b ⊆ r.toFinset := by
          intro x hx
          obtain ⟨hxs, hlt⟩ := mem_closer.mp hx
          by_contra hxr
          exact absurd (hmin x (Finset.mem_sdiff.mpr ⟨hxs, hxr⟩)) (not_le.mpr hlt)
        have hge := Finset.card_le_card hcloser
        have hfar : n ≤ (closer dist s b).card := by
          by_contra hfew
          exact hbr (List.mem_toFinset.mpr ((h b).mpr ⟨hbs, by omega⟩))
        omega
    omega
  · intro a ha b hb hbr
    by_contra hnot
    have hsubset : closer dist s b ⊆ closer dist s a := by
      intro x hx
      obtain ⟨hxs, hlt⟩ := mem_closer.mp hx
      exact mem_closer.mpr ⟨hxs, lt_of_lt_of_le hlt (not_lt.mp hnot)⟩
    have hmono := Finset.card_le_card hsubset
    have hfew := ((h a).mp ha).2
    exact hbr ((h b).mpr ⟨hb, by omega⟩)

/-- The front of a sorted list that has enough elements, none of them farther than one that it
does not have. -/
theorem closest_take (hsorted : r.Pairwise fun a b => dist a < dist b) (hmem : ∀ a ∈ r, a ∈ s)
    (hclosest : ∀ a ∈ r, ∀ b ∈ s, b ∉ r → dist a < dist b) (hlength : min n s.card ≤ r.length) :
    Closest dist n s (r.take n) := by
  have hsub : r.toFinset ⊆ s := fun x hx => hmem x (List.mem_toFinset.mp hx)
  have hcard := card_toFinset_of_sorted hsorted
  have hle := Finset.card_le_card hsub
  refine ⟨hsorted.sublist (List.take_sublist n r), ?_, ?_, ?_⟩
  · intro a ha
    exact hmem a (List.mem_of_mem_take ha)
  · rw [List.length_take]
    omega
  · intro a ha b hb hbt
    by_cases hbr : b ∈ r
    · rw [← List.take_append_drop n r, List.mem_append] at hbr
      rw [← List.take_append_drop n r, List.pairwise_append] at hsorted
      exact hsorted.2.2 a ha b (hbr.resolve_left hbt)
    · exact hclosest a (List.mem_of_mem_take ha) b hb hbr

end

end Libcage.Lib
