import Libcage.Lib.Closest

/-!
# `Libcage.Lib.Search`: the search for the closest elements

A search keeps the closest elements of all that it was told of, and drops one that does not
answer. `Candidates` is what its list has after any number of such steps, whatever the order:
an element that is missing has been dropped, or enough closer ones have been told.

`closest_of_answers` is about a search among nodes that each know some of the others. `Levels`
relates the distance to the rows in which they keep the others. Where no row is empty that
could have an element, the search cannot end before it has the closest ones of all.
-/

set_option autoImplicit false

namespace Libcage.Lib

universe u v w
variable {α : Type u} {β : Type v} [LinearOrder β]

/-- The elements that a search has: no more than `n` of those it was told of, in the order of
their distance, and all of the `n` closest but those that were dropped. -/
structure Candidates (dist : α → β) (n : Nat) (told dropped : Finset α) (r : List α) : Prop where
  sorted : r.Pairwise fun a b => dist a < dist b
  length : r.length ≤ n
  mem : ∀ a ∈ r, a ∈ told
  kept : ∀ y ∈ told, (closer dist told y).card < n → y ∈ r ∨ y ∈ dropped

section
variable {dist : α → β} {n : Nat} {s told dropped new : Finset α} {r r' : List α}

theorem closer_mono (h : s ⊆ told) (y : α) : closer dist s y ⊆ closer dist told y :=
  Finset.filter_subset_filter _ h

theorem Candidates.mono (h : Candidates dist n told dropped r) {dropped' : Finset α}
    (hsub : dropped ⊆ dropped') : Candidates dist n told dropped' r :=
  ⟨h.sorted, h.length, h.mem, fun y hy hfew => (h.kept y hy hfew).imp_right fun hin => hsub hin⟩

theorem candidates_nil (dist : α → β) (n : Nat) : Candidates dist n ∅ ∅ [] :=
  ⟨List.Pairwise.nil, Nat.zero_le n, by simp, by simp⟩

variable [DecidableEq α]

/-- Leaving out elements that have `n` closer ones does not change which elements have. -/
theorem few_closer_iff (hsub : told ⊆ s)
    (hall : ∀ x ∈ s, (closer dist s x).card < n → x ∈ told) (y : α) :
    (closer dist told y).card < n ↔ (closer dist s y).card < n := by
  constructor
  · intro hfew
    by_contra hmany
    by_cases hin : closer dist s y ⊆ closer dist told y
    · exact hmany ((Finset.card_le_card hin).trans_lt hfew)
    · -- The closest one that is left out has `n` before it, and none of them is left out.
      obtain ⟨b, hb, hmin⟩ := Finset.exists_min_image (closer dist s y \ closer dist told y) dist
        (Finset.sdiff_nonempty.mpr hin)
      obtain ⟨hcloser, hout⟩ := Finset.mem_sdiff.mp hb
      obtain ⟨hbs, hlt⟩ := mem_closer.mp hcloser
      have hbefore : closer dist s b ⊆ closer dist told y := by
        intro x hx
        obtain ⟨hxs, hxb⟩ := mem_closer.mp hx
        by_contra hxt
        have hxy : x ∈ closer dist s y := mem_closer.mpr ⟨hxs, hxb.trans hlt⟩
        exact absurd (hmin x (Finset.mem_sdiff.mpr ⟨hxy, hxt⟩)) (not_le.mpr hxb)
      have hfar : ¬ (closer dist s b).card < n := fun hb =>
        hout (mem_closer.mpr ⟨hall b hbs hb, hlt⟩)
      exact hfar ((Finset.card_le_card hbefore).trans_lt hfew)
  · exact (Finset.card_le_card (closer_mono hsub y)).trans_lt

/-- A search begins with the closest elements of a set. -/
theorem Closest.candidates (h : Closest dist n s r) : Candidates dist n s ∅ r where
  sorted := h.sorted
  length := h.length.trans_le (Nat.min_le_left _ _)
  mem := h.mem
  kept y hy hfew := Or.inl ((h.mem_iff y).mpr ⟨hy, hfew⟩)

/-- More elements are told, and the closest ones are kept. -/
theorem Candidates.learn (h : Candidates dist n told dropped r)
    (hr : Closest dist n (r.toFinset ∪ new) r') : Candidates dist n (told ∪ new) dropped r' := by
  have hsub : r.toFinset ∪ new ⊆ told ∪ new := by
    apply Finset.union_subset_union_left
    intro x hx
    exact h.mem x (List.mem_toFinset.mp hx)
  constructor
  case sorted => exact hr.sorted
  case length => exact hr.length.trans_le (Nat.min_le_left _ _)
  case mem => exact fun a ha => hsub (hr.mem a ha)
  case kept =>
    intro y hy hfew
    have hbelow : (closer dist told y).card < n :=
      (Finset.card_le_card (closer_mono Finset.subset_union_left y)).trans_lt hfew
    have hold : y ∈ r.toFinset ∪ new ∨ y ∈ dropped := by
      rcases Finset.mem_union.mp hy with hy | hy
      · rcases h.kept y hy hbelow with hy | hy
        · simp [hy]
        · exact Or.inr hy
      · simp [hy]
    refine hold.imp_left fun hin => (hr.mem_iff y).mpr ⟨hin, ?_⟩
    exact (Finset.card_le_card (closer_mono hsub y)).trans_lt hfew

/-- An element is dropped. -/
theorem Candidates.drop (h : Candidates dist n told dropped r) (x : α) :
    Candidates dist n told (insert x dropped) (r.filter (· ≠ x)) where
  sorted := h.sorted.filter _
  length := (List.length_filter_le _ _).trans h.length
  mem a ha := h.mem a (List.mem_of_mem_filter ha)
  kept y hy hfew := by
    rcases h.kept y hy hfew with hin | hin
    · by_cases hyx : y = x
      · simp [hyx]
      · simp [hin, hyx]
    · simp [hin]

/-- Where nothing was dropped, the search has the closest elements of all that it was told
of. -/
theorem Candidates.closest (h : Candidates dist n told ∅ r) : Closest dist n told r := by
  have hsub : r.toFinset ⊆ told := fun x hx => h.mem x (List.mem_toFinset.mp hx)
  have hall : ∀ x ∈ told, (closer dist told x).card < n → x ∈ r := fun x hx hfew =>
    (h.kept x hx hfew).resolve_right (Finset.notMem_empty x)
  apply closest_of_mem_iff h.sorted
  intro y
  constructor
  · intro hy
    refine ⟨h.mem y hy, ?_⟩
    rw [← few_closer_iff hsub (fun x hx hfew => List.mem_toFinset.mpr (hall x hx hfew))]
    -- `y` itself is one of the list, and is not closer than `y`.
    have hlt : closer dist r.toFinset y ⊂ r.toFinset := by
      refine ⟨Finset.filter_subset _ _, fun hle => ?_⟩
      exact lt_irrefl _ (mem_closer.mp (hle (List.mem_toFinset.mpr hy))).2
    have hcard := (Finset.card_lt_card hlt).trans_le (List.toFinset_card_le r)
    exact hcard.trans_le h.length
  · rintro ⟨hy, hfew⟩
    exact hall y hy hfew

end

/-! ### Nodes that know each other -/

/-- The rows by which elements tell the others apart: two elements of one row of a third are
nearer to each other than to it, and seen from any element all of a row is on the same side. -/
structure Levels {γ : Type w} [LinearOrder γ] (dist : α → α → β) (level : α → α → γ) : Prop where
  near : ∀ {x y z}, y ≠ x → level x z = level x y → level y z < level y x
  isosceles : ∀ {x y z}, level y z < level y x → level x z = level x y
  apart : ∀ {x y z}, level x z = level x y → ∀ t, dist t x < dist t z ↔ dist t x < dist t y

section
variable {γ : Type w} [LinearOrder γ] {dist : α → α → β} {level : α → α → γ} {n : Nat}
  {net told : Finset α} {known : α → Finset α} {r : List α} {t : α}
  [DecidableEq α]

/-- A search that was told the closest ones that each of its candidates knows has the closest
ones of all, where a node knows one in each of its rows that has any. -/
theorem closest_of_answers (hlevels : Levels dist level) (hr : Closest (dist t) n told r)
    (htold : told ⊆ net) (hnonempty : told.Nonempty)
    (hknown : ∀ x ∈ r, known x ⊆ net)
    (hrows : ∀ x ∈ r, ∀ y ∈ net, y ≠ x → ∃ z ∈ known x, level x z = level x y)
    (hanswers : ∀ x ∈ r, ∀ z ∈ known x, (closer (dist t) (known x) z).card < n → z ∈ told) :
    Closest (dist t) n net r := by
  -- An element that belongs in the result was told.
  have hall : ∀ y ∈ net, (closer (dist t) net y).card < n → y ∈ told := by
    intro y hy hfew
    by_contra hnot
    -- Some element is in the list, so let `x` be the one of the lowest level from `y`.
    have hne : r.toFinset.Nonempty := by
      rw [List.toFinset_nonempty_iff]
      rintro rfl
      have hlength := hr.length
      have hpos := hnonempty.card_pos
      rw [List.length_nil] at hlength
      omega
    obtain ⟨x, hx, hmin⟩ := Finset.exists_min_image r.toFinset (level y) hne
    have hxr := List.mem_toFinset.mp hx
    have hyx : y ≠ x := by
      rintro rfl
      exact hnot (hr.mem _ hxr)
    -- What is on the other side of `x` from the row of `y` and closer than some of it is
    -- closer than `y`.
    have hrow : ∀ z u, level y z < level y x → ¬ level y u < level y x →
        dist t u < dist t z → dist t u < dist t y := by
      intro z u hz hu hlt
      have hzu : level y z < level y u := hz.trans_le (not_lt.mp hu)
      exact (hlevels.apart (hlevels.isosceles hzu) t).mp hlt
    -- The closest one of a set in the row has too few before it to be left out.
    have hfirst : ∀ s ⊆ net, (∃ z ∈ s, level y z < level y x) →
        ∃ z ∈ s, level y z < level y x ∧ (closer (dist t) s z).card < n := by
      rintro s hs ⟨z₀, hz₀, hlevel₀⟩
      obtain ⟨z, hz, hleast⟩ := Finset.exists_min_image (s.filter fun z => level y z < level y x)
        (dist t) ⟨z₀, Finset.mem_filter.mpr ⟨hz₀, hlevel₀⟩⟩
      obtain ⟨hzs, hlevel⟩ := Finset.mem_filter.mp hz
      refine ⟨z, hzs, hlevel, (Finset.card_le_card ?_).trans_lt hfew⟩
      intro u hu
      obtain ⟨hus, hlt⟩ := mem_closer.mp hu
      refine mem_closer.mpr ⟨hs hus, ?_⟩
      by_cases hin : level y u < level y x
      · exact absurd (hleast u (Finset.mem_filter.mpr ⟨hus, hin⟩)) (not_le.mpr hlt)
      · exact hrow z u hlevel hin hlt
    -- So `x` has told of one in the row of `y`, and one of them is in the list.
    obtain ⟨z₀, hz₀, hlevel₀⟩ := hrows x hxr y hy hyx
    obtain ⟨z₁, hz₁, hlevel₁, hfew₁⟩ := hfirst (known x) (hknown x hxr)
      ⟨z₀, hz₀, hlevels.near hyx hlevel₀⟩
    obtain ⟨z, hz, hlevel, hfewz⟩ := hfirst told htold ⟨z₁, hanswers x hxr z₁ hz₁ hfew₁, hlevel₁⟩
    have hzr := (hr.mem_iff z).mpr ⟨hz, hfewz⟩
    exact absurd (hmin z (List.mem_toFinset.mpr hzr)) (not_le.mpr hlevel)
  apply closest_of_mem_iff hr.sorted
  intro y
  rw [hr.mem_iff, few_closer_iff htold hall]
  constructor
  · rintro ⟨hy, hfew⟩
    exact ⟨htold hy, hfew⟩
  · rintro ⟨hy, hfew⟩
    exact ⟨hall y hy hfew, hfew⟩

end

end Libcage.Lib
