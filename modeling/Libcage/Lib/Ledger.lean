import Mathlib.Data.List.Nodup
import Mathlib.Logic.Function.Basic
import Mathlib.Tactic.Common

/-!
# `Libcage.Lib.Ledger`: calls that are owed

Requests are numbered in the order they are made, and each is to be called once. A record
says which request is owed its call (`owner`). `Ledger owner made called` says that every request
has either one record or one call. The rules are the ways to keep it so: a record is made
(`Ledger.make`), a call is made and its record goes (`Ledger.finish`), or a request is called at
once and gets no record (`Ledger.atOnce`). A call without a record is a second one
(`Ledger.not_nodup`).
-/

set_option autoImplicit false

namespace Libcage.Lib

universe u
variable {κ : Type u}

/-- Every request has one record or one call. -/
structure Ledger (owner : κ → Option Nat) (made : Nat) (called : List Nat) : Prop where
  lt : ∀ k r, owner k = some r → r < made
  inj : ∀ k k' r, owner k = some r → owner k' = some r → k = k'
  called_lt : ∀ r ∈ called, r < made
  once : called.Nodup
  kept : ∀ r, r < made → ((∃ k, owner k = some r) ↔ r ∉ called)

/-- Nothing has been requested. -/
theorem Ledger.empty : Ledger (fun _ : κ => none) 0 [] := by
  constructor
  case lt => exact nofun
  case inj => exact nofun
  case called_lt => exact nofun
  case once => exact List.nodup_nil
  case kept => exact nofun

section
variable {owner : κ → Option Nat} {made : Nat} {called : List Nat} {k : κ} {r : Nat}

theorem Ledger.notMem (h : Ledger owner made called) (hk : owner k = some r) : r ∉ called :=
  (h.kept r (h.lt k r hk)).mp ⟨k, hk⟩

/-- A request without a record has been called. -/
theorem Ledger.mem (h : Ledger owner made called) (hr : r < made) (hnone : ∀ k, owner k ≠ some r) :
    r ∈ called := by
  by_contra hcalled
  obtain ⟨k, hk⟩ := (h.kept r hr).mpr hcalled
  exact hnone k hk

/-- The call of a request without a record is a second one. -/
theorem Ledger.not_nodup (h : Ledger owner made called) (hr : r < made)
    (hnone : ∀ k, owner k ≠ some r) : ¬ (called ++ [r]).Nodup := by
  intro hnodup
  have hdisjoint := (List.nodup_append.mp hnodup).2.2
  exact hdisjoint r (h.mem hr hnone) r (List.mem_singleton_self r) rfl

/-- A request is made and called at once. -/
theorem Ledger.atOnce (h : Ledger owner made called) :
    Ledger owner (made + 1) (called ++ [made]) := by
  have hnew : made ∉ called := fun hcalled => absurd (h.called_lt made hcalled) (Nat.lt_irrefl _)
  constructor
  case lt =>
    intro k r hk
    exact Nat.lt_succ_of_lt (h.lt k r hk)
  case inj => exact h.inj
  case called_lt =>
    intro r hr
    rcases List.mem_append.mp hr with hr | hr
    · exact Nat.lt_succ_of_lt (h.called_lt r hr)
    · rw [List.mem_singleton.mp hr]
      exact Nat.lt_succ_self made
  case once =>
    exact h.once.append (List.nodup_singleton _) (List.disjoint_singleton.mpr hnew)
  case kept =>
    intro r hr
    rw [List.mem_append, List.mem_singleton, not_or]
    rcases Nat.lt_succ_iff_lt_or_eq.mp hr with hold | rfl
    · rw [h.kept r hold]
      exact ⟨fun hnot => ⟨hnot, Nat.ne_of_lt hold⟩, fun hnot => hnot.1⟩
    · refine iff_of_false ?_ fun hnot => hnot.2 rfl
      rintro ⟨k, hk⟩
      exact absurd (h.lt k r hk) (Nat.lt_irrefl r)

variable [DecidableEq κ]

/-- A request is made, and gets a record where there is none. -/
theorem Ledger.make (h : Ledger owner made called) (hk : owner k = none) :
    Ledger (Function.update owner k (some made)) (made + 1) called := by
  have hold : ∀ k' r, owner k' = some r → k' ≠ k := by
    rintro k' r hk' rfl
    rw [hk] at hk'
    cases hk'
  -- A record is the new one, or one from before.
  have hcases : ∀ k' r, Function.update owner k (some made) k' = some r →
      (k' = k ∧ r = made) ∨ (k' ≠ k ∧ owner k' = some r) := by
    intro k' r hk'
    by_cases hne : k' = k
    · subst hne
      rw [Function.update_self] at hk'
      exact Or.inl ⟨rfl, (Option.some.inj hk').symm⟩
    · rw [Function.update_of_ne hne] at hk'
      exact Or.inr ⟨hne, hk'⟩
  constructor
  case lt =>
    intro k' r hk'
    rcases hcases k' r hk' with ⟨-, rfl⟩ | ⟨-, hk'⟩
    · exact Nat.lt_succ_self r
    · exact Nat.lt_succ_of_lt (h.lt k' r hk')
  case inj =>
    intro k₁ k₂ r h₁ h₂
    rcases hcases k₁ r h₁ with ⟨rfl, hr⟩ | ⟨-, h₁⟩
    · rcases hcases k₂ r h₂ with ⟨rfl, -⟩ | ⟨-, h₂⟩
      · rfl
      · have hlt := h.lt k₂ r h₂
        omega
    · rcases hcases k₂ r h₂ with ⟨-, hr⟩ | ⟨-, h₂⟩
      · have hlt := h.lt k₁ r h₁
        omega
      · exact h.inj k₁ k₂ r h₁ h₂
  case called_lt =>
    intro r hr
    exact Nat.lt_succ_of_lt (h.called_lt r hr)
  case once => exact h.once
  case kept =>
    intro r hr
    rcases Nat.lt_succ_iff_lt_or_eq.mp hr with hlt | rfl
    · rw [← h.kept r hlt]
      constructor
      · rintro ⟨k', hk'⟩
        rcases hcases k' r hk' with ⟨-, hr⟩ | ⟨-, hk'⟩
        · omega
        · exact ⟨k', hk'⟩
      · rintro ⟨k', hk'⟩
        exact ⟨k', by rw [Function.update_of_ne (hold k' r hk'), hk']⟩
    · refine iff_of_true ⟨k, Function.update_self ..⟩ fun hcalled => ?_
      exact absurd (h.called_lt r hcalled) (Nat.lt_irrefl r)

/-- A request is called, and its record goes. -/
theorem Ledger.finish (h : Ledger owner made called) (hk : owner k = some r) :
    Ledger (Function.update owner k none) made (called ++ [r]) := by
  -- The other records stay.
  have hcases : ∀ k' r', Function.update owner k none k' = some r' ↔
      k' ≠ k ∧ owner k' = some r' := by
    intro k' r'
    by_cases hne : k' = k
    · subst hne
      simp
    · simp [hne]
  constructor
  case lt =>
    intro k' r' hk'
    exact h.lt k' r' ((hcases k' r').mp hk').2
  case inj =>
    intro k₁ k₂ r' h₁ h₂
    exact h.inj k₁ k₂ r' ((hcases k₁ r').mp h₁).2 ((hcases k₂ r').mp h₂).2
  case called_lt =>
    intro r' hr'
    rcases List.mem_append.mp hr' with hr' | hr'
    · exact h.called_lt r' hr'
    · rw [List.mem_singleton.mp hr']
      exact h.lt k r hk
  case once =>
    exact h.once.append (List.nodup_singleton _) (List.disjoint_singleton.mpr (h.notMem hk))
  case kept =>
    intro r' hr'
    rw [List.mem_append, List.mem_singleton, not_or, ← h.kept r' hr']
    constructor
    · rintro ⟨k', hk'⟩
      obtain ⟨hne, hown⟩ := (hcases k' r').mp hk'
      refine ⟨⟨k', hown⟩, ?_⟩
      rintro rfl
      exact hne (h.inj k' k r' hown hk)
    · rintro ⟨⟨k', hown⟩, hne⟩
      refine ⟨k', (hcases k' r').mpr ⟨?_, hown⟩⟩
      rintro rfl
      exact hne (Option.some.inj (hown.symm.trans hk))

end

end Libcage.Lib
