import Mathlib.Data.List.Pairwise
import Mathlib.Logic.Function.Basic
import Mathlib.Tactic.Common

/-!
# `Libcage.Lib.RateLimit`: events that have to be apart

A log has the time and the key of each event, in the order they happened. It is `Spaced` where
two events of one key are never closer than `gap`.

A limiter remembers one time for a key. `Remembers` says which keys it may not have forgotten:
those with an event less than `gap` ago. Such a memory can wait (`Remembers.later`), forget what
is old (`Remembers.forget`) and take a new time (`Remembers.note`). An event for which the
memory has no time that is too close leaves the log spaced (`Spaced.concat`).
-/

set_option autoImplicit false

namespace Libcage.Lib

universe u
variable {κ : Type u} {gap : Int}

/-- Two events of one key are at least `gap` apart. -/
def Spaced (gap : Int) (log : List (Int × κ)) : Prop :=
  log.Pairwise fun a b => a.2 = b.2 → gap ≤ b.1 - a.1

/-- Whether a log is spaced can be found out by looking at every two events. -/
instance [DecidableEq κ] (log : List (Int × κ)) : Decidable (Spaced gap log) :=
  inferInstanceAs (Decidable (log.Pairwise fun a b => a.2 = b.2 → gap ≤ b.1 - a.1))

theorem spaced_nil : Spaced gap ([] : List (Int × κ)) := List.Pairwise.nil

/-- The events up to some time are spaced where all are. -/
theorem Spaced.left {log log' : List (Int × κ)} (h : Spaced gap (log ++ log')) : Spaced gap log :=
  (List.pairwise_append.mp h).1

/-- What is remembered at a time `now`. -/
structure Remembers (gap now : Int) (last : κ → Option Int) (log : List (Int × κ)) : Prop where
  past : ∀ e ∈ log, e.1 ≤ now
  recent : ∀ e ∈ log, now - e.1 < gap → ∃ t, last e.2 = some t ∧ e.1 ≤ t

variable {now : Int} {last : κ → Option Int} {log : List (Int × κ)}

theorem remembers_nil : Remembers gap now last [] := ⟨nofun, nofun⟩

/-- Time goes by. -/
theorem Remembers.later (h : Remembers gap now last log) {now' : Int} (hnow : now ≤ now') :
    Remembers gap now' last log := by
  constructor
  case past => exact fun e he => Int.le_trans (h.past e he) hnow
  case recent => exact fun e he hgap => h.recent e he (by omega)

/-- Times that are old may be forgotten. -/
theorem Remembers.forget (h : Remembers gap now last log) {last' : κ → Option Int}
    (hkeep : ∀ k t, last k = some t → now - t < gap → last' k = some t) :
    Remembers gap now last' log := by
  constructor
  case past => exact h.past
  case recent =>
    intro e he hgap
    obtain ⟨t, ht, hle⟩ := h.recent e he hgap
    exact ⟨t, hkeep e.2 t ht (by omega), hle⟩

/-- The time of a key is set to now, with or without an event. -/
theorem Remembers.note (h : Remembers gap now last log) {k : κ} {last' : κ → Option Int}
    (hset : last' k = some now) (hother : ∀ k', k' ≠ k → last' k' = last k')
    {new : List (Int × κ)} (hnew : ∀ e ∈ new, e = (now, k)) :
    Remembers gap now last' (log ++ new) := by
  have hpast : ∀ e ∈ log ++ new, e.1 ≤ now := by
    intro e he
    rcases List.mem_append.mp he with he | he
    · exact h.past e he
    · exact Int.le_of_eq (congrArg Prod.fst (hnew e he))
  refine ⟨hpast, fun e he hgap => ?_⟩
  by_cases hk : e.2 = k
  · -- No event is later than now.
    exact ⟨now, by rw [hk, hset], hpast e he⟩
  · rcases List.mem_append.mp he with he | he
    · rw [hother e.2 hk]
      exact h.recent e he hgap
    · exact absurd (congrArg Prod.snd (hnew e he)) hk

/-- An event of a key whose time, where one is remembered, is not too close. -/
theorem Spaced.concat (hlog : Spaced gap log) (h : Remembers gap now last log) {k : κ}
    (hapart : ∀ t, last k = some t → gap ≤ now - t) : Spaced gap (log ++ [(now, k)]) := by
  refine List.pairwise_append.mpr ⟨hlog, List.pairwise_singleton _ _, ?_⟩
  intro e he e' he' hkey
  obtain rfl : e' = (now, k) := List.mem_singleton.mp he'
  by_contra hclose
  obtain ⟨t, ht, hle⟩ := h.recent e he (by simpa using hclose)
  have := hapart t (by rw [← ht, hkey])
  simp only at hclose
  omega

end Libcage.Lib
