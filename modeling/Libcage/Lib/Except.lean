import Mathlib.Tactic.Common

/-!
# `Libcage.Lib.Except`: computations that may fault

Rewriting rules for `Except` programs: how a bind runs over a result
(`ok_bind`), and what a bind that returned must have done (`bind_eq_ok`).

`Ends P F x` says how a computation may end: a result satisfies `P` and a fault `F`.
Its rules follow the program, so a function that only calls others is proved from
what the others end with.
-/

set_option autoImplicit false

namespace Libcage.Lib

universe u
variable {ε α β : Type u}

theorem ok_bind (a : α) (f : α → Except ε β) : (Except.ok a >>= f) = f a := rfl

theorem error_bind (e : ε) (f : α → Except ε β) : (Except.error e >>= f) = .error e := rfl

/-- A bind that returned ran both of its parts. -/
theorem bind_eq_ok {x : Except ε α} {f : α → Except ε β} {b : β} (h : (x >>= f) = .ok b) :
    ∃ a, x = .ok a ∧ f a = .ok b := by
  cases x with
  | error e => cases h
  | ok a => exact ⟨a, rfl, h⟩

/-- A bind that faulted did so in its first part, or in its second after the
first returned. -/
theorem bind_eq_error {x : Except ε α} {f : α → Except ε β} {e : ε}
    (h : (x >>= f) = .error e) : x = .error e ∨ ∃ a, x = .ok a ∧ f a = .error e := by
  cases x with
  | error e' => exact Or.inl (congrArg _ (Except.error.inj h))
  | ok a => exact Or.inr ⟨a, rfl, h⟩

/-- Only the faults are renamed. -/
theorem mapError_eq_ok {ε' : Type u} {f : ε → ε'} {x : Except ε α} {a : α} :
    x.mapError f = .ok a ↔ x = .ok a := by
  cases x <;> simp [Except.mapError]

/-- What is known of a part of the result is known of the result. -/
theorem map_eq_ok {f : α → β} {x : Except ε α} {b : β} :
    x.map f = .ok b ↔ ∃ a, x = .ok a ∧ f a = b := by
  cases x <;> simp [Except.map]

/-- A result satisfies `P`, a fault `F`. -/
def Ends (P : α → Prop) (F : ε → Prop) (x : Except ε α) : Prop :=
  match x with
  | .ok a => P a
  | .error e => F e

namespace Ends
variable {P Q : α → Prop} {R : β → Prop} {F G : ε → Prop}

theorem ok {a : α} (h : P a) : Ends P F (.ok a : Except ε α) := h

theorem error {e : ε} (h : F e) : Ends P F (.error e : Except ε α) := h

/-- The first part ends in `Q`, and from there the second does what is asked. -/
theorem bind {x : Except ε α} {f : α → Except ε β} (hx : Ends Q F x)
    (hf : ∀ a, Q a → Ends R F (f a)) : Ends R F (x >>= f) := by
  cases x with
  | ok a => exact hf a hx
  | error e => exact hx

theorem mono {x : Except ε α} (h : Ends P F x) (hP : ∀ a, P a → Q a) (hF : ∀ e, F e → G e) :
    Ends Q G x := by
  cases x with
  | ok a => exact hP a h
  | error e => exact hF e h

theorem of_ok {x : Except ε α} {a : α} (h : Ends P F x) (hx : x = .ok a) : P a := by
  rw [hx] at h
  exact h

theorem of_error {x : Except ε α} {e : ε} (h : Ends P F x) (hx : x = .error e) : F e := by
  rw [hx] at h
  exact h

end Ends

end Libcage.Lib
