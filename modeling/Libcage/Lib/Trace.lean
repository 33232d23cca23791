import Mathlib.Logic.Relation
import Libcage.Lib.Except

/-!
# `Libcage.Lib.Trace`: what a program with state and faults does, step by step

A program in `StateT σ (Except ε)` changes its state in small steps. `Traces R F m s`
says that the run of `m` from `s` is a chain of steps of the relation `R`, and that a
fault `e` only comes up in a state where `F` admits it.

The rules follow the structure of the program: `pure`, `bind`, reading and writing
the state, `throw`, and a case split. The steps of a whole program are then known
once, and every invariant of the relation is one of the program
(`Traces.inv`, `Traces.fault`).
-/

set_option autoImplicit false

namespace Libcage.Lib

universe u
variable {σ ε α β : Type u}

/-- A run from `s` is a chain of steps, and a fault comes up where `F` admits it. -/
def Traces (R : σ → σ → Prop) (F : σ → ε → Prop) (m : StateT σ (Except ε) α) (s : σ) : Prop :=
  (∀ a s', m s = .ok (a, s') → Relation.ReflTransGen R s s') ∧
    ∀ e, m s = .error e → ∃ s', Relation.ReflTransGen R s s' ∧ F s' e

/-- A program that returned ran both of its parts. -/
theorem run_bind_eq_ok {m : StateT σ (Except ε) α} {f : α → StateT σ (Except ε) β} {s s' : σ}
    {b : β} (h : (m >>= f) s = .ok (b, s')) : ∃ a t, m s = .ok (a, t) ∧ f a t = .ok (b, s') := by
  obtain ⟨⟨a, t⟩, hm, hf⟩ := bind_eq_ok h
  exact ⟨a, t, hm, hf⟩

/-- A program that reads the state first runs on it. -/
theorem run_get_bind {f : σ → StateT σ (Except ε) β} {s : σ} : (get >>= f) s = f s s := rfl

namespace Traces
variable {R : σ → σ → Prop} {F : σ → ε → Prop} {s : σ}

theorem pure (a : α) : Traces R F (Pure.pure a : StateT σ (Except ε) α) s := by
  refine ⟨fun _ _ h => ?_, fun _ h => nomatch h⟩
  obtain ⟨-, rfl⟩ := Prod.mk.inj (Except.ok.inj h)
  exact .refl

theorem bind {m : StateT σ (Except ε) α} {f : α → StateT σ (Except ε) β} (hm : Traces R F m s)
    (hf : ∀ a s', m s = .ok (a, s') → Traces R F (f a) s') : Traces R F (m >>= f) s := by
  refine ⟨fun b t h => ?_, fun e h => ?_⟩
  · obtain ⟨⟨a, s'⟩, hrun, hrest⟩ := bind_eq_ok h
    exact (hm.1 a s' hrun).trans ((hf a s' hrun).1 b t hrest)
  · rcases bind_eq_error h with hfault | ⟨⟨a, s'⟩, hrun, hfault⟩
    · exact hm.2 e hfault
    · obtain ⟨t, ht, hF⟩ := (hf a s' hrun).2 e hfault
      exact ⟨t, (hm.1 a s' hrun).trans ht, hF⟩

/-- The second part starts anywhere. -/
theorem bind_any {m : StateT σ (Except ε) α} {f : α → StateT σ (Except ε) β} (hm : Traces R F m s)
    (hf : ∀ a s', Traces R F (f a) s') : Traces R F (m >>= f) s :=
  hm.bind fun a s' _ => hf a s'

/-- The program reads the state it is in. -/
theorem get_bind {f : σ → StateT σ (Except ε) β} (hf : Traces R F (f s) s) :
    Traces R F (get >>= f) s := hf

/-- One step, and the rest from where it leads. -/
theorem modify_bind {g : σ → σ} {f : PUnit → StateT σ (Except ε) β} (hstep : R s (g s))
    (hf : Traces R F (f ⟨⟩) (g s)) : Traces R F (modify g >>= f) s := by
  refine ⟨fun b t h => ?_, fun e h => ?_⟩
  · exact .head hstep (hf.1 b t h)
  · obtain ⟨t, ht, hF⟩ := hf.2 e h
    exact ⟨t, .head hstep ht, hF⟩

theorem modify {g : σ → σ} (hstep : R s (g s)) :
    Traces R F (modify g : StateT σ (Except ε) PUnit) s := by
  refine ⟨fun _ _ h => ?_, fun _ h => nomatch h⟩
  obtain ⟨-, rfl⟩ := Prod.mk.inj (Except.ok.inj h)
  exact .single hstep

/-- Writing a state is one step. -/
theorem set_bind {t : σ} {f : PUnit → StateT σ (Except ε) β} (hstep : R s t)
    (hf : Traces R F (f ⟨⟩) t) : Traces R F (set t >>= f) s :=
  modify_bind (g := fun _ => t) hstep hf

theorem throw {e : ε} (hF : F s e) : Traces R F (throw e : StateT σ (Except ε) α) s := by
  refine ⟨fun _ _ h => (nomatch h), fun e' h => ?_⟩
  obtain rfl := Except.error.inj h
  exact ⟨s, .refl, hF⟩

/-- A part that does not touch the state. -/
theorem lift_bind {x : Except ε α} {f : α → StateT σ (Except ε) β}
    (hfault : ∀ e, x = .error e → F s e) (hf : ∀ a, x = .ok a → Traces R F (f a) s) :
    Traces R F ((liftM x : StateT σ (Except ε) α) >>= f) s := by
  cases x with
  | ok a => exact hf a rfl
  | error e =>
    refine ⟨fun _ _ h => (nomatch h), fun e' h => ?_⟩
    obtain rfl := Except.error.inj h
    exact ⟨s, .refl, hfault e rfl⟩

theorem ite {c : Prop} [Decidable c] {m n : StateT σ (Except ε) α} (hm : c → Traces R F m s)
    (hn : ¬ c → Traces R F n s) : Traces R F (if c then m else n) s := by
  split
  · exact hm ‹_›
  · exact hn ‹_›

/-- Two programs that run alike from a state. -/
theorem of_eq {m m' : StateT σ (Except ε) α} (heq : m s = m' s) (h : Traces R F m' s) :
    Traces R F m s := by
  unfold Traces
  rw [heq]
  exact h

/-- A program that returns does what it is known to do. -/
theorem of_run {m : StateT σ (Except ε) α} {a : α} {s' : σ} (hrun : m s = .ok (a, s'))
    (hchain : Relation.ReflTransGen R s s') : Traces R F m s := by
  refine ⟨fun b t h => ?_, fun e h => ?_⟩
  · obtain ⟨-, rfl⟩ := Prod.mk.inj (Except.ok.inj (hrun.symm.trans h))
    exact hchain
  · exact nomatch hrun.symm.trans h

/-- A first part that is known to return, then the second. -/
theorem bind_of_run {m : StateT σ (Except ε) α} {f : α → StateT σ (Except ε) β} {a : α} {s' : σ}
    (hrun : m s = .ok (a, s')) (hchain : Relation.ReflTransGen R s s') (hf : Traces R F (f a) s') :
    Traces R F (m >>= f) s := by
  refine (of_run hrun hchain).bind fun b t h => ?_
  obtain ⟨rfl, rfl⟩ := Prod.mk.inj (Except.ok.inj (hrun.symm.trans h))
  exact hf

/-- A first part that is known to fault. -/
theorem bind_of_error {m : StateT σ (Except ε) α} {f : α → StateT σ (Except ε) β} {e : ε}
    (hrun : m s = .error e) (hF : F s e) : Traces R F (m >>= f) s := by
  refine Traces.bind ⟨fun a s' hok => ?_, fun e' he => ?_⟩ fun a s' hok => ?_
  · exact nomatch hrun.symm.trans hok
  · obtain rfl := Except.error.inj (hrun.symm.trans he)
    exact ⟨s, .refl, hF⟩
  · exact nomatch hrun.symm.trans hok

/-- More steps and more faults. -/
theorem mono {R' : σ → σ → Prop} {F' : σ → ε → Prop} (hR : ∀ s s', R s s' → R' s s')
    (hF : ∀ s e, F s e → F' s e) {m : StateT σ (Except ε) α} (h : Traces R F m s) :
    Traces R' F' m s := by
  refine ⟨fun a s' hrun => Relation.ReflTransGen.mono hR _ _ (h.1 a s' hrun), fun e hrun => ?_⟩
  obtain ⟨s', hchain, hfault⟩ := h.2 e hrun
  exact ⟨s', Relation.ReflTransGen.mono hR _ _ hchain, hF s' e hfault⟩

/-- An invariant of the steps holds after the program. -/
theorem inv (Inv : σ → Prop) (hR : ∀ s s', Inv s → R s s' → Inv s')
    {m : StateT σ (Except ε) α} (h : Traces R F m s) (hs : Inv s) {a : α} {s' : σ}
    (hrun : m s = .ok (a, s')) : Inv s' := by
  have hchain := h.1 a s' hrun
  clear hrun
  induction hchain with
  | refl => exact hs
  | tail _ hstep ih => exact hR _ _ ih hstep

/-- A fault comes up in a state that satisfies the invariant. -/
theorem fault (Inv : σ → Prop) (hR : ∀ s s', Inv s → R s s' → Inv s')
    {m : StateT σ (Except ε) α} (h : Traces R F m s) (hs : Inv s) {e : ε}
    (hrun : m s = .error e) : ∃ s', Inv s' ∧ F s' e := by
  obtain ⟨s', hchain, hF⟩ := h.2 e hrun
  refine ⟨s', ?_, hF⟩
  clear hF hrun
  induction hchain with
  | refl => exact hs
  | tail _ hstep ih => exact hR _ _ ih hstep

end Traces

end Libcage.Lib
