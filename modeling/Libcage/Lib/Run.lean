import Mathlib.Data.Stream.Defs
import Mathlib.Logic.Function.Iterate
import Libcage.Lib.Except

/-!
# `Libcage.Lib.Run`: runs of a machine that can fault

A machine is a step function `step : σ → ι → Except ε σ`. It takes the inputs of a
list one after the other and stops at the first fault.

* `Always P` holds of a run that never faults and whose states all satisfy `P`.
* `Throughout P` holds of a run whose states all satisfy `P`, whether it faults or not.
* `Steps R` holds of a run whose steps all satisfy `R`.
* `Allowed ok` holds of a run whose steps all start where `ok` holds.
* `allowed_iff`: the same by the inputs before each step.
* `always_of_allowed`: an invariant that every allowed step keeps holds always.
* `always_iff_allowed`: where in addition every other step breaks the property,
  the allowed runs are the only good ones.
* `throughout_of_allowed`, `throughout_iff_allowed`: the same for runs that may fault, and
  `safe_iff_allowed` for runs with some faults (`Safe P F`).
* `steps_of_allowed`: where every allowed step satisfies `R`, and `steps_iff_allowed` where no
  other does.
* `run_inv`, `inv_of_run`: the invariant of the states that a run, or an allowed run, can
  reach.
* `run_of_moves`, `exists_rest`: a machine whose moves use up a number comes to rest, and
  `run_of_countdown` where each of them uses up one. So does one whose moves are bounded
  (`exists_rest_of_bound`).
* `follow` is the infinite run in which the state says what comes next.
-/

set_option autoImplicit false

namespace Libcage.Lib

universe u v

variable {σ ε : Type u} {ι : Type v}

/-- Take the inputs one after the other. -/
def run (step : σ → ι → Except ε σ) : σ → List ι → Except ε σ
  | s, [] => .ok s
  | s, i :: is => step s i >>= fun s' => run step s' is

/-- No step faults, and every state on the way satisfies `P`. -/
def Always (step : σ → ι → Except ε σ) (P : σ → Prop) : σ → List ι → Prop
  | s, [] => P s
  | s, i :: is => P s ∧ ∃ s', step s i = .ok s' ∧ Always step P s' is

/-- Every state on the way satisfies `P`. -/
def Throughout (step : σ → ι → Except ε σ) (P : σ → Prop) : σ → List ι → Prop
  | s, [] => P s
  | s, i :: is => P s ∧ ∀ s', step s i = .ok s' → Throughout step P s' is

/-- Every state on the way satisfies `P`, and where the run stops at a fault, that
satisfies `F`. -/
def Safe (step : σ → ι → Except ε σ) (P : σ → Prop) (F : ε → Prop) : σ → List ι → Prop
  | s, [] => P s
  | s, i :: is => P s ∧ Ends (fun s' => Safe step P F s' is) F (step s i)

/-- Every step starts from a state and an input that satisfy `ok`. -/
def Allowed (step : σ → ι → Except ε σ) (ok : σ → ι → Prop) : σ → List ι → Prop
  | _, [] => True
  | s, i :: is => ok s i ∧ ∀ s', step s i = .ok s' → Allowed step ok s' is

/-- Every step on the way satisfies `R`. -/
def Steps (step : σ → ι → Except ε σ) (R : σ → ι → σ → Prop) : σ → List ι → Prop
  | _, [] => True
  | s, i :: is => ∀ s', step s i = .ok s' → R s i s' ∧ Steps step R s' is

section
variable {step : σ → ι → Except ε σ} {P Inv : σ → Prop} {ok : σ → ι → Prop}

/-- Inputs that are allowed in every state. -/
theorem allowed_of_all {is : List ι} (h : ∀ i ∈ is, ∀ s, ok s i) {s : σ} :
    Allowed step ok s is := by
  induction is generalizing s with
  | nil => trivial
  | cons i is ih =>
    exact ⟨h i (List.mem_cons_self ..) s, fun _ _ => ih fun j hj => h j (List.mem_cons_of_mem _ hj)⟩

/-- Whether a run is allowed can be found out by running it. -/
instance [∀ s i, Decidable (ok s i)] : ∀ (is : List ι) (s : σ), Decidable (Allowed step ok s is)
  | [], _ => isTrue trivial
  | i :: is, s =>
      match h : step s i with
      | .ok s' =>
          haveI : Decidable (Allowed step ok s' is) := instDecidableAllowed is s'
          decidable_of_iff (ok s i ∧ Allowed step ok s' is) (by
            refine and_congr_right fun _ => ⟨fun ha t ht => ?_, fun ha => ha s' h⟩
            rwa [← Except.ok.inj (h.symm.trans ht)])
      | .error _ =>
          decidable_of_iff (ok s i)
            ⟨fun ha => ⟨ha, fun _ ht => nomatch h.symm.trans ht⟩, fun ha => ha.1⟩

/-- The first state of a run satisfies `P`. -/
theorem Always.head {s : σ} {is : List ι} (h : Always step P s is) : P s := by
  cases is with
  | nil => exact h
  | cons i is => exact h.1

/-- The run ends without a fault, in a state that satisfies `P`. -/
theorem Always.ends {s : σ} {is : List ι} (h : Always step P s is) :
    ∃ s', run step s is = .ok s' ∧ P s' := by
  induction is generalizing s with
  | nil => exact ⟨s, rfl, h⟩
  | cons i is ih =>
    obtain ⟨-, s', hs', hrest⟩ := h
    obtain ⟨t, ht, hP⟩ := ih hrest
    exact ⟨t, by rw [run, hs', ok_bind, ht], hP⟩

/-- An invariant that every allowed step keeps holds in every state of an allowed
run. -/
theorem always_of_allowed (hP : ∀ s, Inv s → P s)
    (hstep : ∀ s i, Inv s → ok s i → ∃ s', step s i = .ok s' ∧ Inv s') {s : σ} (hs : Inv s)
    {is : List ι} (hok : Allowed step ok s is) : Always step P s is := by
  induction is generalizing s with
  | nil => exact hP s hs
  | cons i is ih =>
    obtain ⟨s', hs', hInv⟩ := hstep s i hs hok.1
    exact ⟨hP s hs, s', hs', ih hInv (hok.2 s' hs')⟩

/-- Where every step that is not allowed leads out of `P`, the allowed runs are
the runs that stay in `P`. -/
theorem always_iff_allowed (Inv : σ → Prop) (hP : ∀ s, Inv s → P s)
    (hstep : ∀ s i, Inv s → ok s i → ∃ s', step s i = .ok s' ∧ Inv s')
    (hbreak : ∀ s i s', Inv s → ¬ ok s i → step s i = .ok s' → ¬ P s') {s : σ} (hs : Inv s)
    (is : List ι) : Always step P s is ↔ Allowed step ok s is := by
  refine ⟨fun h => ?_, always_of_allowed hP hstep hs⟩
  induction is generalizing s with
  | nil => trivial
  | cons i is ih =>
    obtain ⟨-, s', hs', hrest⟩ := h
    have hok : ok s i := by
      by_contra hnot
      exact hbreak s i s' hs hnot hs' hrest.head
    refine ⟨hok, fun t ht => ?_⟩
    obtain rfl : s' = t := Except.ok.inj (hs'.symm.trans ht)
    obtain ⟨t, ht', hInv⟩ := hstep s i hs hok
    obtain rfl : s' = t := Except.ok.inj (hs'.symm.trans ht')
    exact ih hInv hrest

/-- A run is allowed where each input is, in the state that the inputs before it lead to. -/
theorem allowed_iff {s : σ} {is : List ι} : Allowed step ok s is ↔
    ∀ before i after t, is = before ++ i :: after → run step s before = .ok t → ok t i := by
  constructor
  · intro h before i after t his hrun
    induction before generalizing s is with
    | nil =>
      obtain rfl : s = t := Except.ok.inj hrun
      subst his
      exact h.1
    | cons j before ih =>
      subst his
      obtain ⟨s', hs', hrest⟩ := bind_eq_ok hrun
      exact ih (h.2 s' hs') rfl hrest
  · intro h
    induction is generalizing s with
    | nil => trivial
    | cons i is ih =>
      refine ⟨h [] i is s rfl rfl, fun s' hs' => ih ?_⟩
      intro before j after t his hrun
      have hrun' : run step s (i :: before) = .ok t := by rw [run, hs', ok_bind, hrun]
      exact h (i :: before) j after t (by rw [his, List.cons_append]) hrun'

theorem Throughout.head {s : σ} {is : List ι} (h : Throughout step P s is) : P s := by
  cases is with
  | nil => exact h
  | cons i is => exact h.1

/-- The state a run ends in is one on the way. -/
theorem Throughout.of_run {s s' : σ} {is : List ι} (h : Throughout step P s is)
    (hrun : run step s is = .ok s') : P s' := by
  induction is generalizing s with
  | nil =>
    obtain rfl : s = s' := Except.ok.inj hrun
    exact h
  | cons i is ih =>
    obtain ⟨t, ht, hrest⟩ := bind_eq_ok hrun
    exact ih (h.2 t ht) hrest

/-- An invariant that every allowed step keeps holds in every state of an allowed run. -/
theorem throughout_of_allowed (Inv : σ → Prop) (hP : ∀ s, Inv s → P s)
    (hstep : ∀ s i s', Inv s → ok s i → step s i = .ok s' → Inv s') {s : σ} (hs : Inv s)
    {is : List ι} (hok : Allowed step ok s is) : Throughout step P s is := by
  induction is generalizing s with
  | nil => exact hP s hs
  | cons i is ih => exact ⟨hP s hs, fun s' hs' => ih (hstep s i s' hs hok.1 hs') (hok.2 s' hs')⟩

/-- Where the allowed steps keep `P` and the others break it, the runs that stay in `P`
are the allowed ones. `Inv` is what every step keeps. -/
theorem throughout_iff_allowed (Inv : σ → Prop)
    (hInv : ∀ s i s', Inv s → step s i = .ok s' → Inv s')
    (hstep : ∀ s i s', Inv s → P s → step s i = .ok s' → ok s i → P s')
    (hbreak : ∀ s i, Inv s → P s → ¬ ok s i → ∃ s', step s i = .ok s' ∧ ¬ P s') {s : σ}
    (hs : Inv s) (hP : P s) (is : List ι) : Throughout step P s is ↔ Allowed step ok s is := by
  induction is generalizing s with
  | nil => exact ⟨fun _ => trivial, fun _ => hP⟩
  | cons i is ih =>
    constructor
    · intro h
      have hok : ok s i := by
        by_contra hnot
        obtain ⟨s', hs', hbad⟩ := hbreak s i hs hP hnot
        exact hbad (h.2 s' hs').head
      refine ⟨hok, fun s' hs' => ?_⟩
      exact (ih (hInv s i s' hs hs') (hstep s i s' hs hP hs' hok)).mp (h.2 s' hs')
    · intro h
      refine ⟨hP, fun s' hs' => ?_⟩
      exact (ih (hInv s i s' hs hs') (hstep s i s' hs hP hs' h.1)).mpr (h.2 s' hs')

theorem Safe.head {F : ε → Prop} {s : σ} {is : List ι} (h : Safe step P F s is) : P s := by
  cases is with
  | nil => exact h
  | cons i is => exact h.1

/-- The state a safe run ends in is one on the way. -/
theorem Safe.of_run {F : ε → Prop} {s s' : σ} {is : List ι} (h : Safe step P F s is)
    (hrun : run step s is = .ok s') : P s' := by
  induction is generalizing s with
  | nil =>
    obtain rfl : s = s' := Except.ok.inj hrun
    exact h
  | cons i is ih =>
    obtain ⟨t, ht, hrest⟩ := bind_eq_ok hrun
    exact ih (h.2.of_ok ht) hrest

/-- Where the allowed steps keep the invariant and the others break the property or fault,
the safe runs are the allowed ones. -/
theorem safe_iff_allowed (Inv : σ → Prop) {F : ε → Prop} (hP : ∀ s, Inv s → P s)
    (hstep : ∀ s i, Inv s → ok s i → Ends Inv F (step s i))
    (hbreak : ∀ s i, Inv s → ¬ ok s i → Ends (fun s' => ¬ P s') (fun e => ¬ F e) (step s i)) {s : σ}
    (hs : Inv s) (is : List ι) : Safe step P F s is ↔ Allowed step ok s is := by
  induction is generalizing s with
  | nil => exact ⟨fun _ => trivial, fun _ => hP s hs⟩
  | cons i is ih =>
    constructor
    · intro h
      have hok : ok s i := by
        by_contra hnot
        have hbad := hbreak s i hs hnot
        cases hi : step s i with
        | ok s' => exact hbad.of_ok hi (h.2.of_ok hi).head
        | error e => exact hbad.of_error hi (h.2.of_error hi)
      refine ⟨hok, fun s' hs' => ?_⟩
      exact (ih ((hstep s i hs hok).of_ok hs')).mp (h.2.of_ok hs')
    · intro h
      refine ⟨hP s hs, ?_⟩
      cases hi : step s i with
      | ok s' => exact Ends.ok ((ih ((hstep s i hs h.1).of_ok hi)).mpr (h.2 s' hi))
      | error e => exact Ends.error ((hstep s i hs h.1).of_error hi)

/-- Where the allowed steps satisfy `R` and keep the invariant, so do all steps of an allowed
run. -/
theorem steps_of_allowed (Inv : σ → Prop) {R : σ → ι → σ → Prop}
    (hstep : ∀ s i s', Inv s → ok s i → step s i = .ok s' → R s i s' ∧ Inv s') {s : σ} (hs : Inv s)
    {is : List ι} (hok : Allowed step ok s is) : Steps step R s is := by
  induction is generalizing s with
  | nil => trivial
  | cons i is ih =>
    intro s' hs'
    obtain ⟨hR, hInv⟩ := hstep s i s' hs hok.1 hs'
    exact ⟨hR, ih hInv (hok.2 s' hs')⟩

/-- Where the allowed steps satisfy `R` and keep the invariant, and the others do not satisfy
`R`, the runs of steps that do are the allowed ones. -/
theorem steps_iff_allowed (Inv : σ → Prop) {R : σ → ι → σ → Prop}
    (hstep : ∀ s i s', Inv s → ok s i → step s i = .ok s' → R s i s' ∧ Inv s')
    (hbreak : ∀ s i, Inv s → ¬ ok s i → ∃ s', step s i = .ok s' ∧ ¬ R s i s') {s : σ} (hs : Inv s)
    (is : List ι) : Steps step R s is ↔ Allowed step ok s is := by
  refine ⟨fun h => ?_, steps_of_allowed Inv hstep hs⟩
  induction is generalizing s with
  | nil => trivial
  | cons i is ih =>
    have hok : ok s i := by
      by_contra hnot
      obtain ⟨s', hs', hbad⟩ := hbreak s i hs hnot
      exact hbad (h s' hs').1
    refine ⟨hok, fun s' hs' => ?_⟩
    exact ih (hstep s i s' hs hok hs').2 (h s' hs').2

/-- A run goes on from where its first part ended. -/
theorem run_append {s t : σ} {is js : List ι} (h : run step s is = .ok t) :
    run step s (is ++ js) = run step t js := by
  induction is generalizing s with
  | nil =>
    obtain rfl : s = t := Except.ok.inj h
    rfl
  | cons i is ih =>
    obtain ⟨s', hs', hrest⟩ := bind_eq_ok h
    rw [List.cons_append, run, hs', ok_bind]
    exact ih hrest

/-- A step that a run takes satisfies `R`. -/
theorem Steps.of_run {R : σ → ι → σ → Prop} {s t t' : σ} {i : ι} {is js : List ι}
    (h : Steps step R s (is ++ i :: js)) (hrun : run step s is = .ok t)
    (hstep : step t i = .ok t') : R t i t' := by
  induction is generalizing s with
  | nil =>
    obtain rfl : s = t := Except.ok.inj hrun
    exact (h t' hstep).1
  | cons j is ih =>
    obtain ⟨s', hs', hrest⟩ := bind_eq_ok hrun
    exact ih (h s' hs').2 hrest

/-- Both parts of an allowed run are allowed. -/
theorem Allowed.append {s t : σ} {is js : List ι} (h : Allowed step ok s (is ++ js))
    (hrun : run step s is = .ok t) : Allowed step ok s is ∧ Allowed step ok t js := by
  induction is generalizing s with
  | nil =>
    obtain rfl : s = t := Except.ok.inj hrun
    exact ⟨trivial, h⟩
  | cons i is ih =>
    obtain ⟨s', hs', hrest⟩ := bind_eq_ok hrun
    obtain ⟨h₁, h₂⟩ := ih (h.2 s' hs') hrest
    refine ⟨⟨h.1, fun u hu => ?_⟩, h₂⟩
    obtain rfl : s' = u := Except.ok.inj (hs'.symm.trans hu)
    exact h₁

/-- An invariant that every step keeps holds in every state a run reaches. -/
theorem run_inv (Inv : σ → Prop) (hstep : ∀ s i s', Inv s → step s i = .ok s' → Inv s') {s s' : σ}
    (hs : Inv s) {is : List ι} (hrun : run step s is = .ok s') : Inv s' := by
  induction is generalizing s with
  | nil =>
    obtain rfl : s = s' := Except.ok.inj hrun
    exact hs
  | cons i is ih =>
    obtain ⟨t, ht, hrest⟩ := bind_eq_ok hrun
    exact ih (hstep s i t hs ht) hrest

/-- An invariant that every allowed step keeps holds in every state an allowed run
reaches. -/
theorem inv_of_run (hstep : ∀ s i s', Inv s → ok s i → step s i = .ok s' → Inv s') {s s' : σ}
    (hs : Inv s) {is : List ι} (hok : Allowed step ok s is) (hrun : run step s is = .ok s') :
    Inv s' := by
  induction is generalizing s with
  | nil =>
    obtain rfl : s = s' := Except.ok.inj hrun
    exact hs
  | cons i is ih =>
    obtain ⟨t, ht, hrest⟩ := bind_eq_ok hrun
    exact ih (hstep s i t hs hok.1 ht) (hok.2 t ht) hrest

/-- An allowed run ends where its steps do: in the invariant, or in a fault that they
admit. -/
theorem ends_of_allowed (Inv : σ → Prop) {F : ε → Prop}
    (hstep : ∀ s i, Inv s → ok s i → Ends Inv F (step s i)) {s : σ} (hs : Inv s) {is : List ι}
    (hok : Allowed step ok s is) : Ends Inv F (run step s is) := by
  induction is generalizing s with
  | nil => exact Ends.ok hs
  | cons i is ih =>
    cases hi : step s i with
    | ok s' =>
      rw [run, hi, ok_bind]
      exact ih ((hstep s i hs hok.1).of_ok hi) (hok.2 s' hi)
    | error e =>
      rw [run, hi, error_bind]
      exact Ends.error ((hstep s i hs hok.1).of_error hi)

end

/-! ### Machines that come to rest -/

section
variable {step : σ → ι → Except ε σ} {Phase : Nat → σ → Prop} {Moves : σ → ι → Prop}

/-- A run in which every move leaves less to do and everything else changes nothing. It does
not fault, and its moves are bounded. -/
theorem run_of_moves
    (hmove : ∀ n s i, Phase n s → Moves s i → ∃ s' m, step s i = .ok s' ∧ m < n ∧ Phase m s')
    (hidle : ∀ n s i, Phase n s → ¬ Moves s i → step s i = .ok s) {n : Nat} {s : σ}
    (h : Phase n s) (is : List ι) : ∃ s' m, run step s is = .ok s' ∧ Phase m s' ∧
      (Allowed step Moves s is → is.length + m ≤ n) := by
  induction is generalizing n s with
  | nil => exact ⟨s, n, rfl, h, fun _ => by simp⟩
  | cons i is ih =>
    by_cases hi : Moves s i
    · obtain ⟨t, k, ht, hlt, hphase⟩ := hmove n s i h hi
      obtain ⟨s', m, hrun, hend, hlen⟩ := ih hphase
      refine ⟨s', m, by rw [run, ht, ok_bind, hrun], hend, fun hallowed => ?_⟩
      have hrest := hlen (hallowed.2 t ht)
      rw [List.length_cons]
      omega
    · obtain ⟨s', m, hrun, hend, -⟩ := ih h
      refine ⟨s', m, by rw [run, hidle n s i h hi, ok_bind, hrun], hend, fun hallowed => ?_⟩
      exact absurd hallowed.1 hi

/-- The machine can be brought to rest. -/
theorem exists_rest
    (hmove : ∀ n s i, Phase n s → Moves s i → ∃ s' m, step s i = .ok s' ∧ m < n ∧ Phase m s')
    {n : Nat} {s : σ} (h : Phase n s) :
    ∃ is s' m, run step s is = .ok s' ∧ Phase m s' ∧ ∀ i, ¬ Moves s' i := by
  induction n using Nat.strongRecOn generalizing s with
  | _ n ih =>
    by_cases hrest : ∃ i, Moves s i
    · obtain ⟨i, hi⟩ := hrest
      obtain ⟨t, k, ht, hlt, hphase⟩ := hmove n s i h hi
      obtain ⟨is, s', m, hrun, hend, hstop⟩ := ih k hlt hphase
      exact ⟨i :: is, s', m, by rw [run, ht, ok_bind, hrun], hend, hstop⟩
    · exact ⟨[], s, n, rfl, h, fun i hi => hrest ⟨i, hi⟩⟩

/-- Where the moves are bounded and nothing faults, the machine comes to rest. -/
theorem exists_rest_of_bound {n : Nat} {s : σ}
    (hbound : ∀ is, Allowed step Moves s is → is.length ≤ n)
    (hruns : ∀ is, ∃ s', run step s is = .ok s') :
    ∃ is s', run step s is = .ok s' ∧ ∀ i, ¬ Moves s' i := by
  induction n generalizing s with
  | zero =>
    refine ⟨[], s, rfl, fun i hi => ?_⟩
    have hle := hbound [i] ⟨hi, fun _ _ => trivial⟩
    exact absurd hle (by simp)
  | succ n ih =>
    -- Where something moves, the runs behind it have a bound that is less by one.
    by_cases hrest : ∃ i, Moves s i
    · obtain ⟨i, hi⟩ := hrest
      obtain ⟨t', hrun⟩ := hruns [i]
      obtain ⟨t, ht, -⟩ := bind_eq_ok hrun
      have hbound' : ∀ is, Allowed step Moves t is → is.length ≤ n := by
        intro is his
        refine Nat.le_of_succ_le_succ (hbound (i :: is) ⟨hi, fun u hu => ?_⟩)
        obtain rfl : t = u := Except.ok.inj (ht.symm.trans hu)
        exact his
      have hruns' : ∀ is, ∃ s', run step t is = .ok s' := by
        intro is
        obtain ⟨s', hs'⟩ := hruns (i :: is)
        rw [run, ht, ok_bind] at hs'
        exact ⟨s', hs'⟩
      obtain ⟨is, s', hs', hstop⟩ := ih hbound' hruns'
      exact ⟨i :: is, s', by rw [run, ht, ok_bind, hs'], hstop⟩
    · exact ⟨[], s, rfl, fun i hi => hrest ⟨i, hi⟩⟩

/-- A machine that is `n` moves from the end is there after any `n` of them. -/
theorem run_of_countdown (Phase : Nat → σ → Prop) {ok : σ → ι → Prop}
    (hmove : ∀ n s i, Phase (n + 1) s → ok s i → ∃ s', step s i = .ok s' ∧ Phase n s') {s : σ}
    {is : List ι} (h : Phase is.length s) (hok : Allowed step ok s is) :
    ∃ s', run step s is = .ok s' ∧ Phase 0 s' := by
  induction is generalizing s with
  | nil => exact ⟨s, rfl, h⟩
  | cons i is ih =>
    obtain ⟨t, ht, hphase⟩ := hmove is.length s i h hok.1
    obtain ⟨s', hrun, hend⟩ := ih hphase (hok.2 t ht)
    exact ⟨s', by rw [run, ht, ok_bind, hrun], hend⟩

end

/-! ### Infinite runs -/

section
variable {step : σ → ι → Except ε σ} {pick : σ → ι}

/-- The state after the next input, or the same one after a fault. -/
def next (step : σ → ι → Except ε σ) (pick : σ → ι) (s : σ) : σ :=
  match step s (pick s) with
  | .ok s' => s'
  | .error _ => s

/-- The inputs of the run in which `pick` says what comes next. -/
def follow (step : σ → ι → Except ε σ) (pick : σ → ι) (s : σ) : Stream' ι :=
  fun n => pick ((next step pick)^[n] s)

/-- Where `pick` is always allowed and keeps an invariant, so is the infinite run. -/
theorem allowed_follow (Inv : σ → Prop) {ok : σ → ι → Prop}
    (hpick : ∀ s, Inv s → ok s (pick s) ∧ ∃ s', step s (pick s) = .ok s' ∧ Inv s') {s : σ}
    (hs : Inv s) (n : Nat) : Allowed step ok s ((follow step pick s).take n) := by
  induction n generalizing s with
  | zero => trivial
  | succ n ih =>
    obtain ⟨hok, s', hs', hInv⟩ := hpick s hs
    refine ⟨hok, fun t ht => ?_⟩
    obtain rfl : s' = t := Except.ok.inj (hs'.symm.trans ht)
    have hnext : next step pick s = s' := by rw [next, hs']
    have htail : (follow step pick s).tail = follow step pick (next step pick s) := rfl
    rw [hnext] at htail
    show Allowed step ok s' ((follow step pick s).tail.take n)
    rw [htail]
    exact ih hInv

end

end Libcage.Lib
