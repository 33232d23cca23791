import Mathlib.Logic.Function.Basic
import Libcage.Lib.Run

/-!
# `Libcage.Lib.Lease`: records that are bound to a session

A table of leases gives a key an address, together with the session it was taken in and the
time it was last renewed. A claim enters a lease where there is none, and sets the address
where it comes in the session of the lease. In another session it can renew the lease at most,
and only where `renews` says so. A sweep takes out what was not renewed for more than `ttl`.

`Bound` says what an event may do to a lease, with the times at which it was renewed before
(`renewals`). `bound_exec` proves it for the runs from the empty table, and `bound_of_run` for
the runs of a machine whose steps are such events.
-/

set_option autoImplicit false

namespace Libcage.Lib

universe u
variable {κ σ α : Type u}

/-- What a table has for a key. -/
structure Lease (σ α : Type u) where
  session : σ
  addr : α
  time : Int
deriving DecidableEq

/-- A message that claims a key. -/
structure Claim (κ σ α : Type u) where
  key : κ
  session : σ
  addr : α
  time : Int
deriving DecidableEq

/-- What can happen to a table. -/
inductive LeaseEvent (κ σ α : Type u) where
  | claim (c : Claim κ σ α)
  | sweep (now : Int)
deriving DecidableEq

/-- The leases by their keys. -/
abbrev Leases (κ σ α : Type u) := κ → Option (Lease σ α)

/-- What an event may do to the lease `l` of a key. `renewed` is the times at which the key
was entered or renewed, and `after` what the event leaves. -/
structure Bound (ttl : Int) (renewed : List Int) (k : κ) (l : Lease σ α)
    (after : Option (Lease σ α))
    (e : Option (LeaseEvent κ σ α)) : Prop where
  session : ∀ l', after = some l' → l'.session = l.session
  addr : ∀ l', after = some l' → l'.addr ≠ l.addr →
    ∃ c, e = some (.claim c) ∧ c.key = k ∧ c.session = l.session
  gone : after = none → ∃ now t, e = some (.sweep now) ∧ renewed.getLast? = some t ∧ ttl < now - t

/-- Where nothing happens, a lease stays as it is. -/
theorem Bound.refl {ttl : Int} {renewed : List Int} {k : κ} {l : Lease σ α} :
    Bound ttl renewed k l (some l) none := by
  refine ⟨?_, ?_, fun hnone => nomatch hnone⟩
  · rintro l' ⟨⟩
    rfl
  · rintro l' ⟨⟩ hne
    exact absurd rfl hne

/-- A sweep takes out a lease that is too old. -/
theorem filter_sweep (ttl now : Int) (l : Lease σ α) :
    (some l).filter (fun l => now - l.time ≤ ttl) =
      if ttl < now - l.time then none else some l := by
  by_cases hold : ttl < now - l.time
  · rw [if_pos hold, Option.filter_some, if_neg (mt of_decide_eq_true (Int.not_le.mpr hold))]
  · rw [if_neg hold, Option.filter_some, if_pos (decide_eq_true (Int.not_lt.mp hold))]

/-! ### Claims -/

section
variable [DecidableEq σ] (renews : Lease σ α → Claim κ σ α → Prop) [∀ l c, Decidable (renews l c)]

/-- The claim enters the lease or renews it. -/
def Counts (l : Option (Lease σ α)) (c : Claim κ σ α) : Prop :=
  match l with
  | none => True
  | some l => l.session = c.session ∨ renews l c

instance (l : Option (Lease σ α)) (c : Claim κ σ α) : Decidable (Counts renews l c) := by
  unfold Counts
  cases l <;> infer_instance

/-- The lease of a key after a claim. -/
def Claim.leave (c : Claim κ σ α) : Option (Lease σ α) → Lease σ α
  | none => ⟨c.session, c.addr, c.time⟩
  | some l =>
      if l.session = c.session then
        ⟨c.session, c.addr, c.time⟩
      else if renews l c then
        { l with time := c.time }
      else
        l

variable {renews} {l : Lease σ α}

/-- A claim leaves the session as it was. -/
theorem leave_session (c : Claim κ σ α) : (c.leave renews (some l)).session = l.session := by
  simp only [Claim.leave]
  split
  · rename_i h
    exact h.symm
  · split <;> rfl

/-- Only a claim in the session of the lease sets the address. -/
theorem leave_addr {c : Claim κ σ α} (h : (c.leave renews (some l)).addr ≠ l.addr) :
    c.session = l.session := by
  by_contra hne
  refine h ?_
  simp only [Claim.leave, if_neg (Ne.symm hne)]
  split <;> rfl

/-- A claim that counts sets the time, and any other leaves it. -/
theorem leave_time (renews : Lease σ α → Claim κ σ α → Prop) [∀ l c, Decidable (renews l c)]
    (c : Claim κ σ α) (o : Option (Lease σ α)) :
    (Counts renews o c ∧ (c.leave renews o).time = c.time) ∨
    (¬ Counts renews o c ∧ o = some (c.leave renews o)) := by
  cases o with
  | none => exact Or.inl ⟨trivial, rfl⟩
  | some l =>
    by_cases hsession : l.session = c.session
    · exact Or.inl ⟨Or.inl hsession, by simp [Claim.leave, hsession]⟩
    · by_cases hrenews : renews l c
      · exact Or.inl ⟨Or.inr hrenews, by simp [Claim.leave, hsession, hrenews]⟩
      · refine Or.inr ⟨?_, by simp [Claim.leave, hsession, hrenews]⟩
        rintro (h | h)
        · exact hsession h
        · exact hrenews h

end

/-! ### Tables -/

variable [DecidableEq κ] [DecidableEq σ]
variable (ttl : Int) (renews : Lease σ α → Claim κ σ α → Prop) [∀ l c, Decidable (renews l c)]

/-- One event. -/
def exec (m : Leases κ σ α) : LeaseEvent κ σ α → Leases κ σ α
  | .claim c => Function.update m c.key (some (c.leave renews (m c.key)))
  | .sweep now => fun k => (m k).filter fun l => now - l.time ≤ ttl

/-- A run. -/
def execAll (m : Leases κ σ α) (es : List (LeaseEvent κ σ α)) : Leases κ σ α :=
  es.foldl (exec ttl renews) m

/-- The time, where an event enters or renews a key. -/
def renewal (k : κ) (m : Leases κ σ α) : LeaseEvent κ σ α → List Int
  | .claim c => if c.key = k ∧ Counts renews (m k) c then [c.time] else []
  | .sweep _ => []

/-- The times at which a run enters or renews a key. -/
def renewals (k : κ) : Leases κ σ α → List (LeaseEvent κ σ α) → List Int
  | _, [] => []
  | m, e :: es => renewal renews k m e ++ renewals k (exec ttl renews m e) es

variable {ttl renews} {m : Leases κ σ α} {k : κ} {l l' : Lease σ α} {e : LeaseEvent κ σ α}

/-! ### One event -/

theorem exec_claim_self (c : Claim κ σ α) :
    exec ttl renews m (.claim c) c.key = some (c.leave renews (m c.key)) := by
  simp [exec]

theorem exec_claim_ne {c : Claim κ σ α} (h : k ≠ c.key) : exec ttl renews m (.claim c) k = m k := by
  simp [exec, h]

/-- What a sweep leaves was there before and is not too old. -/
theorem exec_sweep_eq_some {now : Int} :
    exec ttl renews m (.sweep now) k = some l ↔ m k = some l ∧ now - l.time ≤ ttl := by
  simp [exec, Option.filter_eq_some_iff]

/-! ### Runs -/

/-- The time of a lease is the last one at which it was entered or renewed, unless it is a
lease that the run found. -/
theorem time_of_execAll {es : List (LeaseEvent κ σ α)} (h : execAll ttl renews m es k = some l) :
    (renewals ttl renews k m es).getLast? = some l.time ∨
    (renewals ttl renews k m es = [] ∧ (m k).map (·.time) = some l.time) := by
  -- The table before the first event is generalised: the list is read from its first event on.
  induction es generalizing m with
  | nil =>
    have hm : m k = some l := h
    exact Or.inr ⟨rfl, by simp [hm]⟩
  | cons e es ih =>
    rcases ih h with hlast | ⟨hnil, htime⟩
    · -- The key is renewed later on.
      left
      rw [renewals, List.getLast?_append, hlast]
      rfl
    · -- The first event is the last one that can have renewed the key.
      rw [renewals, hnil, List.append_nil]
      cases e with
      | sweep now =>
        obtain ⟨l', hl', ht⟩ := Option.map_eq_some_iff.mp htime
        exact Or.inr ⟨rfl, by simp [(exec_sweep_eq_some.mp hl').1, ht]⟩
      | claim c =>
        by_cases hk : k = c.key
        · subst hk
          rw [exec_claim_self, Option.map_some, Option.some.injEq] at htime
          rcases leave_time renews c (m c.key) with ⟨hcounts, hset⟩ | ⟨hnot, hsame⟩
          · left
            simp [renewal, hcounts, ← htime, hset]
          · right
            have hold := congrArg (Option.map Lease.time) hsame
            exact ⟨by simp [renewal, hnot], by rw [hold, Option.map_some, htime]⟩
        · rw [exec_claim_ne hk] at htime
          exact Or.inr ⟨by simp [renewal, Ne.symm hk], htime⟩

/-- In the runs from the empty table, every event keeps what a lease is bound to. -/
theorem bound_exec {es : List (LeaseEvent κ σ α)}
    (h : execAll ttl renews (fun _ => none) es k = some l) (e : LeaseEvent κ σ α) :
    Bound ttl (renewals ttl renews k (fun _ => none) es) k l
      (exec ttl renews (execAll ttl renews (fun _ => none) es) e k) (some e) := by
  have htime : (renewals ttl renews k (fun _ => none) es).getLast? = some l.time := by
    rcases time_of_execAll h with hlast | ⟨-, hnone⟩
    · exact hlast
    · cases hnone
  cases e with
  | claim c =>
    by_cases hk : k = c.key
    · subst hk
      rw [exec_claim_self, h]
      refine ⟨?_, ?_, fun hnone => nomatch hnone⟩
      · rintro l' ⟨⟩
        exact leave_session c
      · rintro l' ⟨⟩ hne
        exact ⟨c, rfl, rfl, leave_addr hne⟩
    · rw [exec_claim_ne hk, h]
      refine ⟨?_, ?_, fun hnone => nomatch hnone⟩
      · rintro l' ⟨⟩
        rfl
      · -- A claim of another key leaves the lease, and its address, as they are.
        rintro l' ⟨⟩ hne
        exact absurd rfl hne
  | sweep now =>
    refine ⟨?_, ?_, ?_⟩
    · intro l' hl'
      obtain rfl : l = l' := Option.some.inj (h.symm.trans (exec_sweep_eq_some.mp hl').1)
      rfl
    · intro l' hl' hne
      obtain rfl : l = l' := Option.some.inj (h.symm.trans (exec_sweep_eq_some.mp hl').1)
      exact absurd rfl hne
    · intro hnone
      -- A lease that is not old enough stays, so this one was.
      refine ⟨now, l.time, rfl, htime, ?_⟩
      by_contra hyoung
      rw [exec_sweep_eq_some.mpr ⟨h, Int.not_lt.mp hyoung⟩] at hnone
      cases hnone

/-! ### Machines with a table -/

section
variable {S ε ι : Type u} {step : S → ι → Except ε S} {view : S → Leases κ σ α}
  {eventOf : ι → Option (LeaseEvent κ σ α)} {Inv : S → Prop}

/-- Each step of the machine is one event of its table, or none. -/
def Follows (step : S → ι → Except ε S) (Inv : S → Prop) (view : S → Leases κ σ α)
    (eventOf : ι → Option (LeaseEvent κ σ α)) (ttl : Int) (renews : Lease σ α → Claim κ σ α → Prop)
    [∀ l c, Decidable (renews l c)] : Prop :=
  ∀ s i s', Inv s → step s i = .ok s' →
    Inv s' ∧ view s' = (eventOf i).elim (view s) (exec ttl renews (view s))

/-- The table after a run has seen the events of the run. -/
theorem Follows.run (h : Follows step Inv view eventOf ttl renews) {s s' : S} (hs : Inv s)
    {is : List ι} (hrun : run step s is = .ok s') :
    Inv s' ∧ view s' = execAll ttl renews (view s) (is.filterMap eventOf) := by
  induction is generalizing s with
  | nil =>
    obtain rfl : s = s' := Except.ok.inj hrun
    exact ⟨hs, rfl⟩
  | cons i is ih =>
    obtain ⟨t, ht, hrest⟩ := bind_eq_ok hrun
    obtain ⟨hInv, hview⟩ := h s i t hs ht
    obtain ⟨hInv', hview'⟩ := ih hInv hrest
    refine ⟨hInv', ?_⟩
    rw [hview', hview]
    cases he : eventOf i with
    | none => rw [List.filterMap_cons_none he]; rfl
    | some e => rw [List.filterMap_cons_some he]; rfl

/-- Every step keeps what a lease is bound to, in the runs from the empty table. -/
theorem bound_of_run (h : Follows step Inv view eventOf ttl renews) {s₀ s s' : S} (hs₀ : Inv s₀)
    (hempty : view s₀ = fun _ => none) {is : List ι} {i : ι} (hrun : run step s₀ is = .ok s)
    (hstep : step s i = .ok s') {k : κ} {l : Lease σ α} (hl : view s k = some l) :
    Bound ttl (renewals ttl renews k (fun _ => none) (is.filterMap eventOf)) k l (view s' k)
      (eventOf i) := by
  obtain ⟨hInv, hview⟩ := h.run hs₀ hrun
  rw [hempty] at hview
  rw [(h s i s' hInv hstep).2]
  cases eventOf i with
  | none =>
    rw [Option.elim_none, hl]
    exact Bound.refl
  | some e =>
    rw [hview] at hl
    rw [Option.elim_some, hview]
    exact bound_exec hl e

end

end Libcage.Lib
