import Libcage.Dtun.Request
import Libcage.Lib.Index
import Libcage.Lib.Ledger
import Libcage.Lib.Run

/-!
# `Libcage.Proofs.Dtun.Requests`: the records of the requests of `dtun`

A record is in `m_request` until the callback function of its request is called. It then waits
for one thing: a lookup, or the reply under a timer (`RequestsInv`). `request_find_value` and
`timer_request` find the record by its nonce, and do not look whether it is there.

`recv_request_reply` does not read `finished_find_value`. A reply that is faster than the lookup
takes the record away, and the lookup ends on nothing (`early_reply_faults`). The runs without
such a reply (`Timely`) are those that keep the records (`requestsOk_iff_timely`).
-/

set_option autoImplicit false

namespace Libcage.Proofs.DtunRequest

open Libcage.Lib
open Libcage.Rdp (Id Table)
open Libcage.Dht (Saddr Cageaddr)
open Libcage.Dtun

/-! ### The records -/

/-- The request whose record is under a nonce. -/
def owner (s : Requests) (n : BitVec 32) : Option Nat :=
  (s.requests.lookup n).map RequestQuery.func

/-- The event is one of a request, and uses the record under this nonce. -/
def Uses (s : Requests) : Requests.Input → Nat → BitVec 32 → Prop
  | .lookupEnds nonce _ _, r, n => s.query.lookup nonce = some ⟨n, r⟩
  | .timerRequest func, r, n => r = func ∧ s.timers.lookup func = some n
  | _, _, _ => False

/-- No callback function has been called twice, a record is in `m_request` exactly if its
callback function has not been called, and an event that can come uses a record that is there. -/
structure RequestsOk (s : Requests) : Prop where
  once : (s.called.map Prod.fst).Nodup
  kept : ∀ r, r < s.made → ((∃ n, owner s n = some r) ↔ r ∉ s.called.map Prod.fst)
  used : ∀ i r n, Uses s i r n → owner s n = some r

/-- A reply that is taken does not come before the lookup of its request has ended. -/
def Timely (s : Requests) : Requests.Input → Prop
  | .requestReply reply _ =>
      ∀ q m fv, reply.dst = s.id → s.requests.lookup reply.nonce = some q → q.dst = reply.src →
        s.query.lookup m = some fv → fv.nonce ≠ reply.nonce
  | _ => True

/-! ### The invariant -/

/-- Every request has one record or has been called, and waits for one lookup or one timer. -/
structure RequestsInv (s : Requests) : Prop where
  lt : ∀ n r, owner s n = some r → r < s.made
  inj : ∀ n n' r, owner s n = some r → owner s n' = some r → n = n'
  called_lt : ∀ r, r ∈ s.called.map Prod.fst → r < s.made
  once : (s.called.map Prod.fst).Nodup
  kept : ∀ r, r < s.made → ((∃ n, owner s n = some r) ↔ r ∉ s.called.map Prod.fst)
  finds : ∀ m fv, s.query.lookup m = some fv →
    owner s fv.nonce = some fv.func ∧ s.timers.lookup fv.func = none
  single : ∀ m m' fv fv', s.query.lookup m = some fv → s.query.lookup m' = some fv' →
    fv.nonce = fv'.nonce → m = m'
  timers : ∀ r n, s.timers.lookup r = some n → owner s n = some r

/-- A request that waits for nothing. -/
structure Idle (s : Requests) (n : BitVec 32) (r : Nat) : Prop where
  own : owner s n = some r
  finds : ∀ m fv, s.query.lookup m = some fv → fv.nonce ≠ n
  timers : s.timers.lookup r = none

theorem RequestsInv.ok {s : Requests} (h : RequestsInv s) : RequestsOk s := by
  refine ⟨h.once, h.kept, ?_⟩
  intro i r n huses
  cases i with
  | setEnabled | request | requestReply => cases huses
  | lookupEnds nonce result start => exact (h.finds nonce ⟨n, r⟩ huses).1
  | timerRequest func =>
    obtain ⟨rfl, hrun⟩ := huses
    exact h.timers r n hrun

theorem RequestsInv.ledger {s : Requests} (h : RequestsInv s) :
    Ledger (owner s) s.made (s.called.map Prod.fst) :=
  ⟨h.lt, h.inj, h.called_lt, h.once, h.kept⟩

/-- The invariant from its two parts: the records, and what waits for them. -/
theorem RequestsInv.of_ledger {s : Requests} (h : Ledger (owner s) s.made (s.called.map Prod.fst))
    (hfinds : ∀ m fv, s.query.lookup m = some fv →
      owner s fv.nonce = some fv.func ∧ s.timers.lookup fv.func = none)
    (hsingle : ∀ m m' fv fv', s.query.lookup m = some fv → s.query.lookup m' = some fv' →
      fv.nonce = fv'.nonce → m = m')
    (htimers : ∀ r n, s.timers.lookup r = some n → owner s n = some r) : RequestsInv s where
  lt := h.lt
  inj := h.inj
  called_lt := h.called_lt
  once := h.once
  kept := h.kept
  finds := hfinds
  single := hsingle
  timers := htimers

theorem requestsInv_init (id : Id) (isEnabled : Bool) : RequestsInv (.init id isEnabled) := by
  constructor <;> intros <;> first | contradiction | exact List.nodup_nil

/-! ### The operations -/

section
variable {s : Requests} {n : BitVec 32} {r : Nat} {q : RequestQuery} {fv : RequestFindValue}

theorem owner_of_lookup (h : s.requests.lookup n = some q) : owner s n = some q.func := by
  rw [owner, h]
  rfl

/-- A record changes, and stays that of its request. -/
theorem owner_insert (hown : owner s n = some q.func) :
    owner { s with requests := s.requests.insert n q } = owner s := by
  calc owner { s with requests := s.requests.insert n q }
      = Function.update (owner s) n (some q.func) := map_lookup_insert ..
    _ = owner s := by rw [← hown, Function.update_eq_self]

theorem RequestsInv.setRecord (h : RequestsInv s) (hown : owner s n = some q.func) :
    RequestsInv { s with requests := s.requests.insert n q } := by
  constructor <;> simp only [owner_insert hown]
  · exact h.lt
  · exact h.inj
  · exact h.called_lt
  · exact h.once
  · exact h.kept
  · exact h.finds
  · exact h.single
  · exact h.timers

theorem Idle.setRecord (h : Idle s n q.func) :
    Idle { s with requests := s.requests.insert n q } n q.func :=
  ⟨(congrFun (owner_insert h.own) n).trans h.own, h.finds, h.timers⟩

theorem owner_finish {addr : Option Cageaddr} :
    owner (s.finish n q addr) = Function.update (owner s) n none :=
  map_lookup_erase ..

theorem owner_finish_of_ne {addr : Option Cageaddr} {m : BitVec 32} (hm : m ≠ n) :
    owner (s.finish n q addr) m = owner s m := by
  rw [owner_finish, Function.update_of_ne hm]

theorem called_finish (addr : Option Cageaddr) :
    (s.finish n q addr).called.map Prod.fst = s.called.map Prod.fst ++ [q.func] := by
  simp [Requests.finish]

/-- The record of a request that waits for nothing is taken out, and its callback function is
called. -/
theorem RequestsInv.finish (h : RequestsInv s) (hidle : Idle s n q.func) (addr : Option Cageaddr) :
    RequestsInv (s.finish n q addr) := by
  refine .of_ledger ?_ ?_ h.single ?_
  · rw [owner_finish, called_finish]
    exact h.ledger.finish hidle.own
  · intro m fv hm
    obtain ⟨hown, htimer⟩ := h.finds m fv hm
    rw [owner_finish_of_ne (hidle.finds m fv hm)]
    exact ⟨hown, htimer⟩
  · intro r m hm
    have hown := h.timers r m hm
    -- The request under `n` has no timer.
    have hne : m ≠ n := by
      rintro rfl
      rw [Option.some.inj (hown.symm.trans hidle.own)] at hm
      exact nomatch hm.symm.trans hidle.timers
    rw [owner_finish_of_ne hne]
    exact hown

/-- A lookup starts. -/
theorem RequestsInv.startQuery (h : RequestsInv s) (hidle : Idle s fv.nonce fv.func)
    {m : BitVec 32} (hm : s.query.lookup m = none) :
    RequestsInv { s with query := s.query.insert m fv } := by
  refine { h with finds := ?_, single := ?_ }
  · intro k fv' hk
    rcases lookup_insert_eq_some.mp hk with ⟨-, rfl⟩ | ⟨-, hk⟩
    · exact ⟨hidle.own, hidle.timers⟩
    · exact h.finds k fv' hk
  · intro k k' fv₁ fv₂ hk hk' hnonce
    rcases lookup_insert_eq_some.mp hk with ⟨rfl, rfl⟩ | ⟨-, hold⟩ <;>
      rcases lookup_insert_eq_some.mp hk' with ⟨rfl, rfl⟩ | ⟨-, hold'⟩
    · rfl
    · exact absurd hnonce.symm (hidle.finds k' fv₂ hold')
    · exact absurd hnonce (hidle.finds k fv₁ hold)
    · exact h.single k k' fv₁ fv₂ hold hold' hnonce

/-- A lookup ends, and its request waits for nothing. -/
theorem RequestsInv.endQuery (h : RequestsInv s) {m : BitVec 32} (hm : s.query.lookup m = some fv) :
    RequestsInv { s with query := s.query.erase m } ∧
      Idle { s with query := s.query.erase m } fv.nonce fv.func := by
  have hkeep : ∀ k fv', (s.query.erase m).lookup k = some fv' →
      k ≠ m ∧ s.query.lookup k = some fv' := fun k fv' hk => lookup_erase_eq_some.mp hk
  obtain ⟨hown, htimer⟩ := h.finds m fv hm
  constructor
  · refine { h with finds := ?_, single := ?_ }
    · intro k fv' hk
      exact h.finds k fv' (hkeep k fv' hk).2
    · intro k k' fv₁ fv₂ hk hk' hnonce
      exact h.single k k' fv₁ fv₂ (hkeep k fv₁ hk).2 (hkeep k' fv₂ hk').2 hnonce
  · refine ⟨hown, ?_, htimer⟩
    intro k fv' hk hnonce
    obtain ⟨hkm, hold⟩ := hkeep k fv' hk
    exact hkm (h.single k m fv' fv hold hm hnonce)

/-- The timer of a request that waits for nothing starts. -/
theorem RequestsInv.startTimer (h : RequestsInv s) (hidle : Idle s n r) :
    RequestsInv { s with timers := s.timers.insert r n } := by
  refine { h with finds := ?_, timers := ?_ }
  · intro m fv hm
    obtain ⟨hown, htimer⟩ := h.finds m fv hm
    refine ⟨hown, ?_⟩
    -- The lookups that run are those of other requests.
    have hr : fv.func ≠ r := by
      intro hr
      rw [hr] at hown
      exact hidle.finds m fv hm (h.inj _ _ _ hown hidle.own)
    exact (AList.lookup_insert_ne hr).trans htimer
  · intro r' m hm
    rcases lookup_insert_eq_some.mp hm with ⟨rfl, rfl⟩ | ⟨-, hm⟩
    · exact hidle.own
    · exact h.timers r' m hm

/-- A timer stops, and its request waits for nothing. -/
theorem RequestsInv.stopTimer (h : RequestsInv s) (hown : owner s n = some r)
    (hfinds : ∀ m fv, s.query.lookup m = some fv → fv.nonce ≠ n) :
    RequestsInv { s with timers := s.timers.erase r } ∧
      Idle { s with timers := s.timers.erase r } n r := by
  constructor
  · refine { h with finds := ?_, timers := ?_ }
    · intro m fv hm
      obtain ⟨hown, htimer⟩ := h.finds m fv hm
      refine ⟨hown, ?_⟩
      by_cases hr : fv.func = r
      · rw [hr]
        exact AList.lookup_erase ..
      · exact (AList.lookup_erase_ne hr).trans htimer
    · intro r' m hm
      exact h.timers r' m (lookup_erase_eq_some.mp hm).2
  · exact ⟨hown, hfinds, AList.lookup_erase ..⟩

/-- The node with the record of one more request. -/
def withRecord (s : Requests) (n : BitVec 32) (q : RequestQuery) : Requests :=
  { s with requests := s.requests.insert n q, made := s.made + 1 }

theorem owner_withRecord :
    owner (withRecord s n q) = Function.update (owner s) n (some q.func) :=
  map_lookup_insert ..

/-- The request that comes next has no timer. -/
theorem RequestsInv.timers_made (h : RequestsInv s) : s.timers.lookup s.made = none := by
  cases hrun : s.timers.lookup s.made with
  | none => rfl
  | some m => exact absurd (h.lt m _ (h.timers _ m hrun)) (Nat.lt_irrefl _)

/-- A request gets a record, and waits for nothing yet. -/
theorem RequestsInv.make (h : RequestsInv s) (hn : s.requests.lookup n = none)
    (hq : q.func = s.made) : RequestsInv (withRecord s n q) ∧ Idle (withRecord s n q) n s.made := by
  have hnone : owner s n = none := by simp [owner, hn]
  have howner : owner (withRecord s n q) = Function.update (owner s) n (some s.made) := by
    rw [owner_withRecord, hq]
  have hother : ∀ m r, owner s m = some r → m ≠ n := by
    rintro m r hm rfl
    exact nomatch hm.symm.trans hnone
  -- The other records stay.
  have hkeep : ∀ m r, owner s m = some r → owner (withRecord s n q) m = some r := by
    intro m r hm
    rw [howner, Function.update_of_ne (hother m r hm)]
    exact hm
  constructor
  · refine .of_ledger ?_ ?_ h.single ?_
    · rw [howner]
      exact h.ledger.make hnone
    · intro m fv hm
      obtain ⟨hown, hrun⟩ := h.finds m fv hm
      exact ⟨hkeep _ _ hown, hrun⟩
    · intro r m hm
      exact hkeep m r (h.timers r m hm)
  · refine ⟨?_, ?_, h.timers_made⟩
    · rw [howner, Function.update_self]
    · intro m fv hm
      exact hother _ _ (h.finds m fv hm).1

/-! ### The events -/

theorem RequestsInv.findValue (h : RequestsInv s) (hidle : Idle s fv.nonce fv.func) (dst : Id)
    {start : FindStart} (hstart : s.query.lookup start.nonce = none) {failed : Requests → Requests}
    (hfailed : RequestsInv (failed s)) : RequestsInv (s.findValue dst fv start failed) := by
  rw [Requests.findValue]
  split
  · exact h
  · split
    · exact hfailed
    · exact h.startQuery hidle hstart

/-- A lookup that has failed is started again until no tries are left. -/
theorem RequestsInv.lookupFailed {start : FindStart} (retry : Nat) (h : RequestsInv s)
    (hidle : Idle s fv.nonce fv.func) (hq : q.func = fv.func)
    (hstart : s.query.lookup start.nonce = none) :
    RequestsInv (Requests.lookupFailed fv q start retry s) := by
  -- By the tries that are left. Each changes the record, and the request waits for nothing in
  -- between.
  induction retry generalizing s q with
  | zero => exact h.finish (hq ▸ hidle) none
  | succ retry ih =>
    rw [Requests.lookupFailed]
    have hown : owner s fv.nonce = some ({ q with retry } : RequestQuery).func := hq ▸ hidle.own
    have hinv := h.setRecord hown
    have hidle' := Idle.setRecord (q := { q with retry }) (hq ▸ hidle)
    dsimp only
    split
    · exact hinv.findValue (hq ▸ hidle') _ hstart (ih hinv (hq ▸ hidle') hq hstart)
    · exact hinv.finish hidle' none

theorem RequestsInv.request (h : RequestsInv s) (hn : s.requests.lookup n = none) (dst : Id)
    {start : FindStart} (hstart : s.query.lookup start.nonce = none) :
    RequestsInv (s.request dst n start) := by
  obtain ⟨hinv, hidle⟩ := h.make (q := ⟨s.made, dst, false, requestRetry⟩) hn rfl
  exact hinv.findValue hidle dst hstart (hinv.lookupFailed _ hidle rfl hstart)

theorem RequestsInv.lookupEnds (h : RequestsInv s) {m : BitVec 32}
    (hm : s.query.lookup m = some fv) {start : FindStart}
    (hstart : s.query.lookup start.nonce = none) (result : Option (Cageaddr × Cageaddr)) :
    ∃ s', s.lookupEnds m fv start result = .ok s' ∧ RequestsInv s' := by
  obtain ⟨hinv, hidle⟩ := h.endQuery hm
  have hstart' : (s.query.erase m).lookup start.nonce = none := by
    by_cases hsame : start.nonce = m
    · rw [hsame, AList.lookup_erase]
    · rw [AList.lookup_erase_ne hsame, hstart]
  obtain ⟨q, hq, hfunc⟩ := Option.map_eq_some_iff.mp hidle.own
  have hlookup : s.requests.lookup fv.nonce = some q := hq
  rw [Requests.lookupEnds, Requests.requestFindValue]
  simp only [hlookup]
  -- The lookup starts again, or the timer of the request starts.
  cases result with
  | none => exact ⟨_, rfl, hinv.lookupFailed _ hidle hfunc hstart'⟩
  | some result =>
    refine ⟨_, rfl, ?_⟩
    have hown : owner { s with query := s.query.erase m } fv.nonce =
        some ({ q with finishedFindValue := true } : RequestQuery).func := hfunc ▸ hidle.own
    have hrecord := hinv.setRecord hown
    have hidle' := Idle.setRecord (q := { q with finishedFindValue := true }) (hfunc ▸ hidle)
    have htimer := hrecord.startTimer hidle'
    exact { htimer with }

theorem RequestsInv.timerRequest (h : RequestsInv s) (hrun : s.timers.lookup r = some n) :
    ∃ s', s.timerRequest r n = .ok s' ∧ RequestsInv s' := by
  have hown := h.timers r n hrun
  -- A request with a timer has no lookup.
  have hfinds : ∀ m fv, s.query.lookup m = some fv → fv.nonce ≠ n := by
    rintro m fv hm rfl
    obtain ⟨hown', htimer⟩ := h.finds m fv hm
    rw [Option.some.inj (hown'.symm.trans hown)] at htimer
    exact nomatch htimer.symm.trans hrun
  obtain ⟨hinv, hidle⟩ := h.stopTimer hown hfinds
  obtain ⟨q, hq, rfl⟩ := Option.map_eq_some_iff.mp hown
  refine ⟨_, ?_, hinv.finish hidle none⟩
  simp [Requests.timerRequest, hq]

theorem RequestsInv.recvRequestReply (h : RequestsInv s) (reply : RequestReply) (saddr : Saddr)
    (hok : Timely s (.requestReply reply saddr)) :
    RequestsInv (s.recvRequestReply reply saddr) := by
  rw [Requests.recvRequestReply]
  split
  · exact h
  · rename_i hdst
    split
    · exact h
    · rename_i q hq
      split
      · exact h
      · rename_i hsrc
        obtain ⟨hinv, hidle⟩ := h.stopTimer (owner_of_lookup hq) fun m fv =>
          hok q m fv (not_not.mp hdst) hq (not_not.mp hsrc)
        exact hinv.finish hidle _

/-- One event that is not an early reply. -/
theorem RequestsInv.step (h : RequestsInv s) {i : Requests.Input} (hok : Timely s i) :
    ∃ s', s.step i = .ok s' ∧ RequestsInv s' := by
  cases i with
  | setEnabled isEnabled => exact ⟨_, rfl, { h with }⟩
  | request dst nonce start =>
    rw [Requests.step]
    split
    · rename_i hnew
      exact ⟨_, rfl, h.request hnew.1 dst hnew.2⟩
    · exact ⟨s, rfl, h⟩
  | lookupEnds nonce result start =>
    rw [Requests.step]
    cases hm : s.query.lookup nonce with
    | none => exact ⟨s, rfl, h⟩
    | some fv =>
      dsimp only
      split
      · rename_i hstart
        exact h.lookupEnds hm hstart result
      · exact ⟨s, rfl, h⟩
  -- `hok` says that a reply comes before its request is given up.
  | requestReply reply saddr => exact ⟨_, rfl, h.recvRequestReply reply saddr hok⟩
  | timerRequest func =>
    rw [Requests.step]
    cases hrun : s.timers.lookup func with
    | none => exact ⟨s, rfl, h⟩
    | some nonce => exact h.timerRequest hrun

/-- An early reply takes the record away, and the lookup goes on. -/
theorem step_breaks {s' : Requests} {i : Requests.Input} (hnot : ¬ Timely s i)
    (hstep : s.step i = .ok s') : ¬ RequestsOk s' := by
  cases i with
  | setEnabled | request | lookupEnds | timerRequest => exact absurd trivial hnot
  | requestReply reply saddr =>
    simp only [Timely, not_forall, not_not] at hnot
    obtain ⟨q, m, fv, hdst, hq, hsrc, hm, hnonce⟩ := hnot
    obtain rfl := Except.ok.inj hstep
    rw [Requests.recvRequestReply]
    simp only [hdst, hq, hsrc, ne_eq, not_true, if_false]
    intro hbad
    -- The lookup can end next, and its record is not there.
    have hown := hbad.used (.lookupEnds m none ⟨[], 0⟩) fv.func fv.nonce hm
    rw [hnonce, owner_finish, Function.update_self] at hown
    exact nomatch hown

end

/-- In all orders of events, the records are kept, and nothing uses one that is gone, exactly
where no reply is taken before the lookup of its request has ended. -/
theorem requestsOk_iff_timely (id : Id) (isEnabled : Bool) (is : List Requests.Input) :
    Always Requests.step RequestsOk (.init id isEnabled) is ↔
      Allowed Requests.step Timely (.init id isEnabled) is := by
  refine always_iff_allowed RequestsInv ?_ ?_ ?_ (requestsInv_init id isEnabled) is
  · intro s h
    exact h.ok
  · intro s i h hok
    exact h.step hok
  · intro s i s' _ hnot hstep
    exact step_breaks hnot hstep

/-- The node 5 is asked for, and it answers before the lookup has found a node that knows it. The
lookup then has no record. -/
theorem early_reply_faults : ¬ Always Requests.step RequestsOk (.init 1 true)
    [.request 5 7 ⟨[⟨2, .inet 9 2⟩, ⟨3, .inet 9 3⟩], 11⟩, .requestReply ⟨5, 1, 7⟩ (.inet 9 5),
      .lookupEnds 11 (some (⟨5, .inet 9 5⟩, ⟨2, .inet 9 2⟩)) ⟨[], 12⟩] := by
  intro h
  obtain ⟨s', hrun, -⟩ := h.ends
  have hfault : run Requests.step (.init 1 true)
      [.request 5 7 ⟨[⟨2, .inet 9 2⟩, ⟨3, .inet 9 3⟩], 11⟩, .requestReply ⟨5, 1, 7⟩ (.inet 9 5),
        .lookupEnds 11 (some (⟨5, .inet 9 5⟩, ⟨2, .inet 9 2⟩)) ⟨[], 12⟩] = .error .nullRecord := rfl
  exact nomatch hfault.symm.trans hrun

end Libcage.Proofs.DtunRequest
