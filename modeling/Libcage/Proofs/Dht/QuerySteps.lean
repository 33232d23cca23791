import Libcage.Proofs.Dht.QueryHandlers

/-!
# `Libcage.Proofs.Dht.QuerySteps`: the sweep and one event

`Only` is the frame of the operations on one query. With it a round of the sweep says
nothing about the other queries, so a sweep keeps what its rounds keep (`sweepRdp_ends`).

`wired_step` is the step lemma: an event that does not make a query for nodes open a
connection keeps `Wired` or is one of those that stop the program (`Crashes`).
`took_of_step` says which handler an event ran, with the guards it passed, and
`readsData_of_recvData` what a reply does to the query it is for. `named_step` is the
step lemma for what depends on the frame alone.
-/

set_option autoImplicit false

namespace Libcage.Proofs.Dht

open Libcage.Lib
open Libcage.Dht
open Libcage.Rdp (Id Table)

section
variable {s : Queries} {r r' : Nat} {q : Query}

/-! ### The sweep -/

/-- What an operation on one query leaves as it is. -/
structure Only (r : Nat) (s s' : Queries) : Prop where
  id : s'.id = s.id
  isUseRdp : s'.isUseRdp = s.isUseRdp
  size : s'.size = s.size
  obj : ∀ r', r' ≠ r → s'.obj r' = s.obj r'
  nonce : (s'.obj r).nonce = (s.obj r).nonce
  query : ∀ n r', s'.query.lookup n = some r' → s.query.lookup n = some r'
  other : ∀ n, n ≠ (s.obj r).nonce → s'.query.lookup n = s.query.lookup n

theorem Only.refl (r : Nat) (s : Queries) : Only r s s :=
  ⟨rfl, rfl, rfl, fun _ _ => rfl, rfl, fun _ _ h => h, fun _ _ => rfl⟩

theorem Only.trans {s' s'' : Queries} (h : Only r s s') (h' : Only r s' s'') : Only r s s'' where
  id := h'.id.trans h.id
  isUseRdp := h'.isUseRdp.trans h.isUseRdp
  size := h'.size.trans h.size
  obj r' hr := (h'.obj r' hr).trans (h.obj r' hr)
  nonce := h'.nonce.trans h.nonce
  query n r' hn := h.query n r' (h'.query n r' hn)
  other n hn := (h'.other n (h.nonce ▸ hn)).trans (h.other n hn)

/-- The operation may have taken the query out of `m_query`, and put nothing in. -/
theorem Only.live {s' : Queries} (h : Only r s s') (hlive : Live s' r') : Live s r' := by
  have hnonce : (s'.obj r').nonce = (s.obj r').nonce := by
    by_cases hr : r' = r
    · rw [hr, h.nonce]
    · rw [h.obj r' hr]
  unfold Live at hlive ⊢
  rw [hnonce] at hlive
  exact h.query _ _ hlive

theorem only_setQuery (hnonce : q.nonce = (s.obj r).nonce) : Only r s (s.setQuery r q) :=
  ⟨rfl, rfl, rfl, fun _ hr => setQuery_other q hr, by rw [setQuery_self, hnonce], fun _ _ h => h,
    fun _ _ => rfl⟩

theorem only_removeQuery (s : Queries) (r : Nat) : Only r s (s.removeQuery r) := by
  have hset := only_setQuery (s := s) (r := r)
    (q := { s.obj r with timers := ∅, timerRecvd := false }) rfl
  refine ⟨rfl, rfl, rfl, hset.obj, hset.nonce, ?_, ?_⟩
  · intro n r' hn
    unfold Queries.removeQuery at hn
    dsimp only at hn
    exact (lookup_erase_eq_some.mp hn).2
  · intro n hn
    exact AList.lookup_erase_ne hn

theorem only_call (s : Queries) (r : Nat) (c : Called) : Only r s (s.call r c) :=
  ⟨rfl, rfl, rfl, fun _ _ => rfl, rfl, fun _ _ h => h, fun _ _ => rfl⟩

theorem only_close (s : Queries) (r : Nat) (desc : Int) : Only r s (s.close desc) :=
  ⟨rfl, rfl, rfl, fun _ _ => rfl, rfl, fun _ _ h => h, fun _ _ => rfl⟩

theorem only_connect (s : Queries) (r : Nat) (sport : BitVec 16) (did : Id) (dport : BitVec 16)
    (desc : Int) : Only r s (s.connect r sport did dport desc) := by
  unfold Queries.connect
  have hset := only_setQuery (s := s) (r := r)
    (q := { s.obj r with
      rdpDesc := if 0 < desc ∧ s.conns.lookup desc = none then desc else -1 }) rfl
  exact ⟨rfl, rfl, rfl, hset.obj, hset.nonce, fun _ _ h => h, fun _ _ => rfl⟩

theorem only_sendFind (s : Queries) (r : Nat) : Only r s (s.sendFind r) := by
  have hset := only_setQuery (s := s) (r := r)
    (sendFindLoop_same (s.obj r).nodes (s.obj r)).nonce
  rcases sendFind_cases s r with ⟨hs, -⟩ | ⟨q, rfl, -, ⟨-, hs⟩ | ⟨-, hs⟩⟩
  · rw [hs]
    exact Only.refl r s
  · rw [hs]
    exact hset
  · rw [hs]
    exact (hset.trans (only_call _ r _)).trans (only_removeQuery _ r)

theorem only_recvdValue {s' : Queries} (hs : s.recvdValue r = .ok s') : Only r s s' := by
  unfold Queries.recvdValue at hs
  dsimp only at hs
  split at hs
  · rw [← Except.ok.inj hs]
    exact (only_call s r _).trans (only_removeQuery _ r)
  · cases hs

theorem only_retry (s : Queries) (now : Int) (r : Nat) (desc : Int) :
    Only r s (s.retry now r desc) := by
  unfold Queries.retry
  dsimp only
  split
  · exact (only_setQuery (q := { s.obj r with ids := _, rdpTime := now }) rfl).trans
      (only_connect _ r _ _ _ _)
  · exact (only_setQuery (q := { s.obj r with isRdpCon := false }) rfl).trans (only_sendFind _ r)

/-- The sweep takes this query out of `m_query` while it stands on its entry. -/
def Erases (now : Int) (q : Query) : Prop :=
  Queries.Silent now q ∧ q.get.vset = ∅ ∧ q.ids = [] ∧ Exhausted q

instance (now : Int) (q : Query) : Decidable (Erases now q) := by
  unfold Erases
  infer_instance

/-- A query without connection has nobody left to ask and is taken out. -/
theorem lookup_sendFind (hlive : Live s r) (hcon : (s.obj r).isRdpCon = false)
    (hcount : 0 ≤ (s.obj r).numQuery) :
    (s.sendFind r).query.lookup (s.obj r).nonce = if Exhausted (s.obj r) then none else some r := by
  have hloop := sendFindLoop_zero (s.obj r).nodes (s.obj r) hcount
  have hnonce := (sendFindLoop_same (s.obj r).nodes (s.obj r)).nonce
  rcases sendFind_cases s r with ⟨-, -, -, hwait⟩ | ⟨q, rfl, -, ⟨hzero, hs⟩ | ⟨hzero, hs⟩⟩
  · rw [hcon] at hwait
    cases hwait
  · have hno : ¬ Exhausted (s.obj r) := fun h => hzero (hloop.mpr h)
    rw [hs, if_neg hno]
    exact hlive
  · have hyes : Exhausted (s.obj r) := hloop.mp hzero
    rw [hs, if_pos hyes]
    simp [Queries.removeQuery, Queries.call, hnonce]

/-- A query that is retried stays in `m_query`, unless it has nobody left to ask. -/
theorem lookup_retry (hlive : Live s r) (hcount : 0 ≤ (s.obj r).numQuery) (now desc : Int) :
    (s.retry now r desc).query.lookup (s.obj r).nonce =
      if (s.obj r).ids = [] ∧ Exhausted (s.obj r) then none else some r := by
  unfold Queries.retry
  dsimp only
  split
  · rename_i hids
    rw [if_neg fun h => absurd (hids.symm.trans h.1) (by simp)]
    exact hlive
  · rename_i hids
    let q : Query := { s.obj r with isRdpCon := false }
    have hlive' : Live (s.setQuery r q) r := (live_setQuery (q := q) rfl).mpr hlive
    have hlookup := lookup_sendFind hlive' (by simp [q]) (by simpa [q] using hcount)
    rw [setQuery_self] at hlookup
    simpa [q, Exhausted, hids] using hlookup

/-- One round of the sweep stops where it erases its own entry, and goes on otherwise. -/
theorem Wired.sweepOne (h : Wired s) (now : Int) (nonce : BitVec 32) (desc : Int) :
    (∃ r, s.query.lookup nonce = some r ∧ Erases now (s.obj r)) ∧
        s.sweepOne now nonce desc = .error .useAfterErase ∨
      (∀ r, s.query.lookup nonce = some r → ¬ Erases now (s.obj r)) ∧
        ∃ s', s.sweepOne now nonce desc = .ok s' ∧ Wired s' := by
  unfold Queries.sweepOne
  split
  · rename_i hnone
    refine Or.inr ⟨?_, s, rfl, h⟩
    intro r hr
    rw [hnone] at hr
    cases hr
  · rename_i r hr
    have hlive := h.live_of_lookup hr
    have hok := h.query r hlive
    have hnonce : (s.obj r).nonce = nonce := (h.live nonce r hr).2
    -- It is about this query alone.
    have hiff : (∀ r', s.query.lookup nonce = some r' → ¬ Erases now (s.obj r')) ↔
        ¬ Erases now (s.obj r) := by
      rw [hr]
      simp
    rw [hiff]
    dsimp only
    by_cases hsilent : Queries.Silent now (s.obj r)
    · rw [if_pos hsilent]
      have hno := h.noConn_close (r := r) rfl
      have hclosed := h.close (s.obj r).rdpDesc
      by_cases hvset : ((s.close (s.obj r).rdpDesc).obj r).get.vset ≠ ∅
      · -- The values that have come are reported.
        rw [if_pos hvset]
        obtain ⟨s', hs', hwired⟩ := hclosed.report hlive (hok.rdp hsilent.1).2 hno hvset
        exact Or.inr ⟨fun herases => hvset herases.2.1, s', hs', hwired⟩
      · rw [if_neg hvset]
        have hlookup := lookup_retry (s := s.close (s.obj r).rdpDesc) hlive
          (Int.le_trans (Int.natCast_nonneg _) hok.count) now desc
        have hretry := hclosed.retry hlive hsilent.1 hno now desc
        by_cases herases : (s.obj r).ids = [] ∧ Exhausted (s.obj r)
        · have hgone :
              ((s.close (s.obj r).rdpDesc).retry now r desc).query.lookup nonce = none := by
            rw [← hnonce]
            exact hlookup.trans (if_pos herases)
          rw [if_pos hgone]
          exact Or.inl ⟨⟨r, hr, hsilent, not_not.mp hvset, herases⟩, rfl⟩
        · have hstays :
              ((s.close (s.obj r).rdpDesc).retry now r desc).query.lookup nonce ≠ none := by
            rw [← hnonce]
            have hsome := hlookup.trans (if_neg herases)
            intro hnone
            exact absurd (hsome.symm.trans hnone) (by simp)
          rw [if_neg hstays]
          exact Or.inr ⟨fun hbad => herases hbad.2.2, _, rfl, hretry⟩
    · rw [if_neg hsilent]
      exact Or.inr ⟨fun hbad => hsilent hbad.1, s, rfl, h⟩

/-- The entries of `m_query` are under the nonces of their queries. -/
def Named (s : Queries) : Prop :=
  ∀ n r, s.query.lookup n = some r → r < s.size ∧ (s.obj r).nonce = n

theorem Only.named {s' : Queries} (h : Only r s s') (hnamed : Named s) : Named s' := by
  intro n r' hn
  obtain ⟨hlt, hnonce⟩ := hnamed n r' (h.query n r' hn)
  rw [h.size]
  refine ⟨hlt, ?_⟩
  by_cases hr : r' = r
  · rw [hr, h.nonce, ← hr, hnonce]
  · rw [h.obj r' hr, hnonce]

/-- A round is about the query of its entry. -/
theorem sweepOne_only {s' : Queries} {now : Int} {nonce : BitVec 32} {desc : Int}
    (hs : s.sweepOne now nonce desc = .ok s') :
    s' = s ∨ ∃ r, s.query.lookup nonce = some r ∧ Only r s s' := by
  unfold Queries.sweepOne at hs
  split at hs
  · exact Or.inl (Except.ok.inj hs).symm
  · rename_i r hr
    dsimp only at hs
    split at hs
    · refine Or.inr ⟨r, hr, (only_close s r (s.obj r).rdpDesc).trans ?_⟩
      split at hs
      · exact only_recvdValue hs
      · split at hs
        · cases hs
        · rw [← Except.ok.inj hs]
          exact only_retry _ now r desc
    · exact Or.inl (Except.ok.inj hs).symm

/-- A round changes nothing for the other entries. -/
theorem round_other {s' : Queries} {nonce n : BitVec 32} {B : Query → Prop} (h : Named s)
    (hne : n ≠ nonce)
    (honly : s' = s ∨ ∃ r, s.query.lookup nonce = some r ∧ Only r s s') :
    (∃ r, s'.query.lookup n = some r ∧ B (s'.obj r)) ↔
      ∃ r, s.query.lookup n = some r ∧ B (s.obj r) := by
  rcases honly with rfl | ⟨r, hr, honly⟩
  · exact Iff.rfl
  · have hlookup : s'.query.lookup n = s.query.lookup n := by
      apply honly.other
      rw [(h nonce r hr).2]
      exact hne
    have hobj : ∀ r', s.query.lookup n = some r' → s'.obj r' = s.obj r' := by
      intro r' hr'
      apply honly.obj
      rintro rfl
      exact hne ((h n _ hr').2.symm.trans (h nonce _ hr).2)
    rw [hlookup]
    constructor
    · rintro ⟨r', hr', hbad⟩
      rw [hobj r' hr'] at hbad
      exact ⟨r', hr', hbad⟩
    · rintro ⟨r', hr', hbad⟩
      rw [← hobj r' hr'] at hbad
      exact ⟨r', hr', hbad⟩

/-- The loop of the sweep keeps what a round keeps, where no query is in `B` at its start. -/
theorem sweepLoop_ends {J : Queries → Prop} {F : QueryFault → Prop} {B : Query → Prop}
    {now : Int} {desc : BitVec 32 → Int}
    (hround : ∀ s n r, Named s → J s → s.query.lookup n = some r → ¬ B (s.obj r) →
      Ends J F (s.sweepOne now n (desc n)))
    (h : Named s) (hJ : J s) {nonces : List (BitVec 32)} (hnodup : nonces.Nodup)
    (hnone : ∀ n ∈ nonces, ¬ ∃ r, s.query.lookup n = some r ∧ B (s.obj r)) :
    Ends J F (Queries.sweepLoop now desc nonces s) := by
  induction nonces generalizing s with
  | nil => exact Ends.ok hJ
  | cons nonce nonces ih =>
    obtain ⟨hnot, hnodup⟩ := List.nodup_cons.mp hnodup
    rw [Queries.sweepLoop]
    -- A query that an earlier round took out is passed over.
    have hends : Ends J F (s.sweepOne now nonce (desc nonce)) := by
      cases hr : s.query.lookup nonce with
      | none =>
        unfold Queries.sweepOne
        rw [hr]
        exact Ends.ok hJ
      | some r =>
        exact hround s nonce r h hJ hr fun hbad => hnone nonce (List.mem_cons_self ..) ⟨r, hr, hbad⟩
    cases hs : s.sweepOne now nonce (desc nonce) with
    | error e =>
      rw [error_bind]
      exact Ends.error (hends.of_error hs)
    | ok s' =>
      have honly := sweepOne_only hs
      have hnamed : Named s' := by
        rcases honly with rfl | ⟨r, -, honly⟩
        · exact h
        · exact honly.named h
      rw [ok_bind]
      -- The rounds before touched no query whose nonce is still to come.
      refine ih hnamed (hends.of_ok hs) hnodup fun n hn hbad => ?_
      have hne : n ≠ nonce := fun heq => hnot (heq ▸ hn)
      exact hnone n (List.mem_cons_of_mem _ hn) ((round_other h hne honly).mp hbad)

theorem nodup_nonces (s : Queries) :
    (s.query.keys.mergeSort fun a b => decide (a ≤ b)).Nodup :=
  (List.mergeSort_perm _ _).nodup_iff.mpr s.query.nodupKeys

/-- The sweep keeps what a round keeps, where no query in `m_query` is in `B`. -/
theorem sweepRdp_ends {J : Queries → Prop} {F : QueryFault → Prop} {B : Query → Prop}
    (now : Int) (desc : BitVec 32 → Int)
    (hround : ∀ s n r, Named s → J s → s.query.lookup n = some r → ¬ B (s.obj r) →
      Ends J F (s.sweepOne now n (desc n)))
    (h : Named s) (hJ : J s) (hnone : ∀ r, Live s r → ¬ B (s.obj r)) :
    Ends J F (s.sweepRdp now desc) := by
  refine sweepLoop_ends hround h hJ (nodup_nonces s) ?_
  rintro n - ⟨r, hr, hbad⟩
  refine hnone r ?_ hbad
  rw [Live, (h n r hr).2]
  exact hr

/-- The sweep takes the entry of a query from under itself. -/
def SweepErases (s : Queries) (now : Int) : Prop := ∃ r, Live s r ∧ Erases now (s.obj r)

theorem Wired.sweepLoop_error (h : Wired s) {now : Int} (desc : BitVec 32 → Int)
    {nonces : List (BitVec 32)} (hnodup : nonces.Nodup)
    (hsome : ∃ n ∈ nonces, ∃ r, s.query.lookup n = some r ∧ Erases now (s.obj r)) :
    Queries.sweepLoop now desc nonces s = .error .useAfterErase := by
  induction nonces generalizing s with
  | nil =>
    obtain ⟨n, hn, -⟩ := hsome
    cases hn
  | cons nonce nonces ih =>
    obtain ⟨hnot, hnodup⟩ := List.nodup_cons.mp hnodup
    rw [Queries.sweepLoop]
    rcases h.sweepOne now nonce (desc nonce) with ⟨-, hs'⟩ | ⟨hnone, s', hs', hwired⟩
    · rw [hs', error_bind]
    · obtain ⟨n, hn, r, hr, herases⟩ := hsome
      rcases List.mem_cons.mp hn with rfl | hn
      · exact absurd herases (hnone r hr)
      · have hne : n ≠ nonce := fun heq => hnot (heq ▸ hn)
        have hother := round_other (B := Erases now) h.live hne (sweepOne_only hs')
        rw [hs', ok_bind]
        exact ih hwired hnodup ⟨n, hn, hother.mpr ⟨r, hr, herases⟩⟩

theorem Wired.sweepRdp_error (h : Wired s) {now : Int} (desc : BitVec 32 → Int)
    (herases : SweepErases s now) : s.sweepRdp now desc = .error .useAfterErase := by
  obtain ⟨r, hlive, herases⟩ := herases
  apply h.sweepLoop_error desc (nodup_nonces s)
  refine ⟨(s.obj r).nonce, ?_, r, hlive, herases⟩
  have hkey : (s.obj r).nonce ∈ s.query := by
    rw [← AList.lookup_isSome, show s.query.lookup (s.obj r).nonce = some r from hlive]
    rfl
  exact List.mem_mergeSort.mpr hkey

/-- A sweep that takes no entry from under itself ends. -/
theorem Wired.sweepRdp (h : Wired s) {now : Int} (desc : BitVec 32 → Int)
    (hnone : ¬ SweepErases s now) : Ends Wired (fun _ => False) (s.sweepRdp now desc) := by
  refine sweepRdp_ends (B := Erases now) now desc ?_ h.live h fun r hlive herases =>
    hnone ⟨r, hlive, herases⟩
  intro s n r _ hwired hr hbad
  rcases hwired.sweepOne now n (desc n) with ⟨⟨r', hr', herases⟩, -⟩ | ⟨-, s', hs', hwired'⟩
  · rw [Option.some.inj (hr'.symm.trans hr)] at herases
    exact absurd herases hbad
  · rw [hs']
    exact Ends.ok hwired'

/-! ### One event -/

/-- The event makes a query for nodes open a connection. -/
def Opens (s : Queries) : Queries.Input → Prop
  | .findValueReply _ reply _ _ => OpensForNode s reply
  | _ => False

/-- The event stops the program: a query for nodes takes a value, or its value timer is over,
or the sweep takes an entry from under itself. -/
def Crashes (s : Queries) : Queries.Input → Prop
  | .findValueReply _ reply _ _ => ∃ r, Takes s reply r ∧ ValueForNode (s.obj r) s.isUseRdp reply
  | .timerRecvd r => r < s.size ∧ (s.obj r).timerRecvd = true ∧ (s.obj r).isFindValue = false
  | .sweepRdp now _ => SweepErases s now
  | _ => False

/-- The timer of a node is over. -/
theorem step_timerQuery (h : Wired s) {id : Id} (hlt : r < s.size) (hid : id ∈ (s.obj r).timers) :
    s.step (.timerQuery r id) = .ok ((s.setQuery r ((s.obj r).timedOut id)).sendFind r) := by
  let q : Query := { s.obj r with timers := (s.obj r).timers.erase id }
  have hlive : Live (s.setQuery r q) r := (live_setQuery (q := q) rfl).mpr (h.live_of_timer hlt hid)
  have hquery := timerQuery_eq hlive id
  have hsame : q.timedOut id = (s.obj r).timedOut id := by
    unfold Query.timedOut
    simp [q]
  rw [setQuery_self, setQuery_setQuery, hsame] at hquery
  unfold Queries.step
  dsimp only
  rw [if_pos ⟨hlt, hid⟩]
  exact hquery

/-- What one event does: nothing, or what its handler does. -/
inductive Took (s : Queries) : Queries.Input → Queries → Prop
  | same (i : Queries.Input) : Took s i s
  | findNv (uninit : Query) (dst : Id) (key : Option Buf) (nodes : List Cageaddr)
      {nonce : BitVec 32} (hfresh : s.query.lookup nonce = none) :
      Took s (.findNv uninit dst key nodes nonce) (s.findNv uninit dst key nodes nonce)
  | findNode (uninit : Query) {nonce : BitVec 32} (hfresh : s.query.lookup nonce = none) :
      Took s (.findNode uninit nonce) (s.findNode uninit nonce)
  | timerQuery {r : Nat} {id : Id} {s' : Queries} (hid : r < s.size ∧ id ∈ (s.obj r).timers)
      (hs : (s.setQuery r { s.obj r with timers := (s.obj r).timers.erase id }).timerQuery
        (s.obj r).nonce id = .ok s') : Took s (.timerQuery r id) s'
  | findNodeReply (reply : FindNodeReply) (sender : Sender) :
      Took s (.findNodeReply reply sender) (s.recvFindNodeReply reply sender)
  | findValueReply {now : Int} {reply : FindValueReply} {sender : Sender} {desc : Int}
      {s' : Queries} (hs : s.recvFindValueReply now reply sender desc = .ok s') :
      Took s (.findValueReply now reply sender desc) s'
  | timerRecvd {r : Nat} {s' : Queries} (htimer : r < s.size ∧ (s.obj r).timerRecvd = true)
      (hs : (s.setQuery r { s.obj r with timerRecvd := false }).recvdValue r = .ok s') :
      Took s (.timerRecvd r) s'
  | connected {now : Int} {desc : Int} {con : Conn} {s' : Queries}
      (hconn : s.conns.lookup desc = some con) (hs : s.connected now desc con = .ok s') :
      Took s (.connected now desc) s'
  | ready2Read {now : Int} {desc : Int} {packets : List (List Byte)} {desc' : Int} {con : Conn}
      {s' : Queries} (hconn : s.conns.lookup desc = some con)
      (hopen : con.isOpen ∧ con.rqueue ++ packets ≠ [])
      (hs : s.ready2Read now desc con packets desc' = .ok s') :
      Took s (.ready2Read now desc packets desc') s'
  | disconnected {now : Int} {desc : Int} {desc' : Int} {con : Conn} {s' : Queries}
      (hconn : s.conns.lookup desc = some con)
      (hs : s.closeRdp now con.query desc desc' = .ok s') : Took s (.disconnected now desc desc') s'
  | sweepRdp {now : Int} {desc : BitVec 32 → Int} {s' : Queries}
      (hs : s.sweepRdp now desc = .ok s') : Took s (.sweepRdp now desc) s'

theorem Took.of_same {i : Queries.Input} {s' : Queries}
    (hs : Except.ok (ε := QueryFault) s = .ok s') :
    Took s i s' :=
  Except.ok.inj hs ▸ .same i

theorem took_of_step {i : Queries.Input} {s' : Queries} (hs : s.step i = .ok s') : Took s i s' := by
  -- One case for each event, as `step` has them.
  cases i with
  | findNv uninit dst key nodes nonce =>
    simp only [Queries.step] at hs
    split at hs
    · rename_i hfresh
      exact Except.ok.inj hs ▸ .findNv uninit dst key nodes hfresh
    · exact .of_same hs
  | findNode uninit nonce =>
    simp only [Queries.step] at hs
    split at hs
    · rename_i hfresh
      exact Except.ok.inj hs ▸ .findNode uninit hfresh
    · exact .of_same hs
  | timerQuery r id =>
    simp only [Queries.step] at hs
    split at hs
    · rename_i hid
      exact .timerQuery hid hs
    · exact .of_same hs
  | findNodeReply reply sender => exact Except.ok.inj hs ▸ .findNodeReply reply sender
  | findValueReply now reply sender desc => exact .findValueReply hs
  | timerRecvd r =>
    simp only [Queries.step] at hs
    split at hs
    · rename_i htimer
      exact .timerRecvd htimer hs
    · exact .of_same hs
  | connected now desc =>
    simp only [Queries.step] at hs
    split at hs
    · exact .of_same hs
    · rename_i con hconn
      split at hs
      · exact .of_same hs
      · exact .connected hconn hs
  | ready2Read now desc packets desc' =>
    simp only [Queries.step] at hs
    split at hs
    · exact .of_same hs
    · rename_i con hconn
      split at hs
      · rename_i hopen
        exact .ready2Read hconn hopen hs
      · exact .of_same hs
  | disconnected now desc desc' =>
    simp only [Queries.step] at hs
    split at hs
    · exact .of_same hs
    · rename_i con hconn
      exact .disconnected hconn hs
  | sweepRdp now desc => exact .sweepRdp hs

/-- The step lemma of the queries. -/
theorem wired_step (h : Wired s) (i : Queries.Input) (hopens : ¬ Opens s i) :
    Ends Wired (fun _ => Crashes s i) (s.step i) := by
  cases i with
  | findNv uninit dst key nodes nonce =>
    simp only [Queries.step]
    split
    · rename_i hfresh
      exact Ends.ok (h.findNv uninit dst key nodes hfresh)
    · exact Ends.ok h
  | findNode uninit nonce =>
    simp only [Queries.step]
    split
    · rename_i hfresh
      exact Ends.ok (h.findNode uninit hfresh)
    · exact Ends.ok h
  | timerQuery r id =>
    by_cases hid : r < s.size ∧ id ∈ (s.obj r).timers
    · have hlive := h.live_of_timer hid.1 hid.2
      have hcount := card_erase_le hid.2 (h.query r hlive).count
      obtain ⟨hwired, hlive'⟩ := h.ask hlive (timedOut_same (s.obj r) id) hcount
      rw [step_timerQuery h hid.1 hid.2]
      exact Ends.ok (hwired.sendFind hlive')
    · simp only [Queries.step, if_neg hid]
      exact Ends.ok h
  | findNodeReply reply sender => exact Ends.ok (h.recvFindNodeReply reply sender)
  | findValueReply now reply sender desc => exact h.recvFindValueReply now reply sender desc hopens
  | timerRecvd r =>
    simp only [Queries.step]
    split
    · rename_i htimer
      exact (h.timerRecvd htimer.1 htimer.2).mono (fun s' hs' => hs') fun e hnode =>
        ⟨htimer.1, htimer.2, hnode⟩
    · exact Ends.ok h
  | connected now desc =>
    -- A connection opens once.
    simp only [Queries.step]
    split
    · exact Ends.ok h
    · rename_i con hconn
      split
      · exact Ends.ok h
      · obtain ⟨s', hs', hwired⟩ := h.connected hconn now
        rw [hs']
        exact Ends.ok hwired
  | ready2Read now desc packets desc' =>
    simp only [Queries.step]
    split
    · exact Ends.ok h
    · rename_i con hconn
      split
      · obtain ⟨s', hs', hwired⟩ := h.ready2Read hconn now packets desc'
        rw [hs']
        exact Ends.ok hwired
      · exact Ends.ok h
  | disconnected now desc desc' =>
    simp only [Queries.step]
    split
    · exact Ends.ok h
    · rename_i con hconn
      obtain ⟨s', hs', hwired⟩ := h.closeRdp hconn now desc'
      rw [hs']
      exact Ends.ok hwired
  | sweepRdp now desc =>
    simp only [Queries.step]
    by_cases herases : SweepErases s now
    · rw [h.sweepRdp_error desc herases]
      exact Ends.error herases
    · exact (h.sweepRdp desc herases).mono (fun _ hs' => hs') fun _ hfalse => hfalse.elim

theorem recvData_valueForNode {reply : FindValueReply} (now : Int) (sender : Sender) (desc : Int)
    (h : ValueForNode (s.obj r) s.isUseRdp reply) :
    ∃ e, s.recvData now r reply sender desc = .error e := by
  obtain ⟨hnode, hflag, huse, data, hdata, hbad⟩ := h
  have hnul : ¬ (reply.flag = dataAreNul ∧ s.isUseRdp = true) := by simp [huse]
  have hvalues : reply.flag = dataAreValues ∧ ¬ s.isUseRdp = true := ⟨hflag, by simp [huse]⟩
  unfold Queries.recvData
  dsimp only
  rw [if_neg hnul, if_pos hvalues, hdata]
  dsimp only
  rcases hbad with hkey | ⟨hkey, q, hadd, hcomplete⟩
  · rw [hkey, error_bind]
    exact ⟨_, rfl⟩
  · rw [hkey, ok_bind, if_pos rfl, hadd]
    dsimp only
    have hkind := (addValue_added hadd).isFindValue.trans hnode
    rw [if_pos hcomplete, Queries.recvdValue]
    simp [hkind]

/-- These events do stop the program. -/
theorem crash_step (h : Wired s) {i : Queries.Input} (hcrash : Crashes s i) :
    ∃ e, s.step i = .error e := by
  cases i with
  | findValueReply now reply sender desc =>
    obtain ⟨r, htakes, hbad⟩ := hcrash
    have hreply := recvFindValueReply_of_takes htakes now sender desc
    rw [stopTimer_of_node htakes hbad.1, setQuery_obj] at hreply
    obtain ⟨e, he⟩ := recvData_valueForNode now sender desc hbad
    exact ⟨e, hreply.trans he⟩
  | timerRecvd r =>
    obtain ⟨hlt, htimer, hnode⟩ := hcrash
    simp only [Queries.step]
    rw [if_pos ⟨hlt, htimer⟩, Queries.recvdValue]
    simp [hnode]
  | sweepRdp now desc => exact ⟨_, h.sweepRdp_error desc hcrash⟩
  | _ => cases hcrash

theorem wired_init (id : Id) (isUseRdp : Bool) (uninit : Query) :
    Wired (Queries.init id isUseRdp uninit) := by
  constructor
  case live =>
    intro n r hn
    cases hn
  case once =>
    intro r hlt
    exact absurd hlt (Nat.not_lt_zero _)
  case nodup => exact List.nodup_nil
  case called =>
    intro p hp
    cases hp
  case stopped =>
    intro r hlt
    exact absurd hlt (Nat.not_lt_zero _)
  case conns =>
    intro d c hc
    cases hc
  case query =>
    intro r hlive
    cases hlive
  case connects =>
    intro c hc
    cases hc

/-! ### What an event is about -/

/-- The data of a reply has what its flag says, and the query takes it. -/
def Handled (isUseRdp : Bool) (q : Query) (reply : FindValueReply) (sender : Sender) : Prop :=
  reply.flag = dataAreNul ∧ isUseRdp = true ∨
  reply.flag = dataAreValues ∧ isUseRdp = false ∧
    (∃ data, Queries.readData reply.data = some data ∧ Queries.sameKey q data.1 = .ok true ∧
      (Queries.addValue q reply data.2).isSome) ∨
  reply.flag = dataAreNodes ∧ 4 ≤ reply.data.length ∧
    (readNodes sender (rd16 reply.data 0) (byteAt reply.data 2) (reply.data.drop 4)).isSome

/-- What the second half of `recv_find_value_reply` does: nothing, or what the data says. -/
inductive ReadsData (s : Queries) (now : Int) (r : Nat) (reply : FindValueReply) (sender : Sender)
    (desc : Int) : Queries → Prop
  | ignored (hnot : ¬ Handled s.isUseRdp (s.obj r) reply sender) :
      ReadsData s now r reply sender desc s
  | candidate (hcon : (s.obj r).isRdpCon = true) : ReadsData s now r reply sender desc
      (s.setQuery r { s.obj r with ids := (s.obj r).ids ++ [reply.src] })
  | connects (huse : s.isUseRdp = true) : ReadsData s now r reply sender desc
      ((s.setQuery r { s.obj r with isRdpCon := true, rdpTime := now }).connect r 0 reply.src
        rdpGetPort desc)
  | values {value : Buf} {q : Query} {s' : Queries}
      (hvalues : reply.flag = dataAreValues ∧ s.isUseRdp = false)
      (hadd : Queries.addValue (s.obj r) reply value = some q)
      (hs : (s.setQuery r q).recvdValue r = .ok s') : ReadsData s now r reply sender desc s'
  | value {value : Buf} {q : Query} (hvalues : reply.flag = dataAreValues ∧ s.isUseRdp = false)
      (hadd : Queries.addValue (s.obj r) reply value = some q) :
      ReadsData s now r reply sender desc (s.setQuery r q)
  | nodes {nodes : List Cageaddr} (hflag : reply.flag = dataAreNodes)
      (hlong : 4 ≤ reply.data.length)
      (hnodes : readNodes sender (rd16 reply.data 0) (byteAt reply.data 2) (reply.data.drop 4) =
        some nodes) :
      ReadsData s now r reply sender desc ((s.setQuery r ((s.obj r).merge nodes)).sendFind r)

theorem readsData_of_recvData {s' : Queries} {now : Int} {reply : FindValueReply}
    {sender : Sender} {desc : Int} (hs : s.recvData now r reply sender desc = .ok s') :
    ReadsData s now r reply sender desc s' := by
  have hsame : ∀ {s'}, Except.ok (ε := QueryFault) s = .ok s' →
      ¬ Handled s.isUseRdp (s.obj r) reply sender → ReadsData s now r reply sender desc s' :=
    fun hs hnot => Except.ok.inj hs ▸ .ignored hnot
  unfold Queries.recvData at hs
  dsimp only at hs
  split at hs
  · rename_i hnul
    split at hs
    · rename_i hcon
      exact Except.ok.inj hs ▸ .candidate hcon
    · exact Except.ok.inj hs ▸ .connects hnul.2
  · rename_i hnul
    split at hs
    · rename_i hvalues
      have huse : s.isUseRdp = false := Bool.eq_false_of_not_eq_true hvalues.2
      have hnodes : ¬ reply.flag = dataAreNodes := by
        rw [hvalues.1]
        decide
      split at hs
      · rename_i hdata
        refine hsame hs ?_
        rintro (hbad | ⟨-, -, data, hsome, -⟩ | hbad)
        · exact hnul hbad
        · exact nomatch hdata.symm.trans hsome
        · exact hnodes hbad.1
      · rename_i key value hdata
        obtain ⟨same, hkey, hs⟩ := bind_eq_ok hs
        split at hs
        · split at hs
          · rename_i hadd
            refine hsame hs ?_
            rintro (hbad | ⟨-, -, data, hsome, -, hadded⟩ | hbad)
            · exact hnul hbad
            · rw [← Option.some.inj (hdata.symm.trans hsome), hadd] at hadded
              cases hadded
            · exact hnodes hbad.1
          · rename_i q hadd
            split at hs
            · exact .values ⟨hvalues.1, huse⟩ hadd hs
            · exact Except.ok.inj hs ▸ .value ⟨hvalues.1, huse⟩ hadd
        · rename_i hdiff
          refine hsame hs ?_
          rintro (hbad | ⟨-, -, data, hsome, hkey', -⟩ | hbad)
          · exact hnul hbad
          · rw [← Option.some.inj (hdata.symm.trans hsome)] at hkey'
            exact hdiff (Except.ok.inj (hkey.symm.trans hkey'))
          · exact hnodes hbad.1
    · rename_i hvalues
      -- Neither a hint of a node with values, nor values.
      have hrest : Handled s.isUseRdp (s.obj r) reply sender → reply.flag = dataAreNodes ∧
          4 ≤ reply.data.length ∧ (readNodes sender (rd16 reply.data 0) (byteAt reply.data 2)
            (reply.data.drop 4)).isSome := by
        rintro (hbad | ⟨hbad, huse, -⟩ | hnodes)
        · exact absurd hbad hnul
        · exact absurd ⟨hbad, by simp [huse]⟩ hvalues
        · exact hnodes
      split at hs
      · rename_i hflag
        split at hs
        · rename_i hshort
          exact hsame hs fun hhandled => absurd (hrest hhandled).2.1 (Nat.not_le_of_lt hshort)
        · rename_i hlong
          split at hs
          · rename_i hnone
            refine hsame hs fun hhandled => ?_
            have hsome := (hrest hhandled).2.2
            rw [hnone] at hsome
            cases hsome
          · rename_i nodes hnodes
            exact Except.ok.inj hs ▸ .nodes hflag (Nat.not_lt.mp hlong) hnodes
      · rename_i hflag
        exact hsame hs fun hhandled => hflag (hrest hhandled).1

theorem only_recvData {s' : Queries} {now : Int} {reply : FindValueReply} {sender : Sender}
    {desc : Int} (hs : s.recvData now r reply sender desc = .ok s') : Only r s s' := by
  cases readsData_of_recvData hs with
  | ignored => exact Only.refl r s
  | candidate => exact only_setQuery rfl
  | connects =>
    exact (only_setQuery (q := { s.obj r with isRdpCon := true, rdpTime := now }) rfl).trans
      (only_connect _ r _ _ _ _)
  | values _ hadd hs =>
    exact (only_setQuery (addValue_added hadd).nonce).trans (only_recvdValue hs)
  | value _ hadd => exact only_setQuery (addValue_added hadd).nonce
  | @nodes nodes =>
    exact (only_setQuery (merge_same (s.obj r) nodes).nonce).trans (only_sendFind _ r)

theorem only_closeRdp {s' : Queries} {now desc desc' : Int}
    (hs : s.closeRdp now r desc desc' = .ok s') : Only r s s' := by
  unfold Queries.closeRdp at hs
  dsimp only at hs
  refine (only_close s r desc).trans ?_
  split at hs
  · exact only_recvdValue hs
  · rw [← Except.ok.inj hs]
    exact only_retry _ now r desc'

theorem only_connected {s' : Queries} {now desc : Int} {con : Conn}
    (hs : s.connected now desc con = .ok s') : Only con.query s s' := by
  unfold Queries.connected at hs
  dsimp only at hs
  split at hs
  · cases hs
  · rw [← Except.ok.inj hs]
    have hset := only_setQuery (s := s) (r := con.query)
      (q := { s.obj con.query with
        isRdpCon := true
        rdpDesc := desc
        rdpTime := now
        get := { (s.obj con.query).get with rdpState := .queryHdr } }) rfl
    exact ⟨rfl, rfl, rfl, hset.obj, hset.nonce, fun _ _ h => h, fun _ _ => rfl⟩

theorem only_ready2Read {s' : Queries} {now desc : Int} {con : Conn}
    {packets : List (List Byte)} {desc' : Int}
    (hs : s.ready2Read now desc con packets desc' = .ok s') : Only con.query s s' := by
  unfold Queries.ready2Read at hs
  dsimp only at hs
  split at hs
  · cases hs
  · rename_i c sent hread
    have hset := only_setQuery (s := s) (r := con.query)
      (q := { s.obj con.query with
        get := c.query
        rdpTime := if c.rqueue.length < (con.rqueue ++ packets).length then now
          else (s.obj con.query).rdpTime }) rfl
    split at hs
    · exact hset.trans (only_closeRdp hs)
    · rw [← Except.ok.inj hs]
      exact ⟨rfl, rfl, rfl, hset.obj, hset.nonce, fun _ _ h => h, fun _ _ => rfl⟩

theorem Named.enter (h : Named s) (q : Query) : Named (s.enter q) := by
  intro n r hn
  show r < s.size + 1 ∧ (Function.update s.obj s.size q r).nonce = n
  change (s.query.insert q.nonce s.size).lookup n = some r at hn
  rcases lookup_insert_eq_some.mp hn with ⟨rfl, rfl⟩ | ⟨-, hn⟩
  · rw [Function.update_self]
    exact ⟨Nat.lt_succ_self _, rfl⟩
  · obtain ⟨hlt, hnonce⟩ := h n r hn
    rw [Function.update_of_ne (Nat.ne_of_lt hlt)]
    exact ⟨Nat.lt_succ_of_lt hlt, hnonce⟩

theorem Named.findNv (h : Named s) (uninit : Query) (dst : Id) (key : Option Buf)
    (nodes : List Cageaddr) (nonce : BitVec 32) : Named (s.findNv uninit dst key nodes nonce) := by
  unfold Queries.findNv
  dsimp only
  split
  · -- The query is not put into `m_query`.
    intro n r hn
    obtain ⟨hlt, hnonce⟩ := h n r hn
    refine ⟨Nat.lt_succ_of_lt hlt, ?_⟩
    show (Function.update s.obj s.size _ r).nonce = n
    rw [Function.update_of_ne (Nat.ne_of_lt hlt), hnonce]
  · exact (only_sendFind _ _).named (Named.enter h _)

theorem only_timerQuery {s' : Queries} {nonce : BitVec 32} {id : Id}
    (hs : s.timerQuery nonce id = .ok s') : ∃ r, Only r s s' := by
  unfold Queries.timerQuery at hs
  split at hs
  · cases hs
  · rename_i r hr
    rw [← Except.ok.inj hs]
    exact ⟨r, (only_setQuery (timedOut_same (s.obj r) id).nonce).trans (only_sendFind _ r)⟩

theorem only_recvFindNodeReply (s : Queries) (reply : FindNodeReply) (sender : Sender) :
    ∃ r, Only r s (s.recvFindNodeReply reply sender) := by
  rcases recvFindNodeReply_cases s reply sender with hs | ⟨r, id, -, ⟨-, hs⟩ | ⟨nodes, -, hs⟩⟩
  · rw [hs]
    exact ⟨0, Only.refl 0 s⟩
  · rw [hs]
    exact ⟨r, only_setQuery rfl⟩
  · rw [hs]
    have hsame := (heard_same (s.obj r) id reply.src).trans (merge_same _ nodes)
    exact ⟨r, (only_setQuery hsame.nonce).trans (only_sendFind _ r)⟩

theorem only_recvFindValueReply {s' : Queries} {now : Int} {reply : FindValueReply}
    {sender : Sender} {desc : Int} (hs : s.recvFindValueReply now reply sender desc = .ok s') :
    ∃ r, Only r s s' := by
  rcases recvFindValueReply_cases s now reply sender desc with hsame | ⟨r, -, hreply⟩
  · rw [← Except.ok.inj (hsame.symm.trans hs)]
    exact ⟨0, Only.refl 0 s⟩
  · have hset := only_setQuery (s := s) (stopTimer_same (s.obj r) reply.src).nonce
    exact ⟨r, hset.trans (only_recvData (hreply.symm.trans hs))⟩

/-- Whatever happens, `m_query` has its queries under their nonces. What operations on one
query and new queries keep is kept as well. -/
theorem named_step {J : Queries → Prop} (honly : ∀ r s s', Only r s s' → J s → J s')
    (hnv : ∀ s uninit dst key nodes nonce, J s → J (s.findNv uninit dst key nodes nonce))
    (hnode : ∀ s uninit nonce, J s → J (s.findNode uninit nonce)) (hnamed : Named s) (hJ : J s)
    {i : Queries.Input} {s' : Queries} (hs : s.step i = .ok s') : Named s' ∧ J s' := by
  have h : Named s ∧ J s := ⟨hnamed, hJ⟩
  -- Every handler changes one query only, or makes a new one.
  have hkept : ∀ {r s s'}, Only r s s' → Named s ∧ J s → Named s' ∧ J s' := fun hone h =>
    ⟨hone.named h.1, honly _ _ _ hone h.2⟩
  cases took_of_step hs with
  | same => exact h
  | findNv uninit dst key nodes hfresh =>
    exact ⟨Named.findNv hnamed uninit dst key nodes _, hnv s uninit dst key nodes _ hJ⟩
  | findNode uninit hfresh => exact ⟨Named.enter hnamed _, hnode s uninit _ hJ⟩
  | timerQuery hid hs =>
    obtain ⟨r', hone⟩ := only_timerQuery hs
    exact hkept hone (hkept (only_setQuery rfl) h)
  | findNodeReply reply sender =>
    obtain ⟨r, hone⟩ := only_recvFindNodeReply s reply sender
    exact hkept hone h
  | findValueReply hs =>
    obtain ⟨r, hone⟩ := only_recvFindValueReply hs
    exact hkept hone h
  | @timerRecvd r _ htimer hs =>
    have hset : Only r s (s.setQuery r { s.obj r with timerRecvd := false }) := only_setQuery rfl
    exact hkept (hset.trans (only_recvdValue hs)) h
  | connected hconn hs => exact hkept (only_connected hs) h
  | ready2Read hconn hopen hs => exact hkept (only_ready2Read hs) h
  | disconnected hconn hs => exact hkept (only_closeRdp hs) h
  | @sweepRdp now desc =>
    have hends := sweepRdp_ends (J := fun s => Named s ∧ J s) (F := fun _ => True)
      (B := fun _ => False) now desc ?_ hnamed h fun _ _ hfalse => hfalse
    · exact hends.of_ok hs
    · intro s n r _ h _ _
      cases hround : s.sweepOne now n (desc n) with
      | error e => exact Ends.error trivial
      | ok s' =>
        rcases sweepOne_only hround with rfl | ⟨r', -, hone⟩
        · exact Ends.ok h
        · exact Ends.ok (hkept hone h)

theorem isUseRdp_findNv (s : Queries) (uninit : Query) (dst : Id) (key : Option Buf)
    (nodes : List Cageaddr) (nonce : BitVec 32) :
    (s.findNv uninit dst key nodes nonce).isUseRdp = s.isUseRdp := by
  rcases findNv_cases s uninit dst key nodes nonce with ⟨q, -, hs⟩ | ⟨q, -, hs⟩
  · rw [hs]
    rfl
  · rw [hs, (only_sendFind _ _).isUseRdp]
    rfl

/-- No event changes whether RDP is used. -/
theorem isUseRdp_step (hnamed : Named s) {i : Queries.Input} {s' : Queries}
    (hs : s.step i = .ok s') : s'.isUseRdp = s.isUseRdp := by
  have hkept := named_step (J := fun t => t.isUseRdp = s.isUseRdp)
    (fun r t t' hone h => hone.isUseRdp.trans h)
    (fun t uninit dst key nodes nonce h => (isUseRdp_findNv t uninit dst key nodes nonce).trans h)
    (fun t uninit nonce h => h) hnamed rfl hs
  exact hkept.2

end

end Libcage.Proofs.Dht
