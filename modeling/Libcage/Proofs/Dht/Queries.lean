import Libcage.Dht.Query
import Libcage.Lib.Index
import Libcage.Lib.Run

/-!
# `Libcage.Proofs.Dht.Queries`: the queries and what knows them

`Wired` is what holds of the queries of a node, their callback functions and their
connections. A query in `m_query` has not been called back, and every other one has. A
connection belongs to a query in `m_query` that is waiting for it.

Here are the operations of the handlers: each keeps `Wired`, the ones on a single query
through `Wired.setQuery`, `Wired.finish` for a query that is called back, and `Wired.enter`
and `Wired.addCalled` for a new one.
-/

set_option autoImplicit false

namespace Libcage.Proofs.Dht

open Libcage.Lib
open Libcage.Dht
open Libcage.Rdp (Id Table)

/-- The query is in `m_query`. -/
def Live (s : Queries) (r : Nat) : Prop := s.query.lookup (s.obj r).nonce = some r

/-- No connection is there for the query. -/
def NoConn (s : Queries) (r : Nat) : Prop := ∀ d c, s.conns.lookup d = some c → c.query ≠ r

/-- The callback function of a query is called with what it takes, and with the values that
were received. -/
def CalledOk (q : Query) : Called → Prop
  | .nodes _ => q.isFindValue = false
  | .value false vset => q.isFindValue = true ∧ vset = none
  | .value true vset => q.isFindValue = true ∧ vset = some q.get.vset ∧ q.get.vset ≠ ∅

/-- A query in `m_query`. -/
structure QueryOk (isUseRdp : Bool) (q : Query) : Prop where
  rdp : q.isRdpCon = true → isUseRdp = true ∧ q.isFindValue = true
  timerRecvd : q.timerRecvd = true → isUseRdp = false ∧ q.get.vset ≠ ∅
  started : q.isTimerRecvdStarted = q.timerRecvd
  key : q.isFindValue = true → q.key ≠ none
  count : (q.timers.card : Int) ≤ q.numQuery

/-- The invariant of the queries. -/
structure Wired (s : Queries) : Prop where
  live : ∀ n r, s.query.lookup n = some r → r < s.size ∧ (s.obj r).nonce = n
  once : ∀ r, r < s.size → (Live s r ↔ r ∉ s.called.map Prod.fst)
  nodup : (s.called.map Prod.fst).Nodup
  called : ∀ p ∈ s.called, p.1 < s.size ∧ CalledOk (s.obj p.1) p.2
  stopped : ∀ r, r < s.size → ¬ Live s r →
    (s.obj r).timers = ∅ ∧ (s.obj r).timerRecvd = false
  conns : ∀ d c, s.conns.lookup d = some c →
    Live s c.query ∧ (s.obj c.query).isRdpCon = true ∧ (s.obj c.query).rdpDesc = d
  query : ∀ r, Live s r → QueryOk s.isUseRdp (s.obj r)
  connects : ∀ c ∈ s.connects, c.query < s.size ∧ (s.obj c.query).isFindValue = true

/-! ### The operations -/

section
variable {s : Queries} {r r' : Nat} {q : Query}

@[simp] theorem setQuery_self (s : Queries) (r : Nat) (q : Query) : (s.setQuery r q).obj r = q :=
  Function.update_self ..

theorem setQuery_other (q : Query) (h : r' ≠ r) : (s.setQuery r q).obj r' = s.obj r' :=
  Function.update_of_ne h ..

theorem setQuery_setQuery (s : Queries) (r : Nat) (q q' : Query) :
    (s.setQuery r q).setQuery r q' = s.setQuery r q' := by
  unfold Queries.setQuery
  rw [Function.update_idem]

theorem Wired.lt (h : Wired s) (hlive : Live s r) : r < s.size := (h.live _ _ hlive).1

theorem Wired.not_called (h : Wired s) (hlive : Live s r) : r ∉ s.called.map Prod.fst :=
  (h.once r (h.lt hlive)).mp hlive

theorem Wired.live_of_lookup (h : Wired s) {n : BitVec 32} (hn : s.query.lookup n = some r) :
    Live s r := by
  rw [Live, (h.live n r hn).2]
  exact hn

theorem live_setQuery (hq : q.nonce = (s.obj r).nonce) : Live (s.setQuery r q) r' ↔ Live s r' := by
  unfold Live
  by_cases hr : r' = r
  · subst hr
    rw [setQuery_self, hq]
    exact Iff.rfl
  · rw [setQuery_other q hr]
    exact Iff.rfl

theorem isFindValue_setQuery (hkind : q.isFindValue = (s.obj r).isFindValue) :
    ((s.setQuery r q).obj r').isFindValue = (s.obj r').isFindValue := by
  by_cases hr : r' = r
  · subst hr
    rw [setQuery_self, hkind]
  · rw [setQuery_other q hr]

/-- A query in `m_query` changes. -/
theorem Wired.setQuery (h : Wired s) (hlive : Live s r) (hnonce : q.nonce = (s.obj r).nonce)
    (hkind : q.isFindValue = (s.obj r).isFindValue) (hok : QueryOk s.isUseRdp q)
    (hconn : ∀ d c, s.conns.lookup d = some c → c.query = r → q.isRdpCon = true ∧ q.rdpDesc = d) :
    Wired (s.setQuery r q) := by
  -- A query in `m_query` has not been called back, so those that have are other ones.
  have hother : ∀ p ∈ s.called, (s.setQuery r q).obj p.1 = s.obj p.1 := by
    intro p hp
    apply setQuery_other
    intro heq
    exact h.not_called hlive (heq ▸ List.mem_map_of_mem hp)
  constructor
  case live =>
    intro n r' hn
    obtain ⟨hlt, hobj⟩ := h.live n r' hn
    refine ⟨hlt, ?_⟩
    by_cases hr : r' = r
    · subst hr
      rw [setQuery_self, hnonce, hobj]
    · rw [setQuery_other q hr, hobj]
  case once =>
    intro r' hlt
    rw [live_setQuery hnonce]
    exact h.once r' hlt
  case nodup => exact h.nodup
  case called =>
    intro p hp
    rw [hother p hp]
    exact h.called p hp
  case stopped =>
    intro r' hlt hdead
    rw [live_setQuery hnonce] at hdead
    have hr : r' ≠ r := fun heq => hdead (heq ▸ hlive)
    rw [setQuery_other q hr]
    exact h.stopped r' hlt hdead
  case conns =>
    intro d c hc
    obtain ⟨hclive, hcon, hdesc⟩ := h.conns d c hc
    rw [live_setQuery hnonce]
    refine ⟨hclive, ?_⟩
    by_cases hr : c.query = r
    · rw [hr, setQuery_self]
      exact hconn d c hc hr
    · rw [setQuery_other q hr]
      exact ⟨hcon, hdesc⟩
  case query =>
    intro r' hlive'
    rw [live_setQuery hnonce] at hlive'
    by_cases hr : r' = r
    · subst hr
      rw [setQuery_self]
      exact hok
    · rw [setQuery_other q hr]
      exact h.query r' hlive'
  case connects =>
    intro c hc
    rw [isFindValue_setQuery hkind]
    exact h.connects c hc

/-- A query in `m_query` changes in nothing that its connection depends on. -/
theorem Wired.update (h : Wired s) (hlive : Live s r) (hnonce : q.nonce = (s.obj r).nonce)
    (hkind : q.isFindValue = (s.obj r).isFindValue) (hok : QueryOk s.isUseRdp q)
    (hcon : q.isRdpCon = (s.obj r).isRdpCon) (hdesc : q.rdpDesc = (s.obj r).rdpDesc) :
    Wired (s.setQuery r q) := by
  apply h.setQuery hlive hnonce hkind hok
  rintro d c hc rfl
  rw [hcon, hdesc]
  exact (h.conns d c hc).2

theorem setQuery_obj (s : Queries) (r : Nat) : s.setQuery r (s.obj r) = s := by
  unfold Queries.setQuery
  rw [Function.update_eq_self]

/-- A query in `m_query` is called back and taken out. -/
theorem Wired.finish (h : Wired s) (hlive : Live s r) (hnonce : q.nonce = (s.obj r).nonce)
    (hkind : q.isFindValue = (s.obj r).isFindValue) (hno : NoConn s r) {c : Called}
    (hc : CalledOk q c) : Wired (((s.setQuery r q).call r c).removeQuery r) := by
  let t := ((s.setQuery r q).call r c).removeQuery r
  have hself : t.obj r = { q with timers := ∅, timerRecvd := false } := by
    simp [t, Queries.removeQuery, Queries.call, Queries.setQuery]
  have hother : ∀ {r'}, r' ≠ r → t.obj r' = s.obj r' := by
    intro r' hr
    simp [t, Queries.removeQuery, Queries.call, Queries.setQuery, hr]
  have hquery : t.query = s.query.erase (s.obj r).nonce := by
    simp [t, Queries.removeQuery, Queries.call, Queries.setQuery, hnonce]
  -- `m_query` has the other queries as before.
  have hlookup : ∀ n r', t.query.lookup n = some r' → s.query.lookup n = some r' ∧ r' ≠ r := by
    intro n r' hn
    rw [hquery] at hn
    obtain ⟨hne, hold⟩ := lookup_erase_eq_some.mp hn
    refine ⟨hold, ?_⟩
    rintro rfl
    exact hne (h.live n r' hold).2.symm
  have hdead : ¬ Live t r := by
    intro hl
    exact (hlookup _ _ hl).2 rfl
  have hlive' : ∀ {r'}, r' ≠ r → (Live t r' ↔ Live s r') := by
    intro r' hr
    unfold Live
    rw [hother hr, hquery]
    by_cases hn : (s.obj r').nonce = (s.obj r).nonce
    · have hlr : s.query.lookup (s.obj r).nonce = some r := hlive
      rw [hn, AList.lookup_erase, hlr]
      simp [Ne.symm hr]
    · rw [AList.lookup_erase_ne hn]
  -- The query has not been called before, so the calls before are about others.
  have hne : ∀ p ∈ s.called, p.1 ≠ r := by
    rintro p hp rfl
    exact h.not_called hlive (List.mem_map_of_mem hp)
  have hfst : t.called.map Prod.fst = s.called.map Prod.fst ++ [r] := by
    simp [t, Queries.removeQuery, Queries.call, Queries.setQuery]
  have hisFind : ∀ r', (t.obj r').isFindValue = (s.obj r').isFindValue := by
    intro r'
    by_cases hr : r' = r
    · rw [hr, hself, ← hkind]
    · rw [hother hr]
  show Wired t
  constructor
  case live =>
    intro n r' hn
    obtain ⟨hold, hr⟩ := hlookup n r' hn
    rw [hother hr]
    exact h.live n r' hold
  case once =>
    intro r' hlt
    rw [hfst, List.mem_append, List.mem_singleton, not_or]
    by_cases hr : r' = r
    · simp [hr, hdead]
    · rw [hlive' hr, h.once r' hlt]
      simp [hr]
  case nodup =>
    rw [hfst]
    apply List.Nodup.append h.nodup (List.nodup_singleton r)
    intro a ha hr
    rw [List.mem_singleton.mp hr] at ha
    exact h.not_called hlive ha
  case called =>
    intro p hp
    rcases List.mem_append.mp hp with hp | hp
    · rw [hother (hne p hp)]
      exact h.called p hp
    · rw [List.mem_singleton.mp hp]
      refine ⟨h.lt hlive, ?_⟩
      show CalledOk (t.obj r) c
      rw [hself]
      exact hc
  case stopped =>
    intro r' hlt hl
    by_cases hr : r' = r
    · rw [hr, hself]
      exact ⟨rfl, rfl⟩
    · rw [hother hr]
      exact h.stopped r' hlt fun hold => hl ((hlive' hr).mpr hold)
  case conns =>
    intro d con hcon
    have hr : con.query ≠ r := hno d con hcon
    rw [hlive' hr, hother hr]
    exact h.conns d con hcon
  case query =>
    intro r' hl
    have hr : r' ≠ r := by
      rintro rfl
      exact hdead hl
    rw [hother hr]
    exact h.query r' ((hlive' hr).mp hl)
  case connects =>
    intro con hcon
    rw [hisFind]
    exact h.connects con hcon

/-- No query waits for a connection that is not there. -/
theorem Wired.noConn (h : Wired s) (hcon : (s.obj r).isRdpCon = false) : NoConn s r := by
  rintro d c hc rfl
  exact absurd (hcon.symm.trans (h.conns d c hc).2.1) (by simp)

/-- What the loop of `send_find` leaves as it is. -/
structure SameButAsked (q q' : Query) : Prop where
  nonce : q'.nonce = q.nonce
  isFindValue : q'.isFindValue = q.isFindValue
  isRdpCon : q'.isRdpCon = q.isRdpCon
  rdpDesc : q'.rdpDesc = q.rdpDesc
  timerRecvd : q'.timerRecvd = q.timerRecvd
  isTimerRecvdStarted : q'.isTimerRecvdStarted = q.isTimerRecvdStarted
  key : q'.key = q.key
  get : q'.get = q.get

theorem sendFindLoop_same (nodes : List Cageaddr) (q : Query) :
    SameButAsked q (Queries.sendFindLoop nodes q) := by
  induction nodes generalizing q with
  | nil => exact ⟨rfl, rfl, rfl, rfl, rfl, rfl, rfl, rfl⟩
  | cons addr nodes ih =>
    rw [Queries.sendFindLoop]
    split
    · exact ⟨rfl, rfl, rfl, rfl, rfl, rfl, rfl, rfl⟩
    · split
      · exact ih q
      · obtain ⟨h₁, h₂, h₃, h₄, h₅, h₆, h₇, h₈⟩ := ih { q with
          timers := insert addr.id q.timers
          sent := insert addr.id q.sent
          numQuery := q.numQuery + 1 }
        exact ⟨h₁, h₂, h₃, h₄, h₅, h₆, h₇, h₈⟩

theorem SameButAsked.queryOk {isUseRdp : Bool} {q' : Query} (h : SameButAsked q q')
    (hok : QueryOk isUseRdp q) (hcount : (q'.timers.card : Int) ≤ q'.numQuery) :
    QueryOk isUseRdp q' := by
  constructor
  case rdp =>
    rw [h.isRdpCon, h.isFindValue]
    exact hok.rdp
  case timerRecvd =>
    rw [h.timerRecvd, h.get]
    exact hok.timerRecvd
  case started =>
    rw [h.timerRecvd, h.isTimerRecvdStarted]
    exact hok.started
  case key =>
    rw [h.isFindValue, h.key]
    exact hok.key
  case count => exact hcount

/-- Every node that is asked is counted. -/
theorem sendFindLoop_count (nodes : List Cageaddr) (q : Query)
    (h : (q.timers.card : Int) ≤ q.numQuery) :
    ((Queries.sendFindLoop nodes q).timers.card : Int) ≤
      (Queries.sendFindLoop nodes q).numQuery := by
  induction nodes generalizing q with
  | nil => exact h
  | cons addr nodes ih =>
    rw [Queries.sendFindLoop]
    split
    · exact h
    · split
      · exact ih q h
      · apply ih
        have hcard := Finset.card_insert_le addr.id q.timers
        dsimp only
        omega

theorem le_sendFindLoop (nodes : List Cageaddr) (q : Query) :
    q.numQuery ≤ (Queries.sendFindLoop nodes q).numQuery := by
  induction nodes generalizing q with
  | nil => exact Int.le_refl _
  | cons addr nodes ih =>
    rw [Queries.sendFindLoop]
    split
    · exact Int.le_refl _
    · split
      · exact ih q
      · have hle := ih { q with
          timers := insert addr.id q.timers
          sent := insert addr.id q.sent
          numQuery := q.numQuery + 1 }
        exact Int.le_trans (Int.le_add_one (Int.le_refl _)) hle

/-- Nobody is being asked, and every node of the query has been. -/
def Exhausted (q : Query) : Prop := q.numQuery = 0 ∧ ∀ addr ∈ q.nodes, addr.id ∈ q.sent

instance (q : Query) : Decidable (Exhausted q) := by
  unfold Exhausted
  infer_instance

theorem sendFindLoop_zero (nodes : List Cageaddr) (q : Query) (h : 0 ≤ q.numQuery) :
    (Queries.sendFindLoop nodes q).numQuery = 0 ↔
      q.numQuery = 0 ∧ ∀ addr ∈ nodes, addr.id ∈ q.sent := by
  induction nodes generalizing q with
  | nil => simp [Queries.sendFindLoop]
  | cons addr nodes ih =>
    rw [Queries.sendFindLoop]
    split
    · -- The loop stops at `max_query` of them.
      rename_i hmax
      have hpos : q.numQuery ≠ 0 := by
        unfold maxQuery at hmax
        omega
      simp [hpos]
    · split
      · rename_i hsent
        rw [ih q h]
        simp [hsent]
      · -- One more is asked, and the number does not go down after that.
        rename_i hsent
        have hle := le_sendFindLoop nodes { q with
          timers := insert addr.id q.timers
          sent := insert addr.id q.sent
          numQuery := q.numQuery + 1 }
        dsimp only at hle
        constructor
        · intro hzero
          omega
        · intro hzero
          exact absurd (hzero.2 addr (List.mem_cons_self ..)) hsent

/-- `send_find` asks more nodes, or calls back a query that has none left. -/
theorem sendFind_cases (s : Queries) (r : Nat) :
    (s.sendFind r = s ∧ s.isUseRdp = true ∧ (s.obj r).isFindValue = true ∧
      (s.obj r).isRdpCon = true) ∨
    ∃ q, q = Queries.sendFindLoop (s.obj r).nodes (s.obj r) ∧
      ¬ (s.isUseRdp = true ∧ (s.obj r).isFindValue = true ∧ (s.obj r).isRdpCon = true) ∧
      (q.numQuery ≠ 0 ∧ s.sendFind r = s.setQuery r q ∨
        q.numQuery = 0 ∧ s.sendFind r =
          ((s.setQuery r q).call r (Queries.failed q)).removeQuery r) := by
  unfold Queries.sendFind
  split
  · rename_i hwait
    exact Or.inl ⟨rfl, hwait⟩
  · rename_i hwait
    refine Or.inr ⟨_, rfl, hwait, ?_⟩
    dsimp only
    split
    · rename_i hzero
      exact Or.inr ⟨hzero, rfl⟩
    · rename_i hzero
      exact Or.inl ⟨hzero, rfl⟩

theorem calledOk_failed (q : Query) : CalledOk q (Queries.failed q) := by
  unfold Queries.failed
  split
  · rename_i h
    exact ⟨h, rfl⟩
  · rename_i h
    exact Bool.eq_false_of_not_eq_true h

theorem Wired.sendFind (h : Wired s) (hlive : Live s r) : Wired (s.sendFind r) := by
  rcases sendFind_cases s r with ⟨hs, -⟩ | ⟨q, rfl, hwait, ⟨-, hs⟩ | ⟨-, hs⟩⟩
  · rw [hs]
    exact h
  · have hsame := sendFindLoop_same (s.obj r).nodes (s.obj r)
    rw [hs]
    exact h.update hlive hsame.nonce hsame.isFindValue
      (hsame.queryOk (h.query r hlive) (sendFindLoop_count _ _ (h.query r hlive).count))
      hsame.isRdpCon hsame.rdpDesc
  · have hsame := sendFindLoop_same (s.obj r).nodes (s.obj r)
    have hcon : (s.obj r).isRdpCon = false := by
      by_contra hcon
      have hcon := Bool.eq_true_of_not_eq_false hcon
      obtain ⟨huse, hfind⟩ := (h.query r hlive).rdp hcon
      exact hwait ⟨huse, hfind, hcon⟩
    rw [hs]
    exact h.finish hlive hsame.nonce hsame.isFindValue (h.noConn hcon) (calledOk_failed _)

/-- `recvd_value` on a query for values. -/
theorem Wired.recvdValue (h : Wired s) (hlive : Live s r) (hnonce : q.nonce = (s.obj r).nonce)
    (hkind : q.isFindValue = (s.obj r).isFindValue) (hno : NoConn s r) (hvset : q.get.vset ≠ ∅)
    {s' : Queries} (hs : (s.setQuery r q).recvdValue r = .ok s') : Wired s' := by
  unfold Queries.recvdValue at hs
  rw [setQuery_self] at hs
  dsimp only at hs
  split at hs
  · rename_i hfind
    rw [← Except.ok.inj hs]
    exact h.finish hlive hnonce hkind hno ⟨hfind, rfl, hvset⟩
  · cases hs

/-- `recvd_value` stops the program on a query for nodes. -/
theorem recvdValue_error {e : QueryFault} (hs : s.recvdValue r = .error e) :
    (s.obj r).isFindValue = false := by
  unfold Queries.recvdValue at hs
  dsimp only at hs
  split at hs
  · cases hs
  · rename_i hfind
    exact Bool.eq_false_of_not_eq_true hfind

/-- A connection is closed. -/
theorem Wired.close (h : Wired s) (desc : Int) : Wired (s.close desc) := by
  constructor
  case live => exact h.live
  case once => exact h.once
  case nodup => exact h.nodup
  case called => exact h.called
  case stopped => exact h.stopped
  case conns =>
    intro d c hc
    exact h.conns d c (lookup_erase_eq_some.mp hc).2
  case query => exact h.query
  case connects => exact h.connects

/-- The connection of a query is closed. -/
theorem Wired.noConn_close (h : Wired s) {desc : Int} (hdesc : (s.obj r).rdpDesc = desc) :
    NoConn (s.close desc) r := by
  rintro d c hc rfl
  obtain ⟨hd, hc⟩ := lookup_erase_eq_some.mp hc
  exact hd ((h.conns d c hc).2.2.symm.trans hdesc)

/-- The entry of a connection changes, or a new one is made, for a query that waits for it. -/
theorem Wired.insertConn (h : Wired s) (desc : Int) (con : Conn) (hlive : Live s con.query)
    (hcon : (s.obj con.query).isRdpCon = true) (hdesc : (s.obj con.query).rdpDesc = desc) :
    Wired { s with conns := s.conns.insert desc con } := by
  constructor
  case live => exact h.live
  case once => exact h.once
  case nodup => exact h.nodup
  case called => exact h.called
  case stopped => exact h.stopped
  case conns =>
    intro d c hc
    rcases lookup_insert_eq_some.mp hc with ⟨rfl, rfl⟩ | ⟨-, hc⟩
    · exact ⟨hlive, hcon, hdesc⟩
    · exact h.conns d c hc
  case query => exact h.query
  case connects => exact h.connects

/-- A call of `rdp::connect` is written down. -/
theorem Wired.addConnect (h : Wired s) (c : Connect) (hlive : Live s c.query)
    (hfind : (s.obj c.query).isFindValue = true) :
    Wired { s with connects := s.connects ++ [c] } := by
  constructor
  case live => exact h.live
  case once => exact h.once
  case nodup => exact h.nodup
  case called => exact h.called
  case stopped => exact h.stopped
  case conns => exact h.conns
  case query => exact h.query
  case connects =>
    intro c' hc'
    rcases List.mem_append.mp hc' with hc' | hc'
    · exact h.connects c' hc'
    · rw [List.mem_singleton.mp hc']
      exact ⟨h.lt hlive, hfind⟩

/-- A query that waits for a connection opens one. -/
theorem Wired.connect (h : Wired s) (hlive : Live s r) (hcon : (s.obj r).isRdpCon = true)
    (hno : NoConn s r) (sport : BitVec 16) (did : Id) (dport : BitVec 16) (desc : Int) :
    Wired (s.connect r sport did dport desc) := by
  have hok := h.query r hlive
  have hset : ∀ d : Int, Wired (s.setQuery r { s.obj r with rdpDesc := d }) := fun d =>
    h.setQuery hlive rfl rfl ⟨hok.rdp, hok.timerRecvd, hok.started, hok.key, hok.count⟩
      fun d' c hc hr => absurd hr (hno d' c hc)
  have hlive' : ∀ d : Int, Live (s.setQuery r { s.obj r with rdpDesc := d }) r := fun d =>
    (live_setQuery (q := { s.obj r with rdpDesc := d }) rfl).mpr hlive
  have hfind : (s.obj r).isFindValue = true := (hok.rdp hcon).2
  unfold Queries.connect
  by_cases hnew : 0 < desc ∧ s.conns.lookup desc = none
  · simp only [if_pos hnew]
    have hinsert := (hset desc).insertConn desc ⟨r, false, []⟩ (hlive' desc) (by simpa using hcon)
      (by simp)
    exact hinsert.addConnect ⟨r, sport, did, dport⟩ (hlive' desc) (by simpa using hfind)
  · simp only [if_neg hnew]
    exact (hset (-1)).addConnect ⟨r, sport, did, dport⟩ (hlive' (-1)) (by simpa using hfind)

/-- A new query goes into `m_query`. -/
theorem Wired.enter (h : Wired s) (hfresh : s.query.lookup q.nonce = none)
    (hok : QueryOk s.isUseRdp q) : Wired (s.enter q) ∧ Live (s.enter q) s.size := by
  have hself : (s.enter q).obj s.size = q := setQuery_self ..
  have hother : ∀ {r'}, r' < s.size → (s.enter q).obj r' = s.obj r' := fun hlt =>
    setQuery_other q (Nat.ne_of_lt hlt)
  have hnew : (s.enter q).query.lookup q.nonce = some s.size := AList.lookup_insert _
  have hold : ∀ {n}, n ≠ q.nonce → (s.enter q).query.lookup n = s.query.lookup n :=
    AList.lookup_insert_ne
  have hlivenew : Live (s.enter q) s.size := by
    rw [Live, hself]
    exact hnew
  -- The nonce was free, so the new entry hides no other query.
  have hlive : ∀ {r'}, r' < s.size → (Live (s.enter q) r' ↔ Live s r') := by
    intro r' hlt
    unfold Live
    rw [hother hlt]
    by_cases hn : (s.obj r').nonce = q.nonce
    · rw [hn, hnew, hfresh]
      simp [Nat.ne_of_gt hlt]
    · rw [hold hn]
  have hcalled : ∀ p ∈ s.called, p.1 < s.size := fun p hp => (h.called p hp).1
  refine ⟨?_, hlivenew⟩
  constructor
  case live =>
    intro n r' hn
    show r' < s.size + 1 ∧ _
    by_cases hq : n = q.nonce
    · rw [hq, hnew] at hn
      rw [← Option.some.inj hn, hself, hq]
      exact ⟨Nat.lt_succ_self _, rfl⟩
    · rw [hold hq] at hn
      obtain ⟨hlt, hobj⟩ := h.live n r' hn
      rw [hother hlt]
      exact ⟨Nat.lt_succ_of_lt hlt, hobj⟩
  case once =>
    intro r' hlt
    show _ ↔ r' ∉ s.called.map Prod.fst
    rcases Nat.lt_succ_iff_lt_or_eq.mp hlt with hlt | rfl
    · rw [hlive hlt]
      exact h.once r' hlt
    · have hnot : s.size ∉ s.called.map Prod.fst := by
        intro hmem
        obtain ⟨p, hp, heq⟩ := List.mem_map.mp hmem
        exact absurd (hcalled p hp) (by omega)
      simp only [hlivenew, hnot, not_false_eq_true]
  case nodup => exact h.nodup
  case called =>
    intro p hp
    rw [hother (hcalled p hp)]
    exact ⟨Nat.lt_succ_of_lt (hcalled p hp), (h.called p hp).2⟩
  case stopped =>
    intro r' hlt hdead
    rcases Nat.lt_succ_iff_lt_or_eq.mp hlt with hlt | rfl
    · rw [hother hlt]
      exact h.stopped r' hlt fun hl => hdead ((hlive hlt).mpr hl)
    · exact absurd hlivenew hdead
  case conns =>
    intro d c hc
    have hlt := h.lt (h.conns d c hc).1
    rw [hlive hlt, hother hlt]
    exact h.conns d c hc
  case query =>
    intro r' hl
    by_cases hr : r' = s.size
    · rw [hr, hself]
      exact hok
    · have hlt : r' < s.size := by
        by_cases hn : ((s.enter q).obj r').nonce = q.nonce
        · rw [Live, hn, hnew] at hl
          exact absurd (Option.some.inj hl).symm hr
        · rw [Live, hold hn] at hl
          exact (h.live _ _ hl).1
      rw [hother hlt]
      exact h.query r' ((hlive hlt).mp hl)
  case connects =>
    intro c hc
    rw [hother (h.connects c hc).1]
    exact ⟨Nat.lt_succ_of_lt (h.connects c hc).1, (h.connects c hc).2⟩

/-- A query that finds nobody to ask is called back at once. -/
theorem Wired.addCalled (h : Wired s) (hfresh : s.query.lookup q.nonce = none)
    (htimers : q.timers = ∅) (htimer : q.timerRecvd = false) {c : Called} (hc : CalledOk q c) :
    Wired { (s.setQuery s.size q).call s.size c with size := s.size + 1 } := by
  let t : Queries := { (s.setQuery s.size q).call s.size c with size := s.size + 1 }
  have hself : t.obj s.size = q := setQuery_self ..
  have hother : ∀ {r'}, r' < s.size → t.obj r' = s.obj r' := fun hlt =>
    setQuery_other q (Nat.ne_of_lt hlt)
  have hcalled : ∀ p ∈ s.called, p.1 < s.size := fun p hp => (h.called p hp).1
  have hfst : t.called.map Prod.fst = s.called.map Prod.fst ++ [s.size] := List.map_append ..
  have hnot : s.size ∉ s.called.map Prod.fst := by
    intro hmem
    obtain ⟨p, hp, heq⟩ := List.mem_map.mp hmem
    exact absurd (hcalled p hp) (by omega)
  -- The new query does not go into `m_query`.
  have hdead : ¬ Live t s.size := by
    unfold Live
    rw [hself]
    show s.query.lookup q.nonce ≠ _
    rw [hfresh]
    simp
  have hlive : ∀ {r'}, r' < s.size → (Live t r' ↔ Live s r') := by
    intro r' hlt
    unfold Live
    rw [hother hlt]
    exact Iff.rfl
  show Wired t
  constructor
  case live =>
    intro n r' hn
    obtain ⟨hlt, hobj⟩ := h.live n r' hn
    rw [hother hlt]
    exact ⟨Nat.lt_succ_of_lt hlt, hobj⟩
  case once =>
    intro r' hlt
    rw [hfst, List.mem_append, List.mem_singleton, not_or]
    rcases Nat.lt_succ_iff_lt_or_eq.mp hlt with hlt | rfl
    · rw [hlive hlt, h.once r' hlt]
      simp [Nat.ne_of_lt hlt]
    · simp [hdead]
  case nodup =>
    rw [hfst]
    apply List.Nodup.append h.nodup (List.nodup_singleton _)
    intro a ha hr
    rw [List.mem_singleton.mp hr] at ha
    exact hnot ha
  case called =>
    intro p hp
    rcases List.mem_append.mp hp with hp | hp
    · rw [hother (hcalled p hp)]
      exact ⟨Nat.lt_succ_of_lt (hcalled p hp), (h.called p hp).2⟩
    · rw [List.mem_singleton.mp hp]
      refine ⟨Nat.lt_succ_self _, ?_⟩
      show CalledOk (t.obj s.size) c
      rw [hself]
      exact hc
  case stopped =>
    intro r' hlt hl
    rcases Nat.lt_succ_iff_lt_or_eq.mp hlt with hlt | rfl
    · rw [hother hlt]
      exact h.stopped r' hlt fun hold => hl ((hlive hlt).mpr hold)
    · rw [hself]
      exact ⟨htimers, htimer⟩
  case conns =>
    intro d con hcon
    have hlt := h.lt (h.conns d con hcon).1
    rw [hlive hlt, hother hlt]
    exact h.conns d con hcon
  case query =>
    intro r' hl
    have hlt : r' < s.size := (h.live _ _ hl).1
    rw [hother hlt]
    exact h.query r' ((hlive hlt).mp hl)
  case connects =>
    intro con hcon
    rw [hother (h.connects con hcon).1]
    exact ⟨Nat.lt_succ_of_lt (h.connects con hcon).1, (h.connects con hcon).2⟩

end

end Libcage.Proofs.Dht
