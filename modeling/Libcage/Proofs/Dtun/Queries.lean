import Libcage.Dtun.Query
import Libcage.Lib.Index
import Libcage.Lib.Run

/-!
# `Libcage.Proofs.Dtun.Queries`: the books of the queries of `dtun`

A query counts the nodes that it waits for, each of them under a timer. `Booked` is one event
that keeps the books: the counts are right, and a query ends with the last answer or timeout
that it waits for, or with the node that it looks for.

`recv_find_value_reply` counts a reply from a node that the query does not wait for, and both
handlers stop the timer of a reply that is not as long as it says, but do not count it. The
events without these (`Regular`) are those that keep the books (`booked_iff_regular`).
-/

set_option autoImplicit false

namespace Libcage.Proofs.DtunQuery

open Libcage.Lib
open Libcage.Rdp (Id Table)
open Libcage.Dht (Cageaddr Sender domainInet readNodes FindNodeReply)
open Libcage.Dtun

/-! ### One event -/

/-- The event is the answer of a node that the query waits for, or its timeout. -/
def Settles (n : BitVec 32) (q : Query) (x : Id) : Queries.Input → Prop
  | .timerQuery nonce id => nonce = n ∧ id ∈ q.timers ∧ x = id
  | .findNodeReply reply _ => reply.nonce = n ∧ x ∈ q.timers ∧ (x = reply.src ∨ x = 0)
  | .findValueReply reply _ => reply.nonce = n ∧ reply.src ∈ q.timers ∧ x = reply.src
  | _ => False

/-- The node that was looked for has been found. -/
def IsFound (c : Called) : Prop := ∃ addrs, c = .value true (some addrs)

/-- The event keeps the books: every query counts its timers, its callback function is called
when it ends, and it ends with the last of the nodes that it waits for, or when the node it
looks for is found. -/
structure Booked (s : Queries) (i : Queries.Input) (s' : Queries) : Prop where
  counts : ∀ n q, s'.query.lookup n = some q →
    q.numQuery = q.timers.card ∧ 1 ≤ q.numQuery ∧ q.numQuery ≤ maxQuery
  called : ∀ n q, s.query.lookup n = some q →
    (s'.query.lookup n = none ↔ ∃ c, s'.called = s.called ++ [(n, c)])
  due : ∀ n q c, s.query.lookup n = some q → s'.called = s.called ++ [(n, c)] →
    ∃ x, Settles n q x i ∧ (q.timers = {x} ∨ IsFound c)

/-- A reply that a query takes comes from a node that it waits for, and is as long as it
says. -/
def Regular (s : Queries) : Queries.Input → Prop
  | .findNodeReply reply sender =>
      ∀ q, s.query.lookup reply.nonce = some q → reply.dst = s.id → q.dst = reply.id →
        q.isFindValue = false → (reply.src ∈ q.timers ∨ 0 ∈ q.timers) →
          readNodes sender reply.domain reply.num reply.addrs ≠ none
  | .findValueReply reply sender =>
      ∀ q, s.query.lookup reply.nonce = some q → reply.dst = s.id → q.dst = reply.id →
        q.isFindValue = true →
          (reply.src ∈ q.timers ↔ readValueNodes sender reply.domain reply.num reply.addrs ≠ none)
  | _ => True

/-! ### Queries -/

/-- A query whose counts are right. -/
structure Ready (q : Query) : Prop where
  count : q.numQuery = q.timers.card
  le : q.numQuery ≤ maxQuery
  sent : q.timers ⊆ q.sent

/-- A query in `m_query`. The timer of an address whose node is not known is under the id 0. -/
structure QueryInv (q : Query) : Prop where
  count : q.numQuery = q.timers.card
  pos : 1 ≤ q.numQuery
  le : q.numQuery ≤ maxQuery
  sent : q.timers ⊆ q.sent ∨ (q.timers = {0} ∧ q.isFindValue = false)

/-- The invariant of the queries. -/
def QueriesInv (s : Queries) : Prop := ∀ n q, s.query.lookup n = some q → QueryInv q

section
variable {q : Query}

/-- The loop of `send_find` starts a timer for each node that it counts. -/
theorem sendFindLoop_books (nodes : List Cageaddr) (hsent : q.timers ⊆ q.sent)
    (hle : q.numQuery ≤ maxQuery) :
    (q.sendFindLoop nodes).numQuery - (q.sendFindLoop nodes).timers.card =
        q.numQuery - q.timers.card ∧
      q.numQuery ≤ (q.sendFindLoop nodes).numQuery ∧
      (q.sendFindLoop nodes).numQuery ≤ maxQuery ∧
      (q.sendFindLoop nodes).timers ⊆ (q.sendFindLoop nodes).sent ∧
      q.timers ⊆ (q.sendFindLoop nodes).timers := by
  -- By the nodes. Each round leaves the difference between the count and the timers.
  induction nodes generalizing q with
  | nil => exact ⟨rfl, Int.le_refl _, hle, hsent, Finset.Subset.refl _⟩
  | cons addr nodes ih =>
    rw [Query.sendFindLoop]
    split
    · exact ⟨rfl, Int.le_refl _, hle, hsent, Finset.Subset.refl _⟩
    · split
      · exact ih hsent hle
      · rename_i hmax hnew
        -- The node has not been asked, so it has no timer.
        have hcard := Finset.card_insert_of_notMem fun hmem => hnew (hsent hmem)
        obtain ⟨hdiff, hmono, hmax', hsent', hsub⟩ := ih (q := { q with
          timers := insert addr.id q.timers
          sent := insert addr.id q.sent
          numQuery := q.numQuery + 1 }) (Finset.insert_subset_insert _ hsent) (by
            dsimp only
            omega)
        dsimp only at hdiff hmono hsub
        refine ⟨?_, by omega, hmax', hsent', (Finset.subset_insert ..).trans hsub⟩
        rw [hdiff, hcard]
        push_cast
        omega

/-- A timer of a query in `m_query` ends. -/
theorem QueryInv.erase (h : QueryInv q) {x : Id} (hx : x ∈ q.timers) :
    q.numQuery - 1 = (q.timers.erase x).card ∧ q.timers.erase x ⊆ q.sent := by
  have hcard := Finset.card_erase_of_mem hx
  have hpos := Finset.card_pos.mpr ⟨x, hx⟩
  refine ⟨?_, ?_⟩
  · rw [h.count, hcard]
    omega
  · rcases h.sent with hsent | ⟨hzero, -⟩
    · exact (Finset.erase_subset ..).trans hsent
    · rw [hzero] at hx ⊢
      rw [Finset.mem_singleton.mp hx, Finset.erase_singleton]
      exact Finset.empty_subset _

theorem eq_singleton_of_erase {timers : Finset Id} {x : Id} (hx : x ∈ timers)
    (h : timers.erase x = ∅) : timers = {x} := by
  rw [← Finset.insert_erase hx, h]
  rfl

end

/-! ### What an event does to `m_query` -/

section
variable {s : Queries} {i : Queries.Input} {n : BitVec 32} {q q' : Query} {c : Called}

/-- `send_find` on a query whose counts are right ends it only where it waits for nobody. -/
theorem sendFind_ready (h : Ready q) :
    (q.timers = ∅ ∧ s.sendFind n q = s.finish n (q.sendFindLoop q.nodes).failed) ∨
      ∃ q', QueryInv q' ∧ s.sendFind n q = { s with query := s.query.insert n q' } := by
  obtain ⟨hdiff, hmono, hmax, hsent, hsub⟩ := sendFindLoop_books q.nodes h.sent h.le
  have hcount : (q.sendFindLoop q.nodes).numQuery = (q.sendFindLoop q.nodes).timers.card := by
    have := h.count
    omega
  -- The count is that of the timers, so a count of 0 leaves none.
  by_cases hzero : (q.sendFindLoop q.nodes).numQuery = 0
  · left
    refine ⟨?_, by simp [Queries.sendFind, hzero]⟩
    have hempty : (q.sendFindLoop q.nodes).timers = ∅ := Finset.card_eq_zero.mp (by omega)
    exact Finset.subset_empty.mp (hempty ▸ hsub)
  · right
    exact ⟨q.sendFindLoop q.nodes, ⟨hcount, by omega, hmax, Or.inl hsent⟩,
      by simp [Queries.sendFind, hzero]⟩

/-- `send_find` on a query that counts less than its timers does not make it right. -/
theorem sendFind_short (hcount : q.numQuery ≠ q.timers.card) (hsent : q.timers ⊆ q.sent)
    (hle : q.numQuery ≤ maxQuery) :
    (∃ c, s.sendFind n q = s.finish n c) ∨
      ∃ q', q'.numQuery ≠ q'.timers.card ∧
        s.sendFind n q = { s with query := s.query.insert n q' } := by
  obtain ⟨hdiff, -⟩ := sendFindLoop_books q.nodes hsent hle
  by_cases hzero : (q.sendFindLoop q.nodes).numQuery = 0
  · exact Or.inl ⟨_, by simp only [Queries.sendFind, hzero, if_true]; rfl⟩
  · right
    exact ⟨q.sendFindLoop q.nodes, by omega, by simp [Queries.sendFind, hzero]⟩

/-- The event keeps the books and the invariant. -/
def Keeps (s : Queries) (i : Queries.Input) (s' : Queries) : Prop :=
  Booked s i s' ∧ QueriesInv s'

theorem QueriesInv.counts (hs : QueriesInv s) (m : BitVec 32) (p : Query)
    (hp : s.query.lookup m = some p) :
    p.numQuery = p.timers.card ∧ 1 ≤ p.numQuery ∧ p.numQuery ≤ maxQuery :=
  ⟨(hs m p hp).count, (hs m p hp).pos, (hs m p hp).le⟩

theorem QueriesInv.insert (hs : QueriesInv s) (hq : QueryInv q) :
    QueriesInv { s with query := s.query.insert n q } := by
  intro m p hp
  rcases lookup_insert_eq_some.mp hp with ⟨-, rfl⟩ | ⟨-, hp⟩
  · exact hq
  · exact hs m p hp

/-- An event in which a query is made or goes on. -/
theorem keeps_insert (hs : QueriesInv s) (hq : QueryInv q) :
    Keeps s i { s with query := s.query.insert n q } := by
  have hinv : QueriesInv { s with query := s.query.insert n q } := hs.insert hq
  refine ⟨⟨hinv.counts, ?_, ?_⟩, hinv⟩
  · intro m p hp
    have hlive : (s.query.insert n q).lookup m ≠ none := by
      by_cases hm : m = n
      · simp [hm]
      · simp [AList.lookup_insert_ne hm, hp]
    simp [hlive]
  · intro m p c _ hc
    simp at hc

/-- An event that changes nothing. -/
theorem keeps_same (hs : QueriesInv s) : Keeps s i s := by
  refine ⟨⟨hs.counts, ?_, ?_⟩, hs⟩
  · intro m p hp
    simp [hp]
  · intro m p c _ hc
    simp at hc

/-- An event in which a callback function is called, and its query is not in `m_query` any
more. -/
theorem keeps_call {s' : Queries} (hs : QueriesInv s) (hcalled : s'.called = s.called ++ [(n, c)])
    (hself : s'.query.lookup n = none)
    (hother : ∀ m, m ≠ n → s'.query.lookup m = s.query.lookup m)
    (hsettled : ∀ q, s.query.lookup n = some q →
      ∃ x, Settles n q x i ∧ (q.timers = {x} ∨ IsFound c)) :
    Keeps s i s' := by
  have hinv : QueriesInv s' := by
    intro m p hp
    by_cases hm : m = n
    · rw [hm, hself] at hp
      cases hp
    · exact hs m p (hother m hm ▸ hp)
  refine ⟨⟨hinv.counts, ?_, ?_⟩, hinv⟩
  · intro m p hp
    by_cases hm : m = n
    · subst hm
      simp [hself, hcalled]
    · simp [hother m hm, hp, hcalled, Ne.symm hm]
  · intro m p d hp hd
    simp only [hcalled, List.append_cancel_left_eq, List.cons.injEq, Prod.mk.injEq, and_true] at hd
    obtain ⟨rfl, rfl⟩ := hd
    exact hsettled p hp

theorem keeps_finish (hs : QueriesInv s)
    (hsettled : ∀ q, s.query.lookup n = some q →
      ∃ x, Settles n q x i ∧ (q.timers = {x} ∨ IsFound c)) :
    Keeps s i (s.finish n c) :=
  keeps_call hs rfl (AList.lookup_erase ..) (fun _ hm => AList.lookup_erase_ne hm) hsettled

/-- `send_find` after a query has heard from the node `x`, or not. -/
theorem keeps_sendFind (hs : QueriesInv s) (hlive : s.query.lookup n = some q) {x : Id}
    (hx : x ∈ q.timers) (hsettles : Settles n q x i) (hready : Ready q')
    (htimers : q'.timers = q.timers.erase x) : Keeps s i (s.sendFind n q') := by
  rcases sendFind_ready (s := s) (n := n) hready with ⟨hempty, hfinish⟩ | ⟨p, hp, hinsert⟩
  · rw [hfinish]
    refine keeps_finish hs fun p hp => ⟨x, ?_⟩
    obtain rfl : q = p := Option.some.inj (hlive.symm.trans hp)
    exact ⟨hsettles, Or.inl (eq_singleton_of_erase hx (htimers ▸ hempty))⟩
  · rw [hinsert]
    exact keeps_insert hs hp

/-! ### The events that keep the books -/

theorem findNv_keeps (hs : QueriesInv s) (hnew : s.query.lookup n = none) (dst : Id)
    (isFindValue : Bool) (nodes : List Cageaddr) :
    Keeps s i (s.findNv dst isFindValue nodes n) := by
  have hnone : ∀ c q, s.query.lookup n = some q →
      ∃ x, Settles n q x i ∧ (q.timers = {x} ∨ IsFound c) := by
    intro c q hq
    rw [hnew] at hq
    cases hq
  rw [Queries.findNv]
  split
  · exact keeps_call hs rfl hnew (fun _ _ => rfl) (hnone _)
  · have hready : Ready (⟨nodes, ∅, {s.id}, dst, 0, isFindValue⟩ : Query) :=
      ⟨rfl, (by decide : (0 : Int) ≤ maxQuery), Finset.empty_subset _⟩
    rcases sendFind_ready (s := s) (n := n) hready with ⟨-, hfinish⟩ | ⟨p, hp, hinsert⟩
    · rw [hfinish]
      exact keeps_finish hs (hnone _)
    · rw [hinsert]
      exact keeps_insert hs hp

theorem findNode_keeps (hs : QueriesInv s) : Keeps s i (s.findNode n) :=
  keeps_insert hs
    ⟨rfl, Int.le_refl 1, (by decide : (1 : Int) ≤ maxQuery), Or.inr ⟨rfl, rfl⟩⟩

theorem timerQuery_keeps (hs : QueriesInv s) (hlive : s.query.lookup n = some q) {x : Id}
    (hx : x ∈ q.timers) : Keeps s (.timerQuery n x) (s.timerQuery n q x) := by
  have hq : QueryInv q := hs n q hlive
  obtain ⟨hcount, hsent⟩ := hq.erase hx
  have hready : Ready (q.timedOut x) :=
    ⟨hcount, by have := hq.le; dsimp only [Query.timedOut]; omega,
      hsent.trans (Finset.subset_insert ..)⟩
  exact keeps_sendFind hs hlive hx ⟨rfl, hx, rfl⟩ hready rfl

/-- A query that has stopped a timer and counted the answer. -/
theorem QueryInv.heard (hq : QueryInv q) {x : Id} (hx : x ∈ q.timers) (src : Id)
    (nodes : List Cageaddr) : Ready (((q.stopTimer x).heard src).merge nodes) := by
  obtain ⟨hcount, hsent⟩ := hq.erase hx
  refine ⟨hcount, ?_, hsent.trans (Finset.subset_insert ..)⟩
  have := hq.le
  dsimp only [Query.merge, Query.heard, Query.stopTimer]
  omega

/-- The timer that a reply to a `find_node` stops is the one of its sender, or that of an
address. -/
theorem Settles.findNodeReply {reply : FindNodeReply} {sender : Sender} {x : Id}
    (hx : x ∈ q.timers) (hid : (if reply.src ∈ q.timers then reply.src else 0) = x) :
    Settles reply.nonce q x (.findNodeReply reply sender) := by
  refine ⟨rfl, hx, ?_⟩
  rw [← hid]
  split
  · exact Or.inl rfl
  · exact Or.inr rfl

theorem findNodeReply_keeps (hs : QueriesInv s) (reply : FindNodeReply) (sender : Sender)
    (hok : Regular s (.findNodeReply reply sender)) :
    Keeps s (.findNodeReply reply sender) (s.recvFindNodeReply reply sender) := by
  rw [Queries.recvFindNodeReply]
  cases hlive : s.query.lookup reply.nonce with
  | none => exact keeps_same hs
  | some q =>
    dsimp only
    split
    · exact keeps_same hs
    · rename_i hours
      push Not at hours
      obtain ⟨hdst, hid, hkind⟩ := hours
      set x := if reply.src ∈ q.timers then reply.src else 0 with hx
      -- A reply that stops no timer is ignored.
      by_cases hpending : x ∈ q.timers
      · have hasked : reply.src ∈ q.timers ∨ 0 ∈ q.timers := by
          by_cases hsrc : reply.src ∈ q.timers
          · exact Or.inl hsrc
          · rw [hx, if_neg hsrc] at hpending
            exact Or.inr hpending
        obtain ⟨nodes, hnodes⟩ := Option.ne_none_iff_exists'.mp
          (hok q hlive hdst hid (by simpa using hkind) hasked)
        simp only [hpending, not_true, if_false, hnodes]
        exact keeps_sendFind hs hlive hpending (Settles.findNodeReply hpending hx.symm)
          ((hs _ q hlive).heard hpending reply.src nodes) rfl
      · simp only [hpending, not_false_eq_true, if_true]
        exact keeps_same hs

theorem findValueReply_keeps (hs : QueriesInv s) (reply : FindValueReply) (sender : Sender)
    (hok : Regular s (.findValueReply reply sender)) :
    Keeps s (.findValueReply reply sender) (s.recvFindValueReply reply sender) := by
  rw [Queries.recvFindValueReply]
  cases hlive : s.query.lookup reply.nonce with
  | none => exact keeps_same hs
  | some q =>
    dsimp only
    split
    · exact keeps_same hs
    · rename_i hours
      push Not at hours
      obtain ⟨hdst, hid, hkind⟩ := hours
      have hanswer := hok q hlive hdst hid (by simpa using hkind)
      by_cases hpending : reply.src ∈ q.timers
      · obtain ⟨nodes, hnodes⟩ := Option.ne_none_iff_exists'.mp (hanswer.mp hpending)
        have hsettles : Settles reply.nonce q reply.src (.findValueReply reply sender) :=
          ⟨rfl, hpending, rfl⟩
        have hsendFind : Keeps s (.findValueReply reply sender) (s.sendFind reply.nonce
            (((q.stopTimer reply.src).heard reply.src).merge nodes)) :=
          keeps_sendFind hs hlive hpending hsettles
            ((hs _ q hlive).heard hpending reply.src nodes) rfl
        simp only [hpending, if_true, hnodes]
        split
        · split
          · -- The node has been found, whoever else was asked.
            refine keeps_finish hs fun p hp => ⟨reply.src, ?_, Or.inr ⟨_, rfl⟩⟩
            obtain rfl : q = p := Option.some.inj (hlive.symm.trans hp)
            exact hsettles
          · exact hsendFind
        · exact hsendFind
      · -- The sender has no timer, and the reply is not as long as it says: nothing is counted.
        have hnone := not_imp_comm.mp hanswer.mpr hpending
        simp only [hpending, if_false, hnone]
        exact keeps_insert hs (hs _ q hlive)

/-- One event without an irregular reply. -/
theorem step_keeps {s' : Queries} (hs : QueriesInv s) (hok : Regular s i)
    (hstep : s.step i = .ok s') : Keeps s i s' := by
  cases i with
  | findNv dst isFindValue nodes nonce =>
    rw [Queries.step] at hstep
    split at hstep
    · rename_i hnew
      exact Except.ok.inj hstep ▸ findNv_keeps hs hnew.2 dst isFindValue nodes
    · exact Except.ok.inj hstep ▸ keeps_same hs
  | findNode nonce =>
    rw [Queries.step] at hstep
    split at hstep
    · exact Except.ok.inj hstep ▸ findNode_keeps hs
    · exact Except.ok.inj hstep ▸ keeps_same hs
  | timerQuery nonce id =>
    rw [Queries.step] at hstep
    split at hstep
    · exact Except.ok.inj hstep ▸ keeps_same hs
    · rename_i hlive
      split at hstep
      · rename_i hid
        exact Except.ok.inj hstep ▸ timerQuery_keeps hs hlive hid
      · exact Except.ok.inj hstep ▸ keeps_same hs
  | findNodeReply reply sender =>
    exact Except.ok.inj hstep ▸ findNodeReply_keeps hs reply sender hok
  | findValueReply reply sender =>
    exact Except.ok.inj hstep ▸ findValueReply_keeps hs reply sender hok

/-! ### The events that break the books -/

theorem not_booked_insert (hcount : q.numQuery ≠ q.timers.card) :
    ¬ Booked s i { s with query := s.query.insert n q } :=
  fun h => hcount (h.counts n q (AList.lookup_insert ..)).1

theorem not_booked_finish (hlive : s.query.lookup n = some q) (hno : ∀ x, ¬ Settles n q x i) :
    ¬ Booked s i (s.finish n c) := by
  intro h
  obtain ⟨x, hx, -⟩ := h.due n q c hlive rfl
  exact hno x hx

/-- A query that has stopped a timer and has not counted the answer. -/
theorem QueryInv.stopTimer_short (hq : QueryInv q) {x : Id} (hx : x ∈ q.timers) :
    (q.stopTimer x).numQuery ≠ (q.stopTimer x).timers.card := by
  obtain ⟨hcount, -⟩ := hq.erase hx
  dsimp only [Query.stopTimer]
  omega

/-- A query that has counted an answer that it did not wait for ends too early, or counts one
too few. -/
theorem not_booked_unsolicited (hs : QueriesInv s) (hlive : s.query.lookup n = some q)
    (hkind : q.isFindValue = true) (hno : ∀ x, ¬ Settles n q x i) (src : Id)
    (nodes : List Cageaddr) : ¬ Booked s i (s.sendFind n ((q.heard src).merge nodes)) := by
  have hq : QueryInv q := hs n q hlive
  -- Only a query for nodes has the timer of an address.
  have hsent : q.timers ⊆ q.sent := by
    rcases hq.sent with hsent | ⟨-, haddress⟩
    · exact hsent
    · rw [hkind] at haddress
      cases haddress
  have hcount : ((q.heard src).merge nodes).numQuery ≠ ((q.heard src).merge nodes).timers.card := by
    have := hq.count
    dsimp only [Query.merge, Query.heard]
    omega
  have hle : ((q.heard src).merge nodes).numQuery ≤ maxQuery := by
    have := hq.le
    dsimp only [Query.merge, Query.heard]
    omega
  rcases sendFind_short (s := s) (n := n) hcount (hsent.trans (Finset.subset_insert ..)) hle with
    ⟨c, hfinish⟩ | ⟨p, hp, hinsert⟩
  · rw [hfinish]
    exact not_booked_finish hlive hno
  · rw [hinsert]
    exact not_booked_insert hp

theorem findNodeReply_breaks (hs : QueriesInv s) (reply : FindNodeReply) (sender : Sender)
    (hnot : ¬ Regular s (.findNodeReply reply sender)) :
    ¬ Booked s (.findNodeReply reply sender) (s.recvFindNodeReply reply sender) := by
  simp only [Regular, not_forall] at hnot
  obtain ⟨q, hlive, hdst, hid, hkind, hasked, hread⟩ := hnot
  have hpending : (if reply.src ∈ q.timers then reply.src else 0) ∈ q.timers := by
    split
    · assumption
    · rename_i hsrc
      exact hasked.resolve_left hsrc
  rw [not_not] at hread
  rw [Queries.recvFindNodeReply]
  simp only [hlive, hdst, hid, hkind, hpending, hread, ne_eq, not_true, false_or, if_false,
    Bool.false_eq_true]
  exact not_booked_insert ((hs _ q hlive).stopTimer_short hpending)

theorem findValueReply_breaks (hs : QueriesInv s) (reply : FindValueReply) (sender : Sender)
    (hnot : ¬ Regular s (.findValueReply reply sender)) :
    ¬ Booked s (.findValueReply reply sender) (s.recvFindValueReply reply sender) := by
  simp only [Regular, not_forall] at hnot
  obtain ⟨q, hlive, hdst, hid, hkind, hanswer⟩ := hnot
  rw [Queries.recvFindValueReply]
  simp only [hlive, hdst, hid, hkind, ne_eq, not_true, or_false, if_false]
  by_cases hpending : reply.src ∈ q.timers
  · -- The node was asked, and nothing can be read: the timer stops, and the query counts on.
    have hnone : readValueNodes sender reply.domain reply.num reply.addrs = none := by
      by_contra hread
      exact hanswer (iff_of_true hpending hread)
    simp only [hpending, if_true, hnone]
    exact not_booked_insert ((hs _ q hlive).stopTimer_short hpending)
  · -- The node is not asked, or not any more, and what it says is taken.
    have hread : readValueNodes sender reply.domain reply.num reply.addrs ≠ none := by
      intro hnone
      exact hanswer (iff_of_false hpending fun h => h hnone)
    obtain ⟨nodes, hnodes⟩ := Option.ne_none_iff_exists'.mp hread
    have hno : ∀ x, ¬ Settles reply.nonce q x (.findValueReply reply sender) :=
      fun x hx => hpending hx.2.1
    have hunsolicited := not_booked_unsolicited hs hlive hkind hno reply.src nodes
    simp only [hpending, if_false, hnodes]
    split
    · split
      · exact not_booked_finish hlive hno
      · exact hunsolicited
    · exact hunsolicited

/-- One event that is an irregular reply. -/
theorem step_breaks (hs : QueriesInv s) (hnot : ¬ Regular s i) :
    ∃ s', s.step i = .ok s' ∧ ¬ Booked s i s' := by
  cases i with
  | findNv | findNode | timerQuery => exact absurd trivial hnot
  | findNodeReply reply sender => exact ⟨_, rfl, findNodeReply_breaks hs reply sender hnot⟩
  | findValueReply reply sender => exact ⟨_, rfl, findValueReply_breaks hs reply sender hnot⟩

end

/-- The books are kept, in all orders of events, exactly where every reply that a query takes
is the answer of a node that it waits for. -/
theorem booked_iff_regular (id : Id) (isEnabled : Bool) (is : List Queries.Input) :
    Steps Queries.step Booked (.init id isEnabled) is ↔
      Allowed Queries.step Regular (.init id isEnabled) is := by
  refine steps_iff_allowed QueriesInv ?_ ?_ ?_ is
  · intro s i s' hs hok hstep
    exact step_keeps hs hok hstep
  · intro s i hs hnot
    exact step_breaks hs hnot
  · intro n q hq
    cases hq

/-- The nodes 2 and 3. -/
def askedNodes : List Cageaddr := [⟨2, .inet 9 2⟩, ⟨3, .inet 9 3⟩]

/-- The reply of the node 2, which knows nobody. -/
def emptyReply : FindValueReply := ⟨2, 1, 7, 5, domainInet, 0, 0, []⟩

/-- The sender of the reply. -/
def replySender : Sender := ⟨.inet 9 2, fun _ => false⟩

/-- The node 1 looks for the node 5, and the node 2 has answered. -/
def answered : Queries :=
  ((Queries.init 1 true).findNv 5 true askedNodes 7).recvFindValueReply emptyReply replySender

/-- A second copy of the reply ends the lookup, and the node 3 has not answered. -/
theorem duplicate_ends_lookup : ¬ Steps Queries.step Booked (.init 1 true)
    [.findNv 5 true askedNodes 7, .findValueReply emptyReply replySender,
      .findValueReply emptyReply replySender] := by
  intro h
  obtain ⟨-, h⟩ := h _ rfl
  obtain ⟨-, h⟩ := h answered rfl
  obtain ⟨h, -⟩ := h _ rfl
  -- Between the copies, only the timer of the node 3 runs.
  have hwaits : (answered.query.lookup 7).map Query.timers = some {3} := by decide +kernel
  obtain ⟨q, hlive, htimers⟩ := Option.map_eq_some_iff.mp hwaits
  obtain ⟨x, ⟨-, hmem, -⟩, -⟩ := h.due 7 q (.value false none) hlive (by decide +kernel)
  rw [htimers] at hmem
  exact absurd hmem (by decide)

end Libcage.Proofs.DtunQuery
