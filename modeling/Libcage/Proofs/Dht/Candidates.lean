import Libcage.Proofs.Dht.Reports
import Libcage.Proofs.Dht.Search
import Libcage.Proofs.Dht.Wakeups

/-!
# `Libcage.Proofs.Dht.Candidates`: what the queries have when they end

`Watched` is the queries with a record for each of them: the nodes that it was told of, by the
routing table that it began with and by replies, those whose timers were over, and those whose
timers were stopped. The event decides what is noted (`notes`), with the conditions of its
handler.

The list of a query in `m_query` is one of `Candidates` for its record (`Searching`), whatever
the order of the events. `lookups_end_searched` is what follows for a query that is called
back with nodes or without a value.
-/

set_option autoImplicit false

namespace Libcage.Proofs.Dht

open Libcage.Lib
open Libcage.Dht
open Libcage.Rdp (Id Table)

/-- What happened to a query: the ids it was told, those that were silent until their timers
were over, those whose timers were stopped by a reply, and the one that stands for an address. -/
structure Record where
  told : Finset Id
  silent : Finset Id
  answered : Finset Id
  address : Finset Id

/-- More of it. -/
def Record.add (k k' : Record) : Record :=
  ⟨k.told ∪ k'.told, k.silent ∪ k'.silent, k.answered ∪ k'.answered, k.address ∪ k'.address⟩

/-- The nodes in a reply. -/
def idsIn (nodes : Option (List Cageaddr)) : List Id := (nodes.getD []).map Cageaddr.id

/-- A query takes a reply to `find_node`. -/
def TakesNodes (s : Queries) (r : Nat) (reply : FindNodeReply) : Prop :=
  s.query.lookup reply.nonce = some r ∧ reply.dst = s.id ∧ (s.obj r).dst = reply.id ∧
    (s.obj r).isFindValue = false ∧ (reply.src ∈ (s.obj r).timers ∨ 0 ∈ (s.obj r).timers)

instance (s : Queries) (r : Nat) (reply : FindNodeReply) : Decidable (TakesNodes s r reply) := by
  unfold TakesNodes
  infer_instance

/-- A query takes a reply to `find_value`. -/
def TakesValue (s : Queries) (r : Nat) (reply : FindValueReply) : Prop :=
  s.query.lookup reply.nonce = some r ∧ reply.dst = s.id ∧ (s.obj r).dst = reply.id ∧
    (reply.src ∈ (s.obj r).timers → (s.obj r).isFindValue = true)

instance (s : Queries) (r : Nat) (reply : FindValueReply) : Decidable (TakesValue s r reply) := by
  unfold TakesValue
  infer_instance

/-- The ids that an event tells a query. -/
def toldBy (s : Queries) (r : Nat) : Queries.Input → List Id
  | .findNodeReply reply sender =>
      if TakesNodes s r reply then
        idsIn (readNodes sender reply.domain reply.num reply.addrs)
      else
        []
  | .findValueReply _ reply sender _ =>
      if TakesValue s r reply ∧ reply.flag = dataAreNodes ∧ 4 ≤ reply.data.length then
        idsIn (readNodes sender (rd16 reply.data 0) (byteAt reply.data 2) (reply.data.drop 4))
      else
        []
  | _ => []

/-- The contacts and the own id, for a query that begins with a routing table. -/
def startsWith : Option Rttable → Finset Id
  | some t => insert t.id t.nodes
  | none => ∅

/-- What is noted of an event for a query. The routing tables are those that the queries begin
with, and there is none for one that begins with an address. -/
def notes (tables : Nat → Option Rttable) (s : Queries) (i : Queries.Input) (r : Nat) : Record :=
  match i with
  | .findNv _ _ _ _ nonce =>
      if s.query.lookup nonce = none ∧ r = s.size then ⟨startsWith (tables r), ∅, ∅, ∅⟩
      else ⟨∅, ∅, ∅, ∅⟩
  | .findNode _ nonce =>
      if s.query.lookup nonce = none ∧ r = s.size then ⟨∅, ∅, ∅, {0}⟩ else ⟨∅, ∅, ∅, ∅⟩
  | .timerQuery r' id =>
      if r' = r ∧ r < s.size ∧ id ∈ (s.obj r).timers then ⟨∅, {id}, ∅, ∅⟩ else ⟨∅, ∅, ∅, ∅⟩
  | .findNodeReply reply _ =>
      if TakesNodes s r reply then
        ⟨(toldBy s r i).toFinset, ∅,
          {reply.src, if reply.src ∈ (s.obj r).timers then reply.src else 0}, ∅⟩
      else
        ⟨∅, ∅, ∅, ∅⟩
  | .findValueReply _ reply _ _ =>
      if TakesValue s r reply then
        ⟨(toldBy s r i).toFinset, ∅, (s.obj r).timers.filter (· = reply.src), ∅⟩
      else
        ⟨∅, ∅, ∅, ∅⟩
  | _ => ⟨∅, ∅, ∅, ∅⟩

/-- The queries of a node and their records. -/
structure Watched where
  queries : Queries
  record : Nat → Record

namespace Watched

/-- A node without queries. -/
def init (id : Id) (isUseRdp : Bool) (uninit : Query) : Watched :=
  ⟨Queries.init id isUseRdp uninit, fun _ => ⟨∅, ∅, ∅, ∅⟩⟩

/-- One event, which is noted. -/
def step (tables : Nat → Option Rttable) (w : Watched) (i : Queries.Input) :
    Except QueryFault Watched := do
  let s ← w.queries.step i
  return ⟨s, fun r => (w.record r).add (notes tables w.queries i r)⟩

end Watched

/-- A query for nodes begins with what a lookup finds in the table, or with an address. -/
def Begins (tables : Nat → Option Rttable) (s : Queries) : Queries.Input → Prop
  | .findNv _ dst _ nodes _ => ∃ t, tables s.size = some t ∧ t.id = s.id ∧
      RowsOk t.id t.table t.nodes ∧
      ∃ rounds, 160 < rounds ∧ t.lookup rounds dst numFindNode [] = .ok nodes
  | .findNode _ _ => tables s.size = none
  | _ => True

/-- What the events bring: a query for nodes takes no hint of values, the queries begin with
what they should, and no reply names a node twice. -/
def Fair (tables : Nat → Option Rttable) (s : Queries) (i : Queries.Input) : Prop :=
  ¬ Opens s i ∧ Begins tables s i ∧ ∀ r, (toldBy s r i).Nodup

/-- A callback function is called with nodes, or because there is no value. -/
def WithoutValue (c : Called) : Prop := ∀ vset, c ≠ .value true vset

/-- A search that goes on. -/
structure Searching (own : Id) (k : Record) (q : Query) : Prop where
  candidates : Candidates (distance q.dst) numFindNode k.told k.silent (q.nodes.map Cageaddr.id)
  silent : k.silent ⊆ q.sent
  sent : q.sent ⊆ insert own (k.answered ∪ k.silent ∪ q.timers)
  timers : q.timers ⊆ k.told ∪ k.address

/-- A search that is over. Every node that it has was asked, and no timer runs. -/
structure Searched (own : Id) (k : Record) (q : Query) (c : Called) : Prop where
  candidates : Candidates (distance q.dst) numFindNode k.told k.silent (q.nodes.map Cageaddr.id)
  silent : k.silent ⊆ q.sent
  sent : q.sent ⊆ insert own (k.answered ∪ k.silent)
  asked : ∀ addr ∈ q.nodes, addr.id ∈ q.sent
  called : c = Queries.failed q

/-- The invariant of the records. -/
structure Recorded (record : Nat → Record) (s : Queries) : Prop where
  fresh : ∀ r, s.size ≤ r → record r = ⟨∅, ∅, ∅, ∅⟩
  live : ∀ r, Live s r → Searching s.id (record r) (s.obj r)
  failed : ∀ p ∈ s.called, WithoutValue p.2 → Searched s.id (record p.1) (s.obj p.1) p.2

/-! ### The operations -/

section
variable {s s' : Queries} {r : Nat} {q q' : Query} {own : Id} {k : Record}
  {record record' : Nat → Record}

@[simp] theorem Record.add_none (k : Record) : k.add ⟨∅, ∅, ∅, ∅⟩ = k := by
  simp [Record.add]

/-- What the loop of `send_find` does to a search. -/
structure AskedMore (todo : List Cageaddr) (q q' : Query) : Prop where
  nodes : q'.nodes = q.nodes
  dst : q'.dst = q.dst
  before : q.sent ⊆ q'.sent
  sent : q'.sent ⊆ q.sent ∪ q'.timers
  timers : q.timers ⊆ q'.timers
  asked : q'.timers ⊆ q.timers ∪ (todo.map Cageaddr.id).toFinset

theorem AskedMore.refl (nodes : List Cageaddr) (q : Query) : AskedMore nodes q q :=
  ⟨rfl, rfl, Finset.Subset.refl _, Finset.subset_union_left, Finset.Subset.refl _,
    Finset.subset_union_left⟩

theorem sendFindLoop_askedMore (nodes : List Cageaddr) (q : Query) :
    AskedMore nodes q (Queries.sendFindLoop nodes q) := by
  induction nodes generalizing q with
  | nil => exact .refl [] q
  | cons addr nodes ih =>
    rw [Queries.sendFindLoop]
    split
    · exact .refl _ q
    · have hmore : (nodes.map Cageaddr.id).toFinset ⊆
          ((addr :: nodes).map Cageaddr.id).toFinset := by
        rw [List.map_cons, List.toFinset_cons]
        exact Finset.subset_insert ..
      split
      · obtain ⟨hnodes, hdst, hbefore, hsent, htimers, hasked⟩ := ih q
        exact ⟨hnodes, hdst, hbefore, hsent, htimers,
          hasked.trans (Finset.union_subset_union_right hmore)⟩
      · obtain ⟨hnodes, hdst, hbefore, hsent, htimers, hasked⟩ := ih { q with
          timers := insert addr.id q.timers
          sent := insert addr.id q.sent
          numQuery := q.numQuery + 1 }
        dsimp only at hnodes hdst hbefore hsent htimers hasked
        refine ⟨hnodes, hdst, (Finset.subset_insert ..).trans hbefore, ?_,
          (Finset.subset_insert ..).trans htimers, ?_⟩
        · intro x hx
          have hin := hsent hx
          rw [Finset.insert_union, Finset.mem_insert] at hin
          rcases hin with rfl | hin
          · exact Finset.mem_union_right _ (htimers (Finset.mem_insert_self ..))
          · exact hin
        · intro x hx
          have hin := hasked hx
          simp only [Finset.mem_union, Finset.mem_insert, List.map_cons, List.toFinset_cons]
            at hin ⊢
          tauto

/-- Nothing happens where every node was asked. -/
theorem sendFindLoop_of_sent {nodes : List Cageaddr} (h : ∀ addr ∈ nodes, addr.id ∈ q.sent) :
    Queries.sendFindLoop nodes q = q := by
  induction nodes with
  | nil => rfl
  | cons addr nodes ih =>
    rw [Queries.sendFindLoop]
    split
    · rfl
    · rw [if_pos (h addr (List.mem_cons_self ..))]
      exact ih fun a ha => h a (List.mem_cons_of_mem _ ha)

theorem Searching.askedMore (h : Searching own k q) (hasked : AskedMore q.nodes q q') :
    Searching own k q' where
  candidates := by
    rw [hasked.nodes, hasked.dst]
    exact h.candidates
  silent := h.silent.trans hasked.before
  sent := by
    intro x hx
    rcases Finset.mem_union.mp (hasked.sent hx) with hx | hx
    · have hin := h.sent hx
      have hmono := Finset.insert_subset_insert own
        (Finset.union_subset_union_right (s := k.answered ∪ k.silent) hasked.timers)
      exact hmono hin
    · simp [hx]
  timers := by
    intro x hx
    rcases Finset.mem_union.mp (hasked.asked hx) with hx | hx
    · exact h.timers hx
    · exact Finset.mem_union_left _ (h.candidates.mem x (List.mem_toFinset.mp hx))

/-- An operation on one query keeps the records of the others. -/
theorem Recorded.of_only (h : Recorded record s) (honly : Only r s s') (hlt : r < s.size)
    (hcalled : ∀ p ∈ s'.called, p ∈ s.called ∨ p.1 = r)
    (hother : ∀ r', r' ≠ r → record' r' = record r')
    (hlive : Live s' r → Searching s.id (record' r) (s'.obj r))
    (hfailed : ∀ c, (r, c) ∈ s'.called → WithoutValue c →
      Searched s.id (record' r) (s'.obj r) c) : Recorded record' s' := by
  constructor
  case fresh =>
    intro r' hr
    rw [honly.size] at hr
    rw [hother r' (by omega), h.fresh r' hr]
  case live =>
    intro r' hl
    rw [honly.id]
    by_cases hr : r' = r
    · subst hr
      exact hlive hl
    · rw [hother r' hr, honly.obj r' hr]
      exact h.live r' (honly.live hl)
  case failed =>
    rintro ⟨r', c⟩ hp hc
    rw [honly.id]
    by_cases hr : r' = r
    · subst hr
      exact hfailed c hp hc
    · rw [hother r' hr, honly.obj r' hr]
      exact h.failed (r', c) ((hcalled _ hp).resolve_right hr) hc

/-- A query that has not been called back. -/
structure Pending (s : Queries) (r : Nat) : Prop where
  live : Live s r
  lt : r < s.size
  called : ∀ c, (r, c) ∉ s.called

theorem Wired.pending (h : Wired s) (hlive : Live s r) : Pending s r :=
  ⟨hlive, h.lt hlive, fun _ hc => h.not_called hlive (List.mem_map_of_mem hc)⟩

theorem Pending.setQuery (h : Pending s r) (hnonce : q.nonce = (s.obj r).nonce) :
    Pending (s.setQuery r q) r :=
  ⟨(live_setQuery hnonce).mpr h.live, h.lt, h.called⟩

/-- A query in `m_query` changes. -/
theorem Recorded.setQuery (h : Recorded record s) (hr : Pending s r)
    (hnonce : q.nonce = (s.obj r).nonce) (hother : ∀ r', r' ≠ r → record' r' = record r')
    (hq : Searching s.id (record' r) q) : Recorded record' (s.setQuery r q) := by
  refine h.of_only (only_setQuery hnonce) hr.lt (fun p hp => Or.inl hp) hother ?_ ?_
  · intro _
    rw [setQuery_self]
    exact hq
  · exact fun c hp => absurd hp (hr.called c)

theorem Recorded.sendFind (h : Recorded record s) (hr : Pending s r)
    (hcount : ((s.obj r).timers.card : Int) ≤ (s.obj r).numQuery) :
    Recorded record (s.sendFind r) := by
  have hsearch := h.live r hr.live
  rcases sendFind_cases s r with ⟨hs, -⟩ | ⟨q, rfl, -, ⟨-, hs⟩ | ⟨hzero, hs⟩⟩
  · rw [hs]
    exact h
  · rw [hs]
    exact h.setQuery hr (sendFindLoop_same ..).nonce (fun _ _ => rfl)
      (hsearch.askedMore (sendFindLoop_askedMore ..))
  · -- Nobody is left to be asked, and no timer runs.
    obtain ⟨hnone, hsent⟩ := (sendFindLoop_zero _ _ (by omega)).mp hzero
    have hstop : (s.obj r).timers = ∅ := Finset.card_eq_zero.mp (by omega)
    have honly := only_sendFind s r
    rw [hs, sendFindLoop_of_sent hsent] at honly ⊢
    have hobj : (((s.setQuery r (s.obj r)).call r (Queries.failed (s.obj r))).removeQuery r).obj r =
        { s.obj r with timers := ∅, timerRecvd := false } := by
      simp [Queries.removeQuery, Queries.call, Queries.setQuery]
    refine h.of_only honly hr.lt ?_ (fun _ _ => rfl) ?_ ?_
    · intro p hp
      rcases List.mem_append.mp hp with hp | hp
      · exact Or.inl hp
      · rw [List.mem_singleton.mp hp]
        exact Or.inr rfl
    · exact fun hl => absurd hl (not_live_removeQuery _ r)
    · intro c hp _
      rw [hobj]
      rcases List.mem_append.mp hp with hp | hp
      · exact absurd hp (hr.called c)
      · have hc : c = Queries.failed (s.obj r) := congrArg Prod.snd (List.mem_singleton.mp hp)
        have hin := hsearch.sent
        rw [hstop, Finset.union_empty] at hin
        exact ⟨hsearch.candidates, hsearch.silent, hin, hsent, hc⟩

/-- The values that have come are reported. -/
theorem Recorded.recvdValue (h : Recorded record s) (hr : Pending s r)
    (hs : s.recvdValue r = .ok s') : Recorded record s' := by
  have honly := only_recvdValue hs
  unfold Queries.recvdValue at hs
  dsimp only at hs
  split at hs
  · have hs := Except.ok.inj hs
    have hdead := not_live_removeQuery (s.call r (.value true (some (s.obj r).get.vset))) r
    rw [hs] at hdead
    refine h.of_only honly hr.lt ?_ (fun _ _ => rfl) (fun hl => absurd hl hdead) ?_
    · intro p hp
      rw [← hs] at hp
      rcases List.mem_append.mp hp with hp | hp
      · exact Or.inl hp
      · rw [List.mem_singleton.mp hp]
        exact Or.inr rfl
    · intro c hp hc
      rw [← hs] at hp
      rcases List.mem_append.mp hp with hp | hp
      · exact absurd hp (hr.called c)
      · exact absurd (congrArg Prod.snd (List.mem_singleton.mp hp)) (hc _)
  · cases hs

/-- Nothing that the records are about changes. -/
theorem Recorded.of_eq (h : Recorded record s) (hid : s'.id = s.id) (hsize : s'.size = s.size)
    (hobj : s'.obj = s.obj) (hquery : s'.query = s.query) (hcalled : s'.called = s.called) :
    Recorded record s' := by
  constructor
  case fresh =>
    rw [hsize]
    exact h.fresh
  case live =>
    intro r hl
    unfold Live at hl
    rw [hobj, hquery] at hl
    rw [hid, hobj]
    exact h.live r hl
  case failed =>
    rw [hcalled, hid, hobj]
    exact h.failed

/-- The parts of a query that a search does not look at change. -/
theorem Recorded.setRest (h : Recorded record s) (hr : Pending s r)
    (hnonce : q.nonce = (s.obj r).nonce) (hnodes : q.nodes = (s.obj r).nodes)
    (hdst : q.dst = (s.obj r).dst) (hsent : q.sent = (s.obj r).sent)
    (htimers : q.timers = (s.obj r).timers) : Recorded record (s.setQuery r q) := by
  apply h.setQuery hr hnonce fun _ _ => rfl
  apply (h.live r hr.live).askedMore
  exact ⟨hnodes, hdst, hsent.ge, hsent.le.trans Finset.subset_union_left, htimers.ge,
    htimers.le.trans Finset.subset_union_left⟩

theorem Recorded.connect (h : Recorded record s) (hr : Pending s r)
    (sport : BitVec 16) (did : Id) (dport : BitVec 16) (desc : Int) :
    Recorded record (s.connect r sport did dport desc) :=
  (h.setRest (q := { s.obj r with
      rdpDesc := if 0 < desc ∧ s.conns.lookup desc = none then desc else -1 })
    hr rfl rfl rfl rfl rfl).of_eq rfl rfl rfl rfl rfl

theorem Recorded.retry (h : Recorded record s) (hr : Pending s r)
    (hcount : ((s.obj r).timers.card : Int) ≤ (s.obj r).numQuery) (now desc : Int) :
    Recorded record (s.retry now r desc) := by
  unfold Queries.retry
  dsimp only
  split
  -- There is another node to get the values from.
  · rename_i id ids hids
    have hrest := h.setRest (q := { s.obj r with ids := ids, rdpTime := now }) hr
      rfl rfl rfl rfl rfl
    exact hrest.connect (hr.setQuery (q := { s.obj r with ids := ids, rdpTime := now }) rfl) ..
  · have hrest := h.setRest (q := { s.obj r with isRdpCon := false }) hr rfl rfl rfl rfl rfl
    refine hrest.sendFind (hr.setQuery (q := { s.obj r with isRdpCon := false }) rfl) ?_
    rw [setQuery_self]
    exact hcount

/-- The connection of a query is closed. -/
theorem Pending.close (h : Pending s r) (desc : Int) : Pending (s.close desc) r :=
  ⟨h.live, h.lt, h.called⟩

theorem Recorded.closeRdp (h : Recorded record s) (hr : Pending s r)
    (hcount : ((s.obj r).timers.card : Int) ≤ (s.obj r).numQuery) {now desc desc' : Int}
    (hs : s.closeRdp now r desc desc' = .ok s') : Recorded record s' := by
  have hclosed : Recorded record (s.close desc) := h.of_eq rfl rfl rfl rfl rfl
  unfold Queries.closeRdp at hs
  dsimp only at hs
  split at hs
  · exact hclosed.recvdValue (hr.close desc) hs
  · rw [← Except.ok.inj hs]
    exact hclosed.retry (hr.close desc) hcount now desc'

theorem Recorded.connected (h : Recorded record s) {now desc : Int} {con : Conn}
    (hr : Pending s con.query) (hs : s.connected now desc con = .ok s') : Recorded record s' := by
  unfold Queries.connected at hs
  dsimp only at hs
  split at hs
  · cases hs
  · rw [← Except.ok.inj hs]
    have hrest := h.setRest (q := { s.obj con.query with
      isRdpCon := true
      rdpDesc := desc
      rdpTime := now
      get := { (s.obj con.query).get with rdpState := .queryHdr } }) hr rfl rfl rfl rfl rfl
    exact hrest.of_eq rfl rfl rfl rfl rfl

theorem Recorded.ready2Read (h : Recorded record s) {now desc : Int} {con : Conn}
    (hr : Pending s con.query)
    (hcount : ((s.obj con.query).timers.card : Int) ≤ (s.obj con.query).numQuery)
    {packets : List (List Byte)} {desc' : Int}
    (hs : s.ready2Read now desc con packets desc' = .ok s') : Recorded record s' := by
  unfold Queries.ready2Read at hs
  dsimp only at hs
  split at hs
  · cases hs
  · rename_i c sent hread
    let q : Query := { s.obj con.query with
      get := c.query
      rdpTime := if c.rqueue.length < (con.rqueue ++ packets).length then now
        else (s.obj con.query).rdpTime }
    have hrest : Recorded record (s.setQuery con.query q) := h.setRest hr rfl rfl rfl rfl rfl
    split at hs
    · refine hrest.closeRdp (hr.setQuery (q := q) rfl) ?_ hs
      rw [setQuery_self]
      exact hcount
    · rw [← Except.ok.inj hs]
      exact hrest.of_eq rfl rfl rfl rfl rfl

theorem Recorded.sweepOne (h : Recorded record s) (hwired : Wired s) {now : Int}
    {nonce : BitVec 32} {desc : Int} (hs : s.sweepOne now nonce desc = .ok s') :
    Recorded record s' := by
  unfold Queries.sweepOne at hs
  split at hs
  · rw [← Except.ok.inj hs]
    exact h
  · rename_i r hr
    have hlive := hwired.live_of_lookup hr
    have hpending := (hwired.pending hlive).close (s.obj r).rdpDesc
    have hclosed : Recorded record (s.close (s.obj r).rdpDesc) := h.of_eq rfl rfl rfl rfl rfl
    dsimp only at hs
    split at hs
    -- The connection was idle for too long.
    · split at hs
      · exact hclosed.recvdValue hpending hs
      · split at hs
        · cases hs
        · rw [← Except.ok.inj hs]
          exact hclosed.retry hpending (hwired.query r hlive).count now desc
    · rw [← Except.ok.inj hs]
      exact h

theorem Recorded.sweepRdp (h : Recorded record s) (hwired : Wired s) {now : Int}
    {desc : BitVec 32 → Int} (hs : s.sweepRdp now desc = .ok s') : Recorded record s' := by
  have hends := sweepRdp_ends (J := fun s => Wired s ∧ Recorded record s) (F := fun _ => True)
    (B := fun _ => False) now desc ?_ hwired.live ⟨hwired, h⟩ fun _ _ hfalse => hfalse
  · exact (hends.of_ok hs).2
  · rintro s n r - ⟨hwired, h⟩ - -
    rcases hwired.sweepOne now n (desc n) with ⟨-, herror⟩ | ⟨-, s', hround, hwired'⟩
    · rw [herror]
      exact Ends.error trivial
    · rw [hround]
      exact Ends.ok ⟨hwired', h.sweepOne hwired hround⟩

/-! ### The events -/

/-- A new query goes into `m_query`. -/
theorem Recorded.enter (h : Recorded record s) (hwired : Wired s)
    (hother : ∀ r', r' ≠ s.size → record' r' = record r')
    (hq : Searching s.id (record' s.size) q) : Recorded record' (s.enter q) := by
  have hself : (s.enter q).obj s.size = q := setQuery_self ..
  have hobj : ∀ r', r' ≠ s.size → (s.enter q).obj r' = s.obj r' := fun r' hr =>
    setQuery_other q hr
  constructor
  case fresh =>
    intro r' hr
    have hr : s.size < r' := hr
    rw [hother r' (by omega), h.fresh r' (by omega)]
  case live =>
    intro r' hl
    by_cases hr : r' = s.size
    · rw [hr, hself]
      exact hq
    · unfold Live at hl
      rw [hobj r' hr] at hl ⊢
      rw [hother r' hr]
      refine h.live r' ?_
      rcases lookup_insert_eq_some.mp hl with ⟨-, heq⟩ | ⟨-, hl⟩
      · exact absurd heq hr
      · exact hl
  case failed =>
    intro p hp hc
    have hr : p.1 ≠ s.size := Nat.ne_of_lt (hwired.called p hp).1
    rw [hobj _ hr, hother _ hr]
    exact h.failed p hp hc

/-- A query that finds somebody to ask. -/
theorem findNv_enters (s : Queries) (uninit : Query) (dst : Id) (key : Option Buf)
    {nodes : List Cageaddr} (nonce : BitVec 32) (hnodes : nodes ≠ []) :
    ∃ q, NewQuery s nonce q ∧ q.nodes = nodes ∧ q.dst = dst ∧ q.sent = {s.id} ∧
      s.findNv uninit dst key nodes nonce = (s.enter q).sendFind s.size := by
  unfold Queries.findNv
  dsimp only
  rw [if_neg hnodes]
  refine ⟨_, ?_, ?_, ?_, ?_, rfl⟩
  · cases key with
    | none =>
      exact ⟨rfl, ⟨by simp [Queries.newQuery], by simp [Queries.newQuery], rfl,
        by simp [Queries.newQuery], by simp [Queries.newQuery]⟩, rfl, rfl, rfl⟩
    | some key =>
      exact ⟨rfl, ⟨by simp [Queries.newQuery], by simp [Queries.newQuery], rfl, by simp,
        by simp [Queries.newQuery]⟩, rfl, rfl, rfl⟩
  · cases key <;> rfl
  · cases key <;> rfl
  · cases key <;> rfl

/-- A query begins with the contacts closest to its id. -/
theorem Recorded.findNv (h : Recorded record s) (hwired : Wired s) {tables : Nat → Option Rttable}
    {uninit : Query} {dst : Id} {key : Option Buf} {nodes : List Cageaddr} {nonce : BitVec 32}
    (hfresh : s.query.lookup nonce = none)
    (hbegins : Begins tables s (.findNv uninit dst key nodes nonce)) :
    Recorded (fun r => (record r).add (notes tables s (.findNv uninit dst key nodes nonce) r))
      (s.findNv uninit dst key nodes nonce) := by
  obtain ⟨t, ht, hid, hrows, rounds, hrounds, hlookup⟩ := hbegins
  obtain ⟨found, hfound, hclosest⟩ := lookup_closest hrows dst hrounds
  rw [← Except.ok.inj (hlookup.symm.trans hfound)] at hclosest
  have hnodes : nodes ≠ [] := by
    rintro rfl
    have hlength := hclosest.length
    have hcard := Finset.card_pos.mpr (Finset.insert_nonempty t.id t.nodes)
    rw [List.map_nil, List.length_nil, numFindNode] at hlength
    omega
  obtain ⟨q, hnew, hqnodes, hdst, hsent, hs⟩ := findNv_enters s uninit dst key nonce hnodes
  obtain ⟨hwired', hlive⟩ := hwired.enter (q := q) (hnew.nonce.symm ▸ hfresh) hnew.ok
  rw [hs]
  refine Recorded.sendFind ?_ (hwired'.pending hlive) (hwired'.query _ hlive).count
  apply h.enter hwired
  · intro r' hr
    rw [notes, if_neg fun hbad => hr hbad.2, Record.add_none]
  · rw [notes, if_pos ⟨hfresh, rfl⟩, h.fresh _ (Nat.le_refl _), ht]
    constructor
    case candidates =>
      rw [hqnodes, hdst]
      simpa [Record.add, startsWith] using hclosest.candidates
    case silent => simp [Record.add]
    case sent => simp [hsent, Record.add]
    case timers => simp [hnew.timers]

theorem Recorded.findNode (h : Recorded record s) (hwired : Wired s)
    {tables : Nat → Option Rttable} (uninit : Query) {nonce : BitVec 32}
    (hfresh : s.query.lookup nonce = none) :
    Recorded (fun r => (record r).add (notes tables s (.findNode uninit nonce) r))
      (s.findNode uninit nonce) := by
  apply h.enter hwired
  · intro r' hr
    rw [notes, if_neg fun hbad => hr hbad.2, Record.add_none]
  · rw [notes, if_pos ⟨hfresh, rfl⟩, h.fresh _ (Nat.le_refl _)]
    exact ⟨candidates_nil _ _, Finset.empty_subset _, Finset.singleton_subset_iff.mpr
      (Finset.mem_insert_self ..), Finset.Subset.refl _⟩

/-- The timer of a node is over, and the node is dropped. -/
theorem Searching.timedOut (h : Searching own k q) (id : Id) :
    Searching own (k.add ⟨∅, {id}, ∅, ∅⟩) (q.timedOut id) where
  candidates := by
    have hsilent : insert id k.silent = k.silent ∪ {id} := by
      rw [Finset.insert_eq, Finset.union_comm]
    have hdrop := h.candidates.drop id
    rw [hsilent] at hdrop
    simp only [Record.add, Finset.union_empty, Query.timedOut]
    split
    · simpa [List.filter_map, Function.comp_def] using hdrop
    · exact h.candidates.mono Finset.subset_union_left
  silent := by
    simp only [Record.add, Query.timedOut]
    intro x hx
    rcases Finset.mem_union.mp hx with hx | hx
    · exact Finset.mem_insert_of_mem (h.silent hx)
    · rw [Finset.mem_singleton.mp hx]
      exact Finset.mem_insert_self ..
  sent := by
    intro x hx
    rcases Finset.mem_insert.mp hx with rfl | hx
    · simp [Record.add]
    · have hin := h.sent hx
      by_cases hxid : x = id
      · simp [Record.add, hxid]
      · simpa [Record.add, Query.timedOut, hxid] using hin
  timers := by
    simpa [Record.add, Query.timedOut] using (Finset.erase_subset id q.timers).trans h.timers

/-- A timer is stopped, and the sender is not asked any more. -/
theorem Searching.heard (h : Searching own k q) {q' : Query} {answered : Finset Id}
    (hnodes : q'.nodes = q.nodes) (hdst : q'.dst = q.dst) (hbefore : q.sent ⊆ q'.sent)
    (hsent : q'.sent ⊆ q.sent ∪ answered) (htimers : q.timers ⊆ q'.timers ∪ answered)
    (hstopped : q'.timers ⊆ q.timers) :
    Searching own (k.add ⟨∅, ∅, answered, ∅⟩) q' where
  candidates := by
    rw [hnodes, hdst]
    simpa [Record.add] using h.candidates
  silent := by
    simpa [Record.add] using h.silent.trans hbefore
  sent := by
    intro x hx
    simp only [Record.add, Finset.mem_insert, Finset.mem_union]
    rcases Finset.mem_union.mp (hsent hx) with hx | hx
    · have hin := h.sent hx
      simp only [Finset.mem_insert, Finset.mem_union] at hin
      have htimer : x ∈ q.timers → x ∈ q'.timers ∨ x ∈ answered := fun ht =>
        Finset.mem_union.mp (htimers ht)
      tauto
    · tauto
  timers := by simpa [Record.add] using hstopped.trans h.timers

/-- The nodes of a reply come into a search. -/
theorem Searching.merge (h : Searching own k q) {nodes : List Cageaddr}
    (hnew : (nodes.map Cageaddr.id).Nodup) :
    Searching own (k.add ⟨(nodes.map Cageaddr.id).toFinset, ∅, ∅, ∅⟩) (q.merge nodes) where
  candidates := by
    have hlearn := h.candidates.learn (merge_closest h.candidates.sorted hnew)
    simpa [Record.add, Query.merge] using hlearn
  silent := by simpa [Record.add, Query.merge] using h.silent
  sent := by simpa [Record.add, Query.merge] using h.sent
  timers := by
    refine h.timers.trans (Finset.union_subset_union Finset.subset_union_left ?_)
    simp [Record.add]

/-! ### Replies -/

theorem notes_of_other {tables : Nat → Option Rttable} {reply : FindNodeReply} {sender : Sender}
    (h : ¬ TakesNodes s r reply) : notes tables s (.findNodeReply reply sender) r = ⟨∅, ∅, ∅, ∅⟩ := by
  rw [notes, if_neg h]

theorem TakesNodes.unique {reply : FindNodeReply} {r' : Nat} (h : TakesNodes s r reply)
    (h' : TakesNodes s r' reply) : r' = r :=
  Option.some.inj (h'.1.symm.trans h.1)

/-- A reply that no query takes. -/
theorem recvFindNodeReply_ignored {reply : FindNodeReply} (h : ∀ r, ¬ TakesNodes s r reply)
    (sender : Sender) : s.recvFindNodeReply reply sender = s := by
  rcases recvFindNodeReply_cases s reply sender with hs | ⟨r, id, hreplies, -⟩
  · exact hs
  · refine absurd ⟨hreplies.query, hreplies.dst, hreplies.dstId, hreplies.isFindValue, ?_⟩ (h r)
    rcases hreplies.src with rfl | rfl
    · exact Or.inl hreplies.timer
    · exact Or.inr hreplies.timer

/-- A reply that a query takes: a timer stops, and the nodes are merged. -/
theorem recvFindNodeReply_taken {reply : FindNodeReply} (h : TakesNodes s r reply)
    (sender : Sender) :
    ∃ id, id = (if reply.src ∈ (s.obj r).timers then reply.src else 0) ∧ id ∈ (s.obj r).timers ∧
      (readNodes sender reply.domain reply.num reply.addrs = none ∧
          s.recvFindNodeReply reply sender =
            s.setQuery r { s.obj r with timers := (s.obj r).timers.erase id } ∨
        ∃ nodes, readNodes sender reply.domain reply.num reply.addrs = some nodes ∧
          s.recvFindNodeReply reply sender =
            (s.setQuery r (((s.obj r).heard id reply.src).merge nodes)).sendFind r) := by
  obtain ⟨hquery, hdst, hid, hkind, htimer⟩ := h
  refine ⟨_, rfl, ?_, ?_⟩
  · split
    · assumption
    · rename_i hsrc
      exact htimer.resolve_left hsrc
  · have hmatch : ¬ (reply.dst ≠ s.id ∨ (s.obj r).dst ≠ reply.id ∨
        (s.obj r).isFindValue = true) := by simp [hdst, hid, hkind]
    have hstops : ¬ (if reply.src ∈ (s.obj r).timers then reply.src else 0) ∉ (s.obj r).timers := by
      split
      · simp_all
      · rename_i hsrc
        simpa using htimer.resolve_left hsrc
    unfold Queries.recvFindNodeReply
    rw [hquery]
    dsimp only
    rw [if_neg hmatch, if_neg hstops]
    cases readNodes sender reply.domain reply.num reply.addrs with
    | none => exact Or.inl ⟨rfl, rfl⟩
    | some nodes => exact Or.inr ⟨nodes, rfl, rfl⟩

/-- What is noted of a reply is for the query that takes it. -/
theorem Recorded.recvFindNodeReply (h : Recorded record s) (hwired : Wired s)
    {tables : Nat → Option Rttable} {reply : FindNodeReply} {sender : Sender}
    (hnodup : ∀ r, (toldBy s r (.findNodeReply reply sender)).Nodup) :
    Recorded (fun r => (record r).add (notes tables s (.findNodeReply reply sender) r))
      (s.recvFindNodeReply reply sender) := by
  by_cases htakes : ∃ r, TakesNodes s r reply
  · obtain ⟨r, htakes⟩ := htakes
    have hlive := hwired.live_of_lookup htakes.1
    have hr := hwired.pending hlive
    have hother : ∀ r', r' ≠ r →
        (record r').add (notes tables s (.findNodeReply reply sender) r') = record r' := by
      intro r' hr
      rw [notes_of_other fun h' => hr (htakes.unique h'), Record.add_none]
    have hnotes : notes tables s (.findNodeReply reply sender) r =
        ⟨(toldBy s r (.findNodeReply reply sender)).toFinset, ∅,
          {reply.src, if reply.src ∈ (s.obj r).timers then reply.src else 0}, ∅⟩ := by
      rw [notes, if_pos htakes]
    have htold : toldBy s r (.findNodeReply reply sender) =
        idsIn (readNodes sender reply.domain reply.num reply.addrs) := by
      rw [toldBy, if_pos htakes]
    obtain ⟨id, hid, htimer, ⟨hnone, hs⟩ | ⟨nodes, hnodes, hs⟩⟩ :=
      recvFindNodeReply_taken htakes sender
    · -- The message is not as long as it says.
      rw [hs]
      apply h.setQuery hr (by rfl) hother
      rw [hnotes, htold, hnone, ← hid]
      show Searching s.id ((record r).add ⟨∅, ∅, {reply.src, id}, ∅⟩) _
      refine (h.live r hlive).heard (by rfl) (by rfl) ?_ ?_ (fun x hx => ?_) ?_
      · exact Finset.Subset.refl _
      · exact Finset.subset_union_left
      · by_cases hxid : x = id
        · simp [hxid]
        · simp [hxid, hx]
      · exact Finset.erase_subset ..
    -- The nodes of the reply go into the list, and the query asks the next ones.
    · rw [hs]
      have hnew := hnodup r
      rw [htold, hnodes] at hnew
      have hsame := (heard_same (s.obj r) id reply.src).trans (merge_same _ nodes)
      refine Recorded.sendFind ?_ (hr.setQuery hsame.nonce) ?_
      rotate_left
      · rw [setQuery_self]
        exact card_erase_le htimer (hwired.query r hlive).count
      apply h.setQuery hr hsame.nonce hother
      rw [hnotes, htold, hnodes, ← hid]
      have hheard : Searching s.id ((record r).add ⟨∅, ∅, {reply.src, id}, ∅⟩)
          ((s.obj r).heard id reply.src) := by
        apply (h.live r hlive).heard (by rfl) (by rfl) (Finset.subset_insert ..)
        · intro x hx
          rcases Finset.mem_insert.mp hx with rfl | hx
          · simp
          · simp [hx]
        · intro x hx
          by_cases hxid : x = id
          · simp [hxid]
          · simp [Query.heard, hxid, hx]
        · exact Finset.erase_subset ..
      simpa [Record.add, idsIn] using hheard.merge hnew
  -- No query takes the reply, and nothing is noted.
  · have hnot : ∀ r, ¬ TakesNodes s r reply := fun r h' => htakes ⟨r, h'⟩
    rw [recvFindNodeReply_ignored hnot sender]
    simpa [notes_of_other (hnot _)] using h

theorem TakesValue.takes {reply : FindValueReply} (h : TakesValue s r reply) : Takes s reply r :=
  ⟨h.1, h.2.1, h.2.2.1, fun hnode hsrc => absurd (h.2.2.2 hsrc) (by simp [hnode])⟩

theorem TakesValue.unique {reply : FindValueReply} {r' : Nat} (h : TakesValue s r reply)
    (h' : TakesValue s r' reply) : r' = r :=
  Option.some.inj (h'.1.symm.trans h.1)

/-- What the events other than a reply with nodes say to a query. -/
theorem notes_of_value {tables : Nat → Option Rttable} {now : Int} {reply : FindValueReply}
    {sender : Sender} {desc : Int} (h : TakesValue s r reply) :
    notes tables s (.findValueReply now reply sender desc) r =
      ⟨(toldBy s r (.findValueReply now reply sender desc)).toFinset, ∅,
        (s.obj r).timers.filter (· = reply.src), ∅⟩ := by
  rw [notes, if_pos h]

/-- The timer of the sender of a value stops. -/
theorem Searching.stopTimer (h : Searching own k q) (src : Id) :
    Searching own (k.add ⟨∅, ∅, q.timers.filter (· = src), ∅⟩) (Queries.stopTimer q src) := by
  unfold Queries.stopTimer
  split
  · rename_i hsrc
    apply h.heard (by rfl) (by rfl) (Finset.subset_insert ..)
    · intro x hx
      rcases Finset.mem_insert.mp hx with rfl | hx
      · simp [hsrc]
      · simp [hx]
    · intro x hx
      by_cases hxid : x = src
      · simp [hxid, hsrc]
      · simp [Query.heard, hxid, hx]
    · exact Finset.erase_subset ..
  · exact h.heard (by rfl) (by rfl) (Finset.Subset.refl _) Finset.subset_union_left
      Finset.subset_union_left (Finset.Subset.refl _)

theorem addValue_dst {reply : FindValueReply} {value : Buf}
    (h : Queries.addValue q reply value = some q') : q'.dst = q.dst := by
  unfold Queries.addValue at h
  dsimp only at h
  split at h
  · cases h
  · rw [← Option.some.inj h]

/-- The data of a reply that is not a list of nodes. -/
theorem Recorded.recvData (h : Recorded record s) (hr : Pending s r)
    {now : Int} {reply : FindValueReply} {sender : Sender} {desc : Int}
    (hnodes : ¬ (reply.flag = dataAreNodes ∧ 4 ≤ reply.data.length ∧
      (readNodes sender (rd16 reply.data 0) (byteAt reply.data 2) (reply.data.drop 4)).isSome))
    (hs : s.recvData now r reply sender desc = .ok s') : Recorded record s' := by
  cases readsData_of_recvData hs with
  | ignored => exact h
  | candidate => exact h.setRest hr (by rfl) (by rfl) (by rfl) (by rfl) (by rfl)
  | connects =>
    have hrest := h.setRest (q := { s.obj r with isRdpCon := true, rdpTime := now }) hr
      rfl rfl rfl rfl rfl
    exact hrest.connect
      (hr.setQuery (q := { s.obj r with isRdpCon := true, rdpTime := now }) rfl) ..
  | values hvalues hadd hs =>
    have hq := addValue_added hadd
    have hrest := h.setRest hr hq.nonce hq.nodes (addValue_dst hadd) hq.sent hq.timers
    exact hrest.recvdValue (hr.setQuery hq.nonce) hs
  | value hvalues hadd =>
    have hq := addValue_added hadd
    exact h.setRest hr hq.nonce hq.nodes (addValue_dst hadd) hq.sent hq.timers
  | @nodes nodes hflag hlong hsome =>
    exact absurd ⟨hflag, hlong, by rw [hsome]; rfl⟩ hnodes

theorem Recorded.recvFindValueReply (h : Recorded record s) (hwired : Wired s)
    {tables : Nat → Option Rttable} {now : Int} {reply : FindValueReply} {sender : Sender}
    {desc : Int} (hnodup : ∀ r, (toldBy s r (.findValueReply now reply sender desc)).Nodup)
    (hs : s.recvFindValueReply now reply sender desc = .ok s') :
    Recorded (fun r => (record r).add (notes tables s (.findValueReply now reply sender desc) r))
      s' := by
  by_cases htakes : ∃ r, TakesValue s r reply
  · obtain ⟨r, htakes⟩ := htakes
    have hlive := hwired.live_of_lookup htakes.1
    have hr := hwired.pending hlive
    have hsame := stopTimer_same (s.obj r) reply.src
    have hcount := stopTimer_count reply.src (hwired.query r hlive).count
    have hother : ∀ r', r' ≠ r → (record r').add
        (notes tables s (.findValueReply now reply sender desc) r') = record r' := by
      intro r' hne
      rw [notes, if_neg fun h' => hne (htakes.unique h'), Record.add_none]
    have hstop := (h.live r hlive).stopTimer reply.src
    have hr' : Pending (s.setQuery r (Queries.stopTimer (s.obj r) reply.src)) r :=
      hr.setQuery hsame.nonce
    rw [recvFindValueReply_of_takes htakes.takes] at hs
    by_cases hnodes : reply.flag = dataAreNodes ∧ 4 ≤ reply.data.length ∧
        (readNodes sender (rd16 reply.data 0) (byteAt reply.data 2) (reply.data.drop 4)).isSome
    -- The reply has nodes, as one to a search for a node has.
    · obtain ⟨hflag, hlong, hsome⟩ := hnodes
      obtain ⟨nodes, hnodes⟩ := Option.isSome_iff_exists.mp hsome
      have htold : toldBy s r (.findValueReply now reply sender desc) = nodes.map Cageaddr.id := by
        rw [toldBy, if_pos ⟨htakes, hflag, hlong⟩, hnodes]
        rfl
      have hnew := hnodup r
      rw [htold] at hnew
      rw [recvData_nodes now desc hflag hlong hnodes, setQuery_self, setQuery_setQuery] at hs
      have hmerged := hsame.trans (merge_same _ nodes)
      rw [← Except.ok.inj hs]
      refine Recorded.sendFind ?_ (hr.setQuery hmerged.nonce) ?_
      · apply h.setQuery hr hmerged.nonce hother
        rw [notes_of_value htakes, htold]
        simpa [Record.add] using hstop.merge hnew
      · rw [setQuery_self]
        exact hcount
    -- The reply has a value, a hint of values, or nodes that cannot be read.
    · have htold : (toldBy s r (.findValueReply now reply sender desc)).toFinset = ∅ := by
        rw [toldBy]
        split
        · rename_i hflag
          have hnone : ¬ (readNodes sender (rd16 reply.data 0) (byteAt reply.data 2)
              (reply.data.drop 4)).isSome := fun hsome => hnodes ⟨hflag.2.1, hflag.2.2, hsome⟩
          rw [Option.not_isSome_iff_eq_none.mp hnone]
          rfl
        · rfl
      refine Recorded.recvData ?_ hr' hnodes hs
      apply h.setQuery hr hsame.nonce hother
      rw [notes_of_value htakes, htold]
      exact hstop
  · have hnot : ∀ r, ¬ TakesValue s r reply := fun r h' => htakes ⟨r, h'⟩
    have hnotes : ∀ r, notes tables s (.findValueReply now reply sender desc) r = ⟨∅, ∅, ∅, ∅⟩ :=
      fun r => by rw [notes, if_neg (hnot r)]
    have hignored : s' = s := by
      rcases recvFindValueReply_cases s now reply sender desc with hsame | ⟨r, h', -⟩
      · exact Except.ok.inj (hs.symm.trans hsame)
      · refine absurd ⟨h'.query, h'.dst, h'.dstId, fun hsrc => ?_⟩ (hnot r)
        by_contra hnode
        exact h'.kind (Bool.eq_false_of_not_eq_true hnode) hsrc
    rw [hignored]
    simpa [hnotes] using h

/-- The step lemma of the records. -/
theorem recorded_step (h : Recorded record s) (hwired : Wired s) {tables : Nat → Option Rttable}
    {i : Queries.Input} (hfair : Fair tables s i) (hs : s.step i = .ok s') :
    Recorded (fun r => (record r).add (notes tables s i r)) s' := by
  obtain ⟨-, hbegins, hnodup⟩ := hfair
  cases i with
  | findNv uninit dst key nodes nonce =>
    simp only [Queries.step] at hs
    split at hs
    · rename_i hfresh
      rw [← Except.ok.inj hs]
      exact h.findNv hwired hfresh hbegins
    -- The nonce is in use, and the query is not made.
    · rename_i hused
      rw [← Except.ok.inj hs]
      simpa [notes, hused] using h
  | findNode uninit nonce =>
    simp only [Queries.step] at hs
    split at hs
    · rename_i hfresh
      rw [← Except.ok.inj hs]
      exact h.findNode hwired uninit hfresh
    · rename_i hused
      rw [← Except.ok.inj hs]
      simpa [notes, hused] using h
  | timerQuery r id =>
    by_cases hid : r < s.size ∧ id ∈ (s.obj r).timers
    · have hlive := hwired.live_of_timer hid.1 hid.2
      have hr := hwired.pending hlive
      have hs' := hs.symm.trans (step_timerQuery hwired hid.1 hid.2)
      rw [Except.ok.inj hs']
      refine Recorded.sendFind ?_ (hr.setQuery (timedOut_same _ id).nonce) ?_
      · apply h.setQuery hr (timedOut_same _ id).nonce
        · intro r' hr'
          rw [notes, if_neg fun hbad => hr' hbad.1.symm, Record.add_none]
        · rw [notes, if_pos ⟨rfl, hid⟩]
          exact (h.live r hlive).timedOut id
      · rw [setQuery_self]
        exact card_erase_le hid.2 (hwired.query r hlive).count
    · have hnotes : ∀ r', notes tables s (.timerQuery r id) r' = ⟨∅, ∅, ∅, ∅⟩ := by
        intro r'
        rw [notes, if_neg]
        rintro ⟨rfl, hbad⟩
        exact hid hbad
      simp only [Queries.step, if_neg hid] at hs
      rw [← Except.ok.inj hs]
      simpa [hnotes] using h
  | findNodeReply reply sender =>
    rw [← Except.ok.inj hs]
    exact h.recvFindNodeReply hwired hnodup
  | findValueReply now reply sender desc => exact h.recvFindValueReply hwired hnodup hs
  | timerRecvd r =>
    simp only [notes, Record.add_none]
    cases took_of_step hs with
    | same => exact h
    | timerRecvd htimer hs =>
      -- A query that is over has no timer left.
      have hlive : Live s r := by
        by_contra hdead
        rw [(hwired.stopped r htimer.1 hdead).2] at htimer
        cases htimer.2
      have hr := hwired.pending hlive
      have hrest := h.setRest (q := { s.obj r with timerRecvd := false }) hr rfl rfl rfl rfl rfl
      exact hrest.recvdValue (hr.setQuery (q := { s.obj r with timerRecvd := false }) rfl) hs
  | connected now desc =>
    simp only [notes, Record.add_none]
    cases took_of_step hs with
    | same => exact h
    | connected hconn hs => exact h.connected (hwired.pending (hwired.conns _ _ hconn).1) hs
  | ready2Read now desc packets desc' =>
    simp only [notes, Record.add_none]
    cases took_of_step hs with
    | same => exact h
    | ready2Read hconn hopen hs =>
      have hlive := (hwired.conns _ _ hconn).1
      exact h.ready2Read (hwired.pending hlive) (hwired.query _ hlive).count hs
  | disconnected now desc desc' =>
    simp only [notes, Record.add_none]
    cases took_of_step hs with
    | same => exact h
    | disconnected hconn hs =>
      have hlive := (hwired.conns _ _ hconn).1
      exact h.closeRdp (hwired.pending hlive) (hwired.query _ hlive).count hs
  | sweepRdp now desc =>
    simp only [notes, Record.add_none]
    exact h.sweepRdp hwired hs

end

/-! ### The end of a search -/

/-- A query that is over. Its nodes are some of those that it was told of, in the order of the
distance, and each of the closest ones has answered, was silent or is the own node. -/
structure Converged (own : Id) (k : Record) (q : Query) (c : Called) : Prop where
  called : c = Queries.failed q
  sorted : (q.nodes.map Cageaddr.id).Pairwise fun a b => distance q.dst a < distance q.dst b
  length : q.nodes.length ≤ numFindNode
  told : ∀ addr ∈ q.nodes, addr.id ∈ k.told
  asked : ∀ x ∈ k.told, (closer (distance q.dst) k.told x).card < numFindNode →
    x = own ∨ x ∈ k.answered ∨ x ∈ k.silent
  closest : k.silent = ∅ →
    Closest (distance q.dst) numFindNode k.told (q.nodes.map Cageaddr.id)

theorem Searched.converged {own : Id} {k : Record} {q : Query} {c : Called}
    (h : Searched own k q c) : Converged own k q c where
  called := h.called
  sorted := h.candidates.sorted
  length := by simpa using h.candidates.length
  told addr haddr := h.candidates.mem _ (List.mem_map_of_mem haddr)
  asked x hx hfew := by
    have hsent : x ∈ q.sent := by
      rcases h.candidates.kept x hx hfew with hin | hin
      · obtain ⟨addr, haddr, rfl⟩ := List.mem_map.mp hin
        exact h.asked addr haddr
      · exact h.silent hin
    simpa using h.sent hsent
  closest hsilent := by
    have hcandidates := h.candidates
    rw [hsilent] at hcandidates
    exact hcandidates.closest

theorem recorded_init (id : Id) (isUseRdp : Bool) (uninit : Query) :
    Recorded (fun _ => ⟨∅, ∅, ∅, ∅⟩) (Queries.init id isUseRdp uninit) := by
  constructor
  case fresh => exact fun r _ => rfl
  case live =>
    intro r hlive
    cases hlive
  case failed =>
    intro p hp
    cases hp

/-- The invariant of the queries and their records. -/
theorem watched_inv (tables : Nat → Option Rttable) (id : Id) (isUseRdp : Bool) (uninit : Query)
    (is : List Queries.Input) {w : Watched}
    (hfair : Allowed (Watched.step tables) (fun w i => Fair tables w.queries i)
      (Watched.init id isUseRdp uninit) is)
    (hrun : run (Watched.step tables) (Watched.init id isUseRdp uninit) is = .ok w) :
    Wired w.queries ∧ Recorded w.record w.queries := by
  have hstep : ∀ (w : Watched) i w', Wired w.queries ∧ Recorded w.record w.queries →
      Fair tables w.queries i → w.step tables i = .ok w' →
      Wired w'.queries ∧ Recorded w'.record w'.queries := by
    rintro w i w' ⟨hwired, hrecorded⟩ hfair hs
    obtain ⟨s', hstep, hw⟩ := bind_eq_ok hs
    rw [← Except.ok.inj hw]
    exact ⟨(wired_step hwired i hfair.1).of_ok hstep, recorded_step hrecorded hwired hfair hstep⟩
  exact inv_of_run hstep ⟨wired_init id isUseRdp uninit, recorded_init id isUseRdp uninit⟩
    hfair hrun

/-- Whatever the order of the events: a query that ends with nodes or without a value has the
closest of the nodes that it was told of, but for those that were silent, and has asked them. -/
theorem search_converges (tables : Nat → Option Rttable) (id : Id) (isUseRdp : Bool)
    (uninit : Query) (is : List Queries.Input) (w : Watched)
    (hfair : Allowed (Watched.step tables) (fun w i => Fair tables w.queries i)
      (Watched.init id isUseRdp uninit) is)
    (hrun : run (Watched.step tables) (Watched.init id isUseRdp uninit) is = .ok w) :
    ∀ p ∈ w.queries.called, WithoutValue p.2 →
      Converged w.queries.id (w.record p.1) (w.queries.obj p.1) p.2 := by
  intro p hp hc
  exact ((watched_inv tables id isUseRdp uninit is hfair hrun).2.failed p hp hc).converged

/-- A `msg_inet`. -/
def joinAddrs : List Byte := wr16 9 ++ (wr16 0 ++ (wr32 3 ++ wr160 3))

/-- Node 1 asks an address, which is that of node 2 and tells it of node 3. Node 3 knows nobody
else. -/
def join : List Queries.Input :=
  [.findNode noQuery 7,
    .findNodeReply ⟨2, 1, 7, 1, domainInet, 1, joinAddrs⟩ ⟨.inet 9 2, fun _ => false⟩,
    .findNodeReply ⟨3, 1, 7, 1, domainInet, 0, []⟩ ⟨.inet 9 3, fun _ => false⟩]

theorem nodup_toldBy {reply : FindNodeReply} {sender : Sender}
    (h : (idsIn (readNodes sender reply.domain reply.num reply.addrs)).Nodup) (s : Queries)
    (r : Nat) : (toldBy s r (.findNodeReply reply sender)).Nodup := by
  rw [toldBy]
  split
  · exact h
  · exact List.nodup_nil

theorem search_converges_join : ∃ w, run (Watched.step fun _ => none)
      (Watched.init 1 true noQuery) join = .ok w ∧ w.queries.called.length = 1 ∧
    ∀ p ∈ w.queries.called, WithoutValue p.2 →
      Converged w.queries.id (w.record p.1) (w.queries.obj p.1) p.2 := by
  refine ⟨_, rfl, by decide +kernel, search_converges (fun _ => none) 1 true noQuery join _ ?_ rfl⟩
  apply allowed_of_all
  intro i hi w
  simp only [join, List.mem_cons, List.not_mem_nil, or_false] at hi
  rcases hi with rfl | rfl | rfl
  · exact ⟨id, rfl, fun r => by simp [toldBy]⟩
  · exact ⟨id, trivial, nodup_toldBy (by decide +kernel) w.queries⟩
  · exact ⟨id, trivial, nodup_toldBy (by decide +kernel) w.queries⟩

end Libcage.Proofs.Dht
