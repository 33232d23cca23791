import Libcage.Proofs.Dht.Callbacks

/-!
# `Libcage.Proofs.Dht.Wakeups`: the timers of a query and their number

`num_query` is the number of timers that run for a query, and a query in `m_query` has
something to wake it up. The number and the timers are changed in different places, and
between the two lie the ways out of the handlers for replies. `Loses` names the replies that
take one of these.

* `booked_of_allowed`: the books of all queries are right as long as there is no such reply.
* `reply_loses_timer`: a reply that is too short leaves a query waiting for nothing.
-/

set_option autoImplicit false

namespace Libcage.Proofs.Dht

open Libcage.Lib
open Libcage.Dht
open Libcage.Rdp (Id Table)

/-- A query has something that wakes it up: a timer of a node, the value timer, or RDP. -/
def Wakes (q : Query) : Prop := q.timers ≠ ∅ ∨ q.timerRecvd = true ∨ q.isRdpCon = true

/-- The books of all queries in `m_query`. -/
def Booked (s : Queries) : Prop := ∀ r, Live s r →
  (s.obj r).numQuery = (s.obj r).timers.card ∧ (s.obj r).numQuery ≤ maxQuery ∧ Wakes (s.obj r)

/-- The books of a query that goes on asking. Whoever has a timer has been asked, but for the
node without id that `find_node` on an address starts with. -/
structure Tallied (q : Query) : Prop where
  count : q.numQuery = q.timers.card
  max : q.numQuery ≤ maxQuery
  sent : ∀ id ∈ q.timers, id ≠ 0 → id ∈ q.sent
  zero : (0 : Id) ∈ q.timers → (0 : Id) ∉ q.sent → ∀ addr ∈ q.nodes, addr.id ≠ 0

/-- The query has a node with id 0 to ask while the timer of a node without id runs. -/
def AsksZero (q : Query) : Prop :=
  (0 : Id) ∈ q.timers ∧ (0 : Id) ∉ q.sent ∧ ∃ addr ∈ q.nodes, addr.id = 0

/-- The reply stops a timer and is left there, or it brings a node with id 0 too early. -/
def Loses (s : Queries) : Queries.Input → Prop
  | .findNodeReply reply sender => ∃ r id, Replies s reply r id ∧
      (readNodes sender reply.domain reply.num reply.addrs = none ∨
        ∃ nodes, readNodes sender reply.domain reply.num reply.addrs = some nodes ∧
          AsksZero (((s.obj r).heard id reply.src).merge nodes))
  | .findValueReply _ reply sender _ => ∃ r, Takes s reply r ∧
      (¬ Wakes (Queries.stopTimer (s.obj r) reply.src) ∧
          ¬ Handled s.isUseRdp (Queries.stopTimer (s.obj r) reply.src) reply sender ∨
        reply.flag = dataAreNodes ∧ 4 ≤ reply.data.length ∧
          ∃ nodes, readNodes sender (rd16 reply.data 0) (byteAt reply.data 2)
              (reply.data.drop 4) = some nodes ∧
            AsksZero ((Queries.stopTimer (s.obj r) reply.src).merge nodes))
  | _ => False

/-! ### One query -/

section
variable {q : Query}

/-- Whoever is asked was not being asked. -/
theorem Tallied.sendFindLoop (h : Tallied q) {nodes : List Cageaddr}
    (hnodes : ∀ addr ∈ nodes, addr.id ∉ q.sent → addr.id ∉ q.timers) :
    Tallied (Queries.sendFindLoop nodes q) := by
  -- By the nodes. Who is asked in a round had no timer, so count and timers grow together.
  induction nodes generalizing q with
  | nil => exact h
  | cons addr nodes ih =>
    rw [Queries.sendFindLoop]
    split
    · exact h
    · rename_i hmax
      split
      · exact ih h fun a ha => hnodes a (List.mem_cons_of_mem _ ha)
      · rename_i hsent
        have hfresh := hnodes addr (List.mem_cons_self ..) hsent
        apply ih
        · constructor
          · rw [Finset.card_insert_of_notMem hfresh, h.count]
            push_cast
            rfl
          · dsimp only
            omega
          · intro id hid hne
            rcases Finset.mem_insert.mp hid with rfl | hid
            · exact Finset.mem_insert_self _ _
            · exact Finset.mem_insert_of_mem (h.sent id hid hne)
          · intro hid hnot
            rcases Finset.mem_insert.mp hid with hzero | hid
            · exact absurd (hzero ▸ Finset.mem_insert_self _ _) hnot
            · exact h.zero hid fun hmem => hnot (Finset.mem_insert_of_mem hmem)
        · intro a ha hnot
          simp only [Finset.mem_insert, not_or] at hnot ⊢
          exact ⟨hnot.1, hnodes a (List.mem_cons_of_mem _ ha) hnot.2⟩

/-- The nodes of a query are asked once. -/
theorem Tallied.fresh (h : Tallied q) {addr : Cageaddr} (haddr : addr ∈ q.nodes)
    (hsent : addr.id ∉ q.sent) : addr.id ∉ q.timers := by
  intro htimer
  by_cases hzero : addr.id = 0
  · rw [hzero] at htimer hsent
    exact h.zero htimer hsent addr haddr hzero
  · exact hsent (h.sent _ htimer hzero)

/-- A timer is stopped and counted, and no node to ask is new. -/
theorem Tallied.stopped {q' : Query} (h : Tallied q) {id : Id} (hid : id ∈ q.timers)
    (htimers : q'.timers = q.timers.erase id) (hnum : q'.numQuery = q.numQuery - 1)
    (hsent : q.sent ⊆ q'.sent) (hnodes : ∀ addr ∈ q'.nodes, addr ∈ q.nodes) : Tallied q' := by
  have hcard := Finset.card_erase_add_one hid
  have hcount := h.count
  have hmax := h.max
  constructor
  case count =>
    rw [htimers, hnum]
    omega
  case max =>
    rw [hnum]
    omega
  case sent =>
    intro id' hid' hne
    rw [htimers] at hid'
    exact hsent (h.sent id' (Finset.mem_of_mem_erase hid') hne)
  case zero =>
    intro hzero hnot addr haddr
    rw [htimers] at hzero
    exact h.zero (Finset.mem_of_mem_erase hzero) (fun hmem => hnot (hsent hmem)) addr
      (hnodes addr haddr)

theorem Tallied.timedOut (h : Tallied q) {id : Id} (hid : id ∈ q.timers) :
    Tallied (q.timedOut id) := by
  refine h.stopped hid rfl rfl (Finset.subset_insert _ _) fun addr haddr => ?_
  -- The node is among those that are left.
  unfold Query.timedOut at haddr
  dsimp only at haddr
  split at haddr
  · exact List.mem_of_mem_filter haddr
  · exact haddr

theorem Tallied.heard (h : Tallied q) {id : Id} (hid : id ∈ q.timers) (src : Id) :
    Tallied (q.heard id src) :=
  h.stopped hid rfl rfl (Finset.subset_insert _ _) fun _ haddr => haddr

theorem Tallied.stopTimer (h : Tallied q) (src : Id) : Tallied (Queries.stopTimer q src) := by
  unfold Queries.stopTimer
  split
  · rename_i hsrc
    exact h.heard hsrc src
  · exact h

theorem Tallied.merge (h : Tallied q) {nodes : List Cageaddr} (hno : ¬ AsksZero (q.merge nodes)) :
    Tallied (q.merge nodes) := by
  refine ⟨h.count, h.max, h.sent, ?_⟩
  intro hzero hnot addr haddr hid
  exact hno ⟨hzero, hnot, addr, haddr, hid⟩

/-- What the books are about is the same. -/
theorem Tallied.same {q' : Query} (h : Tallied q) (htimers : q'.timers = q.timers)
    (hnum : q'.numQuery = q.numQuery) (hsent : q'.sent = q.sent) (hnodes : q'.nodes = q.nodes) :
    Tallied q' := by
  constructor
  case count =>
    rw [hnum, htimers]
    exact h.count
  case max =>
    rw [hnum]
    exact h.max
  case sent =>
    rw [htimers, hsent]
    exact h.sent
  case zero =>
    rw [htimers, hsent, hnodes]
    exact h.zero

end

/-! ### The operations -/

/-- The books of a query are right, and something wakes it up. -/
def Good (q : Query) : Prop := Tallied q ∧ Wakes q

/-- The books of all queries but one. -/
def BooksBut (r : Nat) (s : Queries) : Prop := ∀ r', r' ≠ r → Live s r' → Good (s.obj r')

def Books (s : Queries) : Prop := ∀ r, Live s r → Good (s.obj r)

section
variable {s s' : Queries} {r : Nat} {q : Query}

theorem Books.but (h : Books s) (r : Nat) : BooksBut r s := fun r' _ => h r'

theorem BooksBut.only (h : BooksBut r s) (honly : Only r s s')
    (hself : Live s' r → Good (s'.obj r)) : Books s' := by
  intro r' hlive
  by_cases hr : r' = r
  · subst hr
    exact hself hlive
  · rw [honly.obj r' hr]
    exact h r' hr (honly.live hlive)

theorem not_live_removeQuery (s : Queries) (r : Nat) : ¬ Live (s.removeQuery r) r := by
  unfold Live
  rw [(only_removeQuery s r).nonce]
  show (s.query.erase (s.obj r).nonce).lookup _ ≠ _
  rw [AList.lookup_erase]
  simp

theorem not_live_recvdValue (hs : s.recvdValue r = .ok s') : ¬ Live s' r := by
  unfold Queries.recvdValue at hs
  dsimp only at hs
  split at hs
  · rw [← Except.ok.inj hs]
    exact not_live_removeQuery _ r
  · cases hs

/-- A query that asks on has somebody to wait for, or is taken out. -/
theorem good_sendFind (h : Tallied (s.obj r)) (hlive : Live (s.sendFind r) r) :
    Good ((s.sendFind r).obj r) := by
  have hloop := h.sendFindLoop fun addr haddr => h.fresh haddr
  rcases sendFind_cases s r with ⟨hs, -, -, hcon⟩ | ⟨q, rfl, -, ⟨hzero, hs⟩ | ⟨-, hs⟩⟩
  · rw [hs]
    exact ⟨h, Or.inr (Or.inr hcon)⟩
  · rw [hs, setQuery_self]
    refine ⟨hloop, Or.inl ?_⟩
    intro hempty
    rw [hloop.count, hempty] at hzero
    exact hzero rfl
  · rw [hs] at hlive
    exact absurd hlive (not_live_removeQuery _ r)

/-- A query changes and asks on. -/
theorem Books.ask (h : Books s) (hnonce : q.nonce = (s.obj r).nonce) (hq : Tallied q) :
    Books ((s.setQuery r q).sendFind r) := by
  have honly := (only_setQuery hnonce).trans (only_sendFind (s.setQuery r q) r)
  refine (h.but r).only honly fun hlive => ?_
  apply good_sendFind _ hlive
  rw [setQuery_self]
  exact hq

theorem Books.recvdValue (h : Books s) (hs : s.recvdValue r = .ok s') : Books s' :=
  (h.but r).only (only_recvdValue hs) fun hlive => absurd hlive (not_live_recvdValue hs)

theorem Books.setQuery (h : Books s) (hnonce : q.nonce = (s.obj r).nonce) (hq : Good q) :
    Books (s.setQuery r q) := by
  refine (h.but r).only (only_setQuery hnonce) fun _ => ?_
  rw [setQuery_self]
  exact hq

/-- A query opens a connection and waits for it. -/
theorem Books.connect (h : BooksBut r s) (hq : Tallied (s.obj r)) (hcon : (s.obj r).isRdpCon = true)
    (sport : BitVec 16) (did : Id) (dport : BitVec 16) (desc : Int) :
    Books (s.connect r sport did dport desc) := by
  refine h.only (only_connect s r sport did dport desc) fun _ => ?_
  have hobj : (s.connect r sport did dport desc).obj r = { s.obj r with
      rdpDesc := if 0 < desc ∧ s.conns.lookup desc = none then desc else -1 } :=
    Function.update_self ..
  rw [hobj]
  exact ⟨hq.same rfl rfl rfl rfl, Or.inr (Or.inr hcon)⟩

theorem Books.retry (h : Books s) (hlive : Live s r) (hcon : (s.obj r).isRdpCon = true)
    (now desc : Int) : Books (s.retry now r desc) := by
  have hq := (h r hlive).1
  unfold Queries.retry
  dsimp only
  split
  · rename_i id ids hids
    let q : Query := { s.obj r with ids := ids, rdpTime := now }
    have hset : Books (s.setQuery r q) :=
      h.setQuery (q := q) rfl ⟨hq.same rfl rfl rfl rfl, Or.inr (Or.inr hcon)⟩
    refine Books.connect (hset.but r) ?_ ?_ _ _ _ _
    · rw [setQuery_self]
      exact hq.same rfl rfl rfl rfl
    · rw [setQuery_self]
      exact hcon
  · exact h.ask (q := { s.obj r with isRdpCon := false }) rfl (hq.same rfl rfl rfl rfl)

theorem Books.closeRdp (h : Books s) (hlive : Live s r) (hcon : (s.obj r).isRdpCon = true)
    {now desc desc' : Int} (hs : s.closeRdp now r desc desc' = .ok s') : Books s' := by
  have hclose : Books (s.close desc) := h
  unfold Queries.closeRdp at hs
  dsimp only at hs
  split at hs
  · exact hclose.recvdValue hs
  · rw [← Except.ok.inj hs]
    exact hclose.retry hlive hcon now desc'

theorem Books.sweepOne (h : Books s) (hwired : Wired s) {now : Int} {nonce : BitVec 32}
    {desc : Int} (hr : s.query.lookup nonce = some r)
    (hs : s.sweepOne now nonce desc = .ok s') : Books s' := by
  have hlive := hwired.live_of_lookup hr
  have hclose : Books (s.close (s.obj r).rdpDesc) := h
  unfold Queries.sweepOne at hs
  rw [hr] at hs
  dsimp only at hs
  split at hs
  · rename_i hsilent
    split at hs
    · exact hclose.recvdValue hs
    · split at hs
      · cases hs
      · rw [← Except.ok.inj hs]
        exact hclose.retry hlive hsilent.1 now desc
  · rw [← Except.ok.inj hs]
    exact h

theorem Books.connected (h : Books s) {now desc : Int} {con : Conn} (hlive : Live s con.query)
    (hs : s.connected now desc con = .ok s') : Books s' := by
  refine (h.but con.query).only (only_connected hs) fun _ => ?_
  unfold Queries.connected at hs
  dsimp only at hs
  split at hs
  · cases hs
  · rw [← Except.ok.inj hs]
    show Good ((s.setQuery con.query _).obj con.query)
    rw [setQuery_self]
    exact ⟨(h _ hlive).1.same rfl rfl rfl rfl, Or.inr (Or.inr rfl)⟩

theorem Books.ready2Read (h : Books s) {now desc : Int} {con : Conn}
    {packets : List (List Byte)} {desc' : Int} (hlive : Live s con.query)
    (hcon : (s.obj con.query).isRdpCon = true)
    (hs : s.ready2Read now desc con packets desc' = .ok s') : Books s' := by
  unfold Queries.ready2Read at hs
  dsimp only at hs
  split at hs
  · cases hs
  · rename_i c sent hread
    let q : Query := { s.obj con.query with
      get := c.query
      rdpTime := if c.rqueue.length < (con.rqueue ++ packets).length then now
        else (s.obj con.query).rdpTime }
    have hset : Books (s.setQuery con.query q) := h.setQuery (q := q) rfl
      ⟨(h _ hlive).1.same rfl rfl rfl rfl, Or.inr (Or.inr hcon)⟩
    have hlive' : Live (s.setQuery con.query q) con.query := (live_setQuery (q := q) rfl).mpr hlive
    split at hs
    · refine hset.closeRdp hlive' ?_ hs
      rw [setQuery_self]
      exact hcon
    · rw [← Except.ok.inj hs]
      exact hset

/-- The books of the others when a query is put into `m_query`. -/
theorem Books.enter_but (h : Books s) (q : Query) : BooksBut s.size (s.enter q) := by
  intro r hr hlive
  have hobj : (s.enter q).obj r = s.obj r := setQuery_other q hr
  rw [hobj]
  apply h
  unfold Live at hlive ⊢
  rw [hobj] at hlive
  by_cases hq : (s.obj r).nonce = q.nonce
  · rw [hq] at hlive
    have hself : (s.enter q).query.lookup q.nonce = some s.size := AList.lookup_insert _
    exact absurd (Option.some.inj (hself.symm.trans hlive)).symm hr
  · rw [← hlive]
    exact (AList.lookup_insert_ne hq).symm

/-- A new query goes on asking at once. -/
theorem Books.findNv (h : Books s) (hwired : Wired s) (uninit : Query) (dst : Id)
    (key : Option Buf) (nodes : List Cageaddr) (nonce : BitVec 32) :
    Books (s.findNv uninit dst key nodes nonce) := by
  rcases findNv_cases s uninit dst key nodes nonce with ⟨q, -, hs⟩ | ⟨q, hnew, hs⟩
  · rw [hs]
    intro r hlive
    -- Nothing has been put into `m_query`.
    have hlookup : s.query.lookup ((s.setQuery s.size q).obj r).nonce = some r := hlive
    have hr : r ≠ s.size := Nat.ne_of_lt (hwired.live _ _ hlookup).1
    rw [setQuery_other q hr] at hlookup
    show Good ((s.setQuery s.size q).obj r)
    rw [setQuery_other q hr]
    exact h r hlookup
  · rw [hs]
    have hself : (s.enter q).obj s.size = q := setQuery_self ..
    refine (h.enter_but q).only (only_sendFind _ _) fun hlive => good_sendFind ?_ hlive
    rw [hself]
    constructor
    case count =>
      rw [hnew.numQuery, hnew.timers]
      rfl
    case max =>
      rw [hnew.numQuery]
      decide
    case sent =>
      intro id hid
      rw [hnew.timers] at hid
      cases hid
    case zero =>
      intro hzero
      rw [hnew.timers] at hzero
      cases hzero

/-- The query of `find_node` on an address waits for the node without id. -/
theorem Books.findNode (h : Books s) (uninit : Query) (nonce : BitVec 32) :
    Books (s.findNode uninit nonce) := by
  intro r hlive
  by_cases hr : r = s.size
  · have hobj : (s.findNode uninit nonce).obj s.size =
        { s.newQuery uninit s.id nonce false [] with numQuery := 1, timers := {0} } :=
      setQuery_self ..
    have hmax : (1 : Int) ≤ maxQuery := by decide
    rw [hr, hobj]
    refine ⟨⟨rfl, hmax, ?_, ?_⟩, Or.inl (Finset.singleton_ne_empty 0)⟩
    · intro id hid hne
      exact absurd (Finset.mem_singleton.mp hid) hne
    · intro _ _ addr haddr
      cases haddr
  · exact h.enter_but _ r hr hlive

theorem Books.recvFindNodeReply (h : Books s) (hwired : Wired s) {reply : FindNodeReply}
    {sender : Sender} (hno : ¬ Loses s (.findNodeReply reply sender)) :
    Books (s.recvFindNodeReply reply sender) := by
  rcases recvFindNodeReply_cases s reply sender with
    hs | ⟨r, id, hreply, ⟨hnone, -⟩ | ⟨nodes, hnodes, hs⟩⟩
  · rw [hs]
    exact h
  · exact absurd ⟨r, id, hreply, Or.inl hnone⟩ hno
  · have hlive := hwired.live_of_lookup hreply.query
    have hheard := (h r hlive).1.heard hreply.timer reply.src
    have hsame := (heard_same (s.obj r) id reply.src).trans (merge_same _ nodes)
    rw [hs]
    refine h.ask hsame.nonce (hheard.merge fun hzero => hno ?_)
    exact ⟨r, id, hreply, Or.inr ⟨nodes, hnodes, hzero⟩⟩

/-- The timer of the sender has been stopped, and the data of the reply is looked at. -/
theorem books_recvData (h : BooksBut r s) (hq : Tallied (s.obj r))
    (hok : QueryOk s.isUseRdp (s.obj r))
    {now : Int} {reply : FindValueReply} {sender : Sender} {desc : Int}
    (hwakes : ¬ (¬ Wakes (s.obj r) ∧ ¬ Handled s.isUseRdp (s.obj r) reply sender))
    (hzero : ¬ (reply.flag = dataAreNodes ∧ 4 ≤ reply.data.length ∧
      ∃ nodes, readNodes sender (rd16 reply.data 0) (byteAt reply.data 2) (reply.data.drop 4) =
        some nodes ∧ AsksZero ((s.obj r).merge nodes)))
    (hs : s.recvData now r reply sender desc = .ok s') : Books s' := by
  cases readsData_of_recvData hs with
  | ignored hnot =>
    -- Where the reply changes nothing, something else wakes the query up.
    exact h.only (Only.refl r s) fun _ => ⟨hq, by_contra fun hsleeps => hwakes ⟨hsleeps, hnot⟩⟩
  | candidate hcon =>
    refine h.only (only_setQuery rfl) fun _ => ?_
    rw [setQuery_self]
    exact ⟨hq.same rfl rfl rfl rfl, Or.inr (Or.inr hcon)⟩
  | connects =>
    let q : Query := { s.obj r with isRdpCon := true, rdpTime := now }
    have hset : Only r s (s.setQuery r q) := only_setQuery rfl
    have hbut : BooksBut r (s.setQuery r q) := by
      intro r' hr hlive
      rw [hset.obj r' hr]
      exact h r' hr (hset.live hlive)
    refine Books.connect hbut ?_ ?_ _ _ _ _
    · rw [setQuery_self]
      exact hq.same rfl rfl rfl rfl
    · rw [setQuery_self]
  | values _ hadd hs =>
    have honly := (only_setQuery (addValue_added hadd).nonce).trans (only_recvdValue hs)
    exact h.only honly fun hlive => absurd hlive (not_live_recvdValue hs)
  | value _ hadd =>
    -- The value timer runs from the first value on.
    have hadded := addValue_added hadd
    refine h.only (only_setQuery hadded.nonce) fun _ => ?_
    rw [setQuery_self]
    refine ⟨hq.same hadded.timers hadded.numQuery hadded.sent hadded.nodes, ?_⟩
    refine Or.inr (Or.inl ?_)
    rw [hadded.timerRecvd, hok.started]
    simp
  | @nodes nodes hflag hlong hnodes =>
    have hmerge : Tallied ((s.obj r).merge nodes) := hq.merge fun hbad =>
      hzero ⟨hflag, hlong, nodes, hnodes, hbad⟩
    have honly := only_setQuery (s := s) (r := r) (merge_same (s.obj r) nodes).nonce
    refine h.only (honly.trans (only_sendFind _ r)) fun hlive => good_sendFind ?_ hlive
    rw [setQuery_self]
    exact hmerge

theorem Books.recvFindValueReply (h : Books s) (hwired : Wired s) {now : Int}
    {reply : FindValueReply} {sender : Sender} {desc : Int}
    (hno : ¬ Loses s (.findValueReply now reply sender desc))
    (hs : s.recvFindValueReply now reply sender desc = .ok s') : Books s' := by
  rcases recvFindValueReply_cases s now reply sender desc with hsame | ⟨r, htakes, hreply⟩
  · rw [← Except.ok.inj (hsame.symm.trans hs)]
    exact h
  · have hlive := hwired.live_of_lookup htakes.query
    have hstop := stopTimer_same (s.obj r) reply.src
    have hcount := stopTimer_count reply.src (hwired.query r hlive).count
    have hset : Only r s (s.setQuery r (Queries.stopTimer (s.obj r) reply.src)) :=
      only_setQuery hstop.nonce
    have hbut : BooksBut r (s.setQuery r (Queries.stopTimer (s.obj r) reply.src)) := by
      intro r' hr hlive'
      rw [hset.obj r' hr]
      exact h r' (hset.live hlive')
    refine books_recvData hbut ?_ ?_ ?_ ?_ (hreply.symm.trans hs)
    · rw [setQuery_self]
      exact (h r hlive).1.stopTimer reply.src
    · rw [setQuery_self]
      exact hstop.queryOk (hwired.query r hlive) hcount
    · rw [setQuery_self]
      exact fun hbad => hno ⟨r, htakes, Or.inl hbad⟩
    · rw [setQuery_self]
      exact fun hbad => hno ⟨r, htakes, Or.inr hbad⟩

/-- The books after one event. -/
theorem books_step (hwired : Wired s) (h : Books s) {i : Queries.Input} (hno : ¬ Loses s i)
    (hs : s.step i = .ok s') : Books s' := by
  cases took_of_step hs with
  | same => exact h
  | findNv uninit dst key nodes hfresh => exact h.findNv hwired uninit dst key nodes _
  | findNode uninit hfresh => exact h.findNode uninit _
  | @timerQuery r id _ hid =>
    have hq := (h r (hwired.live_of_timer hid.1 hid.2)).1
    rw [← Except.ok.inj ((step_timerQuery hwired hid.1 hid.2).symm.trans hs)]
    exact h.ask (timedOut_same (s.obj r) id).nonce (hq.timedOut hid.2)
  | findNodeReply => exact h.recvFindNodeReply hwired hno
  | findValueReply hs => exact h.recvFindValueReply hwired hno hs
  | @timerRecvd r _ htimer hs =>
    -- Called back or stopped, the query is not waiting after this.
    have hset : Only r s (s.setQuery r { s.obj r with timerRecvd := false }) := only_setQuery rfl
    exact (h.but r).only (hset.trans (only_recvdValue hs)) fun hlive =>
      absurd hlive (not_live_recvdValue hs)
  | connected hconn hs => exact h.connected (hwired.conns _ _ hconn).1 hs
  | ready2Read hconn hopen hs =>
    obtain ⟨hlive, hcon, -⟩ := hwired.conns _ _ hconn
    exact h.ready2Read hlive hcon hs
  | disconnected hconn hs =>
    obtain ⟨hlive, hcon, -⟩ := hwired.conns _ _ hconn
    exact h.closeRdp hlive hcon hs
  | @sweepRdp now desc =>
    have hends := sweepRdp_ends (J := fun s => Wired s ∧ Books s) (F := fun _ => True)
      (B := fun _ => False) now desc ?_ hwired.live ⟨hwired, h⟩ fun _ _ hfalse => hfalse
    · exact (hends.of_ok hs).2
    · rintro s n r - ⟨hwired, h⟩ hr -
      rcases hwired.sweepOne now n (desc n) with ⟨-, hround⟩ | ⟨-, s', hround, hwired'⟩
      · rw [hround]
        exact Ends.error trivial
      · rw [hround]
        exact Ends.ok ⟨hwired', h.sweepOne hwired hr hround⟩

theorem Books.booked (h : Books s) : Booked s := fun r hlive =>
  ⟨(h r hlive).1.count, (h r hlive).1.max, (h r hlive).2⟩

end

/-- The number of every query in `m_query` is that of its timers, at most 6, and something
wakes it up, in every state of a run without a reply that loses a timer and without the
events that break the callbacks. -/
theorem booked_of_allowed (id : Id) (isUseRdp : Bool) (uninit : Query) (is : List Queries.Input)
    (hallowed : Allowed Queries.step (fun s i => ¬ Opens s i ∧ ¬ Crashes s i ∧ ¬ Loses s i)
      (Queries.init id isUseRdp uninit) is) :
    Always Queries.step Booked (Queries.init id isUseRdp uninit) is := by
  apply always_of_allowed (fun s (h : Wired s ∧ Books s) => h.2.booked) ?_ ?_ hallowed
  · rintro s i ⟨hwired, hbooks⟩ ⟨hopens, hcrashes, hloses⟩
    have hends := wired_step hwired i hopens
    cases hstep : s.step i with
    | ok s' => exact ⟨s', rfl, hends.of_ok hstep, books_step hwired hbooks hloses hstep⟩
    | error e => exact absurd (hends.of_error hstep) hcrashes
  · refine ⟨wired_init id isUseRdp uninit, fun r hlive => ?_⟩
    cases hlive

/-! ### A reply that stops a timer and no more -/

/-- Node 1 looks for the nodes close to 5 and asks node 2. -/
def askOne : List Queries.Input := [.findNv noQuery 5 none [⟨2, .inet 1 1⟩] 7]

/-- The timer of node 2 is over, and the query is called back. -/
theorem booked_askOne :
    Always Queries.step Booked (Queries.init 1 true noQuery) (askOne ++ [.timerQuery 0 2]) := by
  apply booked_of_allowed
  apply allowed_of_all
  intro i hi s
  simp only [askOne, List.cons_append, List.nil_append, List.mem_cons, List.not_mem_nil,
    or_false] at hi
  rcases hi with rfl | rfl
  · exact ⟨id, id, id⟩
  · exact ⟨id, id, id⟩

/-- The reply of node 2 has one node in its head and none behind it. -/
theorem reply_loses_timer :
    ¬ ∀ (id : Id) (isUseRdp : Bool) (uninit : Query) (is : List Queries.Input),
      Always Queries.step Booked (Queries.init id isUseRdp uninit) is := by
  intro h
  obtain ⟨s, hrun, hbooked⟩ := (h 1 true noQuery (askOne ++
    [.findNodeReply ⟨2, 1, 7, 5, domainInet, 1, []⟩ ⟨.inet 1 1, fun _ => false⟩])).ends
  have hquery : (do
      let s ← run Queries.step (Queries.init 1 true noQuery) (askOne ++
        [.findNodeReply ⟨2, 1, 7, 5, domainInet, 1, []⟩ ⟨.inet 1 1, fun _ => false⟩])
      return (s.query.lookup (s.obj 0).nonce, (s.obj 0).numQuery, (s.obj 0).timers)) =
        (.ok (some 0, 1, ∅) : Except QueryFault (Option Nat × Int × Finset Id)) := by
    decide +kernel
  rw [hrun, ok_bind] at hquery
  obtain ⟨hlive, hrest⟩ := Prod.mk.inj (Except.ok.inj hquery)
  obtain ⟨hnum, htimers⟩ := Prod.mk.inj hrest
  have hcount := (hbooked 0 hlive).1
  rw [hnum, htimers] at hcount
  cases hcount

end Libcage.Proofs.Dht
