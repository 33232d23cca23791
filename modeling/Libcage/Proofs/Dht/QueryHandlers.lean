import Libcage.Proofs.Dht.Queries

/-!
# `Libcage.Proofs.Dht.QueryHandlers`: the handlers of the queries

What each handler can do to a query, and that it keeps `Wired`. A handler has a lemma for
its cases where it has more than one (`recvFindNodeReply_cases`,
`recvFindValueReply_cases`), and the later modules go by these cases too.

A query for nodes that takes the data of a value stops the program (`ValueForNode`), and
one that opens a connection breaks the invariant (`OpensForNode`).
-/

set_option autoImplicit false

namespace Libcage.Proofs.Dht

open Libcage.Lib
open Libcage.Dht
open Libcage.Rdp (Id Table)

section
variable {s : Queries} {r r' : Nat} {q : Query}

/-! ### The handlers -/

/-- A query that is put into `m_query`. -/
structure NewQuery (s : Queries) (nonce : BitVec 32) (q : Query) : Prop where
  nonce : q.nonce = nonce
  ok : QueryOk s.isUseRdp q
  vset : q.get.vset = ∅
  timers : q.timers = ∅
  numQuery : q.numQuery = 0

/-- A new query is called back at once where there are no nodes. -/
theorem findNv_cases (s : Queries) (uninit : Query) (dst : Id) (key : Option Buf)
    (nodes : List Cageaddr) (nonce : BitVec 32) :
    (∃ q, q = s.newQuery uninit dst nonce key.isSome nodes ∧
      s.findNv uninit dst key nodes nonce =
        { (s.setQuery s.size q).call s.size (Queries.failed q) with size := s.size + 1 }) ∨
    ∃ q, NewQuery s nonce q ∧
      s.findNv uninit dst key nodes nonce = (s.enter q).sendFind s.size := by
  unfold Queries.findNv
  dsimp only
  split
  · exact Or.inl ⟨_, rfl, rfl⟩
  · refine Or.inr ⟨_, ?_, rfl⟩
    cases key with
    | none =>
      exact ⟨rfl, ⟨by simp [Queries.newQuery], by simp [Queries.newQuery], rfl,
        by simp [Queries.newQuery], by simp [Queries.newQuery]⟩, rfl, rfl, rfl⟩
    | some key =>
      exact ⟨rfl, ⟨by simp [Queries.newQuery], by simp [Queries.newQuery], rfl, by simp,
        by simp [Queries.newQuery]⟩, rfl, rfl, rfl⟩

theorem Wired.findNv (h : Wired s) (uninit : Query) (dst : Id) (key : Option Buf)
    (nodes : List Cageaddr) {nonce : BitVec 32} (hfresh : s.query.lookup nonce = none) :
    Wired (s.findNv uninit dst key nodes nonce) := by
  rcases findNv_cases s uninit dst key nodes nonce with ⟨q, rfl, hs⟩ | ⟨q, hnew, hs⟩
  · rw [hs]
    exact h.addCalled hfresh rfl rfl (calledOk_failed _)
  · obtain ⟨hwired, hlive⟩ := h.enter (q := q) (hnew.nonce.symm ▸ hfresh) hnew.ok
    rw [hs]
    exact hwired.sendFind hlive

theorem Wired.findNode (h : Wired s) (uninit : Query) {nonce : BitVec 32}
    (hfresh : s.query.lookup nonce = none) : Wired (s.findNode uninit nonce) := by
  have hok : QueryOk s.isUseRdp { s.newQuery uninit s.id nonce false [] with
      numQuery := 1, timers := {0} } :=
    ⟨by simp [Queries.newQuery], by simp [Queries.newQuery], rfl, by simp [Queries.newQuery],
      by simp⟩
  exact (h.enter hfresh hok).1

/-- A query in `m_query` changes only in what `Wired` does not look at, and asks on. -/
theorem Wired.ask (h : Wired s) (hlive : Live s r)
    (hsame : SameButAsked (s.obj r) q) (hcount : (q.timers.card : Int) ≤ q.numQuery) :
    Wired (s.setQuery r q) ∧ Live (s.setQuery r q) r :=
  ⟨h.update hlive hsame.nonce hsame.isFindValue (hsame.queryOk (h.query r hlive) hcount)
    hsame.isRdpCon hsame.rdpDesc, (live_setQuery hsame.nonce).mpr hlive⟩

/-- A timer is stopped, and the number of queries goes down. -/
theorem card_erase_le {q : Query} {id : Id} (hid : id ∈ q.timers)
    (h : (q.timers.card : Int) ≤ q.numQuery) :
    ((q.timers.erase id).card : Int) ≤ q.numQuery - 1 := by
  have hcard := Finset.card_erase_add_one hid
  omega

/-- A timer is stopped. -/
theorem card_erase_le' {q : Query} (id : Id) (h : (q.timers.card : Int) ≤ q.numQuery) :
    ((q.timers.erase id).card : Int) ≤ q.numQuery := by
  have hcard := Finset.card_erase_le (s := q.timers) (a := id)
  omega

/-- A timer that runs belongs to a query in `m_query`. -/
theorem Wired.live_of_timer (h : Wired s) {id : Id} (hlt : r < s.size)
    (hid : id ∈ (s.obj r).timers) : Live s r := by
  by_contra hdead
  rw [(h.stopped r hlt hdead).1] at hid
  cases hid

theorem timedOut_same (q : Query) (id : Id) : SameButAsked q (q.timedOut id) :=
  ⟨rfl, rfl, rfl, rfl, rfl, rfl, rfl, rfl⟩

theorem heard_same (q : Query) (id src : Id) : SameButAsked q (q.heard id src) :=
  ⟨rfl, rfl, rfl, rfl, rfl, rfl, rfl, rfl⟩

theorem merge_same (q : Query) (nodes : List Cageaddr) : SameButAsked q (q.merge nodes) :=
  ⟨rfl, rfl, rfl, rfl, rfl, rfl, rfl, rfl⟩

theorem SameButAsked.trans {q q' q'' : Query} (h : SameButAsked q q') (h' : SameButAsked q' q'') :
    SameButAsked q q'' :=
  ⟨h'.nonce.trans h.nonce, h'.isFindValue.trans h.isFindValue, h'.isRdpCon.trans h.isRdpCon,
    h'.rdpDesc.trans h.rdpDesc, h'.timerRecvd.trans h.timerRecvd,
    h'.isTimerRecvdStarted.trans h.isTimerRecvdStarted, h'.key.trans h.key, h'.get.trans h.get⟩

theorem timerQuery_eq (hlive : Live s r) (id : Id) : s.timerQuery (s.obj r).nonce id =
    .ok ((s.setQuery r ((s.obj r).timedOut id)).sendFind r) := by
  unfold Queries.timerQuery
  rw [show s.query.lookup (s.obj r).nonce = some r from hlive]

/-- A reply that a query takes, and the timer that it stops. -/
structure Replies (s : Queries) (reply : FindNodeReply) (r : Nat) (id : Id) : Prop where
  query : s.query.lookup reply.nonce = some r
  dst : reply.dst = s.id
  dstId : (s.obj r).dst = reply.id
  isFindValue : (s.obj r).isFindValue = false
  timer : id ∈ (s.obj r).timers
  src : id = reply.src ∨ id = 0

theorem recvFindNodeReply_cases (s : Queries) (reply : FindNodeReply) (sender : Sender) :
    s.recvFindNodeReply reply sender = s ∨ ∃ r id, Replies s reply r id ∧
      (readNodes sender reply.domain reply.num reply.addrs = none ∧
          s.recvFindNodeReply reply sender =
            s.setQuery r { s.obj r with timers := (s.obj r).timers.erase id } ∨
        ∃ nodes, readNodes sender reply.domain reply.num reply.addrs = some nodes ∧
          s.recvFindNodeReply reply sender =
            (s.setQuery r (((s.obj r).heard id reply.src).merge nodes)).sendFind r) := by
  unfold Queries.recvFindNodeReply
  split
  · exact Or.inl rfl
  · rename_i r hr
    dsimp only
    -- The timer is that of the sender, or that of the first node that was asked.
    generalize hid : (if reply.src ∈ (s.obj r).timers then reply.src else 0) = id
    have hsrc : id = reply.src ∨ id = 0 := by
      rw [← hid]
      split
      · exact Or.inl rfl
      · exact Or.inr rfl
    by_cases hmatch : reply.dst ≠ s.id ∨ (s.obj r).dst ≠ reply.id ∨ (s.obj r).isFindValue = true
    · rw [if_pos hmatch]
      exact Or.inl rfl
    · rw [if_neg hmatch]
      push Not at hmatch
      by_cases htimer : id ∉ (s.obj r).timers
      · rw [if_pos htimer]
        exact Or.inl rfl
      · rw [if_neg htimer]
        have hreplies : Replies s reply r id := ⟨hr, hmatch.1, hmatch.2.1,
          Bool.eq_false_of_not_eq_true hmatch.2.2, not_not.mp htimer, hsrc⟩
        refine Or.inr ⟨r, id, hreplies, ?_⟩
        cases readNodes sender reply.domain reply.num reply.addrs with
        | none => exact Or.inl ⟨rfl, rfl⟩
        | some nodes => exact Or.inr ⟨nodes, rfl, rfl⟩

theorem Wired.recvFindNodeReply (h : Wired s) (reply : FindNodeReply) (sender : Sender) :
    Wired (s.recvFindNodeReply reply sender) := by
  rcases recvFindNodeReply_cases s reply sender with hs | ⟨r, id, hreply, ⟨-, hs⟩ | ⟨nodes, -, hs⟩⟩
  · rw [hs]
    exact h
  · have hsame : SameButAsked (s.obj r)
        { s.obj r with timers := (s.obj r).timers.erase id } :=
      ⟨rfl, rfl, rfl, rfl, rfl, rfl, rfl, rfl⟩
    rw [hs]
    have hlive := h.live_of_lookup hreply.query
    exact (h.ask hlive hsame (card_erase_le' id (h.query r hlive).count)).1
  · have hsame := (heard_same (s.obj r) id reply.src).trans (merge_same _ nodes)
    have hcount := (h.query r (h.live_of_lookup hreply.query)).count
    obtain ⟨hwired, hlive⟩ := h.ask (h.live_of_lookup hreply.query) hsame
      (card_erase_le hreply.timer hcount)
    rw [hs]
    exact hwired.sendFind hlive

theorem stopTimer_same (q : Query) (src : Id) : SameButAsked q (Queries.stopTimer q src) := by
  unfold Queries.stopTimer
  split
  · exact heard_same q src src
  · exact ⟨rfl, rfl, rfl, rfl, rfl, rfl, rfl, rfl⟩

theorem stopTimer_count {q : Query} (src : Id) (h : (q.timers.card : Int) ≤ q.numQuery) :
    ((Queries.stopTimer q src).timers.card : Int) ≤ (Queries.stopTimer q src).numQuery := by
  unfold Queries.stopTimer
  split
  · rename_i hsrc
    exact card_erase_le hsrc h
  · exact h

/-- A reply that a query does not turn away. -/
structure Takes (s : Queries) (reply : FindValueReply) (r : Nat) : Prop where
  query : s.query.lookup reply.nonce = some r
  dst : reply.dst = s.id
  dstId : (s.obj r).dst = reply.id
  kind : (s.obj r).isFindValue = false → reply.src ∉ (s.obj r).timers

theorem recvFindValueReply_cases (s : Queries) (now : Int) (reply : FindValueReply)
    (sender : Sender) (desc : Int) :
    s.recvFindValueReply now reply sender desc = .ok s ∨ ∃ r, Takes s reply r ∧
      s.recvFindValueReply now reply sender desc =
        (s.setQuery r (Queries.stopTimer (s.obj r) reply.src)).recvData
          now r reply sender desc := by
  unfold Queries.recvFindValueReply
  split
  · exact Or.inl rfl
  · rename_i r hr
    dsimp only
    by_cases hmatch : reply.dst ≠ s.id ∨ (s.obj r).dst ≠ reply.id
    · rw [if_pos hmatch]
      exact Or.inl rfl
    · rw [if_neg hmatch]
      push Not at hmatch
      by_cases hkind : reply.src ∈ (s.obj r).timers ∧ ¬ (s.obj r).isFindValue = true
      · rw [if_pos hkind]
        exact Or.inl rfl
      · rw [if_neg hkind]
        refine Or.inr ⟨r, ⟨hr, hmatch.1, hmatch.2, ?_⟩, rfl⟩
        intro hnode hsrc
        exact hkind ⟨hsrc, by simp [hnode]⟩

theorem recvFindValueReply_of_takes {reply : FindValueReply} (h : Takes s reply r) (now : Int)
    (sender : Sender) (desc : Int) : s.recvFindValueReply now reply sender desc =
      (s.setQuery r (Queries.stopTimer (s.obj r) reply.src)).recvData now r reply sender desc := by
  have hmatch : ¬ (reply.dst ≠ s.id ∨ (s.obj r).dst ≠ reply.id) := by simp [h.dst, h.dstId]
  have hkind : ¬ (reply.src ∈ (s.obj r).timers ∧ ¬ (s.obj r).isFindValue = true) := by
    rintro ⟨hsrc, hnode⟩
    exact h.kind (Bool.eq_false_of_not_eq_true hnode) hsrc
  unfold Queries.recvFindValueReply
  rw [h.query]
  dsimp only
  rw [if_neg hmatch, if_neg hkind]

/-- A query for nodes takes a value that it has no key for, or that is all it waits for. -/
def ValueForNode (q : Query) (isUseRdp : Bool) (reply : FindValueReply) : Prop :=
  q.isFindValue = false ∧ reply.flag = dataAreValues ∧ isUseRdp = false ∧
    ∃ data, Queries.readData reply.data = some data ∧
      (Queries.sameKey q data.1 = .error .nullDeref ∨ Queries.sameKey q data.1 = .ok true ∧
        ∃ q', Queries.addValue q reply data.2 = some q' ∧ Queries.Complete q')

/-- A query has taken a value. -/
structure Added (q : Query) (value : Buf) (q' : Query) : Prop where
  nonce : q'.nonce = q.nonce
  isFindValue : q'.isFindValue = q.isFindValue
  isRdpCon : q'.isRdpCon = q.isRdpCon
  rdpDesc : q'.rdpDesc = q.rdpDesc
  key : q'.key = q.key
  timers : q'.timers = q.timers
  sent : q'.sent = q.sent
  numQuery : q'.numQuery = q.numQuery
  nodes : q'.nodes = q.nodes
  vset : q'.get.vset = insert value q.get.vset
  timerRecvd : q'.timerRecvd = (q.timerRecvd || !q.isTimerRecvdStarted)
  started : q'.isTimerRecvdStarted = true

theorem addValue_added {reply : FindValueReply} {value : Buf} {q' : Query}
    (h : Queries.addValue q reply value = some q') : Added q value q' := by
  unfold Queries.addValue at h
  dsimp only at h
  split at h
  · cases h
  · obtain rfl := Option.some.inj h
    exact ⟨rfl, rfl, rfl, rfl, rfl, rfl, rfl, rfl, rfl, rfl, rfl, rfl⟩

theorem Added.queryOk {isUseRdp : Bool} {value : Buf} {q' : Query} (h : Added q value q')
    (hok : QueryOk isUseRdp q) (huse : isUseRdp = false) : QueryOk isUseRdp q' := by
  constructor
  case rdp =>
    rw [h.isRdpCon, h.isFindValue]
    exact hok.rdp
  case timerRecvd =>
    intro _
    rw [h.vset]
    exact ⟨huse, Finset.insert_ne_empty _ _⟩
  case started =>
    rw [h.started, h.timerRecvd, hok.started]
    simp
  case key =>
    rw [h.isFindValue, h.key]
    exact hok.key
  case count =>
    rw [h.timers, h.numQuery]
    exact hok.count

theorem sameKey_error {key : List Byte} {e : QueryFault} (h : Queries.sameKey q key = .error e) :
    e = .nullDeref ∧ q.key = none := by
  unfold Queries.sameKey at h
  split at h
  · cases h
  · split at h
    · rename_i hkey
      split at h
      · cases h
      · exact ⟨(Except.error.inj h).symm, hkey⟩
    · cases h

/-- The data of a reply that a query takes. -/
theorem Wired.recvData (h : Wired s) (hlive : Live s r) (now : Int) (reply : FindValueReply)
    (sender : Sender) (desc : Int)
    (hopens : reply.flag = dataAreNul → s.isUseRdp = true → (s.obj r).isFindValue = true) :
    Ends Wired (fun _ => ValueForNode (s.obj r) s.isUseRdp reply)
      (s.recvData now r reply sender desc) := by
  have hok := h.query r hlive
  unfold Queries.recvData
  dsimp only
  split
  · rename_i hnul
    have hfind := hopens hnul.1 hnul.2
    split
    · -- The sender is one more candidate.
      exact Ends.ok (h.update (q := { s.obj r with ids := (s.obj r).ids ++ [reply.src] }) hlive rfl
        rfl ⟨hok.rdp, hok.timerRecvd, hok.started, hok.key, hok.count⟩ rfl rfl)
    · rename_i hcon
      -- The first sender with values, and no connection is there yet.
      have hno := h.noConn (Bool.eq_false_of_not_eq_true hcon)
      have hwait : QueryOk s.isUseRdp { s.obj r with isRdpCon := true, rdpTime := now } :=
        ⟨fun _ => ⟨hnul.2, hfind⟩, hok.timerRecvd, hok.started, hok.key, hok.count⟩
      have hset := h.setQuery (q := { s.obj r with isRdpCon := true, rdpTime := now }) hlive rfl rfl
        hwait fun d c hc hr => absurd hr (hno d c hc)
      have hlive' : Live (s.setQuery r { s.obj r with isRdpCon := true, rdpTime := now }) r :=
        (live_setQuery (q := { s.obj r with isRdpCon := true, rdpTime := now }) rfl).mpr hlive
      exact Ends.ok (hset.connect hlive' (by simp) hno _ _ _ _)
  · split
    · rename_i hvalues
      have huse : s.isUseRdp = false := Bool.eq_false_of_not_eq_true hvalues.2
      cases hdata : Queries.readData reply.data with
      | none => exact Ends.ok h
      | some data =>
        obtain ⟨key, value⟩ := data
        dsimp only
        cases hkey : Queries.sameKey (s.obj r) key with
        | error e =>
          -- Only a query for nodes has no key to compare.
          obtain ⟨rfl, hnone⟩ := sameKey_error hkey
          have hnode : (s.obj r).isFindValue = false := by
            by_contra hfind
            exact hok.key (Bool.eq_true_of_not_eq_false hfind) hnone
          exact Ends.error ⟨hnode, hvalues.1, huse, _, hdata, Or.inl hkey⟩
        | ok same =>
          cases same with
          | false => exact Ends.ok h
          | true =>
            cases hadd : Queries.addValue (s.obj r) reply value with
            | none => exact Ends.ok h
            | some q =>
              have hq := addValue_added hadd
              show Ends Wired _ (if Queries.Complete q then (s.setQuery r q).recvdValue r
                else .ok (s.setQuery r q))
              split
              · -- All values are there.
                rename_i hcomplete
                have hcon : (s.obj r).isRdpCon = false := by
                  by_contra hcon
                  have hrdp := (hok.rdp (Bool.eq_true_of_not_eq_false hcon)).1
                  exact hvalues.2 hrdp
                cases hrecvd : (s.setQuery r q).recvdValue r with
                | ok s' =>
                  refine Ends.ok
                    (h.recvdValue hlive hq.nonce hq.isFindValue (h.noConn hcon) ?_ hrecvd)
                  rw [hq.vset]
                  exact Finset.insert_ne_empty _ _
                | error e =>
                  have hnode := recvdValue_error hrecvd
                  rw [setQuery_self, hq.isFindValue] at hnode
                  exact Ends.error
                    ⟨hnode, hvalues.1, huse, _, hdata, Or.inr ⟨hkey, q, hadd, hcomplete⟩⟩
              · exact Ends.ok (h.update hlive hq.nonce hq.isFindValue (hq.queryOk hok huse)
                  hq.isRdpCon hq.rdpDesc)
    · split
      · split
        · exact Ends.ok h
        · split
          · exact Ends.ok h
          · obtain ⟨hwired, hlive'⟩ := h.ask hlive (merge_same (s.obj r) _) hok.count
            exact Ends.ok (hwired.sendFind hlive')
      · exact Ends.ok h

/-- A query for nodes would open a connection. -/
def OpensForNode (s : Queries) (reply : FindValueReply) : Prop :=
  ∃ r, Takes s reply r ∧ (s.obj r).isFindValue = false ∧ reply.flag = dataAreNul ∧
    s.isUseRdp = true

theorem stopTimer_of_node {reply : FindValueReply} (h : Takes s reply r)
    (hnode : (s.obj r).isFindValue = false) :
    Queries.stopTimer (s.obj r) reply.src = s.obj r := if_neg (h.kind hnode)

theorem Wired.recvFindValueReply (h : Wired s) (now : Int) (reply : FindValueReply)
    (sender : Sender) (desc : Int) (hopens : ¬ OpensForNode s reply) :
    Ends Wired (fun _ => ∃ r, Takes s reply r ∧ ValueForNode (s.obj r) s.isUseRdp reply)
      (s.recvFindValueReply now reply sender desc) := by
  rcases recvFindValueReply_cases s now reply sender desc with hs | ⟨r, htakes, hs⟩
  · rw [hs]
    exact Ends.ok h
  · have hsame := stopTimer_same (s.obj r) reply.src
    have hcount := (h.query r (h.live_of_lookup htakes.query)).count
    obtain ⟨hwired, hlive⟩ := h.ask (h.live_of_lookup htakes.query) hsame
      (stopTimer_count reply.src hcount)
    rw [hs]
    refine (hwired.recvData hlive now reply sender desc ?_).mono (fun s' hs' => hs')
      fun e hbad => ?_
    · intro hnul huse
      rw [setQuery_self, hsame.isFindValue]
      by_contra hnode
      exact hopens ⟨r, htakes, Bool.eq_false_of_not_eq_true hnode, hnul, huse⟩
    · rw [setQuery_self] at hbad
      have hnode : (s.obj r).isFindValue = false := hsame.isFindValue.symm.trans hbad.1
      rw [stopTimer_of_node htakes hnode] at hbad
      exact ⟨r, htakes, hbad⟩

/-- A node that does not use the stream has no query on one. -/
theorem Wired.isRdpCon_false (h : Wired s) (huse : s.isUseRdp = false) (hlive : Live s r) :
    (s.obj r).isRdpCon = false := by
  by_contra hcon
  have hrdp := ((h.query r hlive).rdp (Bool.eq_true_of_not_eq_false hcon)).1
  rw [huse] at hrdp
  cases hrdp

theorem Wired.timerRecvd (h : Wired s) (hlt : r < s.size) (htimer : (s.obj r).timerRecvd = true) :
    Ends Wired (fun _ => (s.obj r).isFindValue = false)
      ((s.setQuery r { s.obj r with timerRecvd := false }).recvdValue r) := by
  have hlive : Live s r := by
    by_contra hdead
    rw [(h.stopped r hlt hdead).2] at htimer
    cases htimer
  obtain ⟨huse, hvset⟩ := (h.query r hlive).timerRecvd htimer
  have hcon := h.isRdpCon_false huse hlive
  cases hrecvd : (s.setQuery r { s.obj r with timerRecvd := false }).recvdValue r with
  | ok s' =>
    exact Ends.ok (h.recvdValue (q := { s.obj r with timerRecvd := false }) hlive rfl rfl
      (h.noConn hcon) hvset hrecvd)
  | error e =>
    have hnode := recvdValue_error hrecvd
    rw [setQuery_self] at hnode
    exact Ends.error hnode

/-- A query whose connection is gone goes on. -/
theorem Wired.retry (h : Wired s) (hlive : Live s r) (hcon : (s.obj r).isRdpCon = true)
    (hno : NoConn s r) (now desc : Int) : Wired (s.retry now r desc) := by
  have hok := h.query r hlive
  unfold Queries.retry
  dsimp only
  split
  · rename_i id ids hids
    have hset := h.update (q := { s.obj r with ids := ids, rdpTime := now }) hlive rfl rfl
      ⟨hok.rdp, hok.timerRecvd, hok.started, hok.key, hok.count⟩ rfl rfl
    have hlive' : Live (s.setQuery r { s.obj r with ids := ids, rdpTime := now }) r :=
      (live_setQuery (q := { s.obj r with ids := ids, rdpTime := now }) rfl).mpr hlive
    exact hset.connect hlive' (by simpa using hcon) hno _ _ _ _
  · have hok' : QueryOk s.isUseRdp { s.obj r with isRdpCon := false } :=
      ⟨fun hfalse => (by cases hfalse), hok.timerRecvd, hok.started, hok.key, hok.count⟩
    have hset := h.setQuery (q := { s.obj r with isRdpCon := false }) hlive rfl rfl hok'
      fun d c hc hr => absurd hr (hno d c hc)
    have hlive' : Live (s.setQuery r { s.obj r with isRdpCon := false }) r :=
      (live_setQuery (q := { s.obj r with isRdpCon := false }) rfl).mpr hlive
    exact hset.sendFind hlive'

/-- A query for values reports what it has. -/
theorem Wired.report (h : Wired s) (hlive : Live s r) (hfind : (s.obj r).isFindValue = true)
    (hno : NoConn s r) (hvset : (s.obj r).get.vset ≠ ∅) :
    ∃ s', s.recvdValue r = .ok s' ∧ Wired s' := by
  have hs : s.recvdValue r =
      .ok ((s.call r (.value true (some (s.obj r).get.vset))).removeQuery r) := by
    unfold Queries.recvdValue
    exact if_pos hfind
  have hself : (s.setQuery r (s.obj r)).recvdValue r =
      .ok ((s.call r (.value true (some (s.obj r).get.vset))).removeQuery r) := by
    rw [setQuery_obj]
    exact hs
  exact ⟨_, hs, h.recvdValue hlive rfl rfl hno hvset hself⟩

/-- The connection of a query ends. -/
theorem Wired.closeRdp (h : Wired s) {desc : Int} {con : Conn}
    (hconn : s.conns.lookup desc = some con) (now desc' : Int) :
    ∃ s', s.closeRdp now con.query desc desc' = .ok s' ∧ Wired s' := by
  obtain ⟨hlive, hcon, hdesc⟩ := h.conns desc con hconn
  have hfind := ((h.query _ hlive).rdp hcon).2
  have hno := h.noConn_close hdesc
  unfold Queries.closeRdp
  dsimp only
  split
  · rename_i hvset
    exact (h.close desc).report hlive hfind hno hvset
  · exact ⟨_, rfl, (h.close desc).retry hlive hcon hno now desc'⟩

theorem Wired.connected (h : Wired s) {desc : Int} {con : Conn}
    (hconn : s.conns.lookup desc = some con) (now : Int) :
    ∃ s', s.connected now desc con = .ok s' ∧ Wired s' := by
  obtain ⟨hlive, hcon, hdesc⟩ := h.conns desc con hconn
  have hok := h.query _ hlive
  obtain ⟨huse, hfind⟩ := hok.rdp hcon
  unfold Queries.connected
  dsimp only
  rw [if_neg fun hbad => hok.key hfind hbad.1]
  -- The query already waits for this connection, so only its state changes.
  let q : Query := { s.obj con.query with
    isRdpCon := true
    rdpDesc := desc
    rdpTime := now
    get := { (s.obj con.query).get with rdpState := .queryHdr } }
  have hset : Wired (s.setQuery con.query q) := h.update hlive rfl rfl
    ⟨fun _ => ⟨huse, hfind⟩, hok.timerRecvd, hok.started, hok.key, hok.count⟩ hcon.symm hdesc.symm
  have hlive' : Live (s.setQuery con.query q) con.query := (live_setQuery (q := q) rfl).mpr hlive
  exact ⟨_, rfl,
    hset.insertConn desc { con with isOpen := true } hlive' (by simp [q]) (by simp [q])⟩

/-! ### Reading -/

/-- A round keeps every value that has been read. -/
theorem vset_subset_read (q : RdpGet) (rqueue : List (List Byte)) :
    q.vset ⊆ (q.read rqueue).2.1.vset := by
  unfold RdpGet.read
  split
  · unfold RdpGet.readHdr
    dsimp only
    split
    · exact Finset.Subset.refl _
    · split
      · exact Finset.Subset.refl _
      · split <;> exact Finset.Subset.refl _
  · unfold RdpGet.readVal
    dsimp only
    split
    · exact Finset.Subset.refl _
    · split
      · exact Finset.subset_insert _ _
      · exact Finset.Subset.refl _

/-- A round that goes on has read a packet. -/
theorem read_next {q : RdpGet} {rqueue : List (List Byte)} (h : (q.read rqueue).1 = .next) :
    (q.read rqueue).2.2.1.length < rqueue.length := by
  unfold RdpGet.read at h ⊢
  cases hstate : q.rdpState with
  | queryHdr =>
    rw [hstate] at h
    simp only [RdpGet.readHdr] at h ⊢
    by_cases hnil : (receive sizeofRdpGetReply rqueue).1 = []
    · simp [hnil] at h
    · by_cases hlen : (receive sizeofRdpGetReply rqueue).1.length ≠ sizeofRdpGetReply
      · -- A header that is cut off closes the connection.
        simp [hnil, hlen] at h
      · have hshort := receive_length hnil
        simp only [if_neg hnil, if_neg hlen] at h ⊢
        split
        · exact hshort
        · exact hshort
  | queryVal =>
    rw [hstate] at h
    simp only [RdpGet.readVal] at h ⊢
    by_cases hnil : (receive (q.vallen.toNat - q.val.length) rqueue).1 = []
    · simp [hnil] at h
    · have hshort := receive_length hnil
      simp only [if_neg hnil] at h ⊢
      split
      · exact hshort
      · exact hshort

/-- The loop ends, and keeps every value that has been read. -/
theorem ready2ReadLoop_ends (rounds : Nat) : ∀ (c : GetClient) (sent : List (List Byte)),
    c.rqueue.length < rounds →
    ∃ c' sent', GetClient.ready2ReadLoop rounds c sent = .ok (c', sent') ∧
      c.query.vset ⊆ c'.query.vset := by
  induction rounds with
  | zero =>
    intro c sent h
    exact absurd h (Nat.not_lt_zero _)
  | succ rounds ih =>
    intro c sent h
    have hsub := vset_subset_read c.query c.rqueue
    rw [GetClient.ready2ReadLoop]
    dsimp only
    cases hprogress : (c.query.read c.rqueue).1 with
    | wait => exact ⟨_, _, rfl, hsub⟩
    | close => exact ⟨_, _, rfl, hsub⟩
    | next =>
      have hshort := read_next hprogress
      obtain ⟨c', sent', hloop, hsub'⟩ := ih
        { c with
          query := (c.query.read c.rqueue).2.1
          rqueue := (c.query.read c.rqueue).2.2.1 }
        (sent ++ (c.query.read c.rqueue).2.2.2) (by dsimp only; omega)
      exact ⟨c', sent', hloop, hsub.trans hsub'⟩

theorem ready2Read_ends (c : GetClient) : ∃ c' sent, c.ready2Read = .ok (c', sent) ∧
    c.query.vset ⊆ c'.query.vset :=
  ready2ReadLoop_ends _ c [] (Nat.lt_succ_self _)

theorem Wired.ready2Read (h : Wired s) {desc : Int} {con : Conn}
    (hconn : s.conns.lookup desc = some con) (now : Int) (packets : List (List Byte))
    (desc' : Int) : ∃ s', s.ready2Read now desc con packets desc' = .ok s' ∧ Wired s' := by
  obtain ⟨hlive, hcon, hdesc⟩ := h.conns desc con hconn
  have hok := h.query _ hlive
  obtain ⟨huse, hfind⟩ := hok.rdp hcon
  have hidle : (s.obj con.query).timerRecvd = false := by
    by_contra htimer
    have hno := (hok.timerRecvd (Bool.eq_true_of_not_eq_false htimer)).1
    rw [huse] at hno
    cases hno
  obtain ⟨c, sent, hread, -⟩ :=
    ready2Read_ends ⟨(s.obj con.query).get, con.rqueue ++ packets, false⟩
  let q : Query := { s.obj con.query with
    get := c.query
    rdpTime := if c.rqueue.length < (con.rqueue ++ packets).length then now
      else (s.obj con.query).rdpTime }
  have hset : Wired (s.setQuery con.query q) := h.update hlive rfl rfl
    ⟨hok.rdp, fun htimer => absurd (hidle.symm.trans htimer) (by simp), hok.started, hok.key,
      hok.count⟩
    rfl rfl
  have hlive' : Live (s.setQuery con.query q) con.query := (live_setQuery (q := q) rfl).mpr hlive
  unfold Queries.ready2Read
  dsimp only
  rw [hread]
  dsimp only
  split
  · -- The loop has closed the connection.
    have hconn' : (s.setQuery con.query q).conns.lookup desc = some con := hconn
    exact hset.closeRdp hconn' now desc'
  · exact ⟨_, rfl, hset.insertConn desc { con with rqueue := c.rqueue } hlive'
      (by simpa [q] using hcon) (by simpa [q] using hdesc)⟩

end

end Libcage.Proofs.Dht
