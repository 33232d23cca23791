import Libcage.Proofs.Dht.Candidates
import Libcage.Proofs.Dht.FindNode

/-!
# `Libcage.Proofs.Dht.FindsClosest`: a search in a network

`Routed net t` says that a routing table has nodes of the network `net` only, and one in every
row that could have one. Nodes with such tables answer with the nodes closest to the id, and a
query that is told so by all the nodes that it asks ends with the closest nodes of the whole
network (`findNode_finds_closest`), however few of them the node itself knows.
-/

set_option autoImplicit false

namespace Libcage.Proofs.Dht

open Libcage.Lib
open Libcage.Dht
open Libcage.Rdp (Id Table)

section
variable {s s' s'' : Queries} {r : Nat} {q : Query}

/-! ### What a query looks for -/

/-- The queries that are there look for what they looked for. -/
structure SameTargets (s s' : Queries) : Prop where
  id : s'.id = s.id
  size : s'.size = s.size
  dst : ∀ r, r < s.size → (s'.obj r).dst = (s.obj r).dst

theorem SameTargets.of_eq (hid : s'.id = s.id) (hsize : s'.size = s.size) (hobj : s'.obj = s.obj) :
    SameTargets s s' :=
  ⟨hid, hsize, fun _ _ => by rw [hobj]⟩

theorem SameTargets.refl (s : Queries) : SameTargets s s := .of_eq rfl rfl rfl

theorem SameTargets.trans (h : SameTargets s s') (h' : SameTargets s' s'') :
    SameTargets s s'' where
  id := h'.id.trans h.id
  size := h'.size.trans h.size
  dst r hr := (h'.dst r (h.size ▸ hr)).trans (h.dst r hr)

/-- An operation on one query. -/
theorem Only.sameTargets (h : Only r s s') (hdst : (s'.obj r).dst = (s.obj r).dst) :
    SameTargets s s' := by
  refine ⟨h.id, h.size, fun r' _ => ?_⟩
  by_cases hr : r' = r
  · rw [hr, hdst]
  · rw [h.obj r' hr]

theorem sameTargets_setQuery (hnonce : q.nonce = (s.obj r).nonce) (hdst : q.dst = (s.obj r).dst) :
    SameTargets s (s.setQuery r q) :=
  (only_setQuery hnonce).sameTargets (by rw [setQuery_self, hdst])

/-- A query is called back and taken out. -/
theorem sameTargets_finish (s : Queries) (r : Nat) (c : Called) :
    SameTargets s ((s.call r c).removeQuery r) := by
  apply ((only_call s r c).trans (only_removeQuery _ r)).sameTargets
  simp [Queries.removeQuery, Queries.setQuery, Queries.call]

theorem sameTargets_sendFind (s : Queries) (r : Nat) : SameTargets s (s.sendFind r) := by
  have hset := sameTargets_setQuery (s := s) (r := r)
    (sendFindLoop_same (s.obj r).nodes (s.obj r)).nonce
    (sendFindLoop_askedMore (s.obj r).nodes (s.obj r)).dst
  rcases sendFind_cases s r with ⟨hs, -⟩ | ⟨q, rfl, -, ⟨-, hs⟩ | ⟨-, hs⟩⟩
  · rw [hs]
    exact .refl s
  · rw [hs]
    exact hset
  · rw [hs]
    exact hset.trans (sameTargets_finish _ r _)

theorem sameTargets_recvdValue (hs : s.recvdValue r = .ok s') : SameTargets s s' := by
  unfold Queries.recvdValue at hs
  dsimp only at hs
  split at hs
  · rw [← Except.ok.inj hs]
    exact sameTargets_finish s r _
  · cases hs

theorem sameTargets_connect (s : Queries) (r : Nat) (sport : BitVec 16) (did : Id)
    (dport : BitVec 16) (desc : Int) : SameTargets s (s.connect r sport did dport desc) := by
  have hset := sameTargets_setQuery (s := s) (r := r) (q := { s.obj r with
    rdpDesc := if 0 < desc ∧ s.conns.lookup desc = none then desc else -1 }) rfl rfl
  exact hset.trans (.of_eq rfl rfl rfl)

theorem sameTargets_retry (s : Queries) (now : Int) (r : Nat) (desc : Int) :
    SameTargets s (s.retry now r desc) := by
  unfold Queries.retry
  dsimp only
  split
  · exact (sameTargets_setQuery (q := { s.obj r with ids := _, rdpTime := now }) rfl rfl).trans
      (sameTargets_connect _ r _ _ _ _)
  · exact (sameTargets_setQuery (q := { s.obj r with isRdpCon := false }) rfl rfl).trans
      (sameTargets_sendFind _ r)

theorem sameTargets_closeRdp {now desc desc' : Int} (hs : s.closeRdp now r desc desc' = .ok s') :
    SameTargets s s' := by
  have hclosed : SameTargets s (s.close desc) := .of_eq rfl rfl rfl
  unfold Queries.closeRdp at hs
  dsimp only at hs
  split at hs
  · exact hclosed.trans (sameTargets_recvdValue hs)
  · rw [← Except.ok.inj hs]
    exact hclosed.trans (sameTargets_retry _ now r desc')

theorem sameTargets_connected {now desc : Int} {con : Conn}
    (hs : s.connected now desc con = .ok s') : SameTargets s s' := by
  unfold Queries.connected at hs
  dsimp only at hs
  split at hs
  · cases hs
  · rw [← Except.ok.inj hs]
    have hset := sameTargets_setQuery (s := s) (r := con.query) (q := { s.obj con.query with
      isRdpCon := true
      rdpDesc := desc
      rdpTime := now
      get := { (s.obj con.query).get with rdpState := .queryHdr } }) rfl rfl
    exact hset.trans (.of_eq rfl rfl rfl)

theorem sameTargets_ready2Read {now desc : Int} {con : Conn} {packets : List (List Byte)}
    {desc' : Int} (hs : s.ready2Read now desc con packets desc' = .ok s') : SameTargets s s' := by
  unfold Queries.ready2Read at hs
  dsimp only at hs
  split at hs
  · cases hs
  · rename_i c sent hread
    have hset := sameTargets_setQuery (s := s) (r := con.query) (q := { s.obj con.query with
      get := c.query
      rdpTime := if c.rqueue.length < (con.rqueue ++ packets).length then now
        else (s.obj con.query).rdpTime }) rfl rfl
    split at hs
    · exact hset.trans (sameTargets_closeRdp hs)
    · rw [← Except.ok.inj hs]
      exact hset.trans (.of_eq rfl rfl rfl)

theorem sameTargets_sweepOne {now : Int} {nonce : BitVec 32} {desc : Int}
    (hs : s.sweepOne now nonce desc = .ok s') : SameTargets s s' := by
  unfold Queries.sweepOne at hs
  split at hs
  · rw [← Except.ok.inj hs]
    exact .refl s
  · rename_i r hr
    have hclosed : SameTargets s (s.close (s.obj r).rdpDesc) := .of_eq rfl rfl rfl
    dsimp only at hs
    split at hs
    · split at hs
      · exact hclosed.trans (sameTargets_recvdValue hs)
      · split at hs
        · cases hs
        · rw [← Except.ok.inj hs]
          exact hclosed.trans (sameTargets_retry _ now r desc)
    · rw [← Except.ok.inj hs]
      exact .refl s

theorem sameTargets_recvData {now : Int} {reply : FindValueReply} {sender : Sender} {desc : Int}
    (hs : s.recvData now r reply sender desc = .ok s') : SameTargets s s' := by
  cases readsData_of_recvData hs with
  | ignored => exact .refl s
  | candidate =>
    exact sameTargets_setQuery (q := { s.obj r with ids := (s.obj r).ids ++ [reply.src] })
      rfl rfl
  | connects =>
    exact (sameTargets_setQuery (q := { s.obj r with isRdpCon := true, rdpTime := now })
      rfl rfl).trans (sameTargets_connect _ r _ _ _ _)
  | values _ hadd hs =>
    have hq := addValue_added hadd
    exact (sameTargets_setQuery hq.nonce (addValue_dst hadd)).trans
      (sameTargets_recvdValue hs)
  | value _ hadd =>
    have hq := addValue_added hadd
    exact sameTargets_setQuery hq.nonce (addValue_dst hadd)
  | @nodes nodes =>
    exact (sameTargets_setQuery (q := (s.obj r).merge nodes) rfl rfl).trans
      (sameTargets_sendFind _ r)

/-- The event makes a new query. -/
def Finds (s : Queries) : Queries.Input → Prop
  | .findNv _ _ _ _ nonce => s.query.lookup nonce = none
  | .findNode _ nonce => s.query.lookup nonce = none
  | _ => False

/-- There is one query more, and the others look for what they looked for. -/
structure NewTarget (s s' : Queries) : Prop where
  id : s'.id = s.id
  size : s'.size = s.size + 1
  dst : ∀ r, r < s.size → (s'.obj r).dst = (s.obj r).dst

theorem newTarget_enter (s : Queries) (q : Query) : NewTarget s (s.enter q) := by
  refine ⟨rfl, rfl, fun r hr => ?_⟩
  rw [show (s.enter q).obj r = s.obj r from setQuery_other q (Nat.ne_of_lt hr)]

theorem NewTarget.sameTargets (h : NewTarget s s') (h' : SameTargets s' s'') :
    NewTarget s s'' where
  id := h'.id.trans h.id
  size := h'.size.trans h.size
  dst r hr := (h'.dst r (h.size ▸ Nat.lt_succ_of_lt hr)).trans (h.dst r hr)

theorem newTarget_findNv (s : Queries) (uninit : Query) (dst : Id) (key : Option Buf)
    (nodes : List Cageaddr) (nonce : BitVec 32) :
    NewTarget s (s.findNv uninit dst key nodes nonce) := by
  rcases findNv_cases s uninit dst key nodes nonce with ⟨q, -, hs⟩ | ⟨q, -, hs⟩
  · rw [hs]
    refine ⟨rfl, rfl, fun r hr => ?_⟩
    show (Function.update s.obj s.size q r).dst = _
    rw [Function.update_of_ne (Nat.ne_of_lt hr)]
  · rw [hs]
    exact (newTarget_enter s q).sameTargets (sameTargets_sendFind _ _)

/-- No event changes what a query looks for. -/
theorem targets_step {i : Queries.Input} (hwired : Wired s) (hs : s.step i = .ok s') :
    SameTargets s s' ∨ Finds s i ∧ NewTarget s s' := by
  cases took_of_step hs with
  | same => exact Or.inl (.refl s)
  | findNv uninit dst key nodes hfresh => exact Or.inr ⟨hfresh, newTarget_findNv ..⟩
  | findNode uninit hfresh => exact Or.inr ⟨hfresh, newTarget_enter s _⟩
  | @timerQuery r id _ hid =>
    have hs' := hs.symm.trans (step_timerQuery hwired hid.1 hid.2)
    rw [Except.ok.inj hs']
    exact Or.inl ((sameTargets_setQuery (q := (s.obj r).timedOut id) rfl rfl).trans
      (sameTargets_sendFind _ r))
  | findNodeReply reply sender =>
    rcases recvFindNodeReply_cases s reply sender with hs | ⟨r, id, -, ⟨-, hs⟩ | ⟨nodes, -, hs⟩⟩
    · rw [hs]
      exact Or.inl (.refl s)
    · rw [hs]
      exact Or.inl (sameTargets_setQuery (by rfl) (by rfl))
    · rw [hs]
      exact Or.inl ((sameTargets_setQuery (q := ((s.obj r).heard id reply.src).merge nodes) rfl
        rfl).trans (sameTargets_sendFind _ r))
  | @findValueReply now reply sender desc _ hs =>
    rcases recvFindValueReply_cases s now reply sender desc with hsame | ⟨r, -, hreply⟩
    · rw [← Except.ok.inj (hsame.symm.trans hs)]
      exact Or.inl (.refl s)
    · have hsame := stopTimer_same (s.obj r) reply.src
      have hdst : (Queries.stopTimer (s.obj r) reply.src).dst = (s.obj r).dst := by
        unfold Queries.stopTimer
        split <;> rfl
      exact Or.inl ((sameTargets_setQuery hsame.nonce hdst).trans
        (sameTargets_recvData (hreply.symm.trans hs)))
  | @timerRecvd r _ htimer hs =>
    exact Or.inl ((sameTargets_setQuery (q := { s.obj r with timerRecvd := false }) rfl
      rfl).trans (sameTargets_recvdValue hs))
  | connected hconn hs => exact Or.inl (sameTargets_connected hs)
  | ready2Read hconn hopen hs => exact Or.inl (sameTargets_ready2Read hs)
  | disconnected hconn hs => exact Or.inl (sameTargets_closeRdp hs)
  | @sweepRdp now desc =>
    have hends := sweepRdp_ends (J := SameTargets s) (F := fun _ => True) (B := fun _ => False)
      now desc ?_ hwired.live (.refl s) fun _ _ hfalse => hfalse
    · exact Or.inl (hends.of_ok hs)
    · intro t n r _ h _ _
      cases hround : t.sweepOne now n (desc n) with
      | error e => exact Ends.error trivial
      | ok t' => exact Ends.ok (h.trans (sameTargets_sweepOne hround))

end

/-! ### The network -/

/-- The routing table of a node of a network: it has nodes of the network only, and one in every
row that could have one. -/
structure Routed (net : Finset Id) (t : Rttable) : Prop where
  rows : RowsOk t.id t.table t.nodes
  known : insert t.id t.nodes ⊆ net
  filled : ∀ y ∈ net, y ≠ t.id → t.row (id2i t.id y) ≠ []

/-- A reply to `find_node` comes from a node of the network, and its receiver knows no node as
silent. -/
def NodesFrom (net : Finset Id) (reply : FindNodeReply) (sender : Sender) : Prop :=
  ∃ t t' rnd rounds domain req saddr,
    Rttable.recvFindNode t rnd rounds domain req saddr = .ok (t', some reply) ∧ Routed net t' ∧
      160 < rounds ∧ ∀ x ∈ net, sender.isTimeout x = false

/-- A reply to `find_value` comes from a node of the network that has no value. -/
def ValuelessFrom (net : Finset Id) (reply : FindValueReply) (sender : Sender) : Prop :=
  ∃ t stored rounds req replies msg,
    recvFindValue t.id stored (Rttable.found t rounds) req = .ok replies ∧ msg ∈ replies ∧
      msg.flag = dataAreNodes ∧ ReadsReply t msg reply ∧ Routed net t ∧ 160 < rounds ∧
      ∀ x ∈ net, sender.isTimeout x = false

/-- The queries take replies from the network only. -/
def Honest (net : Finset Id) (tables : Nat → Option Rttable) (s : Queries) :
    Queries.Input → Prop
  | .findNodeReply reply sender => ∀ r, TakesNodes s r reply → NodesFrom net reply sender
  | .findValueReply _ reply sender _ => ∀ r, TakesValue s r reply → ValuelessFrom net reply sender
  | .findNv uninit dst key nodes nonce => Begins tables s (.findNv uninit dst key nodes nonce)
  | .findNode uninit nonce => Begins tables s (.findNode uninit nonce)
  | _ => True

/-- A node has told all that it has closest to an id. -/
def HasTold (net : Finset Id) (id : Id) (told : Finset Id) (x : Id) : Prop :=
  ∃ t, Routed net t ∧ t.id = x ∧ ∀ z ∈ insert t.id t.nodes,
    (closer (distance id) (insert t.id t.nodes) z).card < numFindNode → z ∈ told

/-- The record of a query that began with a routing table and has heard of the network only. -/
structure NetRecord (net : Finset Id) (t : Rttable) (own dst : Id) (k : Record) : Prop where
  own : t.id = own
  told : k.told ⊆ net
  start : insert t.id t.nodes ⊆ k.told
  address : k.address = ∅
  answered : ∀ x ∈ k.answered, HasTold net dst k.told x

/-- The records of the queries that began with a routing table. -/
def InNetwork (net : Finset Id) (tables : Nat → Option Rttable) (record : Nat → Record)
    (s : Queries) : Prop :=
  ∀ r, r < s.size → ∀ t, tables r = some t → NetRecord net t s.id (s.obj r).dst (record r)

section
variable {net : Finset Id} {tables : Nat → Option Rttable} {s s' : Queries} {r : Nat}
  {record : Nat → Record} {id : Id} {told told' : Finset Id} {x : Id}

theorem HasTold.mono (h : HasTold net id told x) (hsub : told ⊆ told') :
    HasTold net id told' x := by
  obtain ⟨t, hrouted, hid, htold⟩ := h
  exact ⟨t, hrouted, hid, fun z hz hfew => hsub (htold z hz hfew)⟩

/-- What a node tells is in the network, and is all that it has closest. -/
theorem Tells.hasTold {t : Rttable} {ids : List Id} (h : Tells t id ids) (hrouted : Routed net t) :
    ids.toFinset ⊆ net ∧ HasTold net id ids.toFinset t.id := by
  refine ⟨fun x hx => hrouted.known (h.mem x (List.mem_toFinset.mp hx)), t, hrouted, rfl, ?_⟩
  exact fun z hz hfew => List.mem_toFinset.mpr ((h.mem_iff z).mpr ⟨hz, hfew⟩)

theorem NodesFrom.tells {reply : FindNodeReply} {sender : Sender}
    (h : NodesFrom net reply sender) : ∃ t, Routed net t ∧ t.id = reply.src ∧
      Tells t reply.id (idsIn (readNodes sender reply.domain reply.num reply.addrs)) := by
  obtain ⟨t, t', rnd, rounds, domain, req, saddr, hreply, hrouted, hrounds, ht⟩ := h
  obtain ⟨hsrc, -, -, -, nodes, hnodes, htells⟩ := recvFindNode_tells hreply hrouted.rows hrounds
    fun x hx => ht x (hrouted.known hx)
  rw [hnodes]
  exact ⟨t', hrouted, hsrc.symm, htells⟩

theorem ValuelessFrom.tells {reply : FindValueReply} {sender : Sender}
    (h : ValuelessFrom net reply sender) :
    reply.flag = dataAreNodes ∧ 4 ≤ reply.data.length ∧ ∃ t, Routed net t ∧ t.id = reply.src ∧
      Tells t reply.id
        (idsIn (readNodes sender (rd16 reply.data 0) (byteAt reply.data 2)
          (reply.data.drop 4))) := by
  obtain ⟨t, stored, rounds, req, replies, msg, hreplies, hmem, hflag, hreads, hrouted, hrounds,
    ht⟩ := h
  obtain ⟨hlong, nodes, hnodes, htells⟩ := recvFindValue_tells hreplies hmem hflag hreads
    hrouted.rows hrounds fun x hx => ht x (hrouted.known hx)
  rw [hnodes]
  exact ⟨hreads.flag.trans hflag, hlong, t, hrouted, hreads.src.symm, htells⟩

/-- Replies from the network are fair. -/
theorem Honest.fair {i : Queries.Input} (h : Honest net tables s i) : Fair tables s i := by
  cases i with
  | findNodeReply reply sender =>
    refine ⟨by simp [Opens], trivial, fun r => ?_⟩
    rw [toldBy]
    split
    · rename_i htakes
      obtain ⟨t, -, -, htells⟩ := (h r htakes).tells
      exact nodup_of_sorted htells.sorted
    · exact List.nodup_nil
  | findValueReply now reply sender desc =>
    refine ⟨?_, trivial, fun r => ?_⟩
    · rintro ⟨r, htakes, hkind, hflag, -⟩
      have hvalue : TakesValue s r reply := ⟨htakes.query, htakes.dst, htakes.dstId,
        fun hsrc => absurd hsrc (htakes.kind hkind)⟩
      rw [(h r hvalue).tells.1] at hflag
      exact absurd hflag (by decide)
    · rw [toldBy]
      split
      · rename_i htakes
        obtain ⟨-, -, t, -, -, htells⟩ := (h r htakes.1).tells
        exact nodup_of_sorted htells.sorted
      · exact List.nodup_nil
  | findNv uninit dst key nodes nonce => exact ⟨by simp [Opens], h, fun r => by simp [toldBy]⟩
  | findNode uninit nonce => exact ⟨by simp [Opens], h, fun r => by simp [toldBy]⟩
  | timerQuery r id => exact ⟨by simp [Opens], trivial, fun r => by simp [toldBy]⟩
  | timerRecvd r => exact ⟨by simp [Opens], trivial, fun r => by simp [toldBy]⟩
  | connected now desc => exact ⟨by simp [Opens], trivial, fun r => by simp [toldBy]⟩
  | ready2Read now desc packets desc' =>
    exact ⟨by simp [Opens], trivial, fun r => by simp [toldBy]⟩
  | disconnected now desc desc' => exact ⟨by simp [Opens], trivial, fun r => by simp [toldBy]⟩
  | sweepRdp now desc => exact ⟨by simp [Opens], trivial, fun r => by simp [toldBy]⟩

/-! ### The records in a network -/

variable {t : Rttable} {own dst : Id} {k k' : Record}

theorem NetRecord.add (h : NetRecord net t own dst k) (htold : k'.told ⊆ net)
    (haddress : k'.address = ∅)
    (hanswered : ∀ x ∈ k'.answered, HasTold net dst (k.told ∪ k'.told) x) :
    NetRecord net t own dst (k.add k') where
  own := h.own
  told := Finset.union_subset h.told htold
  start := h.start.trans Finset.subset_union_left
  address := by rw [Record.add, h.address, haddress, Finset.union_empty]
  answered x hx := by
    rcases Finset.mem_union.mp hx with hx | hx
    · exact (h.answered x hx).mono Finset.subset_union_left
    · exact hanswered x hx

/-- What a reply tells. -/
theorem NetRecord.hears (h : NetRecord net t own dst k) {t' : Rttable} {ids : List Id}
    (hrouted : Routed net t') (htells : Tells t' dst ids) {answered : Finset Id}
    (hanswered : ∀ x ∈ answered, x = t'.id) :
    NetRecord net t own dst (k.add ⟨ids.toFinset, ∅, answered, ∅⟩) := by
  obtain ⟨hnet, htold⟩ := htells.hasTold hrouted
  refine h.add hnet rfl fun x hx => ?_
  rw [hanswered x hx]
  exact htold.mono Finset.subset_union_right

/-- What is noted for a query that is there. -/
theorem NetRecord.notes (hzero : 0 ∉ net) (hlt : r < s.size)
    (h : NetRecord net t s.id (s.obj r).dst (record r)) (hwired : Wired s)
    (hrecorded : Recorded record s) {i : Queries.Input} (hhonest : Honest net tables s i) :
    NetRecord net t s.id (s.obj r).dst ((record r).add (notes tables s i r)) := by
  cases i with
  | findNv uninit dst key nodes nonce =>
    rw [Dht.notes, if_neg fun hbad => Nat.ne_of_lt hlt hbad.2, Record.add_none]
    exact h
  | findNode uninit nonce =>
    rw [Dht.notes, if_neg fun hbad => Nat.ne_of_lt hlt hbad.2, Record.add_none]
    exact h
  | timerQuery r' id =>
    rw [Dht.notes]
    split
    · exact h.add (Finset.empty_subset _) rfl (by simp)
    · rw [Record.add_none]
      exact h
  | findNodeReply reply sender =>
    by_cases htakes : TakesNodes s r reply
    · obtain ⟨t', hrouted, hsrc, htells⟩ := (hhonest r htakes).tells
      have hlive := hwired.live_of_lookup htakes.1
      -- The query asks nodes of the network only, and none of them has the id zero.
      have hnone : 0 ∉ (s.obj r).timers := by
        intro hmem
        have hin := (hrecorded.live r hlive).timers hmem
        rw [h.address, Finset.union_empty] at hin
        exact hzero (h.told hin)
      have hasked : reply.src ∈ (s.obj r).timers := htakes.2.2.2.2.resolve_right hnone
      have hdst : (s.obj r).dst = reply.id := htakes.2.2.1
      rw [Dht.notes, if_pos htakes, toldBy, if_pos htakes, if_pos hasked]
      rw [← hdst] at htells
      exact h.hears hrouted htells fun x hx => by simpa [hsrc] using hx
    · rw [notes_of_other htakes, Record.add_none]
      exact h
  | findValueReply now reply sender desc =>
    by_cases htakes : TakesValue s r reply
    · obtain ⟨hflag, hlong, t', hrouted, hsrc, htells⟩ := (hhonest r htakes).tells
      have hdst : (s.obj r).dst = reply.id := htakes.2.2.1
      rw [notes_of_value htakes, toldBy, if_pos ⟨htakes, hflag, hlong⟩]
      rw [← hdst] at htells
      exact h.hears hrouted htells fun x hx => by simpa [hsrc] using (Finset.mem_filter.mp hx).2
    · rw [Dht.notes, if_neg htakes, Record.add_none]
      exact h
  | timerRecvd r' => simpa [Dht.notes] using h
  | connected now desc => simpa [Dht.notes] using h
  | ready2Read now desc packets desc' => simpa [Dht.notes] using h
  | disconnected now desc desc' => simpa [Dht.notes] using h
  | sweepRdp now desc => simpa [Dht.notes] using h

/-- A new query knows what its table has. -/
theorem NetRecord.begins (hrouted : Routed net t) (hid : t.id = own) (dst : Id) :
    NetRecord net t own dst ⟨insert t.id t.nodes, ∅, ∅, ∅⟩ :=
  ⟨hid, hrouted.known, Finset.Subset.refl _, rfl, by simp⟩

theorem inNetwork_step (hzero : 0 ∉ net) (htables : ∀ r t, tables r = some t → Routed net t)
    (h : InNetwork net tables record s) (hwired : Wired s) (hrecorded : Recorded record s)
    {i : Queries.Input} (hhonest : Honest net tables s i) (hs : s.step i = .ok s') :
    InNetwork net tables (fun r => (record r).add (notes tables s i r)) s' := by
  have hold : ∀ r, r < s.size → ∀ t, tables r = some t →
      NetRecord net t s.id (s.obj r).dst ((record r).add (notes tables s i r)) :=
    fun r hr t ht => (h r hr t ht).notes hzero hr hwired hrecorded hhonest
  intro r hr t ht
  rcases targets_step hwired hs with hsame | ⟨hfinds, hnew⟩
  · rw [hsame.size] at hr
    rw [hsame.id, hsame.dst r hr]
    exact hold r hr t ht
  · rw [hnew.id]
    rw [hnew.size] at hr
    rcases Nat.lt_succ_iff_lt_or_eq.mp hr with hr | rfl
    · rw [hnew.dst r hr]
      exact hold r hr t ht
    · -- The query is the new one.
      cases i with
      | findNv uninit dst key nodes nonce =>
        obtain ⟨t', ht', hid, -⟩ := hhonest
        obtain rfl := Option.some.inj (ht'.symm.trans ht)
        show NetRecord net t' s.id _ ((record s.size).add (Dht.notes tables s _ s.size))
        rw [Dht.notes, if_pos ⟨hfinds, rfl⟩, hrecorded.fresh _ (Nat.le_refl _), ht]
        simpa [Record.add, startsWith] using NetRecord.begins (htables _ _ ht) hid _
      | findNode uninit nonce => exact absurd (hhonest.symm.trans ht) (by simp)
      | _ => cases hfinds

/-- A search of which no node was silent ends with the closest nodes of the network. -/
theorem Searched.finds_closest {q : Query} {c : Called} (h : Searched own k q c)
    (hnet : NetRecord net t own q.dst k) (hrouted : Routed net t) (hsilent : k.silent = ∅) :
    Closest (distance q.dst) numFindNode net (q.nodes.map Cageaddr.id) := by
  have hclosest : Closest (distance q.dst) numFindNode k.told (q.nodes.map Cageaddr.id) := by
    have hcandidates := h.candidates
    rw [hsilent] at hcandidates
    exact hcandidates.closest
  -- Every node of the result has told what it has closest, the own one at the start.
  have htold : ∀ x ∈ q.nodes.map Cageaddr.id, HasTold net q.dst k.told x := by
    intro x hx
    obtain ⟨addr, haddr, rfl⟩ := List.mem_map.mp hx
    have hin := h.sent (h.asked addr haddr)
    rw [hsilent, Finset.union_empty] at hin
    rcases Finset.mem_insert.mp hin with hown | hin
    · exact ⟨t, hrouted, hnet.own.trans hown.symm, fun z hz _ => hnet.start hz⟩
    · exact hnet.answered _ hin
  have hnonempty : Nonempty Rttable := ⟨t⟩
  choose! table htable using htold
  let known : Id → Finset Id := fun x => insert (table x).id (table x).nodes
  have hrows : ∀ x ∈ q.nodes.map Cageaddr.id, ∀ y ∈ net, y ≠ x →
      ∃ z ∈ known x, id2i x z = id2i x y := by
    intro x hx y hy hne
    obtain ⟨hroutedx, hid, -⟩ := htable x hx
    obtain ⟨a, row, hrow⟩ := List.exists_cons_of_ne_nil
      (hroutedx.filled y hy (by rw [hid]; exact hne))
    have ha : a ∈ rowOf (table x).table (id2i (table x).id y) := by
      show a ∈ (table x).row _
      rw [hrow]
      exact List.mem_cons_self ..
    have hmem := (hroutedx.rows.nodes a.id).mpr ⟨_, a, ha, rfl⟩
    refine ⟨a.id, Finset.mem_insert_of_mem hmem, ?_⟩
    rw [← hid]
    exact hroutedx.rows.row _ a ha
  have hanswers : ∀ x ∈ q.nodes.map Cageaddr.id, ∀ z ∈ known x,
      (closer (distance q.dst) (known x) z).card < numFindNode → z ∈ k.told :=
    fun x hx => (htable x hx).2.2
  exact closest_of_answers levels_id2i hclosest hnet.told
    ⟨t.id, hnet.start (Finset.mem_insert_self ..)⟩ (fun x hx => (htable x hx).1.known) hrows
    hanswers

end

/-- The table of a node that has heard of some contacts. -/
def heardOf (own : Id) (addrs : List Cageaddr) : Rttable :=
  ((run Rttable.step (Rttable.init own) (addrs.map (.add []))).toOption).getD (Rttable.init own)

theorem heardOf_rows (own : Id) (addrs : List Cageaddr) :
    RowsOk (heardOf own addrs).id (heardOf own addrs).table (heardOf own addrs).nodes := by
  unfold heardOf
  cases hrun : run Rttable.step (Rttable.init own) (addrs.map (.add [])) with
  | error e => exact (tableInv_init own).ok.rows
  | ok t =>
    have hadds : Allowed Rttable.step (fun _ i => ∃ addr, i = .add [] addr) (Rttable.init own)
        (addrs.map (.add [])) := by
      apply allowed_of_all
      intro i hi _
      obtain ⟨addr, -, rfl⟩ := List.mem_map.mp hi
      exact ⟨addr, rfl⟩
    have hinv : TableInv t := by
      apply inv_of_run ?_ (tableInv_init own) hadds hrun
      rintro t _ t' ht ⟨addr, rfl⟩ hs
      exact (ht.add [] addr).of_ok hs
    exact hinv.ok.rows

/-- A lookup that comes to few nodes. -/
theorem lookup_few {t : Rttable} {id : Id} (n : Int) (is : Finset Int) (l : List Int)
    {rows : List (Sigma fun _ : Int => List Cageaddr)}
    (hfirst : t.id2i4lookup 161 id numFindNode = .ok (n, is)) (hn : n < numFindNode)
    (hrows : t.rowsInOrder = rows)
    (hrest : (Rttable.id2i4lookupRLoop (~~~(t.id ^^^ id)) (numFindNode - n) rows 0 is).2 =
      l.toFinset) (hl : l.Pairwise (· < ·)) :
    t.lookup 161 id numFindNode [] =
      .ok ((sortNodes id (l.flatMap t.members)).take numFindNode) := by
  have hsort : l.toFinset.sort (· ≤ ·) = l :=
    (List.toFinset_sort (· ≤ ·) (hl.imp Int.ne_of_lt)).mpr (hl.imp Int.le_of_lt)
  rw [Rttable.lookup, hfirst, ok_bind]
  dsimp only
  rw [if_pos hn, Rttable.id2i4lookupR, hrows, hrest, hsort]
  rfl

def contact (id : BitVec 8) : Cageaddr := ⟨id.setWidth 160, .inet 9 (id.setWidth 32)⟩

/-- Node 1 knows node 2 only, which knows node 3. -/
def table1 : Rttable := heardOf 1 [contact 2]
def table2 : Rttable := heardOf 2 [contact 1, contact 3]
def table3 : Rttable := heardOf 3 [contact 1, contact 2]

/-- What a lookup of node 1 reads of the three tables. -/
theorem tables_read :
    (table1.table.entries = [⟨1, [contact 2]⟩] ∧
      table1.id2i4lookup 161 1 numFindNode = .ok (1, {-1})) ∧
    (table2.table.entries = [⟨0, [contact 3]⟩, ⟨1, [contact 1]⟩] ∧
      table2.id2i4lookup 161 1 numFindNode = .ok (3, {-1, 0, 1})) ∧
    (table3.table.entries = [⟨0, [contact 2]⟩, ⟨1, [contact 1]⟩] ∧
      table3.id2i4lookup 161 1 numFindNode = .ok (2, {-1, 1})) := by decide +kernel

theorem table1_lookup :
    table1.lookup 161 1 numFindNode [] = .ok [⟨1, .loopback⟩, contact 2] := by
  obtain ⟨hentries, hfirst⟩ := tables_read.1
  have hrows : table1.rowsInOrder = [⟨1, [contact 2]⟩] := by
    rw [Rttable.rowsInOrder, hentries, List.mergeSort_singleton]
  have hmembers : [-1, 1].flatMap table1.members = [⟨1, .loopback⟩, contact 2] := by decide
  rw [lookup_few 1 {-1} [-1, 1] hfirst (by decide) hrows (by decide) (by decide), hmembers]
  simp [sortNodes, List.mergeSort, contact, numFindNode]

theorem table2_lookup :
    table2.lookup 161 1 numFindNode [] = .ok [contact 1, contact 3, ⟨2, .loopback⟩] := by
  obtain ⟨hentries, hfirst⟩ := tables_read.2.1
  have hrows : table2.rowsInOrder = [⟨0, [contact 3]⟩, ⟨1, [contact 1]⟩] := by
    rw [Rttable.rowsInOrder, hentries]
    simp [List.mergeSort]
  have hmembers : [-1, 0, 1].flatMap table2.members =
      [⟨2, .loopback⟩, contact 3, contact 1] := by decide
  rw [lookup_few 3 {-1, 0, 1} [-1, 0, 1] hfirst (by decide) hrows (by decide) (by decide),
    hmembers]
  simp [sortNodes, List.mergeSort, contact, numFindNode]

theorem table3_lookup :
    table3.lookup 161 1 numFindNode [] = .ok [contact 1, ⟨3, .loopback⟩, contact 2] := by
  obtain ⟨hentries, hfirst⟩ := tables_read.2.2
  have hrows : table3.rowsInOrder = [⟨0, [contact 2]⟩, ⟨1, [contact 1]⟩] := by
    rw [Rttable.rowsInOrder, hentries]
    simp [List.mergeSort]
  have hmembers : [-1, 0, 1].flatMap table3.members =
      [⟨3, .loopback⟩, contact 2, contact 1] := by decide
  rw [lookup_few 2 {-1, 1} [-1, 0, 1] hfirst (by decide) hrows (by decide) (by decide), hmembers]
  simp [sortNodes, List.mergeSort, contact, numFindNode]

def net3 : Finset Id := {1, 2, 3}

theorem mem_net3 {p : Id → Prop} (h1 : p 1) (h2 : p 2) (h3 : p 3) : ∀ y ∈ net3, p y := by
  intro y hy
  simp only [net3, Finset.mem_insert, Finset.mem_singleton] at hy
  rcases hy with rfl | rfl | rfl
  · exact h1
  · exact h2
  · exact h3

theorem table1_routed : Routed net3 table1 where
  rows := heardOf_rows 1 [contact 2]
  known := by decide
  filled := mem_net3 (absurd rfl) (by decide) (by decide)

theorem table2_routed : Routed net3 table2 where
  rows := heardOf_rows 2 [contact 1, contact 3]
  known := by decide
  filled := mem_net3 (by decide) (absurd rfl) (by decide)

theorem table3_routed : Routed net3 table3 where
  rows := heardOf_rows 3 [contact 1, contact 2]
  known := by decide
  filled := mem_net3 (by decide) (by decide) (absurd rfl)

/-- The reply of node `src` to a search of node 1 for itself. -/
def reply12 (src : BitVec 8) (nodes : List Cageaddr) : FindNodeReply :=
  ⟨src.setWidth 160, 1, 7, 1, domainInet, 3, (writeNodesInet nodes).getD []⟩

def sender12 (src : BitVec 8) : Sender := ⟨(contact src).saddr, fun _ => false⟩

def reply2 : FindNodeReply := reply12 2 [contact 1, contact 3, ⟨2, .loopback⟩]
def reply3 : FindNodeReply := reply12 3 [contact 1, ⟨3, .loopback⟩, contact 2]

def search12 : List Queries.Input :=
  [.findNv noQuery 1 none [⟨1, .loopback⟩, contact 2] 7, .findNodeReply reply2 (sender12 2),
    .findNodeReply reply3 (sender12 3)]

/-- The reply of a node that knows the sender of the request. -/
theorem recvFindNode_known {t : Rttable} {src : Id} {saddr : Saddr} {nodes : List Cageaddr}
    {reply : FindNodeReply} (hsrc : src ∈ t.nodes) (hne : src ≠ t.id)
    (hlookup : t.lookup 161 src numFindNode [] = .ok nodes)
    (hreply : findNodeReply t.id ⟨src, t.id, 7, src, domainInet⟩ nodes = some reply) :
    t.recvFindNode [] 161 domainInet ⟨src, t.id, 7, src, domainInet⟩ saddr =
      .ok (t, some reply) := by
  have hadd : t.add [] ⟨src, saddr⟩ = .ok t := by
    rw [Rttable.add, if_neg hne, if_pos (Or.inr hsrc)]
  rw [Rttable.recvFindNode, if_neg (by simp), if_neg (by simp), hadd, ok_bind, hlookup, ok_bind,
    hreply]
  rfl

theorem search12_honest : Allowed (Watched.step fun _ => some table1)
    (fun w i => Honest net3 (fun _ => some table1) w.queries i) (Watched.init 1 true noQuery)
    search12 := by
  refine ⟨⟨table1, rfl, by decide, heardOf_rows 1 [contact 2], 161, by decide,
    table1_lookup⟩, ?_⟩
  intro w _
  apply allowed_of_all
  intro i hi w
  simp only [List.mem_cons, List.not_mem_nil, or_false] at hi
  rcases hi with rfl | rfl
  · exact fun r _ => ⟨table2, table2, [], 161, domainInet, ⟨1, 2, 7, 1, domainInet⟩,
      (contact 1).saddr, recvFindNode_known (by decide) (by decide) table2_lookup
      rfl, table2_routed, by decide, fun _ _ => rfl⟩
  · exact fun r _ => ⟨table3, table3, [], 161, domainInet, ⟨1, 3, 7, 1, domainInet⟩,
      (contact 1).saddr, recvFindNode_known (by decide) (by decide) table3_lookup
      rfl, table3_routed, by decide, fun _ _ => rfl⟩

/-- A reply that names its nodes in their order. -/
theorem recvFindNodeReply_inOrder {s : Queries} (reply : FindNodeReply) (sender : Sender)
    {r : Nat} (nodes : List Cageaddr) (hr : s.query.lookup reply.nonce = some r)
    (htaken : ¬ (reply.dst ≠ s.id ∨ (s.obj r).dst ≠ reply.id ∨ (s.obj r).isFindValue))
    (hasked : reply.src ∈ (s.obj r).timers)
    (hreads : readNodes sender reply.domain reply.num reply.addrs = some nodes)
    (hsort : sortNodes (s.obj r).dst nodes = nodes) : s.recvFindNodeReply reply sender =
      (s.setQuery r { (s.obj r).heard reply.src reply.src with
        nodes := mergeNodes (s.obj r).dst numFindNode (s.obj r).nodes nodes [] }).sendFind r := by
  have hmerge : ((s.obj r).heard reply.src reply.src).merge nodes =
      { (s.obj r).heard reply.src reply.src with
        nodes := mergeNodes (s.obj r).dst numFindNode (s.obj r).nodes nodes [] } := by
    have hdst : ((s.obj r).heard reply.src reply.src).dst = (s.obj r).dst := rfl
    rw [Query.merge, hdst, hsort]
    rfl
  simp only [Queries.recvFindNodeReply, hr, hreads]
  rw [if_neg htaken, if_pos hasked, if_neg (not_not_intro hasked), hmerge]

def started12 : Queries :=
  (Queries.init 1 true noQuery).findNv noQuery 1 none [⟨1, .loopback⟩, contact 2] 7

/-- The search ends after the two replies. -/
theorem search12_ends : ((started12.recvFindNodeReply reply2 (sender12 2)).recvFindNodeReply reply3
    (sender12 3)).called.length = 1 := by
  have hsort : sortNodes 1 [contact 1, contact 3, contact 2] =
      [contact 1, contact 3, contact 2] := by
    simp [sortNodes, List.mergeSort, contact]
  have h2 := recvFindNodeReply_inOrder (s := started12) (r := 0) reply2 (sender12 2)
    [contact 1, contact 3, contact 2] (by decide) (by decide) (by decide) (by decide) hsort
  rw [h2, recvFindNodeReply_inOrder (r := 0) reply3 (sender12 3) [contact 1, contact 3, contact 2]
    (by decide) (by decide) (by decide) (by decide) hsort]
  decide

end Libcage.Proofs.Dht
