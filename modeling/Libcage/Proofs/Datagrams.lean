import Libcage.Datagrams
import Libcage.Lib.Run

/-!
# `Libcage.Proofs.Datagrams`: datagrams leave in order

What was sent to a destination, and what waits for it, is a part of what was passed to
`send_dgram` for it, in the same order (`DatagramsCore.order`). A queue is sent or erased as a
whole, so that the parts that are lost are the only difference. A queue that is not empty has a
pool, and between two events a request (`DatagramsInv`).

`datagrams_in_order` says this of every run, in which a request can end at any time, while it
is made or later, and the peers can change.
-/

set_option autoImplicit false

namespace Libcage.Proofs.Datagrams

open Libcage.Lib
open Libcage.Rdp (Id Table)
open Libcage.Dht (Saddr Cageaddr)

/-- What a receiver gets. -/
structure Message where
  type : Byte
  src : Id
  payload : List Byte

/-- The message of a datagram. -/
def message (d : Datagram) : Message where
  type := (MsgHdr.decode d.msg).type
  src := (MsgHdr.decode d.msg).src
  payload := d.msg.drop sizeofHdr

/-- The messages that were sent to a destination. -/
def emitted (s : Dgram) (dst : Id) : List Message :=
  (s.sent.filter fun d => (MsgHdr.decode d.msg).dst = dst).map message

/-- The messages that an event of the node `own` passes to `send_dgram` for a destination. -/
def passed (own dst : Id) : Datagrams.Input → List Message
  | .sendPbuf pbuf id type _ => if id = dst then [⟨type, own, pbuf.data⟩] else []
  | .sendBytes msg len id src _ =>
      if id = dst ∧ 0 ≤ len then
        (cut Datagrams.dmax (msg.take len.toNat)).map fun piece =>
          ⟨typeDgram, src.getD own, piece⟩
      else []
  | .complete _ _ => []
  | .peers _ => []

/-- The message that waits. -/
def queued (data : SendData) : Message := ⟨data.type, data.src, data.pbuf.data⟩

/-! ### One message -/

/-- What `send_msg` sends is the message, to the destination. -/
theorem message_of_sendMsg {data : SendData} {addr : Cageaddr} {d : Datagram}
    (hlen : data.len = data.pbuf.getLen) (h : Dgram.sendMsg data addr = some d) :
    (MsgHdr.decode d.msg).dst = addr.id ∧ message d = queued data := by
  unfold Dgram.sendMsg at h
  dsimp only at h
  split at h
  · cases h
  · rename_i pbuf hpbuf
    have hdata := (Packetbuf.prepend_eq_some hpbuf).2
    -- The window is the header and the data.
    have htake : pbuf.view.take (data.len + sizeofHdr) = pbuf.data := by
      rw [Packetbuf.view, List.take_left']
      rw [hdata, List.length_append, MsgHdr.length_encode, hlen, Packetbuf.getLen, Nat.add_comm]
    unfold sendto at h
    split at h
    · cases h
    · rw [← Option.some.inj h, htake, hdata, message, MsgHdr.decode_encode]
      exact ⟨rfl, by rw [List.drop_left' (MsgHdr.length_encode _)]; rfl⟩

section
variable {addr : Cageaddr} {q : List SendData}

/-- A queue is sent in its order, without those that have no place for a header. -/
theorem sublist_sendMsg (hlen : ∀ data ∈ q, data.len = data.pbuf.getLen) :
    ((q.filterMap (Dgram.sendMsg · addr)).map message).Sublist (q.map queued) := by
  induction q with
  | nil => exact List.Sublist.refl []
  | cons data q ih =>
    have hrest := ih fun data' hdata' => hlen data' (List.mem_cons_of_mem _ hdata')
    cases hsend : Dgram.sendMsg data addr with
    | none =>
      simp only [List.filterMap_cons, hsend]
      exact hrest.cons _
    | some d =>
      have hd := (message_of_sendMsg (hlen data (List.mem_cons_self ..)) hsend).2
      simp only [List.filterMap_cons, hsend, List.map_cons, hd]
      exact hrest.cons_cons _

/-- All of the queue goes to its destination. -/
theorem dst_of_mem_sendMsg (hlen : ∀ data ∈ q, data.len = data.pbuf.getLen) {d : Datagram}
    (hd : d ∈ q.filterMap (Dgram.sendMsg · addr)) : (MsgHdr.decode d.msg).dst = addr.id := by
  obtain ⟨data, hdata, hsend⟩ := List.mem_filterMap.mp hd
  exact (message_of_sendMsg (hlen data hdata) hsend).1

end

/-! ### Queues -/

section
variable {s : Dgram}

theorem waiting_insert (id dst : Id) (q : List SendData) (sent : List Datagram) :
    ({ s with queue := s.queue.insert id q, sent } : Dgram).waiting dst =
      if dst = id then q else s.waiting dst := by
  unfold Dgram.waiting
  split
  · rename_i heq
    rw [heq, AList.lookup_insert]
    rfl
  · rename_i hne
    rw [AList.lookup_insert_ne hne]

theorem waiting_erase (id dst : Id) :
    ({ s with queue := s.queue.erase id } : Dgram).waiting dst =
      if dst = id then [] else s.waiting dst := by
  unfold Dgram.waiting
  split
  · rename_i heq
    rw [heq, AList.lookup_erase]
    rfl
  · rename_i hne
    rw [AList.lookup_erase_ne hne]

theorem waiting_push2queue (id dst : Id) (pbuf : Packetbuf) (src : Id) (type : Byte) :
    (s.push2queue id pbuf src type).waiting dst =
      if dst = id then s.waiting id ++ [⟨pbuf, src, pbuf.getLen, type⟩] else s.waiting dst :=
  waiting_insert id dst _ s.sent

/-- Of the peers there is the address of the id that was asked for. -/
theorem id_of_getAddr {peers : Peers} {id : Id} {addr : Cageaddr}
    (h : peers.getAddr id = some addr) : addr.id = id := by
  unfold Peers.getAddr at h
  obtain ⟨e, -, rfl⟩ := Option.map_eq_some_iff.mp h
  rfl

end

/-! ### The invariant -/

/-- What holds during an event, with what was passed so far for each destination. -/
structure DatagramsCore (own : Id) (all : Id → List Message) (s : Datagrams) : Prop where
  id : s.dgram.id = own
  len : ∀ dst, ∀ data ∈ s.dgram.waiting dst, data.len = data.pbuf.getLen
  order : ∀ dst,
    (emitted s.dgram dst ++ (s.dgram.waiting dst).map queued).Sublist (all dst)
  pool : ∀ dst, s.dgram.waiting dst ≠ [] → dst ∈ s.pools

/-- What holds between two events. -/
structure DatagramsInv (own : Id) (all : Id → List Message) (s : Datagrams) : Prop extends
    DatagramsCore own all s where
  requesting : ∀ dst, s.dgram.waiting dst ≠ [] → dst ∈ s.dgram.requesting

/-- The queue of a destination is empty, and all others are as they were. -/
structure Clears (dst : Id) (s s' : Datagrams) : Prop where
  empty : s'.dgram.waiting dst = []
  others : ∀ id, id ≠ dst → s'.dgram.waiting id = s.dgram.waiting id

section
variable {own : Id} {all : Id → List Message} {s : Datagrams}

theorem datagramsInv_init (own : Id) (isDtunEnabled isCallback : Bool) :
    DatagramsInv own (fun _ => []) (.init own isDtunEnabled isCallback) := by
  have hempty : ∀ dst, (Datagrams.init own isDtunEnabled isCallback).dgram.waiting dst = [] := by
    intro dst
    simp [Datagrams.init, Dgram.waiting]
  refine ⟨⟨rfl, ?_, fun dst => ?_, fun dst hne => absurd (hempty dst) hne⟩,
    fun dst hne => absurd (hempty dst) hne⟩
  · intro dst data hdata
    rw [hempty] at hdata
    cases hdata
  · rw [hempty]
    exact List.Sublist.refl []

/-- A queue becomes empty, and what was sent and what waits keeps its order. -/
theorem DatagramsCore.clear (h : DatagramsCore own all s) {dst : Id} {s' : Datagrams}
    (hid : s'.dgram.id = s.dgram.id)
    (hwaiting : ∀ id, s'.dgram.waiting id = if id = dst then [] else s.dgram.waiting id)
    (horder : ∀ id, (emitted s'.dgram id ++
      (if id = dst then [] else s.dgram.waiting id).map queued).Sublist (all id))
    (hpools : ∀ id, id ≠ dst → id ∈ s.pools → id ∈ s'.pools) :
    DatagramsCore own all s' ∧ Clears dst s s' := by
  have hothers : ∀ id, id ≠ dst → s'.dgram.waiting id = s.dgram.waiting id := by
    intro id hne
    rw [hwaiting, if_neg hne]
  have hempty : s'.dgram.waiting dst = [] := by rw [hwaiting, if_pos rfl]
  refine ⟨⟨hid.trans h.id, ?_, ?_, ?_⟩, hempty, hothers⟩
  · intro id data hdata
    by_cases heq : id = dst
    · rw [heq, hempty] at hdata
      cases hdata
    · rw [hothers id heq] at hdata
      exact h.len id data hdata
  · intro id
    rw [hwaiting]
    exact horder id
  · intro id hne
    by_cases heq : id = dst
    · rw [heq] at hne
      exact absurd hempty hne
    · rw [hothers id heq] at hne
      exact hpools id heq (h.pool id hne)

/-- Erasing a queue loses what waits. -/
theorem DatagramsCore.eraseQueue (h : DatagramsCore own all s) (dst : Id) :
    DatagramsCore own all (s.eraseQueue dst) ∧ Clears dst s (s.eraseQueue dst) := by
  refine h.clear rfl (fun id => waiting_erase dst id) ?_ ?_
  · intro id
    show (emitted s.dgram id ++
      (if id = dst then [] else s.dgram.waiting id).map queued).Sublist (all id)
    split
    · rw [List.map_nil, List.append_nil]
      exact (List.sublist_append_left ..).trans (h.order id)
    · exact h.order id
  · intro id hne hin
    exact Finset.mem_erase.mpr ⟨hne, hin⟩

/-- Where the other queues that are not empty have a request, all have. -/
theorem Clears.requesting {dst : Id} {s' : Datagrams} (h : Clears dst s s')
    (hothers : ∀ id, id ≠ dst → s.dgram.waiting id ≠ [] → id ∈ s'.dgram.requesting) :
    ∀ id, s'.dgram.waiting id ≠ [] → id ∈ s'.dgram.requesting := by
  intro id hne
  by_cases hid : id = dst
  · rw [hid] at hne
    exact absurd h.empty hne
  · rw [h.others id hid] at hne
    exact hothers id hid hne

/-- What is sent leaves the queue in its order. -/
theorem order_sendQueue (h : DatagramsCore own all s) (addr : Cageaddr) (dst : Id) :
    (emitted { s.dgram with sent := s.dgram.sent ++
        (s.dgram.waiting addr.id).filterMap (Dgram.sendMsg · addr) } dst ++
      (if dst = addr.id then [] else s.dgram.waiting dst).map queued).Sublist (all dst) := by
  have hlen := h.len addr.id
  unfold emitted
  rw [List.filter_append, List.map_append]
  split
  · rename_i heq
    have hall : ((s.dgram.waiting addr.id).filterMap (Dgram.sendMsg · addr)).filter
        (fun d => (MsgHdr.decode d.msg).dst = dst) =
        (s.dgram.waiting addr.id).filterMap (Dgram.sendMsg · addr) := by
      refine List.filter_eq_self.mpr fun d hd => ?_
      simp [dst_of_mem_sendMsg hlen hd, heq]
    rw [hall, List.map_nil, List.append_nil]
    have horder := h.order dst
    rw [heq] at horder ⊢
    exact ((List.Sublist.refl _).append (sublist_sendMsg hlen)).trans horder
  · rename_i hne
    have hnone : ((s.dgram.waiting addr.id).filterMap (Dgram.sendMsg · addr)).filter
        (fun d => (MsgHdr.decode d.msg).dst = dst) = [] := by
      refine List.filter_eq_nil_iff.mpr fun d hd => ?_
      simp [dst_of_mem_sendMsg hlen hd, Ne.symm hne]
    rw [hnone, List.map_nil, List.append_nil]
    exact h.order dst

/-- `send_queue` sends or erases the queue. Its pool is there. -/
theorem DatagramsCore.sendQueue (h : DatagramsCore own all s) (dst : Id) :
    ∃ s', s.sendQueue dst = .ok s' ∧ DatagramsCore own all s' ∧ Clears dst s s' ∧
      s'.dgram.requesting = s.dgram.requesting := by
  unfold Datagrams.sendQueue Dgram.sendQueue
  cases haddr : s.dgram.peers.getAddr dst with
  | none =>
    obtain ⟨hcore, hclears⟩ := h.eraseQueue dst
    exact ⟨_, rfl, hcore, hclears, rfl⟩
  | some addr =>
    have hid := id_of_getAddr haddr
    -- A queue that is not empty has a pool to destroy its messages in.
    have hpool : ¬ (s.dgram.waiting dst ≠ [] ∧ dst ∉ s.pools) :=
      fun hmissing => hmissing.2 (h.pool dst hmissing.1)
    dsimp only
    rw [if_neg hpool]
    cases hqueue : s.dgram.queue.lookup dst with
    | none =>
      have hempty : s.dgram.waiting dst = [] := by simp [Dgram.waiting, hqueue]
      exact ⟨_, rfl, h, ⟨hempty, fun _ _ => rfl⟩, rfl⟩
    | some q =>
      have hq : s.dgram.waiting dst = q := by simp [Dgram.waiting, hqueue]
      refine ⟨_, rfl, ?_⟩
      rw [← and_assoc]
      refine ⟨h.clear rfl (fun id => waiting_insert dst id [] _) ?_ fun _ _ hin => hin, rfl⟩
      intro id
      have horder := order_sendQueue h addr id
      rw [hid, hq] at horder
      exact horder

/-- The end of a request leaves nothing in the queue, and the request is gone. -/
theorem DatagramsCore.complete (h : DatagramsCore own all s) (dst : Id) (c : Completion) :
    ∃ s', s.complete dst c = .ok s' ∧ DatagramsCore own all s' ∧ Clears dst s s' ∧
      s'.dgram.requesting = s.dgram.requesting.erase dst := by
  obtain ⟨hcore, hclears⟩ := h.eraseQueue dst
  -- The four answers end in one of two ways: nothing is sent, or all that waits.
  have herased : ∃ s', (Except.ok (s.eraseQueue dst) >>= fun s =>
      (Except.ok (s.eraseRequesting dst) : Except DgramFault Datagrams)) = .ok s' ∧
      DatagramsCore own all s' ∧ Clears dst s s' ∧
      s'.dgram.requesting = s.dgram.requesting.erase dst :=
    ⟨_, rfl, ⟨hcore.id, hcore.len, hcore.order, hcore.pool⟩, ⟨hclears.empty, hclears.others⟩, rfl⟩
  have hsent : ∃ s', (s.sendQueue dst >>= fun s =>
      (Except.ok (s.eraseRequesting dst) : Except DgramFault Datagrams)) = .ok s' ∧
      DatagramsCore own all s' ∧ Clears dst s s' ∧
      s'.dgram.requesting = s.dgram.requesting.erase dst := by
    obtain ⟨t, ht, hcore, hclears, hrequesting⟩ := h.sendQueue dst
    refine ⟨t.eraseRequesting dst, by rw [ht, ok_bind],
      ⟨hcore.id, hcore.len, hcore.order, hcore.pool⟩, ⟨hclears.empty, hclears.others⟩, ?_⟩
    rw [← hrequesting]
    rfl
  cases c with
  | request result =>
    cases result with
    | false => exact herased
    | true => exact hsent
  | findNode =>
    dsimp only [Datagrams.complete, Datagrams.findNodeFunc]
    cases s.dgram.peers.getAddr dst with
    | none => exact herased
    | some addr => exact hsent

/-- The peers are not part of the invariant. -/
theorem DatagramsCore.setPeers (h : DatagramsCore own all s) (peers : Peers) :
    DatagramsCore own all (s.setPeers peers) :=
  ⟨h.id, h.len, h.order, h.pool⟩

/-- After a request, every queue that is not empty has one. -/
theorem DatagramsCore.request (h : DatagramsCore own all s) {dst : Id}
    (hothers : ∀ id, id ≠ dst → s.dgram.waiting id ≠ [] → id ∈ s.dgram.requesting)
    (now : Option (Peers × Completion)) :
    ∃ s', s.request dst now = .ok s' ∧ DatagramsInv own all s' := by
  unfold Datagrams.request
  by_cases hin : dst ∈ s.dgram.requesting
  · -- A request is on its way, and its completion sends the queue.
    rw [if_pos hin]
    refine ⟨s, rfl, h, fun id hne => ?_⟩
    by_cases hid : id = dst
    · rwa [hid]
    · exact hothers id hid hne
  · rw [if_neg hin]
    cases s.dgram.peers.getAddr dst with
    | some addr =>
      obtain ⟨s', hs', hcore, hclears, hrequesting⟩ := h.sendQueue dst
      refine ⟨s', hs', hcore, hclears.requesting ?_⟩
      rw [hrequesting]
      exact hothers
    | none =>
      dsimp only
      cases now with
      | none =>
        refine ⟨_, rfl, ⟨h.id, h.len, h.order, h.pool⟩, fun id hne => ?_⟩
        by_cases hid : id = dst
        · exact Finset.mem_insert.mpr (Or.inl hid)
        · exact Finset.mem_insert_of_mem (hothers id hid hne)
      | some now =>
        -- The answer comes before `request` returns.
        obtain ⟨peers, c⟩ := now
        have hasked : DatagramsCore own all { s with dgram := { s.dgram with
            requesting := insert dst s.dgram.requesting
            asked := s.dgram.asked ++ [dst] } } := ⟨h.id, h.len, h.order, h.pool⟩
        obtain ⟨s', hs', hcore, hclears, hrequesting⟩ := (hasked.setPeers peers).complete dst c
        refine ⟨s', hs', hcore, hclears.requesting fun id hid hne => ?_⟩
        rw [hrequesting]
        exact Finset.mem_erase.mpr ⟨hid, Finset.mem_insert_of_mem (hothers id hid hne)⟩

/-- A message is passed for a destination. -/
def passOne (all : Id → List Message) (dst : Id) (ms : List Message) (id : Id) : List Message :=
  all id ++ if dst = id then ms else []

theorem DatagramsCore.push2queue (h : DatagramsCore own all s) (dst : Id) (pbuf : Packetbuf)
    (src : Id) (type : Byte) :
    DatagramsCore own (passOne all dst [⟨type, src, pbuf.data⟩])
      (s.push2queue dst pbuf src type) := by
  have hwaiting : ∀ id, (s.push2queue dst pbuf src type).dgram.waiting id =
      if id = dst then s.dgram.waiting dst ++ [⟨pbuf, src, pbuf.getLen, type⟩]
      else s.dgram.waiting id := fun id => waiting_push2queue dst id pbuf src type
  refine ⟨h.id, ?_, ?_, ?_⟩
  · intro id data hdata
    rw [hwaiting] at hdata
    split at hdata
    · rcases List.mem_append.mp hdata with hdata | hdata
      · exact h.len dst data hdata
      · rw [List.mem_singleton.mp hdata]
    · exact h.len id data hdata
  · intro id
    show (emitted s.dgram id ++ ((s.push2queue dst pbuf src type).dgram.waiting id).map
      queued).Sublist (passOne all dst [⟨type, src, pbuf.data⟩] id)
    rw [hwaiting, passOne]
    -- What was passed last is emitted last, behind what waits already.
    by_cases hid : id = dst
    · rw [if_pos hid, if_pos hid.symm, List.map_append, ← List.append_assoc, hid]
      exact (h.order dst).append (List.Sublist.refl _)
    · rw [if_neg hid, if_neg (Ne.symm hid), List.append_nil]
      exact h.order id
  · intro id hne
    rw [hwaiting] at hne
    split at hne
    · rename_i hid
      exact Finset.mem_insert.mpr (Or.inl hid)
    · exact Finset.mem_insert_of_mem (h.pool id hne)

/-- The pieces are pushed one after the other, and each has place in a buffer. -/
theorem DatagramsCore.push2queueBytes {pieces : List (List Byte)} (dst src : Id)
    (hpieces : ∀ piece ∈ pieces, piece.length ≤ Datagrams.dmax) {all : Id → List Message}
    {s : Datagrams} (h : DatagramsCore own all s) :
    ∃ s', s.push2queueBytes dst src pieces = .ok s' ∧
      DatagramsCore own (passOne all dst (pieces.map fun piece => ⟨typeDgram, src, piece⟩)) s' ∧
      (∀ id, id ≠ dst → s'.dgram.waiting id = s.dgram.waiting id) ∧
      s'.dgram.requesting = s.dgram.requesting := by
  induction pieces generalizing all s with
  | nil =>
    refine ⟨s, rfl, ⟨h.id, h.len, fun id => ?_, h.pool⟩, fun _ _ => rfl, rfl⟩
    simpa [passOne] using h.order id
  | cons piece pieces ih =>
    obtain ⟨pbuf, hpbuf⟩ := Packetbuf.construct_append (hpieces piece (List.mem_cons_self ..))
    have hdata : pbuf.data = piece := (Packetbuf.append_eq_some hpbuf).2
    have hpush := h.push2queue dst pbuf src typeDgram
    obtain ⟨s', hs', hcore, hothers, hrequesting⟩ :=
      ih (fun p hp => hpieces p (List.mem_cons_of_mem _ hp)) hpush
    refine ⟨s', by simp only [Datagrams.push2queueBytes, hpbuf, hs'], ?_, ?_, hrequesting⟩
    · refine ⟨hcore.id, hcore.len, fun id => ?_, hcore.pool⟩
      have horder := hcore.order id
      unfold passOne at horder ⊢
      by_cases hid : dst = id
      · simpa [hid, hdata] using horder
      · simpa [hid] using horder
    · intro id hne
      rw [hothers id hne]
      exact (waiting_push2queue dst id pbuf src typeDgram).trans (if_neg hne)

/-- A packet is passed, and a request made where none is under way. -/
theorem DatagramsInv.sendPbuf (h : DatagramsInv own all s) (pbuf : Packetbuf) (id : Id)
    (type : Byte) (now : Option (Peers × Completion)) :
    ∃ s', s.step (.sendPbuf pbuf id type now) = .ok s' ∧
      DatagramsInv own (fun dst => all dst ++ passed own dst (.sendPbuf pbuf id type now)) s' := by
  have hpush := h.toDatagramsCore.push2queue id pbuf s.dgram.id type
  have hothers : ∀ d, d ≠ id → (s.push2queue id pbuf s.dgram.id type).dgram.waiting d ≠ [] →
      d ∈ (s.push2queue id pbuf s.dgram.id type).dgram.requesting := by
    intro d hd hne
    have hsame : (s.push2queue id pbuf s.dgram.id type).dgram.waiting d = s.dgram.waiting d :=
      (waiting_push2queue id d pbuf s.dgram.id type).trans (if_neg hd)
    rw [hsame] at hne
    exact h.requesting d hne
  rw [h.id] at hpush hothers
  obtain ⟨s', hs', hinv⟩ := hpush.request hothers now
  refine ⟨s', ?_, hinv⟩
  simp only [Datagrams.step, Datagrams.sendPbuf, h.id, hs']

/-- The pieces of a message are passed, with one request for all of them. -/
theorem DatagramsInv.sendBytes (h : DatagramsInv own all s) (msg : List Byte) (len : Int) (id : Id)
    (src : Option Id) (now : Option (Peers × Completion)) :
    ∃ s', s.step (.sendBytes msg len id src now) = .ok s' ∧
      DatagramsInv own (fun dst => all dst ++ passed own dst (.sendBytes msg len id src now))
        s' := by
  by_cases hlen : len < 0
  · -- A negative length passes nothing.
    refine ⟨s, if_pos hlen, ?_⟩
    have hpassed : ∀ dst, passed own dst (.sendBytes msg len id src now) = [] :=
      fun dst => if_neg fun hneg => absurd hneg.2 (by omega)
    simp only [hpassed, List.append_nil]
    exact h
  · have hnonneg : 0 ≤ len := by omega
    obtain ⟨t, ht, hcore, hothers, hrequesting⟩ :=
      h.toDatagramsCore.push2queueBytes id (src.getD own)
        (length_le_of_mem_cut Datagrams.dmax (msg.take len.toNat))
    obtain ⟨s', hs', hinv⟩ := hcore.request (fun d hd hne => by
      rw [hothers d hd] at hne
      rw [hrequesting]
      exact h.requesting d hne) now
    refine ⟨s', ?_, ?_⟩
    · simp only [Datagrams.step, Datagrams.sendBytes, h.id, if_neg hlen, ht, ok_bind, hs']
    · simp only [passed, hnonneg, and_true]
      exact hinv

/-- One event, and what it passes. -/
theorem DatagramsInv.step (h : DatagramsInv own all s) (i : Datagrams.Input) :
    ∃ s', s.step i = .ok s' ∧ DatagramsInv own (fun dst => all dst ++ passed own dst i) s' := by
  cases i with
  | sendPbuf pbuf id type now => exact h.sendPbuf pbuf id type now
  | sendBytes msg len id src now => exact h.sendBytes msg len id src now
  | complete id c =>
    obtain ⟨s', hs', hcore, hclears, hrequesting⟩ := h.toDatagramsCore.complete id c
    simp only [passed, List.append_nil]
    refine ⟨s', hs', hcore, hclears.requesting fun d hd hne => ?_⟩
    rw [hrequesting]
    exact Finset.mem_erase.mpr ⟨hd, h.requesting d hne⟩
  | peers peers =>
    simp only [passed, List.append_nil]
    exact ⟨s.setPeers peers, rfl, h.toDatagramsCore.setPeers peers, h.requesting⟩

theorem DatagramsInv.run (inputs : List Datagrams.Input) {all : Id → List Message}
    {s : Datagrams} (h : DatagramsInv own all s) :
    ∃ s', run Datagrams.step s inputs = .ok s' ∧
      DatagramsInv own (fun dst => all dst ++ inputs.flatMap (passed own dst)) s' := by
  induction inputs generalizing all s with
  | nil =>
    refine ⟨s, rfl, ?_⟩
    simpa using h
  | cons i is ih =>
    obtain ⟨t, ht, hinv⟩ := h.step i
    obtain ⟨s', hs', hinv'⟩ := ih hinv
    refine ⟨s', by rw [Lib.run, ht, ok_bind, hs'], ?_⟩
    simpa [List.append_assoc] using hinv'

end

/-- After any run, the messages that were sent to a destination are some of those that were
passed to `send_dgram` for it, in their order, each once at most. Bytes are cut into pieces of
896 bytes at most. A queue that is not empty has a request. -/
theorem datagrams_in_order (own : Id) (isDtunEnabled isCallback : Bool)
    (inputs : List Datagrams.Input) :
    (∃ s, run Datagrams.step (.init own isDtunEnabled isCallback) inputs = .ok s ∧ ∀ dst,
      (emitted s.dgram dst).Sublist (inputs.flatMap (passed own dst)) ∧
      (s.dgram.waiting dst ≠ [] → dst ∈ s.dgram.requesting)) ∧
    ∀ msg : List Byte, (cut Datagrams.dmax msg).flatten = msg ∧
      ∀ piece ∈ cut Datagrams.dmax msg, piece.length ≤ 896 := by
  refine ⟨?_, fun msg => ⟨flatten_cut (by decide) msg, length_le_of_mem_cut Datagrams.dmax msg⟩⟩
  obtain ⟨s, hs, hinv⟩ := (datagramsInv_init own isDtunEnabled isCallback).run inputs
  refine ⟨s, hs, fun dst => ⟨?_, hinv.requesting dst⟩⟩
  exact (List.sublist_append_left ..).trans (by simpa using hinv.order dst)

end Libcage.Proofs.Datagrams
