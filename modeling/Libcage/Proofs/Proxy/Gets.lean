import Libcage.Proofs.Dht.Packets
import Libcage.Proxy.Get

/-!
# `Libcage.Proofs.Proxy.Gets`: what a get over a proxy brings

`Waits` is a client between two values, and `Reads` one that has the header of a value. The
client takes a value for complete when it has read anything of it, so the first packets of a
value that come with its header are the value (`arrive_value`), and what is missing was never
written. Of an empty value nothing is ever read.

Where each value is one packet (`Served`), `Phase` is the exchange between two events. It ends
with the values (`phase_rest`). Of any other set, some way for the packets to come does not
(`getReplyLossless_iff`).
-/

set_option autoImplicit false

namespace Libcage.Proofs.ProxyGet

open Libcage.Lib
open Libcage.Rdp (Id Table)
open Libcage.Dht (Buf StoreFault sendPackets segmentData)
open Libcage.Proxy
open Libcage.Proofs.Dht (toNat_len mem_sendPackets flatten_sendPackets sendPackets_short
  sendPackets_ne_nil)

/-- A request for the next value. -/
def proxyNext : List Byte := [proxyGetNext]

/-- The header of a value. -/
def valueHdr (value : Buf) : List Byte := MsgProxyRdpGetReplyVal.encode ⟨value.len⟩

theorem value_eq (value : Buf) :
    GetReplyServer.value value = valueHdr value :: sendPackets value.1 := by
  rw [GetReplyServer.value, sendPackets_short (MsgProxyRdpGetReplyVal.length_encode _) (by decide)]
  rfl

/-! ### The client -/

/-- What the client has of a value of which it has read some bytes. -/
def partialCells (value : Buf) (bytes : List Byte) : Cells :=
  cells bytes ++ List.replicate (value.1.length - bytes.length) none

theorem partialCells_all (value : Buf) : partialCells value value.1 = cells value.1 := by
  simp [partialCells]

/-- A client that waits for the header of a value. -/
structure Waits (nonce : BitVec 32) (done : Finset Cells) (s : GetReplyClient) : Prop where
  entry : ∃ ptr, s.entry = some ptr ∧ ptr.state = .rgrValHdr ∧ ptr.nonce = nonce
  rqueue : s.rqueue = []
  getdata : s.getdata.lookup nonce = some done
  only : ∀ n, n ≠ nonce → s.getdata.lookup n = none
  calls : s.calls = []

/-- A client that waits for a value. -/
structure Reads (nonce : BitVec 32) (done : Finset Cells) (value : Buf) (s : GetReplyClient) :
    Prop where
  entry : s.entry = some ⟨List.replicate value.1.length none, value.len, 0, .rgrVal, nonce⟩
  rqueue : s.rqueue = []
  getdata : s.getdata.lookup nonce = some done
  only : ∀ n, n ≠ nonce → s.getdata.lookup n = none
  calls : s.calls = []

section
variable {uninit : List Byte} {nonce : BitVec 32} {done : Finset Cells} {value : Buf}
  {s : GetReplyClient} {getdata : Table (BitVec 32) (Finset Cells)}

/-- Where nothing has come, the client waits. -/
theorem ready2Read_idle {ptr : RdpRecvGetReply} (hget : getdata.lookup ptr.nonce = some done)
    (calls : List (Bool × Finset Cells)) (rounds : Nat) (sent : List (List Byte)) :
    GetReplyClient.ready2ReadLoop uninit (rounds + 1) ⟨some ptr, [], getdata, calls⟩ sent =
      .ok (⟨some ptr, [], getdata, calls⟩, sent) := by
  have hread : GetReplyClient.read uninit ptr ⟨some ptr, [], getdata, calls⟩ =
      .ok (false, ⟨some ptr, [], getdata, calls⟩, []) := by
    unfold GetReplyClient.read
    cases ptr.state with
    | rgrHdr => rfl
    | rgrValHdr =>
      simp only [GetReplyClient.readValHdr, hget]
      rfl
    | rgrVal =>
      simp only [GetReplyClient.readVal, hget]
      rfl
  rw [GetReplyClient.ready2ReadLoop]
  simp only [hread, ok_bind, Bool.false_eq_true, if_false, List.append_nil]
  rfl

/-- The round that reads some of a value: what has come is the value. -/
theorem read_part {part later : List (List Byte)} (hpart : part ++ later = sendPackets value.1)
    (hne : part ≠ [])
    (hmod : (part.flatten.length + value.1.length) % 2 ^ 16 ≠ 0)
    (hget : getdata.lookup nonce = some done) :
    GetReplyClient.read uninit
      ⟨List.replicate value.1.length none, value.len, 0, .rgrVal, nonce⟩
      ⟨some ⟨List.replicate value.1.length none, value.len, 0, .rgrVal, nonce⟩, part, getdata, []⟩ =
      .ok (true, ⟨some ⟨[], value.len, 0, .rgrValHdr, nonce⟩, [],
        getdata.insert nonce (insert (partialCells value part.flatten) done), []⟩,
        [proxyNext]) := by
  have hbytes : part.flatten ≠ [] := flatten_ne_nil hne fun p hp =>
    mem_sendPackets p (by rw [← hpart]; exact List.mem_append_left _ hp)
  -- The room is that of the whole value, so all packets that have come are read.
  have hrecv : receive value.1.length part = (part.flatten, []) := by
    have hlen : value.1.length = (sendPackets value.1).flatten.length := by
      rw [flatten_sendPackets]
    have hstarts : Starts ([] : List (List Byte)) := by
      intro p rest h
      cases h
    rcases receive_part hlen (by rw [hpart, List.append_nil]) hstarts with
      ⟨todo', -, -, -, hrecv⟩ | ⟨queue', hqueue, hlater, hrecv⟩
    · exact hrecv
    · obtain ⟨rfl, -⟩ := List.append_eq_nil_iff.mp hlater
      rw [hrecv, hqueue, List.append_nil]
  have hsize : value.len.toNat - (0 : BitVec 16).toNat = value.1.length := by
    rw [toNat_len]
    rfl
  -- The sum that the loop compares with zero is one of 16 bits.
  have hread : (0 : BitVec 16) + BitVec.ofNat 16 part.flatten.length + value.len ≠ 0 := by
    intro hzero
    have h := congrArg BitVec.toNat hzero
    rw [BitVec.toNat_add, BitVec.toNat_add, toNat_len, BitVec.toNat_ofNat] at h
    apply hmod
    simpa [Nat.add_mod] using h
  have hwrite : Cells.write (List.replicate value.1.length none) (0 : BitVec 16).toNat
      part.flatten =
      partialCells value part.flatten := by
    simp [Cells.write, partialCells]
  simp only [GetReplyClient.read, GetReplyClient.readVal, hget, GetReplyClient.readValLoop, hsize,
    hrecv, if_neg hbytes, hread, ne_eq, not_false_eq_true, if_true, hwrite]
  rfl

/-- The round that reads the header of a value. -/
theorem read_valueHdr {ptr : RdpRecvGetReply} (hstate : ptr.state = .rgrValHdr)
    (hnonce : ptr.nonce = nonce) {part later : List (List Byte)}
    (hpart : part ++ later = sendPackets value.1) (hget : getdata.lookup nonce = some done) :
    GetReplyClient.read uninit ptr ⟨some ptr, valueHdr value :: part, getdata, []⟩ =
      .ok (true, ⟨some ⟨List.replicate value.1.length none, value.len, 0, .rgrVal, nonce⟩, part,
        getdata, []⟩, []) := by
  have hrecv : receive sizeofRdpGetReplyVal (valueHdr value :: part) = (valueHdr value, part) := by
    have hlen : sizeofRdpGetReplyVal = [valueHdr value].flatten.length := rfl
    have hqueue : (valueHdr value :: part) ++ later = [valueHdr value] ++ sendPackets value.1 := by
      rw [← hpart]
      rfl
    rcases receive_part hlen hqueue (starts_of_forall mem_sendPackets) with
      ⟨todo', hne, htodo, -, -⟩ | ⟨queue', hqueue', -, hrecv⟩
    · -- The header is one packet, and it has come.
      have hcount := congrArg List.length htodo
      have hpos := List.length_pos_iff_ne_nil.mpr hne
      simp only [List.length_append, List.length_cons, List.length_nil] at hcount
      omega
    · obtain ⟨-, rfl⟩ := List.cons.inj hqueue'
      rw [hrecv, List.flatten_singleton]
  have hbytes : valueHdr value ≠ [] := List.cons_ne_nil _ _
  have hdecode : MsgProxyRdpGetReplyVal.decode (valueHdr value ++ uninit) = ⟨value.len⟩ :=
    MsgProxyRdpGetReplyVal.decode_encode _ _
  have hlookup : getdata.lookup ptr.nonce = some done := by
    rw [hnonce]
    exact hget
  unfold GetReplyClient.read
  rw [hstate]
  simp only [GetReplyClient.readValHdr, hlookup, hnonce, hrecv, if_neg hbytes, hdecode, toNat_len]

/-- The first packets of a value come to a client that has its header. -/
theorem arrive_part (uninit : List Byte) {part later : List (List Byte)}
    (h : Reads nonce done value s)
    (hpart : part ++ later = sendPackets value.1) (hne : part ≠ [])
    (hmod : (part.flatten.length + value.1.length) % 2 ^ 16 ≠ 0) :
    ∃ s', s.arrive uninit part = .ok (s', [proxyNext]) ∧
      Waits nonce (insert (partialCells value part.flatten) done) s' := by
  obtain ⟨entry, rqueue, getdata, calls⟩ := s
  obtain ⟨rfl, rfl, hget, honly, rfl⟩ := h
  have hget' : (getdata.insert nonce (insert (partialCells value part.flatten) done)).lookup nonce =
      some (insert (partialCells value part.flatten) done) := AList.lookup_insert _
  refine ⟨⟨some ⟨[], value.len, 0, .rgrValHdr, nonce⟩, [],
    getdata.insert nonce (insert (partialCells value part.flatten) done), []⟩, ?_,
    ⟨⟨_, rfl, rfl, rfl⟩, rfl, hget', ?_, rfl⟩⟩
  · -- One round reads the packets, and the next one finds nothing.
    obtain ⟨rounds, hrounds⟩ := Nat.exists_eq_succ_of_ne_zero
      (Nat.ne_of_gt (List.length_pos_iff_ne_nil.mpr hne))
    have harrive : GetReplyClient.arrive uninit
        ⟨some ⟨List.replicate value.1.length none, value.len, 0, .rgrVal, nonce⟩, [], getdata, []⟩
        part = GetReplyClient.ready2ReadLoop uninit (part.length + 1)
          ⟨some ⟨List.replicate value.1.length none, value.len, 0, .rgrVal, nonce⟩, part, getdata,
            []⟩ [] := by
      unfold GetReplyClient.arrive
      exact if_neg hne
    rw [harrive, GetReplyClient.ready2ReadLoop]
    simp only [read_part hpart hne hmod hget, ok_bind, if_true, List.nil_append, hrounds]
    exact ready2Read_idle hget' _ _ _
  · intro n hn
    rw [AList.lookup_insert_ne hn]
    exact honly n hn

/-- The header of a value comes. -/
theorem arrive_valueHdr (uninit : List Byte) (value : Buf) (h : Waits nonce done s) :
    ∃ s', s.arrive uninit [valueHdr value] = .ok (s', []) ∧ Reads nonce done value s' := by
  obtain ⟨entry, rqueue, getdata, calls⟩ := s
  obtain ⟨⟨ptr, rfl, hstate, hnonce⟩, rfl, hget, honly, rfl⟩ := h
  have hpart : ([] : List (List Byte)) ++ sendPackets value.1 = sendPackets value.1 := rfl
  refine ⟨⟨some ⟨List.replicate value.1.length none, value.len, 0, .rgrVal, nonce⟩, [], getdata,
    []⟩, ?_, ⟨rfl, rfl, hget, honly, rfl⟩⟩
  show GetReplyClient.ready2ReadLoop uninit 2 ⟨some ptr, [valueHdr value], getdata, []⟩ [] = _
  rw [GetReplyClient.ready2ReadLoop]
  simp only [read_valueHdr hstate hnonce hpart hget, ok_bind, if_true, List.nil_append]
  exact ready2Read_idle hget _ _ _

/-- The header of a value comes with the first packets of the value. -/
theorem arrive_value (uninit : List Byte) {part later : List (List Byte)} (h : Waits nonce done s)
    (hpart : part ++ later = sendPackets value.1) (hne : part ≠ [])
    (hmod : (part.flatten.length + value.1.length) % 2 ^ 16 ≠ 0) :
    ∃ s', s.arrive uninit (valueHdr value :: part) = .ok (s', [proxyNext]) ∧
      Waits nonce (insert (partialCells value part.flatten) done) s' := by
  obtain ⟨entry, rqueue, getdata, calls⟩ := s
  obtain ⟨⟨ptr, rfl, hstate, hnonce⟩, rfl, hget, honly, rfl⟩ := h
  -- After the header it is the client that waits for the value.
  have hreads : Reads nonce done value
      ⟨some ⟨List.replicate value.1.length none, value.len, 0, .rgrVal, nonce⟩, [], getdata, []⟩ :=
    ⟨rfl, rfl, hget, honly, rfl⟩
  obtain ⟨s', harrive, hwaits⟩ := arrive_part uninit hreads hpart hne hmod
  refine ⟨s', ?_, hwaits⟩
  have hloop : GetReplyClient.ready2ReadLoop uninit (part.length + 1)
      ⟨some ⟨List.replicate value.1.length none, value.len, 0, .rgrVal, nonce⟩, part, getdata, []⟩
      [] = .ok (s', [proxyNext]) := by
    rw [← harrive]
    unfold GetReplyClient.arrive
    exact (if_neg hne).symm
  show GetReplyClient.ready2ReadLoop uninit (part.length + 2)
    ⟨some ptr, valueHdr value :: part, getdata, []⟩ [] = _
  rw [GetReplyClient.ready2ReadLoop]
  simp only [read_valueHdr hstate hnonce hpart hget, ok_bind, if_true, List.nil_append]
  exact hloop

/-- The header of the get comes. -/
theorem arrive_hdr (uninit : List Byte) {ptr : RdpRecvGetReply} (hstate : ptr.state = .rgrHdr)
    (hget : getdata.lookup nonce = some done) (honly : ∀ n, n ≠ nonce → getdata.lookup n = none)
    (id : Id) :
    ∃ s', GetReplyClient.arrive uninit ⟨some ptr, [], getdata, []⟩
        (GetReplyServer.connected true nonce id) = .ok (s', [proxyNext]) ∧
      Waits nonce done s' := by
  have hconnected : GetReplyServer.connected true nonce id =
      [MsgProxyRdpGetReply.encode ⟨nonce, id, proxyGetSuccess⟩] :=
    sendPackets_short (MsgProxyRdpGetReply.length_encode _) (by decide)
  have hrecv : receive sizeofRdpGetReplyHdr
      [MsgProxyRdpGetReply.encode ⟨nonce, id, proxyGetSuccess⟩] =
      (MsgProxyRdpGetReply.encode ⟨nonce, id, proxyGetSuccess⟩, []) := rfl
  have hbytes : MsgProxyRdpGetReply.encode ⟨nonce, id, proxyGetSuccess⟩ ≠ [] :=
    List.cons_ne_nil _ _
  have hflag : proxyGetSuccess ≠ proxyGetFail := by decide
  -- The round reads the header, and asks for the first value.
  have hread : GetReplyClient.read uninit ptr
      ⟨some ptr, [MsgProxyRdpGetReply.encode ⟨nonce, id, proxyGetSuccess⟩], getdata, []⟩ =
      .ok (true, ⟨some { ptr with nonce := nonce, state := .rgrValHdr }, [], getdata, []⟩,
        [proxyNext]) := by
    have hlookup : getdata.lookup (MsgProxyRdpGetReply.decode ((receive sizeofRdpGetReplyHdr
        [MsgProxyRdpGetReply.encode ⟨nonce, id, proxyGetSuccess⟩]).1 ++ uninit)).nonce =
        some done := by
      rw [hrecv, MsgProxyRdpGetReply.decode_encode]
      exact hget
    unfold GetReplyClient.read
    rw [hstate]
    simp only [GetReplyClient.readHdr, hlookup, hrecv, if_neg hbytes,
      MsgProxyRdpGetReply.decode_encode, if_neg hflag]
    rfl
  refine ⟨⟨some { ptr with nonce := nonce, state := .rgrValHdr }, [], getdata, []⟩, ?_,
    ⟨⟨_, rfl, rfl, rfl⟩, rfl, hget, honly, rfl⟩⟩
  rw [hconnected]
  show GetReplyClient.ready2ReadLoop uninit 2 ⟨some ptr, _, getdata, []⟩ [] = _
  rw [GetReplyClient.ready2ReadLoop]
  simp only [hread, ok_bind, if_true, List.nil_append]
  -- The next round finds nothing in the queue.
  have hget' :
      getdata.lookup (RdpRecvGetReply.nonce { ptr with nonce := nonce, state := .rgrValHdr }) =
    some done := hget
  exact ready2Read_idle hget' _ _ _

/-- The connection ends while the client waits. -/
theorem reset_waits (h : Waits nonce done s) (hdone : done ≠ ∅) :
    s.reset.calls = [(true, done)] ∧ s.reset.entry = none ∧ s.reset.rqueue = [] := by
  obtain ⟨entry, rqueue, getdata, calls⟩ := s
  obtain ⟨⟨ptr, rfl, hstate, rfl⟩, rfl, hget, honly, rfl⟩ := h
  have hcard : done.card > 0 := Finset.card_pos.mpr (Finset.nonempty_iff_ne_empty.mpr hdone)
  simp only [GetReplyClient.reset, GetReplyClient.closeRdp, hget, GetReplyClient.close, hcard,
    decide_true, List.nil_append, and_self]

end

/-! ### The proxy -/

/-- A request comes, and a value is left. -/
theorem arrive_next (value : Buf) (vset : List Buf) :
    GetReplyServer.arrive ⟨true, true, value :: vset, []⟩ [proxyNext] =
      .ok (⟨decide (vset ≠ []), true, vset, []⟩, GetReplyServer.value value) := by
  cases vset with
  | nil => rfl
  | cons it vset => rfl

/-! ### The exchange -/

/-- A value that is one packet. -/
def Served (value : Buf) : Prop := value.1 ≠ [] ∧ value.1.length ≤ segmentData

instance (value : Buf) : Decidable (Served value) :=
  inferInstanceAs (Decidable (value.1 ≠ [] ∧ value.1.length ≤ segmentData))

theorem Served.packets {value : Buf} (h : Served value) : sendPackets value.1 = [value.1] :=
  cut_of_short h.1 h.2

/-- Two times the length is a number of 16 bits. -/
theorem Served.mod {value : Buf} (h : Served value) :
    ([value.1].flatten.length + value.1.length) % 2 ^ 16 ≠ 0 := by
  have hpos := List.length_pos_iff_ne_nil.mpr h.1
  have hlen := h.2
  unfold segmentData at hlen
  rw [List.flatten_singleton]
  omega

/-- The values as the client holds them. -/
def values (vset : List Buf) : Finset Cells := (vset.map fun value => cells value.1).toFinset

@[simp] theorem values_nil : values [] = ∅ := rfl

@[simp] theorem values_cons (value : Buf) (vset : List Buf) :
    values (value :: vset) = insert (cells value.1) (values vset) :=
  List.toFinset_cons

/-- The packets that come of a single one. -/
theorem take_one {p : List Byte} {k : Nat} (h : [p].take k ≠ []) :
    [p].take k = [p] ∧ [p].drop k = [] := by
  cases k with
  | zero => exact absurd rfl h
  | succ k => simp

/-- The packets that come of two. -/
theorem take_two {p q : List Byte} {k : Nat} (h : [p, q].take k ≠ []) :
    ([p, q].take k = [p] ∧ [p, q].drop k = [q]) ∨
      ([p, q].take k = [p, q] ∧ [p, q].drop k = []) := by
  match k with
  | 0 => exact absurd rfl h
  | 1 => exact Or.inl ⟨rfl, rfl⟩
  | k + 2 => exact Or.inr (by simp)

theorem length_drop_of_take {packets : List (List Byte)} {k : Nat} (h : packets.take k ≠ []) :
    (packets.drop k).length < packets.length := by
  have hall := congrArg List.length (List.take_append_drop k packets)
  have hpos := List.length_pos_iff_ne_nil.mpr h
  rw [List.length_append] at hall
  omega

section
variable {uninit : List Byte} {c c' : GetReplyClient} {server server' : GetReplyServer}
  {toServer toClient arriving sent : List (List Byte)} {k : Nat}

theorem step_toClient (htake : toClient.take k = arriving)
    (harrive : c.arrive uninit arriving = .ok (c', sent)) :
    GetReplyExchange.step uninit ⟨c, server, toServer, toClient⟩ (.toClient k) =
      .ok ⟨c', server, toServer ++ sent, toClient.drop k⟩ := by
  rw [GetReplyExchange.step, htake, harrive]
  rfl

theorem step_toServer (htake : toServer.take k = arriving)
    (harrive : server.arrive arriving = .ok (server', sent)) :
    GetReplyExchange.step uninit ⟨c, server, toServer, toClient⟩ (.toServer k) =
      .ok ⟨c, server', toServer.drop k, toClient ++ sent⟩ := by
  rw [GetReplyExchange.step, htake, harrive]
  rfl

theorem step_closed {s : GetReplyExchange} (h : s.Closes) :
    GetReplyExchange.step uninit s .closed = .ok { s with client := s.client.reset } := by
  rw [GetReplyExchange.step, if_pos h]

end

/-- Something arrives. -/
def Moves (s : GetReplyExchange) : GetReplyExchange.Input → Prop
  | .toServer n => s.toServer.take n ≠ []
  | .toClient n => s.toClient.take n ≠ []
  | .closed => s.Closes

/-- The exchange between two events, with a bound on the events that are left. -/
inductive Phase (nonce : BitVec 32) (goal : Finset Cells) : Nat → GetReplyExchange → Prop where
  | opened {ptr : RdpRecvGetReply} {id : Id} {vset : List Buf}
      {getdata : Table (BitVec 32) (Finset Cells)} (hstate : ptr.state = .rgrHdr)
      (hget : getdata.lookup nonce = some ∅) (honly : ∀ n, n ≠ nonce → getdata.lookup n = none)
      (hne : vset ≠ []) (hserved : ∀ value ∈ vset, Served value) (hgoal : values vset = goal) :
      Phase nonce goal (3 * vset.length + 3)
        ⟨⟨some ptr, [], getdata, []⟩, ⟨true, true, vset, []⟩, [],
          GetReplyServer.connected true nonce id⟩
  | asking {c : GetReplyClient} {done : Finset Cells} {vset : List Buf}
      (hwaits : Waits nonce done c) (hne : vset ≠ []) (hserved : ∀ value ∈ vset, Served value)
      (hgoal : done ∪ values vset = goal) :
      Phase nonce goal (3 * vset.length + 2) ⟨c, ⟨true, true, vset, []⟩, [proxyNext], []⟩
  | value {c : GetReplyClient} {done : Finset Cells} {value : Buf} {vset : List Buf}
      (hwaits : Waits nonce done c) (hvalue : Served value)
      (hserved : ∀ value ∈ vset, Served value)
      (hgoal : insert (cells value.1) done ∪ values vset = goal) :
      Phase nonce goal (3 * vset.length + 4)
        ⟨c, ⟨decide (vset ≠ []), true, vset, []⟩, [], GetReplyServer.value value⟩
  | body {c : GetReplyClient} {done : Finset Cells} {value : Buf} {vset : List Buf}
      (hreads : Reads nonce done value c) (hvalue : Served value)
      (hserved : ∀ value ∈ vset, Served value)
      (hgoal : insert (cells value.1) done ∪ values vset = goal) :
      Phase nonce goal (3 * vset.length + 3)
        ⟨c, ⟨decide (vset ≠ []), true, vset, []⟩, [], [value.1]⟩
  | closing {c : GetReplyClient} {toServer : List (List Byte)} (hwaits : Waits nonce goal c)
      (hgoal : goal ≠ ∅) :
      Phase nonce goal (toServer.length + 1) ⟨c, ⟨false, true, [], []⟩, toServer, []⟩
  | done {c : GetReplyClient} {toServer : List (List Byte)} (hentry : c.entry = none)
      (hrqueue : c.rqueue = []) (hcalls : c.calls = [(true, goal)]) :
      Phase nonce goal toServer.length ⟨c, ⟨false, true, [], []⟩, toServer, []⟩

section
variable {uninit : List Byte} {nonce : BitVec 32} {goal : Finset Cells}

/-- The client has a value and has asked for the next. -/
theorem phase_next {c : GetReplyClient} {done : Finset Cells} {vset : List Buf}
    (hwaits : Waits nonce done c) (hdone : done ≠ ∅) (hserved : ∀ value ∈ vset, Served value)
    (hgoal : done ∪ values vset = goal) :
    ∃ m, m < 3 * vset.length + 3 ∧ Phase nonce goal m
      ⟨c, ⟨decide (vset ≠ []), true, vset, []⟩, [proxyNext], []⟩ := by
  cases vset with
  | nil =>
    rw [values_nil, Finset.union_empty] at hgoal
    subst hgoal
    exact ⟨[proxyNext].length + 1, by decide, .closing hwaits hdone⟩
  | cons value vset =>
    exact ⟨_, Nat.lt_succ_self _, .asking hwaits (List.cons_ne_nil _ _) hserved hgoal⟩

theorem closed_arrive (result : Bool) (vset : List Buf) (packets : List (List Byte)) :
    GetReplyServer.arrive ⟨false, result, vset, []⟩ packets =
      .ok (⟨false, result, vset, []⟩, []) := rfl

/-- Every event brings the exchange nearer to its end. -/
theorem phase_moves (uninit : List Byte) (n : Nat) (s : GetReplyExchange)
    (i : GetReplyExchange.Input)
    (h : Phase nonce goal n s) (hi : Moves s i) :
    ∃ s' m, GetReplyExchange.step uninit s i = .ok s' ∧ m < n ∧ Phase nonce goal m s' := by
  cases h with
  | opened hstate hget honly hne hserved hgoal =>
    rename_i ptr id vset getdata
    -- The reply to the request is one packet, so the client gets all of it or nothing.
    have hone : GetReplyServer.connected true nonce id =
        [MsgProxyRdpGetReply.encode ⟨nonce, id, proxyGetSuccess⟩] :=
      sendPackets_short (MsgProxyRdpGetReply.length_encode _) (by decide)
    obtain ⟨c, harrive, hwaits⟩ := arrive_hdr uninit hstate hget honly id
    rw [hone] at hi harrive ⊢
    cases i with
    | toServer k => exact absurd List.take_nil hi
    | closed => exact absurd hi.1 (by simp)
    | toClient k =>
      obtain ⟨htake, hdrop⟩ := take_one hi
      refine ⟨_, _, step_toClient htake harrive, Nat.lt_succ_self _, ?_⟩
      rw [hdrop]
      refine .asking hwaits hne hserved ?_
      rw [Finset.empty_union]
      exact hgoal
  | asking hwaits hne hserved hgoal =>
    rename_i c done vset
    cases i with
    | toClient k => exact absurd List.take_nil hi
    | closed => exact absurd hi.1 (by simp)
    | toServer k =>
      obtain ⟨htake, hdrop⟩ := take_one hi
      cases vset with
      | nil => exact absurd rfl hne
      | cons value vset =>
        -- The server takes the next value from its set.
        refine ⟨_, 3 * vset.length + 4, step_toServer htake (arrive_next value vset), ?_, ?_⟩
        · rw [List.length_cons]
          omega
        · rw [hdrop]
          refine .value hwaits (hserved _ (List.mem_cons_self ..))
            (fun v hv => hserved v (List.mem_cons_of_mem _ hv)) ?_
          rw [← hgoal, values_cons, Finset.insert_union, Finset.union_insert]
  | value hwaits hvalue hserved hgoal =>
    rename_i c done value vset
    rw [value_eq, hvalue.packets] at hi ⊢
    cases i with
    | toServer k => exact absurd List.take_nil hi
    | closed => exact absurd hi.2.1 (List.cons_ne_nil _ _)
    | toClient k =>
      rcases take_two hi with ⟨htake, hdrop⟩ | ⟨htake, hdrop⟩
      · -- The header comes alone.
        obtain ⟨c', harrive, hreads⟩ := arrive_valueHdr uninit value hwaits
        refine ⟨_, _, step_toClient htake harrive, Nat.lt_succ_self _, ?_⟩
        rw [hdrop]
        exact .body hreads hvalue hserved hgoal
      · -- The header and the value come together.
        obtain ⟨c', harrive, hwaits'⟩ := arrive_value uninit hwaits
          hvalue.packets.symm (List.cons_ne_nil _ _) hvalue.mod
        rw [List.flatten_singleton, partialCells_all] at hwaits'
        obtain ⟨m, hm, hphase⟩ := phase_next hwaits' (Finset.insert_ne_empty _ _) hserved hgoal
        refine ⟨_, m, step_toClient htake harrive, hm.trans (Nat.lt_succ_self _), ?_⟩
        rw [hdrop]
        exact hphase
  | body hreads hvalue hserved hgoal =>
    rename_i c done value vset
    cases i with
    | toServer k => exact absurd List.take_nil hi
    | closed => exact absurd hi.2.1 (List.cons_ne_nil _ _)
    | toClient k =>
      obtain ⟨htake, hdrop⟩ := take_one hi
      obtain ⟨c', harrive, hwaits⟩ := arrive_part uninit hreads hvalue.packets.symm
        (List.cons_ne_nil _ _) hvalue.mod
      rw [List.flatten_singleton, partialCells_all] at hwaits
      obtain ⟨m, hm, hphase⟩ := phase_next hwaits (Finset.insert_ne_empty _ _) hserved hgoal
      refine ⟨_, m, step_toClient htake harrive, hm, ?_⟩
      rw [hdrop]
      exact hphase
  | closing hwaits hgoal =>
    rename_i c toServer
    cases i with
    | toClient k => exact absurd List.take_nil hi
    | closed =>
      -- The server has closed, and the client calls back with all values.
      obtain ⟨hcalls, hentry, hrqueue⟩ := reset_waits hwaits hgoal
      exact ⟨_, _, step_closed hi, Nat.lt_succ_self _, .done hentry hrqueue hcalls⟩
    | toServer k =>
      exact ⟨_, _, step_toServer rfl (closed_arrive true [] _),
        Nat.succ_lt_succ (length_drop_of_take hi), .closing hwaits hgoal⟩
  | done hentry hrqueue hcalls =>
    rename_i c toServer
    cases i with
    | toClient k => exact absurd List.take_nil hi
    | closed =>
      have hsome : c.entry.isSome = true := hi.2.2
      rw [hentry] at hsome
      cases hsome
    | toServer k =>
      exact ⟨_, _, step_toServer rfl (closed_arrive true [] _), length_drop_of_take hi,
        .done hentry hrqueue hcalls⟩

/-- Where nothing arrives, nothing happens. -/
theorem phase_stays (n : Nat) (s : GetReplyExchange) (i : GetReplyExchange.Input)
    (h : Phase nonce goal n s) (hi : ¬ Moves s i) : GetReplyExchange.step uninit s i = .ok s := by
  -- In every phase both sides have read all that came, so that nothing more arrives.
  have hqueues : s.client.rqueue = [] ∧ s.server.rqueue = [] := by
    cases h with
    | opened hstate hget honly hne hserved hgoal => exact ⟨rfl, rfl⟩
    | asking hwaits hne hserved hgoal => exact ⟨hwaits.rqueue, rfl⟩
    | value hwaits hvalue hserved hgoal => exact ⟨hwaits.rqueue, rfl⟩
    | body hreads hvalue hserved hgoal => exact ⟨hreads.rqueue, rfl⟩
    | closing hwaits hgoal => exact ⟨hwaits.rqueue, rfl⟩
    | done hentry hrqueue hcalls => exact ⟨hrqueue, rfl⟩
  obtain ⟨c, server, toServer, toClient⟩ := s
  cases i with
  | closed => exact congrArg Except.ok (if_neg hi)
  | toServer k =>
    have htake : toServer.take k = [] := by_contra hi
    have harrive : server.arrive [] = .ok (server, []) := by
      obtain ⟨isOpen, result, vset, rqueue⟩ := server
      obtain ⟨-, rfl⟩ := hqueues
      cases isOpen <;> rfl
    rw [step_toServer htake harrive, drop_of_take_nil htake, List.append_nil]
  | toClient k =>
    have htake : toClient.take k = [] := by_contra hi
    have harrive : c.arrive uninit [] = .ok (c, []) := by
      obtain ⟨entry, rqueue, getdata, calls⟩ := c
      obtain ⟨rfl, -⟩ := hqueues
      cases entry <;> rfl
    rw [step_toClient htake harrive, drop_of_take_nil htake, List.append_nil]

/-- When nothing arrives any more, the function of the get was called with the values. -/
theorem phase_rests {n : Nat} {s : GetReplyExchange} (h : Phase nonce goal n s)
    (hrest : ∀ i, ¬ Moves s i) : s.client.calls = [(true, goal)] := by
  cases h with
  | opened hstate hget honly hne hserved hgoal =>
    refine absurd ?_ (hrest (.toClient 1))
    exact List.cons_ne_nil _ _
  | asking hwaits hne hserved hgoal => exact absurd (List.cons_ne_nil _ _) (hrest (.toServer 1))
  | value hwaits hvalue hserved hgoal =>
    refine absurd ?_ (hrest (.toClient 1))
    exact List.cons_ne_nil _ _
  | body hreads hvalue hserved hgoal => exact absurd (List.cons_ne_nil _ _) (hrest (.toClient 1))
  | closing hwaits hgoal =>
    obtain ⟨ptr, hptr, -⟩ := hwaits.entry
    refine absurd ⟨rfl, rfl, ?_⟩ (hrest .closed)
    rw [hptr]
    rfl
  | done hentry hrqueue hcalls => exact hcalls

end

end Libcage.Proofs.ProxyGet
