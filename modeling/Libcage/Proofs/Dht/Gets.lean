import Mathlib.Data.Finset.Lattice.Lemmas
import Libcage.Dht.Get
import Libcage.Proofs.Dht.Packets
import Libcage.Proofs.Dht.Unique

/-!
# `Libcage.Proofs.Dht.Gets`: what a get over RDP brings

The client and the server take turns. `Asking` is a server that waits for packets on their
way to it, and `Fetching` a client that does. `GetClient.arrive_fetches` and
`GetServer.arrive_asks` are the two kinds of events, and `Phase` is the exchange between
two events, with a bound on the deliveries that are left.

The header with no length ends the exchange, so an empty value ends it too. Only the values
before it are served.
-/

set_option autoImplicit false

namespace Libcage.Proofs.Dht

open Libcage.Lib
open Libcage.Dht
open Libcage.Rdp (Id)

/-! ### The client -/

/-- A request for the next value. -/
def getNext : List Byte := [dhtGetNext]

theorem sendPackets_request : sendPackets [dhtGetNext] = [getNext] :=
  sendPackets_short rfl (by decide)

/-- What the server sends for a value. -/
def replyPackets (value : Buf) : List (List Byte) :=
  sendPackets (MsgDhtRdpGetReply.encode ⟨value.len, 0⟩) ++ sendPackets value.1

theorem replyPackets_eq (value : Buf) :
    replyPackets value = MsgDhtRdpGetReply.encode ⟨value.len, 0⟩ :: sendPackets value.1 := by
  rw [replyPackets, sendPackets_short (MsgDhtRdpGetReply.length_encode _) (by decide)]
  rfl

/-- A client has read a part of a reply, and the packets are those that are left. -/
inductive Fetching (value : Buf) (done : Finset Buf) : RdpGet → List (List Byte) → Prop where
  | hdr {q : RdpGet} (hstate : q.rdpState = .queryHdr) (hvset : q.vset = done) :
      Fetching value done q (replyPackets value)
  | val {q : RdpGet} {todo : List (List Byte)} (hstate : q.rdpState = .queryVal)
      (hvset : q.vset = done) (hvallen : q.vallen = value.len)
      (hval : q.val ++ todo.flatten = value.1)
      (htodo : todo ≠ []) (hpackets : ∀ p ∈ todo, p ≠ []) : Fetching value done q todo

theorem Fetching.ne_nil {value : Buf} {done : Finset Buf} {q : RdpGet}
    {packets : List (List Byte)} (h : Fetching value done q packets) : packets ≠ [] := by
  cases h with
  | hdr hstate hvset =>
    rw [replyPackets_eq]
    exact List.cons_ne_nil _ _
  | val hstate hvset hvallen hval htodo hpackets => exact htodo

/-- After an event, the client has closed at an empty value, or it has asked for the next, or
it waits for more. -/
def Fetches (value : Buf) (done : Finset Buf) (later : List (List Byte))
    (result : Except StoreFault (GetClient × List (List Byte))) : Prop :=
  (later = [] ∧ value.1 = [] ∧ ∃ q, result = .ok (⟨q, [], true⟩, []) ∧ q.vset = done) ∨
  (later = [] ∧ value.1 ≠ [] ∧ ∃ q, result = .ok (⟨q, [], false⟩, [getNext]) ∧
    q.rdpState = .queryHdr ∧ q.vset = insert value done) ∨
  (later ≠ [] ∧ ∃ q, result = .ok (⟨q, [], false⟩, []) ∧ Fetching value done q later)

section
variable {value : Buf} {done : Finset Buf} {q : RdpGet} {queue later : List (List Byte)}

theorem read_nil (q : RdpGet) : q.read [] = (.wait, q, [], []) := by
  unfold RdpGet.read
  cases q.rdpState with
  | queryHdr => rfl
  | queryVal => rfl

/-- Where nothing has come, the client waits. -/
theorem client_idle (q : RdpGet) (isClosed : Bool) (rounds : Nat) (sent : List (List Byte)) :
    GetClient.ready2ReadLoop (rounds + 1) ⟨q, [], isClosed⟩ sent =
      .ok (⟨q, [], isClosed⟩, sent) := by
  rw [GetClient.ready2ReadLoop]
  simp only [read_nil, List.append_nil]

/-- A round that reads some of a value. -/
theorem read_val {bytes : List Byte} {queue' : List (List Byte)} (hstate : q.rdpState = .queryVal)
    (hvallen : q.vallen = value.len)
    (hrecv : receive (value.1.length - q.val.length) queue = (bytes, queue'))
    (hbytes : bytes ≠ []) : q.read queue =
      if value.1.length = (q.val ++ bytes).length then
        (.next, { q with
          val := q.val ++ bytes
          vset := insert (Buf.copy value.len (q.val ++ bytes)) q.vset
          rdpState := .queryHdr }, queue', [getNext])
      else (.next, { q with val := q.val ++ bytes }, queue', []) := by
  unfold RdpGet.read
  rw [hstate]
  simp only [RdpGet.readVal, hvallen, toNat_len, hrecv, if_neg hbytes, sendPackets_request,
    hstate]

/-- The rounds that read a value. -/
theorem loop_val {todo : List (List Byte)} (hstate : q.rdpState = .queryVal)
    (hvset : q.vset = done) (hvallen : q.vallen = value.len)
    (hval : q.val ++ todo.flatten = value.1) (htodo : todo ≠ []) (hpackets : ∀ p ∈ todo, p ≠ [])
    (hqueue : queue ++ later = todo) {rounds : Nat} (hrounds : queue.length < rounds) :
    Fetches value done later (GetClient.ready2ReadLoop rounds ⟨q, queue, false⟩ []) := by
  obtain ⟨rounds, rfl⟩ := exists_round hrounds
  -- A round of the loop takes what is in the queue, so two rounds are enough.
  by_cases hnil : queue = []
  · rw [hnil, List.nil_append] at hqueue
    rw [hnil, client_idle, hqueue]
    exact Or.inr (Or.inr ⟨htodo, q, rfl, .val hstate hvset hvallen hval htodo hpackets⟩)
  · have hnone : Starts ([] : List (List Byte)) := by
      intro p rest h
      cases h
    have hend : queue ++ later = todo ++ [] := by rw [hqueue, List.append_nil]
    obtain ⟨rounds, rfl⟩ := exists_next_round hnil hrounds
    rw [GetClient.ready2ReadLoop]
    rcases receive_part (sub_length_of_todo hval) hend hnone with
      ⟨todo', hne, rfl, rfl, hrecv⟩ | ⟨queue', rfl, hlater, hrecv⟩
    · -- Some of the value is still missing.
      have hbytes : queue.flatten ≠ [] := flatten_ne_nil hnil fun p hp =>
        hpackets p (List.mem_append_left _ hp)
      have hpackets' : ∀ p ∈ todo', p ≠ [] := fun p hp => hpackets p (List.mem_append_right _ hp)
      have hval' : (q.val ++ queue.flatten) ++ todo'.flatten = value.1 := by
        rw [List.append_assoc, ← List.flatten_append]
        exact hval
      have hshort := length_lt_of_todo hval' (flatten_ne_nil hne hpackets')
      simp only [read_val hstate hvallen hrecv hbytes, if_neg (Nat.ne_of_gt hshort)]
      rw [client_idle, List.append_nil, List.append_nil]
      exact Or.inr (Or.inr ⟨hne, _, rfl, .val hstate hvset hvallen hval' hne hpackets'⟩)
    · -- The value is complete, and nothing else is in the queue.
      obtain ⟨rfl, rfl⟩ := List.append_eq_nil_iff.mp hlater
      have hbytes : todo.flatten ≠ [] := flatten_ne_nil htodo hpackets
      have hvalue : value.1 ≠ [] := by
        rw [← hval]
        simp [hbytes]
      simp only [read_val hstate hvallen hrecv hbytes, hval, if_true, copy_len_self]
      rw [client_idle]
      refine Or.inr (Or.inl ⟨rfl, hvalue, _, rfl, rfl, ?_⟩)
      rw [hvset]

/-- The round that reads a header. -/
theorem read_hdr {queue' : List (List Byte)} (hstate : q.rdpState = .queryHdr)
    (hrecv : receive sizeofRdpGetReply queue =
      (MsgDhtRdpGetReply.encode ⟨value.len, 0⟩, queue')) : q.read queue =
      if value.len = 0 then
        (.close, ⟨.queryVal, value.len, [], q.vset⟩, queue', [])
      else (.next, ⟨.queryVal, value.len, [], q.vset⟩, queue', []) := by
  have hne : MsgDhtRdpGetReply.encode ⟨value.len, 0⟩ ≠ [] := List.cons_ne_nil _ _
  unfold RdpGet.read
  rw [hstate]
  simp only [RdpGet.readHdr, hrecv, if_neg hne, MsgDhtRdpGetReply.length_encode,
    MsgDhtRdpGetReply.decode_encode, ne_eq, not_true_eq_false, if_false]
  by_cases hzero : value.len = 0
  · simp only [if_pos hzero]
  · simp only [if_neg hzero]

theorem singleton_ne_append {p : List Byte} {todo : List (List Byte)} (hqueue : queue ≠ [])
    (htodo : todo ≠ []) : [p] ≠ queue ++ todo := by
  intro h
  have hlen := congrArg List.length h
  have h₁ := List.length_pos_iff_ne_nil.mpr hqueue
  have h₂ := List.length_pos_iff_ne_nil.mpr htodo
  rw [List.length_singleton, List.length_append] at hlen
  omega

/-- The rounds that read a header and a value. -/
theorem loop_hdr (hstate : q.rdpState = .queryHdr) (hvset : q.vset = done)
    (hqueue : queue ++ later = replyPackets value) (hnil : queue ≠ []) {rounds : Nat}
    (hrounds : queue.length < rounds) :
    Fetches value done later (GetClient.ready2ReadLoop rounds ⟨q, queue, false⟩ []) := by
  obtain ⟨rounds, rfl⟩ := exists_round hrounds
  rw [replyPackets_eq, ← List.singleton_append] at hqueue
  have hlen : sizeofRdpGetReply =
      [MsgDhtRdpGetReply.encode ⟨value.len, 0⟩].flatten.length := by
    rw [List.flatten_singleton, MsgDhtRdpGetReply.length_encode]
  -- The header is one packet, and comes whole.
  rcases receive_part hlen hqueue (starts_of_forall mem_sendPackets) with
    ⟨todo', hne, htodo, -, -⟩ | ⟨queue', rfl, hlater, hrecv⟩
  · exact absurd htodo (singleton_ne_append hnil hne)
  · rw [List.flatten_singleton] at hrecv
    rw [List.length_append, List.length_singleton] at hrounds
    have hread := read_hdr hstate hrecv
    rw [GetClient.ready2ReadLoop]
    by_cases hvalue : value.1 = []
    · -- The header has no length, and the client closes.
      have hzero : value.len = 0 := by
        apply BitVec.eq_of_toNat_eq
        rw [toNat_len, hvalue]
        rfl
      have hnone : sendPackets value.1 = [] := by rw [hvalue]; rfl
      rw [hnone] at hlater
      simp only [hread, if_pos hzero]
      refine Or.inl ⟨(List.append_eq_nil_iff.mp hlater).2, hvalue, _, rfl, hvset⟩
    · have hflat : [] ++ (sendPackets value.1).flatten = value.1 := flatten_sendPackets value.1
      have hrest : queue'.length < rounds := by omega
      simp only [hread, if_neg (len_ne_zero hvalue)]
      have hvset' : RdpGet.vset ⟨.queryVal, value.len, [], q.vset⟩ = done := hvset
      exact loop_val rfl hvset' rfl hflat (sendPackets_ne_nil hvalue) mem_sendPackets hlater hrest

/-- Some packets of a reply come to the client. -/
theorem client_arrive (h : Fetching value done q (queue ++ later)) (hnil : queue ≠ []) :
    Fetches value done later (GetClient.arrive ⟨q, [], false⟩ queue) := by
  have harrive : GetClient.arrive ⟨q, [], false⟩ queue =
      GetClient.ready2ReadLoop (queue.length + 1) ⟨q, queue, false⟩ [] := by
    unfold GetClient.arrive
    exact if_neg hnil
  rw [harrive]
  generalize hall : queue ++ later = all at h
  cases h with
  | hdr hstate hvset => exact loop_hdr hstate hvset hall hnil (Nat.lt_succ_self _)
  | val hstate hvset hvallen hval htodo hpackets =>
    exact loop_val hstate hvset hvallen hval htodo hpackets hall (Nat.lt_succ_self _)

end

/-! ### The server -/

section
variable (now : Int) (stored : Stored) (id : Id) (key : Buf)

/-- A server has read a part of a request, and the packets are those that are left. The
records are those it serves from here. -/
inductive Asking : List StoredData → RdpRecvGet → Stored → List (List Byte) → Prop where
  | hdr {rget : RdpRecvGet} (hstate : rget.state = .rgetHdr) (hkey : rget.key = [])
      (hdata : rget.data = []) :
      Asking (stored.readVal now id key).2 rget stored (RdpGet.connected id key)
  | key {rget : RdpRecvGet} {todo : List (List Byte)} (hstate : rget.state = .rgetKey)
      (hid : rget.id = id) (hkeylen : rget.keylen = key.len) (hdata : rget.data = [])
      (hkey : rget.key ++ todo.flatten = key.1) (htodo : todo ≠ [])
      (hpackets : ∀ p ∈ todo, p ≠ []) :
      Asking (stored.readVal now id key).2 rget stored (todo ++ [getNext])
  | val {rget : RdpRecvGet} {stored' : Stored} (hstate : rget.state = .rgetVal) :
      Asking rget.data rget stored' [getNext]

/-- After an event, the server has answered, or it waits for more. -/
def Answers (data : List StoredData) (later : List (List Byte))
    (result : Except StoreFault (GetServer × List (List Byte))) : Prop :=
  (later = [] ∧ ∃ rget stored', rget.data = data ∧ rget.state = .rgetVal ∧
    result = .ok (⟨some (GetServer.reply rget).1, [], stored'⟩, (GetServer.reply rget).2)) ∨
  (later ≠ [] ∧ ∃ rget stored', result = .ok (⟨some rget, [], stored'⟩, []) ∧
    Asking now stored id key data rget stored' later)

end

section
variable {now : Int} {stored stored' : Stored} {id : Id} {key : Buf} {data : List StoredData}
  {rget : RdpRecvGet} {queue later : List (List Byte)}

theorem Asking.ne_nil {packets : List (List Byte)}
    (h : Asking now stored id key data rget stored' packets) : packets ≠ [] := by
  cases h with
  | hdr hstate hkey hdata => simp [RdpGet.connected, sendPackets_request]
  | key hstate hid hkeylen hdata hkey htodo hpackets => simp
  | val hstate => exact List.cons_ne_nil _ _

/-- The rounds that read a request. -/
theorem loop_op (hstate : rget.state = .rgetVal) (hqueue : queue ++ later = [getNext])
    (e : Option RdpRecvGet) :
    Answers now stored id key rget.data later
      (GetServer.readOpLoop (queue.length + 1) rget ⟨e, queue, stored'⟩ []) := by
  cases queue with
  | nil =>
    rw [List.nil_append] at hqueue
    rw [hqueue]
    exact Or.inr ⟨List.cons_ne_nil _ _, rget, stored', rfl, .val hstate⟩
  | cons p queue =>
    obtain ⟨rfl, htail⟩ := List.cons.inj hqueue
    obtain ⟨rfl, rfl⟩ := List.append_eq_nil_iff.mp htail
    exact Or.inl ⟨rfl, rget, stored', rfl, hstate, rfl⟩

/-- The rounds that read the key. -/
theorem loop_keys {todo : List (List Byte)} (hstate : rget.state = .rgetKey) (hid : rget.id = id)
    (hkeylen : rget.keylen = key.len) (hdata : rget.data = [])
    (hkey : rget.key ++ todo.flatten = key.1) (htodo : todo ≠ []) (hpackets : ∀ p ∈ todo, p ≠ [])
    (hqueue : queue ++ later = todo ++ [getNext]) (rounds : Nat) :
    Answers now stored id key (stored.readVal now id key).2 later
      (GetServer.ready2ReadLoop now (rounds + 2) ⟨some rget, queue, stored⟩) := by
  have hround : GetServer.ready2ReadLoop now (rounds + 2) ⟨some rget, queue, stored⟩ =
      GetServer.readKeyLoop now (queue.length + 1) rget ⟨some rget, queue, stored⟩ >>=
        fun r => if r.1 then GetServer.ready2ReadLoop now (rounds + 1) r.2 else .ok (r.2, []) := by
    rw [GetServer.ready2ReadLoop]
    dsimp only
    rw [hstate]
    rfl
  -- The queue is empty, ends within the key, or has the request behind it.
  rw [hround, GetServer.readKeyLoop]
  by_cases hnil : queue = []
  · rw [hnil, List.nil_append] at hqueue
    rw [hnil, hqueue]
    refine Or.inr ⟨by simp, rget, stored, rfl, ?_⟩
    exact .key hstate hid hkeylen hdata hkey htodo hpackets
  · have hstarts : Starts [getNext] := by
      intro p rest h
      obtain ⟨rfl, -⟩ := List.cons.inj h
      exact List.cons_ne_nil _ _
    rcases receive_part (sub_length_of_todo hkey) hqueue hstarts with
      ⟨todo', hne, rfl, rfl, hrecv⟩ | ⟨queue', rfl, hlater, hrecv⟩
    · have hbytes : queue.flatten ≠ [] := flatten_ne_nil hnil fun p hp =>
        hpackets p (List.mem_append_left _ hp)
      have hpackets' : ∀ p ∈ todo', p ≠ [] := fun p hp => hpackets p (List.mem_append_right _ hp)
      have hkey' : (rget.key ++ queue.flatten) ++ todo'.flatten = key.1 := by
        rw [List.append_assoc, ← List.flatten_append]
        exact hkey
      have hshort := length_lt_of_todo hkey' (flatten_ne_nil hne hpackets')
      -- Some of the key is still missing, and the next round finds an empty queue.
      simp only [hkeylen, toNat_len, hrecv, if_neg hbytes, if_neg (Nat.ne_of_gt hshort)]
      obtain ⟨n, hn⟩ := Nat.exists_eq_succ_of_ne_zero
        (Nat.ne_of_gt (List.length_pos_iff_ne_nil.mpr hnil))
      rw [hn]
      refine Or.inr ⟨by simp, _, stored, rfl, ?_⟩
      exact .key hstate hid rfl hdata hkey' hne hpackets'
    · -- The key is complete, and the rest of the queue is the request.
      have hbytes : todo.flatten ≠ [] := flatten_ne_nil htodo hpackets
      simp only [hkeylen, toNat_len, hrecv, if_neg hbytes, hkey, if_true, GetServer.readVal, hid,
        hdata, copy_len_self, List.nil_append, ok_bind]
      have hval : RdpRecvGet.state ⟨.rgetVal, id, key.len, key.1, (stored.readVal now id key).2⟩ =
        .rgetVal := rfl
      exact loop_op hval hlater _

/-- The rounds that read all of a request. -/
theorem loop_request (hstate : rget.state = .rgetHdr) (hkey : rget.key = [])
    (hdata : rget.data = [])
    (hne : key.1 ≠ []) (hqueue : queue ++ later = RdpGet.connected id key) (hnil : queue ≠ [])
    (rounds : Nat) :
    Answers now stored id key (stored.readVal now id key).2 later
      (GetServer.ready2ReadLoop now (rounds + 3) ⟨some rget, queue, stored⟩) := by
  have hheader : sendPackets (MsgDhtRdpGet.encode ⟨id, key.len, 0⟩) =
      [MsgDhtRdpGet.encode ⟨id, key.len, 0⟩] :=
    sendPackets_short (MsgDhtRdpGet.length_encode _) (by decide)
  rw [RdpGet.connected, hheader, sendPackets_request] at hqueue
  have hlen : sizeofRdpGet = [MsgDhtRdpGet.encode ⟨id, key.len, 0⟩].flatten.length := by
    rw [List.flatten_singleton, MsgDhtRdpGet.length_encode]
  have hstarts : Starts (sendPackets key.1 ++ [getNext]) := by
    apply starts_append mem_sendPackets
    intro p rest h
    obtain ⟨rfl, -⟩ := List.cons.inj h
    exact List.cons_ne_nil _ _
  -- The header is one packet, so it comes whole or not at all.
  rcases receive_part hlen hqueue hstarts with
    ⟨todo', hne, htodo, -, -⟩ | ⟨queue', rfl, hlater, hrecv⟩
  · exact absurd htodo (singleton_ne_append hnil hne)
  · rw [List.flatten_singleton] at hrecv
    have hflat : [] ++ (sendPackets key.1).flatten = key.1 := flatten_sendPackets key.1
    have hround : GetServer.readHdr rget
        ⟨some rget, [MsgDhtRdpGet.encode ⟨id, key.len, 0⟩] ++ queue',
        stored⟩ = (true, ⟨some ⟨.rgetKey, id, key.len, [], []⟩, queue', stored⟩) := by
      simp only [GetServer.readHdr, hrecv, MsgDhtRdpGet.length_encode, MsgDhtRdpGet.decode_encode,
        ne_eq, not_true_eq_false, if_false, hkey, hdata]
    rw [GetServer.ready2ReadLoop]
    simp only [hstate, hround, if_true]
    have hid : RdpRecvGet.id ⟨.rgetKey, id, key.len, [], []⟩ = id := rfl
    exact loop_keys rfl hid rfl rfl hflat (sendPackets_ne_nil hne) mem_sendPackets hlater rounds

/-- Some packets of a request come to the server. -/
theorem server_arrive (hne : key.1 ≠ [])
    (h : Asking now stored id key data rget stored' (queue ++ later)) (hnil : queue ≠ []) :
    Answers now stored id key data later
      (GetServer.arrive now ⟨some rget, [], stored'⟩ queue) := by
  have harrive : GetServer.arrive now ⟨some rget, [], stored'⟩ queue =
      GetServer.ready2ReadLoop now 4 ⟨some rget, queue, stored'⟩ := by
    unfold GetServer.arrive
    exact if_neg hnil
  rw [harrive]
  generalize hall : queue ++ later = all at h
  cases h with
  | hdr hstate hkey hdata => exact loop_request hstate hkey hdata hne hall hnil 1
  | key hstate hid hkeylen hdata hkey htodo hpackets =>
    exact loop_keys hstate hid hkeylen hdata hkey htodo hpackets hall 2
  | val hstate =>
    rw [GetServer.ready2ReadLoop]
    simp only [hstate]
    exact loop_op hstate hall _

end

/-! ### The exchange -/

/-- The values that the client gets: those before the first empty one. -/
def served : List StoredData → Finset Buf
  | [] => ∅
  | it :: data => if it.value.1 = [] then ∅ else insert it.value (served data)

/-- A bound on the deliveries that it takes to serve some records. A packet to the client
counts twice, for the request that may follow it. -/
def cost : List StoredData → Nat
  | [] => 2
  | it :: data => 2 * (replyPackets it.value).length + cost data

/-- Something arrives. -/
def Arrives (s : GetExchange) : GetExchange.Input → Prop
  | .toServer n => s.toServer.take n ≠ []
  | .toClient n => s.toClient.take n ≠ []

/-- The exchange between two events, with a bound on the deliveries that are left. -/
inductive Phase (now : Int) (stored : Stored) (id : Id) (key : Buf) (goal : Finset Buf) :
    Nat → GetExchange → Prop where
  | asking {data : List StoredData} {q : RdpGet} {rget : RdpRecvGet} {stored' : Stored}
      {packets : List (List Byte)} (hask : Asking now stored id key data rget stored' packets)
      (hstate : q.rdpState = .queryHdr) (hgoal : q.vset ∪ served data = goal) :
      Phase now stored id key goal (packets.length + cost data)
        ⟨⟨q, [], false⟩, ⟨some rget, [], stored'⟩, packets, []⟩
  | fetching {value : Buf} {done : Finset Buf} {q : RdpGet} {rget : RdpRecvGet} {stored' : Stored}
      {packets : List (List Byte)} {m : Nat} (hfetch : Fetching value done q packets)
      (hnext : value.1 ≠ [] → rget.state = .rgetVal ∧
        insert value done ∪ served rget.data = goal ∧ m = cost rget.data)
      (hlast : value.1 = [] → done = goal) :
      Phase now stored id key goal (2 * packets.length + m)
        ⟨⟨q, [], false⟩, ⟨some rget, [], stored'⟩, [], packets⟩
  | done {q : RdpGet} {entry : Option RdpRecvGet} {stored' : Stored} (hgoal : q.vset = goal) :
      Phase now stored id key goal 0 ⟨⟨q, [], true⟩, ⟨entry, [], stored'⟩, [], []⟩

section
variable {now : Int} {stored stored' : Stored} {id : Id} {key : Buf} {goal : Finset Buf}

theorem length_drop_lt {packets : List (List Byte)} {n : Nat} (h : packets.take n ≠ []) :
    (packets.drop n).length < packets.length := by
  have hpos := List.length_pos_iff_ne_nil.mpr h
  have hall := congrArg List.length (List.take_append_drop n packets)
  rw [List.length_append] at hall
  omega

/-- The answer to a request is a reply that the client waits for. -/
theorem phase_reply {q : RdpGet} {rget : RdpRecvGet} (hstate : q.rdpState = .queryHdr)
    (hval : rget.state = .rgetVal) (hgoal : q.vset ∪ served rget.data = goal) :
    ∃ m, m < 1 + cost rget.data ∧ Phase now stored id key goal m
      ⟨⟨q, [], false⟩, ⟨some (GetServer.reply rget).1, [], stored'⟩, [],
        (GetServer.reply rget).2⟩ := by
  have hreply : Fetching (⟨[], by decide⟩ : Buf) q.vset q (replyPackets ⟨[], by decide⟩) :=
    .hdr hstate rfl
  unfold GetServer.reply
  cases hdata : rget.data with
  | nil =>
    -- Nothing is left, and the header has no length.
    rw [hdata, served, Finset.union_empty] at hgoal
    refine ⟨2 * 1 + 0, by decide, ?_⟩
    exact .fetching hreply (fun hne => absurd rfl hne) fun _ => hgoal
  | cons it data =>
    rw [hdata, served] at hgoal
    have hfetch : Fetching it.value q.vset q (replyPackets it.value) := .hdr hstate rfl
    refine ⟨2 * (replyPackets it.value).length + cost data, by simp [cost], ?_⟩
    refine .fetching hfetch (fun hne => ⟨hval, ?_, rfl⟩) fun hnil => ?_
    · rw [if_neg hne] at hgoal
      rw [Finset.insert_union, ← Finset.union_insert]
      exact hgoal
    · rw [if_pos hnil, Finset.union_empty] at hgoal
      exact hgoal

/-- Every delivery brings the exchange nearer to its end. -/
theorem phase_move (hne : key.1 ≠ []) (n : Nat) (s : GetExchange) (i : GetExchange.Input)
    (h : Phase now stored id key goal n s) (hi : Arrives s i) :
    ∃ s' m, GetExchange.step now s i = .ok s' ∧ m < n ∧ Phase now stored id key goal m s' := by
  cases h with
  | asking hask hstate hgoal =>
    cases i with
    | toClient k => exact absurd List.take_nil hi
    | toServer k =>
      rename_i data q rget stored' packets
      have htake : packets.take k ≠ [] := hi
      have hlt := length_drop_lt htake
      rw [← List.take_append_drop k packets] at hask
      -- The server has read the request and answers, or it waits for the rest of it.
      rcases server_arrive hne hask htake with
        ⟨hlater, rget', stored'', rfl, hval, harrive⟩ | ⟨-, rget', stored'', harrive, hask'⟩
      · obtain ⟨m, hm, hphase⟩ := phase_reply hstate hval hgoal
        refine ⟨_, m, ?_, by omega, hphase⟩
        rw [GetExchange.step, harrive, ok_bind, hlater]
        rfl
      · refine ⟨_, _, ?_, ?_, .asking hask' hstate hgoal⟩
        · rw [GetExchange.step, harrive, ok_bind]
          rfl
        · omega
  | fetching hfetch hnext hlast =>
    cases i with
    | toServer k => exact absurd List.take_nil hi
    | toClient k =>
      rename_i value done q rget stored' packets m
      have htake : packets.take k ≠ [] := hi
      have hlt := length_drop_lt htake
      rw [← List.take_append_drop k packets] at hfetch
      -- The client closes, asks for the next value, or waits for the rest of this one.
      rcases client_arrive hfetch htake with ⟨hlater, hnil, q', harrive, hvset⟩ |
        ⟨hlater, hvalue, q', harrive, hstate, hvset⟩ | ⟨-, q', harrive, hfetch'⟩
      · -- An empty value, and the client closes.
        refine ⟨⟨⟨q', [], true⟩, ⟨some rget, [], stored'⟩, [], []⟩, 0, ?_, by omega, ?_⟩
        · rw [GetExchange.step, harrive, ok_bind, hlater]
          rfl
        · exact .done (hvset.trans (hlast hnil))
      · -- The value is complete, and the next one is asked for.
        obtain ⟨hval, hgoal, hm⟩ := hnext hvalue
        rw [← hvset] at hgoal
        refine ⟨⟨⟨q', [], false⟩, ⟨some rget, [], stored'⟩, [getNext], []⟩, _, ?_, ?_,
          .asking (.val hval) hstate hgoal⟩
        · rw [GetExchange.step, harrive, ok_bind, hlater]
          rfl
        · rw [List.length_singleton]
          omega
      · refine ⟨⟨⟨q', [], false⟩, ⟨some rget, [], stored'⟩, [], packets.drop k⟩, _, ?_, ?_,
          .fetching hfetch' hnext hlast⟩
        · rw [GetExchange.step, harrive, ok_bind]
          rfl
        · omega
  | done hgoal =>
    cases i with
    | toServer k => exact absurd List.take_nil hi
    | toClient k => exact absurd List.take_nil hi

theorem server_arrive_nil {s : GetServer} (h : s.rqueue = []) : s.arrive now [] = .ok (s, []) := by
  obtain ⟨entry, rqueue, stored⟩ := s
  subst h
  cases entry with
  | none => rfl
  | some rget => rfl

theorem client_arrive_nil {s : GetClient} (h : s.rqueue = []) : s.arrive [] = .ok (s, []) := by
  obtain ⟨q, rqueue, isClosed⟩ := s
  subst h
  cases isClosed with
  | false => rfl
  | true => rfl

/-- Where nothing arrives, nothing happens. -/
theorem phase_idle (n : Nat) (s : GetExchange) (i : GetExchange.Input)
    (h : Phase now stored id key goal n s) (hi : ¬ Arrives s i) :
    GetExchange.step now s i = .ok s := by
  have hqueues : s.client.rqueue = [] ∧ s.server.rqueue = [] := by
    cases h with
    | asking hask hstate hgoal => exact ⟨rfl, rfl⟩
    | fetching hfetch hnext hlast => exact ⟨rfl, rfl⟩
    | done hgoal => exact ⟨rfl, rfl⟩
  cases i with
  | toServer k =>
    have htake : s.toServer.take k = [] := by_contra hi
    rw [GetExchange.step, htake, server_arrive_nil hqueues.2, ok_bind, drop_of_take_nil htake]
    dsimp only
    rw [List.append_nil]
    rfl
  | toClient k =>
    have htake : s.toClient.take k = [] := by_contra hi
    rw [GetExchange.step, htake, client_arrive_nil hqueues.1, ok_bind, drop_of_take_nil htake]
    dsimp only
    rw [List.append_nil]
    rfl

/-- When nothing is on its way, the client has closed the connection with the values. -/
theorem phase_rest {n : Nat} {s : GetExchange} (h : Phase now stored id key goal n s)
    (hserver : s.toServer = []) (hclient : s.toClient = []) :
    s.client.isClosed = true ∧ s.client.query.vset = goal := by
  cases h with
  | asking hask hstate hgoal => exact absurd hserver hask.ne_nil
  | fetching hfetch hnext hlast => exact absurd hclient hfetch.ne_nil
  | done hgoal => exact ⟨rfl, hgoal⟩

end

/-! ### What the client holds at the end -/

/-- A value that is stored for an id and a key and has not expired. -/
def StoredValue (now : Int) (stored : Stored) (id : Id) (key : Buf) (value : Buf) : Prop :=
  ∃ v it, (stored.row id key).lookup v = some it ∧ ¬ Stored.Expired now it ∧ it.value = value

/-- The exchange ends, and then the client holds the stored values. No event faults, the
deliveries are bounded, and when nothing is on its way the connection is closed. -/
structure GetLossless (now : Int) (stored : Stored) (id : Id) (key : Buf) (query : RdpGet)
    (uninit : RdpRecvGet) : Prop where
  runs : ∀ inputs, ∃ s,
    run (GetExchange.step now) (.init id key stored query uninit) inputs = .ok s
  ends : ∃ bound, ∀ inputs,
    Allowed (GetExchange.step now) Arrives (.init id key stored query uninit) inputs →
      inputs.length ≤ bound
  exact : ∀ inputs s,
    run (GetExchange.step now) (.init id key stored query uninit) inputs = .ok s →
      s.toServer = [] → s.toClient = [] → s.client.isClosed = true ∧
        ∀ value, value ∈ s.client.query.vset ↔ StoredValue now stored id key value

section
variable {now : Int} {stored : Stored} {id : Id} {key : Buf}

theorem ne_nil_of_mem_served {data : List StoredData} {value : Buf} (h : value ∈ served data) :
    value.1 ≠ [] := by
  induction data with
  | nil => cases h
  | cons it data ih =>
    rw [served] at h
    split at h
    · cases h
    · rename_i hne
      rcases Finset.mem_insert.mp h with rfl | h
      · exact hne
      · exact ih h

/-- Without empty values, all are served. -/
theorem mem_served {data : List StoredData} (hne : ∀ it ∈ data, it.value.1 ≠ []) (value : Buf) :
    value ∈ served data ↔ ∃ it ∈ data, it.value = value := by
  induction data with
  | nil => simp [served]
  | cons it data ih =>
    have hrest := ih fun d hd => hne d (List.mem_cons_of_mem _ hd)
    rw [served, if_neg (hne it (List.mem_cons_self ..)), Finset.mem_insert, hrest]
    constructor
    · rintro (rfl | ⟨d, hd, rfl⟩)
      · exact ⟨it, List.mem_cons_self .., rfl⟩
      · exact ⟨d, List.mem_cons_of_mem _ hd, rfl⟩
    · rintro ⟨d, hd, rfl⟩
      rcases List.mem_cons.mp hd with rfl | hd
      · exact Or.inl rfl
      · exact Or.inr ⟨d, hd, rfl⟩

theorem storedValue_iff (value : Buf) : StoredValue now stored id key value ↔
    ∃ it ∈ (stored.readVal now id key).2, it.value = value := by
  constructor
  · rintro ⟨v, it, hit, hfresh, rfl⟩
    exact ⟨it, (mem_readVal stored now id key it).mpr ⟨v, hit, hfresh⟩, rfl⟩
  · rintro ⟨it, hit, rfl⟩
    obtain ⟨v, hlook, hfresh⟩ := (mem_readVal stored now id key it).mp hit
    exact ⟨v, it, hlook, hfresh, rfl⟩

theorem phase_init (now : Int) (stored : Stored) (id : Id) (key : Buf) (query : RdpGet)
    (uninit : RdpRecvGet) : ∃ n, Phase now stored id key (served (stored.readVal now id key).2) n
    (.init id key stored query uninit) :=
  ⟨_, .asking (.hdr rfl rfl rfl) rfl (Finset.empty_union _)⟩

end

/-- The client ends up with exactly the stored values if and only if none of them is empty. -/
theorem getLossless_iff (now : Int) (stored : Stored) (id : Id) (key : Buf) (query : RdpGet)
    (uninit : RdpRecvGet) (hkey : key.1 ≠ []) : GetLossless now stored id key query uninit ↔
      ∀ value, StoredValue now stored id key value → value.1 ≠ [] := by
  obtain ⟨n, hinit⟩ := phase_init now stored id key query uninit
  constructor
  · intro h value hvalue
    -- In a run to the end, the client has what was served, and an empty value is not served.
    obtain ⟨inputs, s, m, hrun, hphase, hrest⟩ := exists_rest (phase_move hkey) hinit
    have hserver : s.toServer = [] := by
      by_contra hne
      exact hrest (.toServer s.toServer.length) (by simpa [Arrives] using hne)
    have hclient : s.toClient = [] := by
      by_contra hne
      exact hrest (.toClient s.toClient.length) (by simpa [Arrives] using hne)
    obtain ⟨-, hvset⟩ := phase_rest hphase hserver hclient
    have hmem := ((h.exact inputs s hrun hserver hclient).2 value).mpr hvalue
    rw [hvset] at hmem
    exact ne_nil_of_mem_served hmem
  · intro h
    -- All runs go through the phases, and each arrival makes the number of the phase smaller.
    have hruns := run_of_moves (phase_move hkey) phase_idle hinit
    constructor
    · intro inputs
      obtain ⟨s, -, hrun, -, -⟩ := hruns inputs
      exact ⟨s, hrun⟩
    · refine ⟨n, fun inputs hallowed => ?_⟩
      obtain ⟨s, m, -, -, hlen⟩ := hruns inputs
      have hle := hlen hallowed
      omega
    · intro inputs s hrun hserver hclient
      obtain ⟨s', m, hrun', hphase, -⟩ := hruns inputs
      obtain rfl : s' = s := Except.ok.inj (hrun'.symm.trans hrun)
      obtain ⟨hclosed, hvset⟩ := phase_rest hphase hserver hclient
      have hne : ∀ it ∈ (stored.readVal now id key).2, it.value.1 ≠ [] := fun it hit =>
        h it.value ((storedValue_iff _).mpr ⟨it, hit, rfl⟩)
      refine ⟨hclosed, fun value => ?_⟩
      rw [hvset, mem_served hne, storedValue_iff]

/-- A node that has one value under id 5 and key 1. -/
def storedOne (value : Buf) : Stored :=
  (∅ : Stored).addSdata { (uniqueStore 1).sdata 0 0 with value } false

theorem row_storedOne (value v : Buf) : ((storedOne value).row 5 (oneByte 1)).lookup v =
    if v = value then some { (uniqueStore 1).sdata 0 0 with value } else none := by
  have hrow : (storedOne value).row 5 (oneByte 1) =
      (∅ : SdataSet).insert value { (uniqueStore 1).sdata 0 0 with value } := Index.row_put ..
  rw [hrow]
  split
  · rename_i hv
    rw [hv, AList.lookup_insert]
  · rename_i hv
    rw [AList.lookup_insert_ne hv]
    rfl

/-- The value is not empty. -/
theorem getLossless_iff_one :
    GetLossless 10 (storedOne (oneByte 7)) 5 (oneByte 1) ⟨.queryHdr, 0, [], ∅⟩ (.accepted 0 0) := by
  refine (getLossless_iff 10 (storedOne (oneByte 7)) 5 (oneByte 1) _ _ (by decide)).mpr ?_
  rintro value ⟨v, it, hit, -, rfl⟩
  rw [row_storedOne] at hit
  split at hit
  · rw [← Option.some.inj hit]
    decide
  · cases hit

/-- An empty value. -/
def emptyValue : Buf := ⟨[], by decide⟩

/-- The client takes an empty value for the end and reports nothing. -/
theorem empty_value_ends : ¬ ∀ (now : Int) (stored : Stored) (id : Id) (key : Buf)
    (query : RdpGet) (uninit : RdpRecvGet), key.1 ≠ [] →
    GetLossless now stored id key query uninit := by
  intro h
  have hall := h 10 (storedOne emptyValue) 5 (oneByte 1) ⟨.queryHdr, 0, [], ∅⟩ (.accepted 0 0)
    (by decide)
  have hrun : (do
      let s ← run (GetExchange.step 10) (.init 5 (oneByte 1) (storedOne emptyValue)
        ⟨.queryHdr, 0, [], ∅⟩ (.accepted 0 0)) [.toServer 3, .toClient 1]
      return (s.toServer, s.toClient, s.client.query.vset)) = .ok ([], [], ∅) := by
    decide +kernel
  obtain ⟨s, hs, hend⟩ := bind_eq_ok hrun
  obtain ⟨hserver, hrest⟩ := Prod.mk.inj (Except.ok.inj hend)
  obtain ⟨hclient, hvset⟩ := Prod.mk.inj hrest
  have hstored : StoredValue 10 (storedOne emptyValue) 5 (oneByte 1) emptyValue :=
    ⟨emptyValue, _, row_storedOne _ _, by decide, rfl⟩
  have hmem := ((hall.exact _ s hs hserver hclient).2 emptyValue).mpr hstored
  rw [hvset] at hmem
  cases hmem

end Libcage.Proofs.Dht
