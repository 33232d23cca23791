import Libcage.Ping
import Libcage.Proofs.Dht.Rttable

/-!
# `Libcage.Proofs.Ping`: the front of a full row

A newcomer to a full row makes the node ping the front contact of the row. A contact of `dtun`
that answers goes to the end of its row (`dtun_contact_kept`). A contact of `dht` never
answers, because the dispatcher knows no ping of `dht`: two seconds later it is out of the
table, and the newcomer is in (`dht_contact_replaced`).
-/

set_option autoImplicit false

namespace Libcage.Proofs

open Libcage.Lib
open Libcage.Rdp (Id Table)
open Libcage.Dht (Saddr Cageaddr Rttable TimerPing TableFault id2i maxEntry)

/-! ### Messages -/

section
variable (type : Byte) (dst src : Id) (nonce : BitVec 32)

@[simp] theorem decode_pingMsg :
    MsgHdr.decode (pingMsg type dst src nonce) = sendMsg 0 sizeofPing type dst src :=
  MsgHdr.decode_encode ..

@[simp] theorem nonce_pingMsg : rd32 (pingMsg type dst src nonce) sizeofHdr = nonce := by
  have h := rd32_wr32 (sendMsg 0 sizeofPing type dst src).encode [] nonce
  rw [List.append_nil] at h
  exact h

/-- The dispatcher goes by the type of a ping. -/
theorem udpReceiver_pingMsg :
    udpReceiver (pingMsg type dst src nonce) =
      (route type).bind fun r => if r.1.Has sizeofPing then some r.2 else none :=
  udpReceiver_encode rfl rfl

/-- No node calls a function for a ping of `dht`. -/
theorem receive_dhtPing (node : PingNode) (from_ : Sockaddr) :
    node.receive (pingMsg typeDhtPing dst src nonce) from_ = [] := by
  have hroute : route typeDhtPing = none := by decide
  rw [PingNode.receive, udpReceiver_pingMsg, hroute]
  rfl

end

/-- All that `dht::send_ping` sends is one ping. -/
theorem sends_dhtSendPing (node : PingNode) (dst : Cageaddr) (nonce : BitVec 32) :
    ∀ d ∈ sends (Dht.sendPing node dst nonce),
      d.msg = pingMsg typeDhtPing dst.id node.id nonce := by
  have htmpl : ∀ d ∈ sends (sendPingTmpl dst nonce typeDhtPing node.id),
      d.msg = pingMsg typeDhtPing dst.id node.id nonce := by
    intro d hd
    unfold sendPingTmpl sendto at hd
    by_cases hloop : dst.saddr = .loopback
    · simp [hloop, sends] at hd
    · simp only [if_neg hloop, sends, List.filterMap_cons, List.filterMap_nil,
        List.mem_singleton] at hd
      rw [hd]
  intro d hd
  unfold Dht.sendPing at hd
  split at hd
  · split at hd
    · simp [sends] at hd
    · split at hd
      · simp [sends] at hd
      · exact htmpl d hd
  · exact htmpl d hd

/-- In the global state, and without `dtun` or with the address in the cache, there is a
ping. -/
theorem dhtSendPing_sent {node : PingNode} {dst : Cageaddr} (nonce : BitVec 32)
    (hglobal : node.state = .global)
    (haddr : node.isDtun = false ∨ (node.peers.getAddr dst.id).isSome = true)
    (hsaddr : dst.saddr ≠ .loopback) :
    Dht.sendPing node dst nonce =
      [.sendto ⟨dst.saddr, pingMsg typeDhtPing dst.id node.id nonce⟩] := by
  have htmpl : sendPingTmpl dst nonce typeDhtPing node.id =
      [.sendto ⟨dst.saddr, pingMsg typeDhtPing dst.id node.id nonce⟩] := by
    unfold sendPingTmpl sendto
    rw [if_neg hsaddr]
  unfold Dht.sendPing
  rcases haddr with hoff | hknown
  · rw [hoff]
    exact htmpl
  · obtain ⟨addr, haddr⟩ := Option.isSome_iff_exists.mp hknown
    simp only [hglobal, haddr, htmpl, reduceCtorEq, or_self, if_false, ite_self]

/-! ### The table -/

/-- The table has the old contact, and not the new one in its place. -/
def Keeps (t : Rttable) (i : Int) (old new : Cageaddr) : Prop :=
  old ∈ t.row i ∧ new ∉ t.row i

section
variable {t : Rttable} {rnd : List (BitVec 32)} {addr old : Cageaddr} {nonce : BitVec 32}

/-- A call of `add` that pings. -/
structure Pings (t : Rttable) (rnd : List (BitVec 32)) (addr old : Cageaddr)
    (nonce : BitVec 32) : Prop where
  front : ∃ rest, t.row (id2i t.id addr.id) = old :: rest
  fresh : ∀ a ∈ t.row (id2i t.id addr.id), a.id ≠ addr.id
  unknown : addr.id ∉ t.nodes
  add : t.add rnd addr = .ok { t with
    pingWait := t.pingWait.insert nonce ⟨old, addr, id2i t.id addr.id⟩
    pingSend := insert (id2i t.id addr.id) t.pingSend }

/-- The ping is entered, and the rows are as before. -/
theorem Pings.entered (h : Pings t rnd addr old nonce) {added : Rttable}
    (hadd : t.add rnd addr = .ok added) :
    added.pingWait.lookup nonce = some ⟨old, addr, id2i t.id addr.id⟩ ∧
      added.table = t.table := by
  rw [h.add] at hadd
  cases hadd
  exact ⟨AList.lookup_insert _, rfl⟩

/-- `addPing` says when `add` pings, and whom. -/
theorem pings_of_addPing (h : t.addPing rnd addr = some (old, nonce)) :
    Pings t rnd addr old nonce := by
  unfold Dht.Rttable.addPing at h
  simp only at h
  split at h
  · cases h
  · rename_i hquiet
    push Not at hquiet
    obtain ⟨hother, hi, hunknown, htable, hany, hfull, hsend⟩ := hquiet
    split at h
    · rename_i addrOld rest nonce' hrow hnonce
      cases h
      -- The tests of `add` are those of `addPing`, so it comes to the same nonce.
      have hfresh : ∀ a ∈ t.row (id2i t.id addr.id), a.id ≠ addr.id := by
        intro a ha heq
        exact hany (List.any_eq_true.mpr ⟨a, ha, decide_eq_true heq⟩)
      refine ⟨⟨rest, hrow⟩, hfresh, hunknown, ?_⟩
      have hpick : Rttable.pickNonce t.pingWait rnd = .ok nonce := hnonce
      unfold Rttable.add
      rw [if_neg hother]
      simp only
      rw [if_neg (not_or.mpr ⟨not_lt.mpr hi, hunknown⟩), if_neg htable]
      unfold Rttable.addToRow
      simp only
      rw [if_neg hany, if_neg (not_lt.mpr hfull), if_neg hsend]
      simp only [hrow, hpick]
      rfl
    · cases h

/-- Where nobody answers, the newcomer takes the place of the front contact. -/
theorem timerPing_replaces (h : Pings t rnd addr old nonce) {added : Rttable}
    (hadd : t.add rnd addr = .ok added) :
    ∃ t', added.timerPing nonce = .ok t' ∧ old.id ∉ t'.nodes ∧
      addr ∈ t'.row (id2i t.id addr.id) := by
  obtain ⟨rest, hrow⟩ := h.front
  have hne : old.id ≠ addr.id := h.fresh old (by rw [hrow]; exact List.mem_cons_self)
  obtain ⟨hwait, htable⟩ := h.entered hadd
  have hrow' : ((added.table.lookup (id2i t.id addr.id)).getD []) = old :: rest := by
    rw [htable]
    exact hrow
  unfold Rttable.timerPing
  simp only [hwait, Rttable.row, hrow']
  refine ⟨_, rfl, ?_, ?_⟩
  · simp [hne]
  · simp [AList.lookup_insert]

/-- Where the contact answers, it goes to the end of its row. The timer finds nothing. -/
theorem recvPingReply_keeps (h : Pings t rnd addr old nonce) {added : Rttable}
    (hadd : t.add rnd addr = .ok added) {port : BitVec 16} {ip : BitVec 32}
    (hsaddr : old.saddr = .inet port ip) :
    ∃ t', added.recvPingReply old nonce = .ok t' ∧ t'.timerPing nonce = .ok t' ∧
      Keeps t' (id2i t.id addr.id) old addr := by
  obtain ⟨rest, hrow⟩ := h.front
  have hfresh := h.fresh
  rw [hrow] at hfresh
  obtain ⟨hwait, htable⟩ := h.entered hadd
  have hrow' : ((added.table.lookup (id2i t.id addr.id)).getD []) = old :: rest := by
    rw [htable]
    exact hrow
  have hanswers : Rttable.answers old old = true := by simp [Rttable.answers, hsaddr]
  unfold Rttable.recvPingReply
  simp only [hwait, hanswers, if_true, Rttable.row, hrow']
  refine ⟨_, rfl, ?_, ?_⟩
  · -- The ping is not waited for any more when its time is over.
    unfold Rttable.timerPing
    simp only [AList.lookup_erase]
  · -- The new contact was not in the row when the ping went out.
    have hrow'' : ∀ a, a ∈ rest ++ [old] → a.id ≠ addr.id := by
      intro a ha
      apply hfresh
      simpa [or_comm] using ha
    refine ⟨?_, ?_⟩
    · simp [Rttable.row, AList.lookup_insert]
    · intro hmem
      refine hrow'' addr ?_ rfl
      simpa [Rttable.row, AList.lookup_insert] using hmem

end

/-! ### Answers -/

/-- The type of a ping. -/
def pingType : Overlay → Byte
  | .dtun => typeDtunPing
  | .dht => typeDhtPing

/-- The type of an answer. -/
def replyType : Overlay → Byte
  | .dtun => typeDtunPingReply
  | .dht => typeDhtPingReply

/-- The function of a network for pings. -/
def recvPing (node : PingNode) : Overlay → List Byte → Sockaddr → List PingCall
  | .dtun => Dtun.recvPing node
  | .dht => Dht.recvPing node

/-- The function of a network for answers. -/
def recvPingReply (node : PingNode) : Overlay → List Byte → Sockaddr → List PingCall
  | .dtun => Dtun.recvPingReply node
  | .dht => Dht.recvPingReply node

section
variable {a b : PingNode} (o : Overlay) (nonce : BitVec 32) (from_ : Sockaddr)

/-- In both networks a node answers a ping that is for it. -/
theorem sends_recvPing (hglobal : b.state = .global) :
    sends (recvPing b o (pingMsg (pingType o) b.id a.id nonce) from_) =
      [⟨from_.1, pingMsg (replyType o) a.id b.id nonce⟩] := by
  have htmpl : ∀ type, sends (recvPingTmpl (pingMsg (pingType o) b.id a.id nonce) from_ type b.id) =
      [⟨from_.1, pingMsg type a.id b.id nonce⟩] := by
    intro type
    simp [recvPingTmpl, sends]
  cases o with
  | dtun =>
    rw [recvPing, Dtun.recvPing, if_neg (not_not_intro hglobal)]
    exact htmpl _
  | dht => exact htmpl _

/-- In both networks an answer goes to the table. -/
theorem foldlM_recvPingReply (t : Rttable) :
    (recvPingReply a o (pingMsg (replyType o) a.id b.id nonce) from_).foldlM (replyTo o) t =
      t.recvPingReply (newCageaddr b.id from_) nonce := by
  have htmpl : (recvPingReplyTmpl (pingMsg (replyType o) a.id b.id nonce) from_ a.id o).foldlM
      (replyTo o) t = t.recvPingReply (newCageaddr b.id from_) nonce := by
    simp only [recvPingReplyTmpl, decode_pingMsg, sendMsg_dst, sendMsg_src, nonce_pingMsg, ne_eq,
      not_true_eq_false, if_false, List.foldlM_cons, List.foldlM_nil, replyTo, if_true]
    cases t.recvPingReply (newCageaddr b.id from_) nonce <;> rfl
  cases o <;> exact htmpl

end

/-! ### The exchange -/

section
variable {a b : PingNode} {t : Rttable} {rnd : List (BitVec 32)} {addr old : Cageaddr}
  {nonce : BitVec 32}

/-- In `dtun` a contact that is reached and has an IPv4 address stays. -/
theorem dtun_contact_kept (h : t.addPing rnd addr = some (old, nonce)) (hid : b.id = old.id)
    (hglobal : b.state = .global) {fromA fromB : Sockaddr} {port : BitVec 16} {ip : BitVec 32}
    (hfrom : fromB.1 = old.saddr) (hsaddr : old.saddr = .inet port ip) :
    ∃ t', exchange .dtun a b fromA fromB t rnd addr = .ok t' ∧
      Keeps t' (id2i t.id addr.id) old addr := by
  have hpings := pings_of_addPing h
  obtain ⟨added, hadd⟩ : ∃ added, t.add rnd addr = .ok added := ⟨_, hpings.add⟩
  obtain ⟨t', hreply, htimer, hkeeps⟩ := recvPingReply_keeps hpings hadd hsaddr
  refine ⟨t', ?_, hkeeps⟩
  have hping : sends (a.sendPing .dtun old nonce) =
      [⟨old.saddr, pingMsg typeDtunPing b.id a.id nonce⟩] := by
    rw [hid]
    simp [PingNode.sendPing, Dtun.sendPing, sendPingTmpl, sendto, hsaddr, sends]
  have hanswer : sends (b.receive (pingMsg typeDtunPing b.id a.id nonce) fromA) =
      [⟨fromA.1, pingMsg typeDtunPingReply a.id b.id nonce⟩] := by
    rw [PingNode.receive, udpReceiver_pingMsg]
    exact sends_recvPing .dtun nonce fromA hglobal
  have hcalls : (a.receive (pingMsg typeDtunPingReply a.id b.id nonce) fromB).foldlM
      (replyTo .dtun) added = .ok t' := by
    have hold : newCageaddr b.id fromB = old := by rw [newCageaddr, hid, hfrom]
    rw [PingNode.receive, udpReceiver_pingMsg, ← hreply, ← hold]
    exact foldlM_recvPingReply .dtun nonce fromB added
  unfold exchange
  simp only [h, hadd, hping, List.flatMap_cons, List.flatMap_nil, List.append_nil, hanswer]
  show ((a.receive _ fromB).foldlM _ added >>= fun answered => answered.timerPing nonce) = _
  rw [hcalls]
  exact htimer

/-- In `dht` a contact is replaced, whatever it does. -/
theorem dht_contact_replaced (a b : PingNode) (fromA fromB : Sockaddr)
    (h : t.addPing rnd addr = some (old, nonce)) :
    ∃ t', exchange .dht a b fromA fromB t rnd addr = .ok t' ∧ old.id ∉ t'.nodes ∧
      ¬ Keeps t' (id2i t.id addr.id) old addr := by
  have hpings := pings_of_addPing h
  obtain ⟨added, hadd⟩ : ∃ added, t.add rnd addr = .ok added := ⟨_, hpings.add⟩
  obtain ⟨t', htimer, hnodes, hnew⟩ := timerPing_replaces hpings hadd
  refine ⟨t', ?_, hnodes, fun hkeeps => hkeeps.2 hnew⟩
  -- The dispatcher of `b` drops what `a` sends.
  have hsilent : (sends (a.sendPing .dht old nonce)).flatMap
      (fun d => sends (b.receive d.msg fromA)) = [] := by
    rw [List.flatMap_eq_nil_iff]
    intro d hd
    rw [sends_dhtSendPing a old nonce d hd, receive_dhtPing]
    rfl
  unfold exchange
  simp only [h, hadd, hsilent, List.flatMap_nil, List.foldlM_nil]
  exact htimer

end

/-- Twenty contacts of the node with id 0. The first one is the front of their row. -/
def fillsRow : List Rttable.Input :=
  (List.range 20).map fun k => .add [] (Proofs.Dht.neighbour k)

/-- The node, and the first contact. -/
def pingingNode : PingNode := ⟨0, .global, false, .init⟩

def pingingFrom : Sockaddr := ⟨.inet 7 99, by decide⟩

def frontNode : PingNode := ⟨(Proofs.Dht.neighbour 0).id, .global, false, .init⟩

def frontFrom : Sockaddr := ⟨(Proofs.Dht.neighbour 0).saddr, by decide⟩

/-- A newcomer makes the node ping the first contact. It is there and it is reached, and it
loses its place. -/
theorem reached_contact_lost : ∃ t t', run Rttable.step (.init 0) fillsRow = .ok t ∧
    t.addPing [1] (Proofs.Dht.neighbour 20) = some (Proofs.Dht.neighbour 0, 1) ∧
    Dht.sendPing pingingNode (Proofs.Dht.neighbour 0) 1 =
      [.sendto ⟨frontFrom.1, pingMsg typeDhtPing frontNode.id pingingNode.id 1⟩] ∧
    exchange .dht pingingNode frontNode pingingFrom frontFrom t [1] (Proofs.Dht.neighbour 20) =
      .ok t' ∧
    ¬ Keeps t' 159 (Proofs.Dht.neighbour 0) (Proofs.Dht.neighbour 20) := by
  have hrun : (do
      let t ← run Rttable.step (.init 0) fillsRow
      let t' ← exchange .dht pingingNode frontNode pingingFrom frontFrom t [1]
        (Proofs.Dht.neighbour 20)
      return (t.addPing [1] (Proofs.Dht.neighbour 20),
        decide (Proofs.Dht.neighbour 0 ∈ t'.row 159))) =
      .ok (some (Proofs.Dht.neighbour 0, 1), false) := by
    decide +kernel
  obtain ⟨t, ht, hrun⟩ := bind_eq_ok hrun
  obtain ⟨t', ht', hend⟩ := bind_eq_ok hrun
  obtain ⟨hping, hrow⟩ := Prod.mk.inj (Except.ok.inj hend)
  refine ⟨t, t', ht, hping, ?_, ht', fun hkeeps => of_decide_eq_false hrow hkeeps.1⟩
  exact dhtSendPing_sent 1 rfl (Or.inl rfl) frontFrom.2

theorem dht_contact_replaced_full : ∃ t t', run Rttable.step (.init 0) fillsRow = .ok t ∧
    exchange .dht pingingNode frontNode pingingFrom frontFrom t [1] (Proofs.Dht.neighbour 20) =
      .ok t' ∧ (Proofs.Dht.neighbour 0).id ∉ t'.nodes := by
  have hrun : (do
      let t ← run Rttable.step (.init 0) fillsRow
      return t.addPing [1] (Proofs.Dht.neighbour 20)) = .ok (some (Proofs.Dht.neighbour 0, 1)) := by
    decide +kernel
  obtain ⟨t, ht, hend⟩ := bind_eq_ok hrun
  obtain ⟨t', ht', hnodes, -⟩ := dht_contact_replaced pingingNode frontNode pingingFrom frontFrom
    (Except.ok.inj hend)
  exact ⟨t, t', ht, ht', hnodes⟩

end Libcage.Proofs
