import Libcage.Proofs.Rdp.OpenConnections
import Libcage.Proofs.Rdp.Records

/-!
# `Libcage.Proofs.Rdp.FlowControl`: nothing is sent beyond the window of the peer

`snd_nxt` is always at least one number ahead of `snd_una` and at most `snd_max`, and
`snd_una` does not move back, whatever numbers are acknowledged. Where both ends are honest
and the window of one is the limit of the other, no data segment lies beyond what the
receiver takes. `flow_control` states both.

The first part follows from the view of the send window (`SendInv`). The second part combines
three facts about a direction of the connection (`Flow`): what was sent is less than a window
ahead of what the sender knows to be acknowledged, that was acknowledged by the receiver, and
the receiver acknowledges no more than it has (`EndView.within`).

A window of one segment is a case of its own. The SYN counts as outstanding, so nothing is
ever sent (`Shut`), and the ring fills up.
-/

set_option autoImplicit false

namespace Libcage.Proofs.Rdp

open Libcage.Lib
open Libcage.Rdp

/-! ### A window of one segment -/

/-- A send window with room for one segment, which the SYN takes. -/
structure Shut (c : RdpCon) : Prop where
  ready : SendReady c
  len : c.swndLen = 4

section
variable {c : RdpCon} {clock : Int}

namespace Shut

theorem cursors (h : Shut c) : SendCursors 0 c ∧ c.sndMax.toNat = 1 := by
  have hlen := h.len
  rcases h.ready with ⟨o, hcursors⟩ | hnone
  · have hmax := hcursors.len_eq
    have hlt := hcursors.sent_lt
    have hle := hcursors.out_le
    obtain rfl : o = 0 := by omega
    exact ⟨hcursors, by omega⟩
  · have hzero := hnone.len
    omega

/-- The SYN is all that is outstanding. -/
theorem outstanding (h : Shut c) : (c.sndNxt - c.sndUna).toNat = 1 := by
  obtain ⟨hcursors, hmax⟩ := h.cursors
  have hlt := hcursors.sent_lt
  have hle := hcursors.out_le
  omega

theorem full (h : Shut c) : ¬ c.sndNxt - c.sndUna < c.sndMax := by
  have hout := h.outstanding
  have hmax := h.cursors.2
  rw [BitVec.lt_def]
  omega

/-- The window of a record whose other members changed. -/
theorem sent {c' : RdpCon} (h : Shut c) (hready : SendReady c') (state : RdpState)
    (hsame : withoutSend c' = withoutSend { c with state := state }) : Shut c' :=
  ⟨hready, (congrArg RdpCon.swndLen hsame :).trans h.len⟩

end Shut

/-- `send_ostand_swnd` without room sends nothing. -/
theorem sendOstandSwnd_noRoom (hlen : 0 < c.swndLen) (hfull : ¬ c.sndNxt - c.sndUna < c.sndMax)
    (clock : Int) : c.sendOstandSwnd clock = .ok (c, []) := by
  rw [RdpCon.sendOstandSwnd, modLen_eq hlen, ok_bind, RdpCon.sendOstandLoop, if_neg hfull]
  exact ite_self _

namespace Shut

/-- `enqueue_swnd` queues the payload, as long as the ring has a slot for it. -/
theorem enqueueSwnd (h : Shut c) {pbuf : Packetbuf} (hhead : sizeofHead ≤ pbuf.head)
    (clock : Int) :
    ∃ done c', c.enqueueSwnd clock pbuf = .ok (done, c', []) ∧ Shut c' ∧
      c'.sndUna = c.sndUna ∧ withoutSend c' = withoutSend c := by
  obtain ⟨hcursors, -⟩ := h.cursors
  by_cases hfull : c.swndUsed ≥ c.swndLen ∨ c.state ≠ .opened
  · exact ⟨false, c, by rw [RdpCon.enqueueSwnd, if_pos hfull], h, rfl, rfl⟩
  obtain ⟨w, hw⟩ := Ring.exists_entry c.swndHead c.swndUsed hcursors.length_pos
  have htail : modLen (c.swndHead + c.swndUsed) c.swndLen
      = .ok (Ring.pos c.swndHead c.swndLen c.swndUsed) := modLen_eq hcursors.len_pos
  let queued := withQueued c (Ring.pos c.swndHead c.swndLen c.swndUsed) w pbuf
  have hqueued : Shut queued := ⟨Or.inl ⟨0, hcursors.enqueue (by omega) hhead w⟩, h.len⟩
  refine ⟨true, queued, ?_, hqueued, rfl, rfl⟩
  rw [RdpCon.enqueueSwnd, if_neg hfull, htail, ok_bind, hcursors.swndAt_of_entry hw, ok_bind]
  show (queued.sendOstandSwnd clock >>= _) = _
  rw [sendOstandSwnd_noRoom hqueued.cursors.1.len_pos hqueued.full, ok_bind]
  rfl

/-- The only number `recv_ack` takes is the one it has. -/
theorem recvAck (h : Shut c) (clock : Int) (acknum : BitVec 32) :
    c.recvAck clock acknum = .ok (c, []) := by
  obtain ⟨hcursors, -⟩ := h.cursors
  have hnone := sendOstandSwnd_noRoom hcursors.len_pos h.full clock
  rw [RdpCon.recvAck]
  split
  · rename_i hin
    -- The distance is below 1.
    have hsame : acknum = c.sndUna := by
      rw [BitVec.lt_def, h.outstanding] at hin
      have hzero : (acknum - c.sndUna).toNat = 0 := by omega
      rw [← num_toNat_sub c.sndUna acknum, hzero, num_zero]
    have hostand := hcursors.ostand
    rw [Ring.pos_zero hcursors.head_lt] at hostand
    rw [RdpCon.recvAckLoop, if_pos hostand.symm, ok_bind, hsame]
    exact hnone
  · exact hnone

/-- `retransmit` finds nothing that was sent. -/
theorem retransmit (h : Shut c) {maxRetrans : Int} {alive : Bool} {c' : RdpCon}
    {out : List Emitted} (hrun : c.retransmit clock maxRetrans = .ok (alive, c', out)) :
    out = [] := by
  obtain ⟨hcursors, -⟩ := h.cursors
  rw [RdpCon.retransmit, ← Ring.pos_zero hcursors.head_lt] at hrun
  obtain ⟨-, -, hout⟩ := retransmitLoop_cursors clock maxRetrans _ hcursors
    (by rw [Nat.zero_add]; exact hcursors.used_le) hrun
  exact hout rfl

end Shut

end

/-! ### What the sender keeps -/

/-- The calls `enqueue_swnd` and `recv_ack`. -/
def SendOp.Cumulative : SendOp → Prop
  | .enqueueSwnd _ _ => True
  | .recvAck _ _ => True
  | .recvEack _ => False
  | .retransmit _ _ => False

/-- Between one and `snd_max` numbers are outstanding. -/
def WindowKept (s : SendRun) : Prop :=
  1 ≤ (s.con.sndNxt - s.con.sndUna).toNat ∧
    (s.con.sndNxt - s.con.sndUna).toNat ≤ s.con.sndMax.toNat

/-- `snd_una` is at least as far from where it started as before the call, as long as fewer than
2^31 segments went out. -/
def UnaKept (iss : BitVec 32) (s : SendRun) (_ : SendOp) (s' : SendRun) : Prop :=
  s'.sent.length < 2 ^ 31 → (s.con.sndUna - iss).toNat ≤ (s'.con.sndUna - iss).toNat

section
variable {iss : BitVec 32} {una nxt : Nat} {s : SendRun}

theorem SendInv.windowKept (h : SendInv iss una nxt s) : WindowKept s := by
  have hwin := h.window
  have hout := hwin.outstanding
  have hle := hwin.una_le
  have hlt := hwin.window
  unfold WindowKept
  omega

/-- Two views of the same run, one call apart. -/
theorem SendInv.unaKept {una' nxt' : Nat} {s' : SendRun} {op : SendOp} (h : SendInv iss una nxt s)
    (h' : SendInv iss una' nxt' s') (hle : una ≤ una') : UnaKept iss s op s' := by
  intro hshort
  have hnxt := h'.window.una_le
  rw [h'.sent_length] at hshort
  -- No number comes up twice in so short a run.
  have hdist : ∀ u, u ≤ una' → (num iss u - iss).toNat = u := by
    intro u hu
    have hsub := toNat_num_sub_num_of_le iss (Nat.zero_le u) (by omega)
    rwa [num_zero, Nat.sub_zero] at hsub
  rw [h.window.sndUna, h'.window.sndUna, hdist una hle, hdist una' (Nat.le_refl _)]
  exact hle

/-- A call of the view moves `una` forward, if at all. -/
theorem SendInv.cumulative (h : SendInv iss una nxt s) {op : SendOp} (hop : op.Cumulative) :
    ∃ s' una' nxt', s.step op = .ok s' ∧ SendInv iss una' nxt' s' ∧ una ≤ una' := by
  cases op with
  | enqueueSwnd clock pbuf =>
    rcases enqueueSwnd_spec h.window pbuf.2 clock with hfull | ⟨nxt', c', hrun, hle, hwin, -⟩
    · refine ⟨s, una, nxt, ?_, h, Nat.le_refl _⟩
      rw [SendRun.step, hfull]
      show Except.ok { s with sent := s.sent ++ [] } = _
      rw [List.append_nil]
    · exact ⟨_, una, nxt', by rw [SendRun.step, hrun]; rfl,
        h.sends (List.prefix_append _ _) hwin hle _ _, Nat.le_refl _⟩
  | recvAck clock acknum =>
    obtain ⟨una', nxt', c', hrun, huna, -, hle, -, hwin, -⟩ := recvAck_spec h.window clock acknum
    exact ⟨_, una', nxt', by rw [SendRun.step, hrun]; rfl,
      h.sends (List.prefix_refl _) hwin hle _ _, huna⟩
  | recvEack eacknum => exact hop.elim
  | retransmit clock maxRetrans => exact hop.elim

/-- A window of one segment stays as it is. -/
theorem Shut.cumulative (h : Shut s.con) {op : SendOp} (hop : op.Cumulative) :
    ∃ s', s.step op = .ok s' ∧ Shut s'.con ∧ s'.con.sndUna = s.con.sndUna := by
  cases op with
  | enqueueSwnd clock pbuf =>
    obtain ⟨done, c', hrun, h', huna, -⟩ := h.enqueueSwnd pbuf.2 clock
    exact ⟨_, by rw [SendRun.step, hrun]; rfl, h', huna⟩
  | recvAck clock acknum =>
    exact ⟨{ s with sent := s.sent ++ [] }, by rw [SendRun.step, h.recvAck]; rfl, h, rfl⟩
  | recvEack eacknum => exact hop.elim
  | retransmit clock maxRetrans => exact hop.elim

/-- What every such call keeps, for a window of one segment or of more. -/
def SenderKept (iss : BitVec 32) (s : SendRun) : Prop :=
  (∃ una nxt, SendInv iss una nxt s) ∨ Shut s.con

theorem SenderKept.windowKept (h : SenderKept iss s) : WindowKept s := by
  rcases h with ⟨una, nxt, h⟩ | h
  · exact h.windowKept
  · have hout := h.outstanding
    have hmax := h.cursors.2
    unfold WindowKept
    omega

theorem SenderKept.step (h : SenderKept iss s) {op : SendOp} (hop : op.Cumulative) :
    ∃ s', s.step op = .ok s' ∧ UnaKept iss s op s' ∧ SenderKept iss s' := by
  rcases h with ⟨una, nxt, h⟩ | h
  · obtain ⟨s', una', nxt', hstep, h', hle⟩ := h.cumulative hop
    exact ⟨s', hstep, h.unaKept h' hle, Or.inl ⟨una', nxt', h'⟩⟩
  · obtain ⟨s', hstep, h', huna⟩ := h.cumulative hop
    exact ⟨s', hstep, fun _ => by rw [huna], Or.inr h'⟩

/-- After `init_swnd` the window is one of the two. -/
theorem senderKept_init (uninit : Uninit) {c : RdpCon} (hmin : 1 ≤ c.sndMax.toNat)
    (hmax : c.sndMax.toNat < 2 ^ 29) (hnxt : c.sndNxt = c.sndUna + 1) :
    SenderKept c.sndUna (SendRun.init uninit c) := by
  by_cases hone : c.sndMax.toNat = 1
  · -- The SYN fills the window, and `SendInv` asks for one number more.
    right
    refine ⟨Or.inl ⟨0, initSwnd_cursors uninit hmin hmax hnxt⟩, ?_⟩
    show (c.sndMax * 4).toNat = 4
    rw [BitVec.toNat_mul, hone]
    rfl
  · left
    exact ⟨0, 0, (initSwnd_spec (by omega) hmax hnxt uninit).mono fun _ _ => False.elim, rfl⟩

end

/-! ### What no call changes -/

section
variable {clock : Int} {c c' : RdpCon} {out : List Emitted}

/-- A call of `in_state_open` leaves the limits and the lengths of the windows alone. -/
theorem openCall_kept {call : OpenCall} (hrun : call.run clock c = .ok (c', out)) : Kept c c' := by
  cases call with
  | recvAck acknum => exact ((recvAck_ends clock c acknum).of_ok hrun).kept
  | recvEack off eacknum =>
    obtain ⟨c₁, heack, hret⟩ := bind_eq_ok hrun
    obtain ⟨rfl, -⟩ := Prod.mk.inj (Except.ok.inj hret)
    exact ((recvEack_ends c eacknum).of_ok heack).kept
  | rwndRecvData pbuf seqnum => exact ((rwndRecvData_ends clock c pbuf seqnum).of_ok hrun).kept

/-- Neither does `in_state_open`. -/
theorem OpenRun.kept {addr : RdpAddr} {pbuf : Packetbuf} (h : OpenRun clock c addr pbuf c' out) :
    Kept c c' := by
  cases h with
  | outside => exact ⟨rfl, rfl, rfl, rfl, rfl, rfl, rfl, rfl, id⟩
  | reset hack =>
    have hkept := ((delayedAck_ends clock c).of_ok hack).kept
    exact hkept.trans ⟨rfl, rfl, rfl, rfl, rfl, rfl, rfl, rfl, id⟩
  | syn => exact ⟨rfl, rfl, rfl, rfl, rfl, rfl, rfl, rfl, id⟩
  | calls hcalls =>
    exact runOpenCalls_keeps (P := fun c₁ _ => Kept c c₁)
      (fun hkept hcall => hkept.trans (openCall_kept hcall)) _ [] (.refl c) hcalls

/-- No call of an end changes the limits and the lengths of the windows. -/
theorem step_kept {e e' : End} {act : Act} (hstep : e.step act = .ok e') :
    Kept e.con e'.con := by
  cases act with
  | send clock buf =>
    obtain ⟨⟨total, c, out⟩, hrun, hret⟩ := bind_eq_ok hstep
    obtain rfl := Except.ok.inj hret
    exact ((send_ends clock e.con buf).of_ok hrun).1.kept
  | receive len =>
    obtain rfl := Except.ok.inj hstep
    exact (receive_work e.con len).kept
  | arrive clock addr pbuf =>
    obtain ⟨⟨c, out, event⟩, hrun, hret⟩ := bind_eq_ok hstep
    obtain rfl := Except.ok.inj hret
    exact (openRun_of_run hrun).kept
  | retransmit clock maxRetrans =>
    obtain ⟨⟨alive, c, out⟩, hrun, hret⟩ := bind_eq_ok hstep
    obtain rfl := Except.ok.inj hret
    obtain ⟨c₁, more, -, hwork, hc⟩ := (retransmit_ends clock maxRetrans e.con).of_ok hrun
    refine hwork.kept.trans ?_
    show Kept c₁ c
    cases alive with
    | true =>
      obtain rfl : c = c₁ := hc
      exact .refl c
    | false =>
      -- An end that gives up is closed, and the record keeps its windows.
      obtain rfl : c = { c₁ with state := .closed } := hc
      exact ⟨rfl, rfl, rfl, rfl, rfl, rfl, rfl, rfl, id⟩
  | delayedAck clock =>
    obtain ⟨⟨c, out⟩, hrun, hret⟩ := bind_eq_ok hstep
    obtain rfl := Except.ok.inj hret
    exact ((delayedAck_ends clock e.con).of_ok hrun).kept

end

/-! ### A window of one segment carries no data -/

/-- A segment without data, and no SYN. -/
def NoData (seg : List Byte) : Prop :=
  ∃ (head : RdpHead) (rest : List Byte), seg = head.encode ++ rest ∧ head.dlen = 0 ∧
    head.has flagSyn = false

theorem noData_ackSegment (addr : RdpAddr) (seq ack : BitVec 32) (seqs : List (BitVec 32)) :
    NoData (ackSegment addr seq ack seqs) := by
  obtain ⟨-, -, hsyn, -⟩ := has_ackHeadOf addr seq ack seqs.length
  exact ⟨_, _, rfl, rfl, hsyn⟩

/-- An end whose peer takes one segment at a time: it sends no data. -/
structure Silent (sbufMax : BitVec 32) (e : End) : Prop where
  ready : OpenReady sbufMax e.con
  len : e.con.swndLen = 4
  net : ∀ seg ∈ e.net, NoData seg

section
variable {sbufMax : BitVec 32} {clock : Int} {c c' : RdpCon} {out : List Emitted}

/-- What `delayed_ack` and `rwnd_recv_data` send. -/
theorem noData_of_acks {irs : BitVec 32} {got : Nat} {arrived : Nat → Option (List Byte)}
    (hout : out = [] ∨ ∃ seqs, EarlyNumbers irs got arrived seqs ∧
      out = [c.emit (c.eackSegment seqs)]) : ∀ e ∈ out, NoData e.seg := by
  rcases hout with rfl | ⟨seqs, -, rfl⟩
  · exact nofun
  · refine List.forall_mem_singleton.mpr ?_
    show NoData (c.eackSegment seqs)
    rw [eackSegment_eq]
    exact noData_ackSegment ..

theorem OpenReady.noData_delayedAck (h : OpenReady sbufMax c)
    (hrun : c.delayedAck clock = .ok (c', out)) : ∀ e ∈ out, NoData e.seg := by
  obtain ⟨irs, got, arrived, hrecv⟩ := h.recv
  obtain ⟨c₁, out₁, hok, -, -, -, hout⟩ := delayedAck_spec hrecv clock
  obtain ⟨rfl, rfl⟩ := Prod.mk.inj (Except.ok.inj (hok.symm.trans hrun))
  exact noData_of_acks hout

/-- With a window of one segment only acknowledgements answer a segment. -/
theorem Shut.noData_openCall (h : OpenReady sbufMax c) (hlen : c.swndLen = 4) {call : OpenCall}
    (hrun : call.run clock c = .ok (c', out)) : ∀ e ∈ out, NoData e.seg := by
  cases call with
  | recvAck acknum =>
    have hnone : OpenCall.run clock c (.recvAck acknum) = .ok (c, []) :=
      Shut.recvAck ⟨h.send, hlen⟩ clock acknum
    obtain ⟨-, rfl⟩ := Prod.mk.inj (Except.ok.inj (hnone.symm.trans hrun))
    exact nofun
  | recvEack off eacknum =>
    obtain ⟨c₁, -, hret⟩ := bind_eq_ok hrun
    obtain ⟨-, rfl⟩ := Prod.mk.inj (Except.ok.inj hret)
    exact nofun
  | rwndRecvData pbuf seqnum =>
    obtain ⟨irs, got, arrived, hrecv⟩ := h.recv
    obtain ⟨_, _, c₁, out₁, hok, -, -, -, -, -, -, hout⟩ :=
      rwndRecvData_spec hrecv clock pbuf seqnum
    obtain ⟨rfl, rfl⟩ := Prod.mk.inj (Except.ok.inj (hok.symm.trans hrun))
    exact noData_of_acks hout

theorem Shut.noData_openCalls (h : OpenReady sbufMax c) (hlen : c.swndLen = 4)
    {calls : List OpenCall} (hrun : runOpenCalls clock c calls = .ok (c', out)) :
    ∀ e ∈ out, NoData e.seg := by
  have hkept : OpenReady sbufMax c' ∧ c'.swndLen = 4 ∧ ∀ e ∈ [] ++ out, NoData e.seg := by
    refine runOpenCalls_keeps
      (P := fun c out => OpenReady sbufMax c ∧ c.swndLen = 4 ∧ ∀ e ∈ out, NoData e.seg) ?_
      calls [] ⟨h, hlen, nofun⟩ hrun
    rintro c₁ c₂ call out₁ out₂ ⟨h₁, hlen₁, hsent⟩ hcall
    have hnew := Shut.noData_openCall h₁ hlen₁ hcall
    exact ⟨h₁.openCall hcall, (openCall_kept hcall).swndLen.trans hlen₁,
      fun e he => (List.mem_append.mp he).elim (hsent e) (hnew e)⟩
  exact hkept.2.2

/-- `rdp::send` fills the ring and sends nothing. -/
theorem Shut.send (h : Shut c) {buf : List Byte} {total : Int}
    (hrun : c.send clock buf = .ok (total, c', out)) : out = [] := by
  refine (send_keeps (P := fun c out => Shut c ∧ out = []) (fun hkept hhead henq => ?_)
    ⟨h, rfl⟩ hrun).2
  obtain ⟨hshut, rfl⟩ := hkept
  obtain ⟨done, c₁, hok, h₁, -⟩ := hshut.enqueueSwnd hhead clock
  obtain ⟨-, rfl, rfl⟩ : _ = _ ∧ c₁ = _ ∧ [] = _ := by simpa using hok.symm.trans henq
  exact ⟨h₁, rfl⟩

end

section
variable {sbufMax : BitVec 32} {e e' : End}

/-- A call that sends no data. -/
theorem Silent.emits (h : Silent sbufMax e) {c : RdpCon} {out : List Emitted}
    (hout : ∀ em ∈ out, NoData em.seg) : ∀ seg ∈ (e.emits c out).net, NoData seg := by
  intro seg hseg
  rcases List.mem_append.mp hseg with hseg | hseg
  · exact h.net seg hseg
  · obtain ⟨em, hem, rfl⟩ := List.mem_map.mp hseg
    exact hout em hem

/-- What a silent end answers to a segment that is no SYN. -/
theorem Silent.noData_arrive (h : Silent sbufMax e) {clock : Int} {addr : RdpAddr}
    {pbuf : Packetbuf} {c : RdpCon} {out : List Emitted}
    (hsyn : (RdpHead.decode pbuf.data).has flagSyn = false)
    (hrun : OpenRun clock e.con addr pbuf c out) : ∀ em ∈ out, NoData em.seg := by
  cases hrun with
  | outside =>
    refine List.forall_mem_singleton.mpr ?_
    show NoData (e.con.ackHead addr).encode
    rw [ackHead_eq]
    exact noData_ackSegment ..
  | reset hack =>
    refine List.forall_mem_append.mpr ⟨h.ready.noData_delayedAck hack, ?_⟩
    have hflags : (((flagRst ||| flagFin ||| flagVer) &&& flagSyn) != 0) = false := by decide
    exact List.forall_mem_singleton.mpr
      ⟨_, [], (List.append_nil _).symm, rfl, RdpHead.has_of_flags rfl hflags⟩
  | syn hbad => exact absurd (hsyn.symm.trans hbad) (by decide)
  | calls hcalls => exact Shut.noData_openCalls h.ready h.len hcalls

/-- A silent end stays silent while no data and no SYN arrives. -/
theorem Silent.step (h : Silent sbufMax e) {act : Act} {net : List (List Byte)}
    (hnet : ∀ seg ∈ net, NoData seg) (hsent : act.SentBy net) (hstep : e.step act = .ok e') :
    Silent sbufMax e' := by
  refine ⟨h.ready.step hstep, (step_kept hstep).swndLen.trans h.len, ?_⟩
  have hshut : Shut e.con := ⟨h.ready.send, h.len⟩
  cases act with
  | send clock buf =>
    obtain ⟨⟨total, c, out⟩, hrun, hret⟩ := bind_eq_ok hstep
    obtain rfl := Except.ok.inj hret
    -- The window of the peer is 0, so nothing that waits is sent.
    have hnone : out = [] := hshut.send hrun
    exact h.emits (c := c) (by rw [hnone]; exact nofun)
  | receive len =>
    obtain rfl := Except.ok.inj hstep
    exact h.net
  | arrive clock addr pbuf =>
    obtain ⟨⟨c, out, event⟩, hrun, hret⟩ := bind_eq_ok hstep
    obtain rfl := Except.ok.inj hret
    obtain ⟨head, rest, hdata, -, hsyn⟩ := hnet _ hsent
    refine h.emits (h.noData_arrive ?_ (openRun_of_run hrun))
    rw [hdata, RdpHead.decode_encode]
    exact hsyn
  | retransmit clock maxRetrans =>
    obtain ⟨⟨alive, c, out⟩, hrun, hret⟩ := bind_eq_ok hstep
    obtain rfl := Except.ok.inj hret
    exact h.emits (by rw [hshut.retransmit hrun]; exact nofun)
  | delayedAck clock =>
    obtain ⟨⟨c, out⟩, hrun, hret⟩ := bind_eq_ok hstep
    obtain rfl := Except.ok.inj hret
    exact h.emits (h.ready.noData_delayedAck hrun)

end

/-! ### What the receiver takes -/

/-- The number of a data segment is not beyond the numbers that the receiver takes,
`rcv_cur + 1` to `rcv_cur + 2 * rcv_max`. -/
def NotBeyond (c : RdpCon) (seg : List Byte) : Prop :=
  let head := RdpHead.decode seg
  0 < head.dlen.toNat → (head.seqnum - c.rcvCur).toInt ≤ 2 * c.rcvMax.toNat

/-- A record in state OPEN with the given initial numbers, after a handshake in which both
sides offered a window of `max` segments. -/
structure OpenedWith (max : BitVec 32) (iss irs : BitVec 32) (c : RdpCon) : Prop where
  state : c.state = .opened
  sndMax : c.sndMax = max
  rcvMax : c.rcvMax = max
  sbufMax : c.sbufMax = sbufLimit
  sndNxt : c.sndNxt = iss + 1
  sndUna : c.sndUna = iss
  rcvCur : c.rcvCur = irs
  rqueue : c.rqueue = []

section
variable {iss irs : BitVec 32} {f g : Flow (List Byte)} {e e' : End}

/-- What was sent is less than a window ahead of what the receiver has. -/
theorem EndView.within (h : EndView iss irs f g e) (hf : f.Inv) (h' : EndView irs iss g f e')
    (hshort : e.net.length < 2 ^ 31) (hmax : e.con.sndMax = e'.con.rcvMax) :
    ∀ seg ∈ e.net, NotBeyond e'.con seg := by
  intro seg hseg hdlen
  have hgot := hf.got_le
  have hack := hf.acks f.una hf.una
  have hwin := h.send.window
  have hnxt := h.nxt_le
  cases h.net seg hseg with
  | @data addr j a payload hj hitem hok ha =>
    rw [dataSegment, RdpHead.decode_encode]
    show (num iss (j + 1) - e'.con.rcvCur).toInt ≤ 2 * e'.con.rcvMax.toNat
    have hdiff : (num iss (j + 1) - num iss f.got).toInt = ((j + 1 : Nat) : Int) - f.got :=
      toInt_num_sub_num iss (by omega) (by omega)
    rw [h'.recv.rcvCur, hdiff]
    rw [hmax] at hwin
    omega
  | ack ha hjs hlen =>
    rw [ackSegment, RdpHead.decode_encode] at hdlen
    exact absurd hdlen (Nat.lt_irrefl 0)

end

/-- Calls of either end leave the limits and the lengths of both records alone. -/
theorem reaches_kept {s s' : Exchange} (hrun : s.Reaches s') :
    Kept s.left.con s'.left.con ∧ Kept s.right.con s'.right.con := by
  induction hrun with
  | refl => exact ⟨.refl _, .refl _⟩
  | tail _ hstep ih =>
    cases hstep with
    | left act _ hrun => exact ⟨ih.1.trans (step_kept hrun), ih.2⟩
    | right act _ hrun => exact ⟨ih.1, ih.2.trans (step_kept hrun)⟩

/-- Two silent ends stay silent. -/
theorem silent_of_reaches {sbufMax : BitVec 32} {s s' : Exchange} (hrun : s.Reaches s')
    (hleft : Silent sbufMax s.left) (hright : Silent sbufMax s.right) :
    Silent sbufMax s'.left ∧ Silent sbufMax s'.right := by
  induction hrun with
  | refl => exact ⟨hleft, hright⟩
  | tail _ hstep ih =>
    cases hstep with
    | left act hsent hrun => exact ⟨ih.1.step ih.2.net hsent hrun, ih.2⟩
    | right act hsent hrun => exact ⟨ih.1, ih.2.step ih.1.net hsent hrun⟩

section
variable {max iss irs : BitVec 32} {c : RdpCon}

namespace OpenedWith

theorem rcvLen (h : OpenedWith max iss irs c) (hlt : max.toNat < 2 ^ 29) :
    (c.rcvMax * 2).toNat = max.toNat * 2 := by
  rw [h.rcvMax, BitVec.toNat_mul]
  show max.toNat * 2 % 2 ^ 32 = max.toNat * 2
  omega

/-- With a window of one segment an end is silent from the start. -/
theorem silent (h : OpenedWith max iss irs c) (hone : max.toNat = 1) (uninit : Uninit) :
    Silent sbufLimit (End.start uninit c) := by
  have hrcv := h.rcvLen (by omega)
  have hrecv := initRwnd_spec (c := c) (by omega) uninit
  have hmax : (c.initRwnd uninit).sndMax.toNat = 1 := by
    rw [show (c.initRwnd uninit).sndMax = max from h.sndMax, hone]
  have hnxt : (c.initRwnd uninit).sndNxt = (c.initRwnd uninit).sndUna + 1 := by
    show c.sndNxt = c.sndUna + 1
    rw [h.sndNxt, h.sndUna]
  refine ⟨⟨Or.inl ⟨0, ?_⟩, ⟨c.rcvCur, 0, noArrivals, ?_⟩, h.sbufMax⟩, ?_, nofun⟩
  · exact initSwnd_cursors uninit (by omega) (by omega) hnxt
  · exact ⟨{ hrecv.toRecvRing with }, hrecv.front⟩
  · show (c.sndMax * 4).toNat = 4
    rw [h.sndMax, BitVec.toNat_mul, hone]
    rfl

/-- With a larger window it takes part in two fresh flows. -/
theorem endView (h : OpenedWith max iss irs c) (hmin : 2 ≤ max.toNat) (hlt : max.toNat < 2 ^ 29)
    (uninit : Uninit) : EndView iss irs Flow.init Flow.init (End.start uninit c) := by
  have hrcv := h.rcvLen hlt
  exact endView_fresh (by rw [h.sndMax]; exact hmin) (by rw [h.sndMax]; exact hlt) (by omega)
    (by omega) h.sbufMax h.sndNxt h.sndUna h.rcvCur h.rqueue uninit

/-- The limits of an end at any later time. -/
theorem limits (h : OpenedWith max iss irs c) {uninit : Uninit} {e : End}
    (hkept : Kept (End.start uninit c).con e.con) :
    e.con.swndLen = (max * 4).toNat ∧ e.con.rcvMax = max := by
  refine ⟨?_, hkept.rcvMax.trans h.rcvMax⟩
  rw [hkept.swndLen]
  show (c.sndMax * 4).toNat = _
  rw [h.sndMax]

end OpenedWith

end

/-- The ring of an end in a flow has four slots for each segment of the limit. -/
theorem EndView.sndMax_eq {iss irs max : BitVec 32} {f g : Flow (List Byte)} {e : End}
    (h : EndView iss irs f g e) (hlt : max.toNat < 2 ^ 29)
    (hlen : e.con.swndLen = (max * 4).toNat) : e.con.sndMax = max := by
  have heq := h.send.len_eq
  rw [hlen, BitVec.toNat_mul] at heq
  refine BitVec.eq_of_toNat_eq ?_
  have hmod : max.toNat * 4 % 2 ^ 32 = e.con.sndMax.toNat * 4 := heq
  omega

/-- Both ends of a connection in which each side offered the same window: no data segment of
either is beyond what the other one takes. -/
theorem notBeyond_of_reaches {max iss irs : BitVec 32} {a b : RdpCon} (hmin : 1 ≤ max.toNat)
    (hlt : max.toNat < 2 ^ 29) (ha : OpenedWith max iss irs a) (hb : OpenedWith max irs iss b)
    (uninit uninit' : Uninit) {s : Exchange}
    (hrun : (Exchange.start uninit uninit' a b).Reaches s) (hshort : s.Short) :
    (∀ seg ∈ s.left.net, NotBeyond s.right.con seg) ∧
      ∀ seg ∈ s.right.net, NotBeyond s.left.con seg := by
  by_cases hone : max.toNat = 1
  · -- Nothing is sent at all.
    have hnone : ∀ {e : End} {c : RdpCon}, Silent sbufLimit e → ∀ seg ∈ e.net, NotBeyond c seg := by
      intro e c h seg hseg hdlen
      obtain ⟨head, rest, rfl, hzero, -⟩ := h.net seg hseg
      rw [RdpHead.decode_encode, hzero] at hdlen
      exact absurd hdlen (Nat.lt_irrefl 0)
    obtain ⟨hl, hr⟩ :=
      silent_of_reaches hrun (ha.silent hone uninit) (hb.silent hone uninit')
    exact ⟨hnone hl, hnone hr⟩
  · obtain ⟨f, g, h⟩ := ExchangeView.run (s := Exchange.start uninit uninit' a b)
      ⟨Flow.inv_init, Flow.inv_init, ha.endView (by omega) hlt uninit,
        hb.endView (by omega) hlt uninit'⟩ hrun hshort
    obtain ⟨hkeptl, hkeptr⟩ := reaches_kept hrun
    obtain ⟨hlenl, hrcvl⟩ := ha.limits hkeptl
    obtain ⟨hlenr, hrcvr⟩ := hb.limits hkeptr
    refine ⟨h.left.within h.sends h.right hshort.1 ?_, h.right.within h.receives h.left hshort.2 ?_⟩
    · rw [h.left.sndMax_eq hlt hlenl, hrcvr]
    · rw [h.right.sndMax_eq hlt hlenr, hrcvl]

/-- After `init_swnd`, any calls of `enqueue_swnd` and `recv_ack` return, keep at least one and
at most `snd_max` numbers outstanding, and do not move `snd_una` back. Between two ends that
each offered the window `max` to the other one, and over a network that loses, repeats and
reorders segments, no data segment is ever beyond what the receiver takes. -/
theorem flow_control :
    (∀ (uninit : Uninit) (c : RdpCon) (ops : List SendOp), 1 ≤ c.sndMax.toNat →
      c.sndMax.toNat < 2 ^ 29 → c.sndNxt = c.sndUna + 1 → (∀ op ∈ ops, op.Cumulative) →
      Always SendRun.step WindowKept (SendRun.init uninit c) ops ∧
        Steps SendRun.step (UnaKept c.sndUna) (SendRun.init uninit c) ops) ∧
    ∀ (max iss irs : BitVec 32) (a b : RdpCon) (uninit uninit' : Uninit) (s : Exchange),
      1 ≤ max.toNat → max.toNat < 2 ^ 29 → OpenedWith max iss irs a → OpenedWith max irs iss b →
      (Exchange.start uninit uninit' a b).Reaches s → s.Short →
      (∀ seg ∈ s.left.net, NotBeyond s.right.con seg) ∧
        ∀ seg ∈ s.right.net, NotBeyond s.left.con seg := by
  constructor
  · intro uninit c ops hmin hmax hnxt hops
    have hinit := senderKept_init uninit hmin hmax hnxt
    have hallowed : Allowed SendRun.step (fun _ op => op.Cumulative) (SendRun.init uninit c) ops :=
      allowed_of_all fun op hop _ => hops op hop
    constructor
    · refine always_of_allowed (fun s (h : SenderKept c.sndUna s) => h.windowKept)
        (fun s op h hop => ?_) hinit hallowed
      obtain ⟨s', hstep, -, h'⟩ := h.step hop
      exact ⟨s', hstep, h'⟩
    · refine steps_of_allowed (SenderKept c.sndUna) (fun s op s' h hop hstep => ?_) hinit hallowed
      obtain ⟨s₁, hstep₁, huna, h'⟩ := h.step hop
      obtain rfl := Except.ok.inj (hstep.symm.trans hstep₁)
      exact ⟨huna, h'⟩
  · intro max iss irs a b uninit uninit' s hmin hlt ha hb hrun hshort
    exact notBeyond_of_reaches hmin hlt ha hb uninit uninit' hrun hshort

/-- The theorem at a window of two segments with a forged acknowledgement, and where one side
sends a byte. -/
theorem flow_control_oneByte :
    (Always SendRun.step WindowKept (SendRun.init default twoSegments)
        [.enqueueSwnd 0 onePacket, .recvAck 0 7, .enqueueSwnd 0 onePacket, .recvAck 0 1] ∧
      Steps SendRun.step (UnaKept twoSegments.sndUna) (SendRun.init default twoSegments)
        [.enqueueSwnd 0 onePacket, .recvAck 0 7, .enqueueSwnd 0 onePacket, .recvAck 0 1]) ∧
    ∃ s : Exchange, (Exchange.start default default openedCon openedCon).Reaches s ∧
      s.left.net = [oneByte.data] ∧ (∀ seg ∈ s.left.net, NotBeyond s.right.con seg) ∧
        ∀ seg ∈ s.right.net, NotBeyond s.left.con seg := by
  constructor
  · refine flow_control.1 default twoSegments _ (by decide) (by decide) (by decide) ?_
    simp [SendOp.Cumulative]
  · have hcalls : (do
        let e ← (End.start default openedCon).step (.send 0 [0x61])
        return e.net : Except Fault _) = .ok [oneByte.data] := by
      decide +kernel
    obtain ⟨e, hsend, hret⟩ := bind_eq_ok hcalls
    have hnet : e.net = [oneByte.data] := Except.ok.inj hret
    have hrun : (Exchange.start default default openedCon openedCon).Reaches
        ⟨e, End.start default openedCon⟩ := .single (.left (.send 0 [0x61]) trivial hsend)
    have hopened : OpenedWith rcvMaxDefault 0 0 openedCon :=
      ⟨rfl, rfl, rfl, rfl, rfl, rfl, rfl, rfl⟩
    exact ⟨_, hrun, hnet, flow_control.2 rcvMaxDefault 0 0 openedCon openedCon default default _
      (by decide) (by decide) hopened hopened hrun
      ⟨by rw [hnet]; decide, by show 0 < 2 ^ 31; decide⟩⟩

end Libcage.Proofs.Rdp
