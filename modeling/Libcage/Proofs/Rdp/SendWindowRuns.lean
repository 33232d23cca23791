import Libcage.Lib.Run
import Libcage.Proofs.Rdp.SendWindow

/-!
# `Libcage.Proofs.Rdp.SendWindowRuns`: the send window over whole runs

`SendRun.step` takes one call of `enqueue_swnd`, `recv_ack`, `recv_eack` or
`retransmit`, with any numbers, and records the payloads that were accepted and the
segments that went out for the first time. `SendWindowOk` is what a reader expects
of the ring after each call.

`sendWindowOk_iff` proves that the ring is as expected in every state of a run, and
no call faults, exactly if no `recv_eack` of the run removes the head of the window.
The removal loop of `rdp_con::recv_eack` is the only place that moves `m_swnd_head`
and leaves `m_swnd_used` alone: `recvEack_breaks` is the step where the count and
the ring part.
-/

set_option autoImplicit false

namespace Libcage.Proofs.Rdp

open Libcage.Lib
open Libcage.Rdp

/-- The record, the payloads accepted so far and the segments sent for the first
time so far. -/
structure SendRun where
  con : RdpCon
  accepted : List (List Byte)
  sent : List (List Byte)

/-- A call on the send window. The packets to send come from
`packetbuf::construct` and have room for a header. -/
inductive SendOp where
  | enqueueSwnd (clock : Int) (pbuf : { pbuf : Packetbuf // sizeofHead ≤ pbuf.head })
  | recvAck (clock : Int) (acknum : BitVec 32)
  | recvEack (eacknum : BitVec 32)
  | retransmit (clock maxRetrans : Int)

/-- One call. -/
def SendRun.step (s : SendRun) : SendOp → Except Fault SendRun
  | .enqueueSwnd clock pbuf => do
      let (done, c, out) ← s.con.enqueueSwnd clock pbuf.1
      return { con := c
               accepted := if done then s.accepted ++ [pbuf.1.data] else s.accepted
               sent := s.sent ++ out.map Emitted.seg }
  | .recvAck clock acknum => do
      let (c, out) ← s.con.recvAck clock acknum
      return { s with con := c, sent := s.sent ++ out.map Emitted.seg }
  | .recvEack eacknum => do
      let c ← s.con.recvEack eacknum
      return { s with con := c }
  | .retransmit clock maxRetrans => do
      let (_, c, _) ← s.con.retransmit clock maxRetrans
      return { s with con := c }

/-- The state right after `init_swnd`. -/
def SendRun.init (uninit : Uninit) (c : RdpCon) : SendRun :=
  { con := c.initSwnd uninit, accepted := [], sent := [] }

/-- The ring with `n` sent entries. -/
structure RingOk (s : SendRun) (n : Nat) : Prop where
  sent_prefix : s.sent.map (List.drop sizeofHead) <+: s.accepted
  used_eq : s.con.swndUsed = n + (s.accepted.length - s.sent.length)
  used_le : s.con.swndUsed ≤ s.con.swndLen
  ostand : s.con.swndOstand = Ring.pos s.con.swndHead s.con.swndLen n
  outstanding : ∀ k, k < n → ∃ w, Ring.entry s.con.swnd s.con.swndHead k = some w ∧
    w.isSent = true ∧ w.seqnum = s.con.sndNxt - BitVec.ofNat 32 (n - k) ∧
    (w.isAcked = false → w.pbuf ≠ none)
  queued : ∀ k payload, (s.accepted.drop s.sent.length)[k]? = some payload →
    ∃ w, Ring.entry s.con.swnd s.con.swndHead (n + k) = some w ∧ w.isSent = false ∧
      ∃ pbuf, w.pbuf = some pbuf ∧ pbuf.data = payload

/-- The send window as a reader expects it: the used entries are the sent ones up
to `m_swnd_ostand`, with consecutive numbers that end before `snd_nxt` and their
packets, and behind them the accepted payloads that were not sent. -/
def SendWindowOk (s : SendRun) : Prop := ∃ n, RingOk s n

/-- The calls that keep the window: all but a `recv_eack` that removes the head. -/
def KeepsHead (s : SendRun) : SendOp → Prop
  | .recvEack eacknum => eackPopsHead s.con eacknum = false
  | _ => True

/-- The invariant of the runs: the window holds the accepted payloads, and those in
front of `nxt` are the ones that went out. -/
structure SendInv (iss : BitVec 32) (una nxt : Nat) (s : SendRun) : Prop where
  window : SendWindow iss (fun _ => True) s.accepted una nxt s.con
  sent_eq : s.sent.map (List.drop sizeofHead) = s.accepted.take nxt

/-- The payloads of first transmissions. -/
theorem map_firstSends (addr : RdpAddr) (iss ack : BitVec 32) (j : Nat)
    (payloads : List (List Byte)) :
    ((firstSends addr iss ack j payloads).map Emitted.seg).map (List.drop sizeofHead)
      = payloads := by
  induction payloads generalizing j with
  | nil => rfl
  | cons payload rest ih =>
    rw [firstSends, List.map_cons, List.map_cons, ih]
    rfl

section
variable {iss : BitVec 32} {una nxt : Nat} {s : SendRun}

namespace SendInv

theorem sent_length (h : SendInv iss una nxt s) : s.sent.length = nxt := by
  have hlen := congrArg List.length h.sent_eq
  rw [List.length_map, List.length_take] at hlen
  have := h.window.nxt_le
  omega

/-- What goes out next continues what went out. -/
theorem sends (h : SendInv iss una nxt s) {accepted : List (List Byte)}
    (haccepted : s.accepted <+: accepted) {una' nxt' : Nat} {c' : RdpCon}
    (hwin : SendWindow iss (fun _ => True) accepted una' nxt' c') (hle : nxt ≤ nxt')
    (addr : RdpAddr) (ack : BitVec 32) :
    SendInv iss una' nxt' { con := c', accepted := accepted
                            sent := s.sent ++ (firstSends addr iss ack nxt
                              ((accepted.drop nxt).take (nxt' - nxt))).map Emitted.seg } := by
  refine ⟨hwin, ?_⟩
  obtain ⟨more, rfl⟩ := haccepted
  have hfront : (s.accepted ++ more).take nxt = s.accepted.take nxt :=
    List.take_append_of_le_length h.window.nxt_le
  have hsplit : nxt' = nxt + (nxt' - nxt) := by omega
  show (s.sent ++ _).map _ = (s.accepted ++ more).take nxt'
  rw [List.map_append, h.sent_eq, map_firstSends, hsplit, List.take_add, hfront,
    Nat.add_sub_cancel_left]

/-- The view gives what a reader expects. -/
theorem ringOk (h : SendInv iss una nxt s) : RingOk s (nxt - una) := by
  have hwin := h.window
  have hle := hwin.una_le
  have hnxt := hwin.nxt_le
  refine ⟨?_, ?_, ?_, hwin.ostand, fun k hk => ?_, fun k payload hitem => ?_⟩
  · rw [h.sent_eq]
    exact List.take_prefix _ _
  · rw [hwin.used_eq, h.sent_length]
    omega
  · rw [hwin.used_eq]
    exact hwin.used_le
  · obtain ⟨payload, w, hw, hok, -⟩ := hwin.sent_of_lt (k := k) (by omega)
    refine ⟨w, hw, hok.isSent, ?_, fun hacked hnone => ?_⟩
    · have hsplit : nxt + 1 = una + k + 1 + (nxt - una - k) := by omega
      rw [hok.seqnum, hwin.sndNxt, hsplit, num_add_sub]
    · obtain ⟨pbuf, ack, hpbuf, -⟩ := hok.pbuf hacked
      rw [hnone] at hpbuf
      cases hpbuf
  · rw [h.sent_length, List.getElem?_drop] at hitem
    have hidx : nxt + k = una + (nxt - una + k) := by omega
    rw [hidx] at hitem
    obtain ⟨w, hw, hok⟩ := hwin.slot _ payload hitem
    rw [SlotOk, if_neg (by omega)] at hok
    obtain ⟨pbuf, hpbuf, hdata, -⟩ := hok.pbuf
    exact ⟨w, hw, hok.isSent, pbuf, hpbuf, hdata⟩

/-- Every call that keeps the head keeps the invariant. -/
theorem step (h : SendInv iss una nxt s) {op : SendOp} (hop : KeepsHead s op) :
    ∃ s', s.step op = .ok s' ∧ ∃ una' nxt', SendInv iss una' nxt' s' := by
  cases op with
  | enqueueSwnd clock pbuf =>
    rcases enqueueSwnd_spec h.window pbuf.2 clock with hfull | ⟨nxt', c', hrun, hle, hwin, -⟩
    · refine ⟨s, ?_, una, nxt, h⟩
      rw [SendRun.step, hfull]
      show Except.ok { s with sent := s.sent ++ [] } = _
      rw [List.append_nil]
    · exact ⟨_, by rw [SendRun.step, hrun]; rfl, una, nxt',
        h.sends (List.prefix_append _ _) hwin hle _ _⟩
  | recvAck clock acknum =>
    obtain ⟨una', nxt', c', hrun, -, -, hle, -, hwin, -⟩ := recvAck_spec h.window clock acknum
    exact ⟨_, by rw [SendRun.step, hrun]; rfl, una', nxt',
      h.sends (List.prefix_refl _) hwin hle _ _⟩
  | recvEack eacknum =>
    obtain ⟨c', hrun, hwin, -⟩ := recvEack_spec h.window hop
    exact ⟨{ s with con := c' }, by rw [SendRun.step, hrun]; rfl, una, nxt,
      hwin.mono fun _ _ _ => trivial, h.sent_eq⟩
  | retransmit clock maxRetrans =>
    obtain ⟨alive, c', again, hrun, hwin, -⟩ := retransmit_spec h.window clock maxRetrans
    exact ⟨{ s with con := c' }, by rw [SendRun.step, hrun]; rfl, una, nxt, hwin, h.sent_eq⟩

end SendInv

end

/-! ### The call that breaks the window -/

/-- The removal loop of `recv_eack` moves the head over sent entries that are marked. It goes
on where the head is marked. -/
theorem eackPopLoop_spec {c : RdpCon} (hlen : 0 < c.swndLen) (hlength : c.swnd.length = c.swndLen)
    {head n : Nat} (hn : n < c.swndLen) (hostand : c.swndOstand = Ring.pos head c.swndLen n)
    (m : Nat) :
    ∀ {k : Nat} (fuel : Nat), m + k = n → m < fuel →
      ∃ p, k ≤ p ∧ p ≤ n ∧
        RdpCon.eackPopLoop fuel { c with swndHead := Ring.pos head c.swndLen k }
          = .ok { c with swndHead := Ring.pos head c.swndLen p } ∧
        (∀ m, k ≤ m → m < p → ∃ w, Ring.entry c.swnd head m = some w ∧ w.isAcked = true) ∧
        (∀ w, k < n → Ring.entry c.swnd head k = some w → w.isSent = true → w.isAcked = true →
          k < p) := by
  -- By the sent entries still behind the head.
  induction m with
  | zero =>
    intro k fuel hk hfuel
    obtain ⟨fuel, rfl⟩ := Nat.exists_eq_succ_of_ne_zero (by omega : fuel ≠ 0)
    obtain rfl : k = n := by omega
    refine ⟨k, Nat.le_refl _, Nat.le_refl _, ?_, fun m hkm hm => by omega,
      fun w hlt => absurd hlt (Nat.lt_irrefl k)⟩
    rw [RdpCon.eackPopLoop]
    exact if_pos hostand.symm
  | succ m ih =>
    intro k fuel hk hfuel
    obtain ⟨fuel, rfl⟩ := Nat.exists_eq_succ_of_ne_zero (by omega : fuel ≠ 0)
    have hne : Ring.pos head c.swndLen k ≠ c.swndOstand := fun he => by
      rw [hostand] at he
      have := Ring.pos_inj (by omega) hn he
      omega
    have hpos : 0 < c.swnd.length := by omega
    obtain ⟨w, hw⟩ := Ring.exists_entry head k hpos
    have hat : RdpCon.swndAt { c with swndHead := Ring.pos head c.swndLen k }
        (Ring.pos head c.swndLen k) = .ok w := by
      rw [Ring.entry, hlength] at hw
      unfold RdpCon.swndAt
      rw [hw]
    have hstep : RdpCon.eackPopLoop (fuel + 1) { c with swndHead := Ring.pos head c.swndLen k }
        = if w.isSent && w.isAcked then
            RdpCon.eackPopLoop fuel { c with swndHead := Ring.pos head c.swndLen (k + 1) }
          else .ok { c with swndHead := Ring.pos head c.swndLen k } := by
      rw [RdpCon.eackPopLoop, if_neg hne]
      show (RdpCon.swndAt _ (Ring.pos head c.swndLen k) >>= _) = _
      rw [hat, ok_bind]
      split
      · show (wrap (Ring.pos head c.swndLen k + 1) c.swndLen >>= _) = _
        rw [wrap_pos hlen, ok_bind]
      · rfl
    rw [hstep]
    -- The loop stops at the first entry that is not marked.
    by_cases hmarked : (w.isSent && w.isAcked) = true
    · rw [if_pos hmarked]
      obtain ⟨p, hp, hpn, hloop, hacked, -⟩ := ih (k := k + 1) fuel (by omega) (by omega)
      refine ⟨p, by omega, hpn, hloop, fun j hkj hj => ?_, fun _ _ _ _ _ => by omega⟩
      by_cases hjk : j = k
      · rw [hjk]
        exact ⟨w, hw, (Bool.and_eq_true_iff.mp hmarked).2⟩
      · exact hacked j (by omega) hj
    · rw [if_neg hmarked]
      refine ⟨k, Nat.le_refl _, by omega, rfl, fun j hkj hj => by omega,
        fun w' _ hw' hsent hacked => ?_⟩
      obtain rfl : w = w' := Option.some.inj (hw.symm.trans hw')
      exact absurd (by rw [hsent, hacked]; rfl) hmarked

/-- Where `recv_eack` removes the head, the removal loop starts with the head
marked. -/
theorem recvEack_marks {iss : BitVec 32} {marks : Nat → Prop} {items : List (List Byte)}
    {una nxt : Nat} {c : RdpCon} (h : SendWindow iss marks items una nxt c) {eacknum : BitVec 32}
    (hpops : eackPopsHead c eacknum = true) :
    c.swndHead ≠ c.swndOstand ∧ ∃ swnd w, swnd.length = c.swndLen ∧
      Ring.entry swnd c.swndHead 0 = some w ∧ w.isSent = true ∧ w.isAcked = true ∧
      c.recvEack eacknum = RdpCon.eackPopLoop (c.swndLen + 1) { c with swnd := swnd } := by
  have hpos := h.length_pos
  obtain ⟨first, hfirst⟩ := Ring.exists_entry c.swndHead 0 hpos
  rw [eackPopsHead, ← Ring.entry_zero (by rw [h.length_eq]; exact h.head_lt), hfirst] at hpops
  simp only [Bool.and_eq_true, Bool.or_eq_true, decide_eq_true_eq, beq_iff_eq] at hpops
  obtain ⟨⟨⟨⟨hused, hnear⟩, hne⟩, hsent⟩, hhead⟩ := hpops
  refine ⟨hne, ?_⟩
  obtain ⟨w, hw⟩ := Ring.exists_entry c.swndHead (eacknum - first.seqnum).toNat hpos
  rw [recvEack_eq h.toSendRing hfirst hused hnear hw]
  -- Either the entry of the number is marked now, or the head was before.
  by_cases hmatch : w.seqnum = eacknum ∧ w.isSent ∧ ¬ w.isAcked
  · rw [if_pos hmatch]
    let marked : Swnd := { w with pbuf := none, isAcked := true }
    have hlength : (c.swnd.set (Ring.pos c.swndHead c.swndLen (eacknum - first.seqnum).toNat)
        marked).length = c.swndLen := by
      rw [List.length_set, h.length_eq]
    by_cases hzero : (eacknum - first.seqnum).toNat = 0
    · refine ⟨_, marked, hlength, ?_, hmatch.2.1, rfl, rfl⟩
      rw [hzero, ← h.length_eq, Ring.entry_set_self _ _ hpos]
    · -- Another entry is marked, so the head was marked before.
      refine ⟨_, first, hlength, ?_, hsent, hhead.resolve_right fun heq => ?_, rfl⟩
      · rw [← h.length_eq, Ring.entry_set_ne hpos (by rw [h.length_eq]; exact hnear)
          (Ne.symm hzero), hfirst]
      · exact hzero (by rw [heq, sub_self]; rfl)
  · rw [if_neg hmatch]
    refine ⟨c.swnd, first, h.length_eq, hfirst, hsent, ?_, rfl⟩
    by_contra hacked
    have heq := hhead.resolve_left hacked
    have hzero : (eacknum - first.seqnum).toNat = 0 := by rw [heq, sub_self]; rfl
    rw [hzero] at hw
    obtain rfl : first = w := Option.some.inj (hfirst.symm.trans hw)
    exact hmatch ⟨heq, hsent, hacked⟩

/-- A `recv_eack` that removes the head moves it and leaves the rest of the cursors
as they were. -/
theorem recvEack_moves {iss : BitVec 32} {marks : Nat → Prop} {items : List (List Byte)}
    {una nxt : Nat} {c c' : RdpCon} (h : SendWindow iss marks items una nxt c)
    {eacknum : BitVec 32} (hpops : eackPopsHead c eacknum = true)
    (hrun : c.recvEack eacknum = .ok c') :
    ∃ p, 0 < p ∧ p ≤ nxt - una ∧ c'.swndHead = Ring.pos c.swndHead c.swndLen p ∧
      c'.swndUsed = c.swndUsed ∧ c'.swndLen = c.swndLen ∧ c'.swndOstand = c.swndOstand := by
  obtain ⟨hne, swnd, w, hlength, hw, hsent, hacked, heq⟩ := recvEack_marks h hpops
  have hsome : 0 < nxt - una := by
    refine Nat.pos_of_ne_zero fun hzero => hne ?_
    rw [h.ostand, hzero, Ring.pos_zero h.head_lt]
  obtain ⟨p, -, hpn, hloop, -, hgo⟩ :=
    eackPopLoop_spec (c := { c with swnd := swnd }) h.len_pos hlength h.window_lt h.ostand
      (nxt - una)
      (k := 0) (c.swndLen + 1) (Nat.add_zero _) (by have := h.window_lt; omega)
  rw [Ring.pos_zero h.head_lt] at hloop
  obtain rfl := Except.ok.inj ((hrun.symm.trans heq).trans hloop)
  exact ⟨p, hgo w hsome hw hsent hacked, hpn, rfl, rfl, rfl, rfl⟩

/-- A `recv_eack` that removes the head leaves the count of used entries as it was:
the ring is not as expected any more. -/
theorem recvEack_breaks {iss : BitVec 32} {una nxt : Nat} {s : SendRun}
    (h : SendInv iss una nxt s) {eacknum : BitVec 32} (hpops : eackPopsHead s.con eacknum = true)
    {s' : SendRun} (hstep : s.step (.recvEack eacknum) = .ok s') : ¬ SendWindowOk s' := by
  have hwin := h.window
  obtain ⟨c', hrun, hret⟩ := bind_eq_ok hstep
  obtain rfl : { s with con := c' } = s' := Except.ok.inj hret
  obtain ⟨p, hp, hpn, hhead, hused, hlen, hostand⟩ := recvEack_moves hwin hpops hrun
  rintro ⟨n, hok⟩
  have hcount : n = nxt - una := by
    have hafter : c'.swndUsed = n + (s.accepted.length - s.sent.length) := hok.used_eq
    have hbefore := h.ringOk.used_eq
    omega
  have hwhere : c'.swndOstand = Ring.pos c'.swndHead c'.swndLen n := hok.ostand
  rw [hostand, hhead, hlen, hwin.ostand, Ring.pos_pos, hcount] at hwhere
  have hmax := hwin.window
  have hsize := hwin.len_eq
  have := Ring.pos_inj (by omega) (by omega) hwhere
  omega

/-- Take any record right after `init_swnd`, with a window of at least two segments
that the ring can hold, and nothing sent after its SYN. The ring is as expected in
every state of a run, and no call faults, exactly if no `recv_eack` of the run
removes the head. -/
theorem sendWindowOk_iff (uninit : Uninit) (c : RdpCon) (hmin : 2 ≤ c.sndMax.toNat)
    (hmax : c.sndMax.toNat < 2 ^ 29) (hnxt : c.sndNxt = c.sndUna + 1) (ops : List SendOp) :
    Always SendRun.step SendWindowOk (SendRun.init uninit c) ops ↔
      Allowed SendRun.step KeepsHead (SendRun.init uninit c) ops := by
  refine always_iff_allowed (fun s => ∃ una nxt, SendInv c.sndUna una nxt s) ?_ ?_ ?_ ?_ ops
  · rintro s ⟨una, nxt, h⟩
    exact ⟨_, h.ringOk⟩
  · rintro s op ⟨una, nxt, h⟩ hop
    exact h.step hop
  · rintro s op s' ⟨una, nxt, h⟩ hop hstep
    cases op with
    | recvEack eacknum => exact recvEack_breaks h (by simpa [KeepsHead] using hop) hstep
    | enqueueSwnd | recvAck | retransmit => exact absurd trivial hop
  · exact ⟨0, 0, (initSwnd_spec hmin hmax hnxt uninit).mono fun _ _ => False.elim, rfl⟩

/-! ### A window of two segments -/

/-- An open record after a handshake with a peer that takes two segments. -/
def twoSegments : RdpCon :=
  { (default : RdpCon) with state := .opened, sndMax := 2, sndNxt := 1 }

/-- A packet with one byte, as `rdp::send` fills it. -/
def onePacket : { pbuf : Packetbuf // sizeofHead ≤ pbuf.head } :=
  ⟨{ head := 128, data := [0x61], tail := [], fits := by decide }, by decide⟩

/-- The first segment is acknowledged selectively, then cumulatively. -/
def eackFirst : List SendOp :=
  [.enqueueSwnd 0 onePacket, .recvEack 1, .enqueueSwnd 0 onePacket, .recvAck 0 1]

/-- The window is not as expected on this run: it ends at a null buffer. -/
theorem eackFirst_faults :
    run SendRun.step (SendRun.init default twoSegments) eackFirst = .error .nullDeref ∧
      ¬ Always SendRun.step SendWindowOk (SendRun.init default twoSegments) eackFirst := by
  have hrun : run SendRun.step (SendRun.init default twoSegments) eackFirst
      = .error .nullDeref := rfl
  refine ⟨hrun, fun h => ?_⟩
  obtain ⟨s', hs', -⟩ := h.ends
  rw [hrun] at hs'
  cases hs'

/-- The theorem at this run. -/
theorem sendWindowOk_iff_twoSegments :
    Always SendRun.step SendWindowOk (SendRun.init default twoSegments) eackFirst ↔
      Allowed SendRun.step KeepsHead (SendRun.init default twoSegments) eackFirst :=
  sendWindowOk_iff default twoSegments (by decide) (by decide) (by decide) eackFirst

end Libcage.Proofs.Rdp
