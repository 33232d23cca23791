import Libcage.Proofs.Rdp.SendCursors
import Libcage.Proofs.Rdp.Stream
import Libcage.Rdp.Machine

/-!
# `Libcage.Proofs.Rdp.OpenConnections`: a connection after any calls

A connection that a handshake opened gets calls of its user and of the timer, and any
segments. Of a segment that is neither refused nor a reset nor a SYN, `rdp::in_state_open`
hands on what it read to `recv_ack`, `recv_eack` and `rwnd_recv_data`: `openCalls` are these
calls, and `inStateOpen_eq` proves that they are all that the function does to the record.
`openRun_of_run` has the other segments, too.

`OpenReady` is what every call that returns keeps of both windows (`OpenReady.step`), and
`openReady_of_run` what therefore holds of an open connection at any time.
-/

set_option autoImplicit false

namespace Libcage.Proofs.Rdp

open Libcage.Lib
open Libcage.Rdp

/-! ### What a segment leads to -/

/-- A call of `in_state_open` with something it read from the segment. A number for
`recv_eack` comes with its offset. -/
inductive OpenCall where
  | recvAck (acknum : BitVec 32)
  | recvEack (off : Nat) (eacknum : BitVec 32)
  | rwndRecvData (pbuf : Packetbuf) (seqnum : BitVec 32)

/-- The call on the record. -/
def OpenCall.run (clock : Int) (c : RdpCon) : OpenCall → Except Fault (RdpCon × List Emitted)
  | .recvAck acknum => c.recvAck clock acknum
  | .recvEack _ eacknum => do
      let c' ← c.recvEack eacknum
      return (c', [])
  | .rwndRecvData pbuf seqnum => c.rwndRecvData clock pbuf seqnum

/-- One call after the other. -/
def runOpenCalls (clock : Int) : RdpCon → List OpenCall → Except Fault (RdpCon × List Emitted)
  | c, [] => .ok (c, [])
  | c, call :: calls => do
      let (c₁, out) ← call.run clock c
      let (c₂, out') ← runOpenCalls clock c₁ calls
      return (c₂, out ++ out')

/-- The numbers behind the header: `n` more, from number `i` on. -/
def eackCalls (view : List Byte) : Nat → Nat → List OpenCall
  | 0, _ => []
  | n + 1, i => .recvEack (sizeofHead + 4 * i) (rd32 view (sizeofHead + 4 * i)) ::
      eackCalls view n (i + 1)

/-- The segment is one whose acknowledgements and data are read. -/
def Decodes (c : RdpCon) (head : RdpHead) : Prop :=
  head.seqnum - c.rcvCur - 1 < c.rcvMax * 2 ∧ head.has flagRst = false ∧
    head.has flagNul = false ∧ head.has flagSyn = false

instance (c : RdpCon) (head : RdpHead) : Decidable (Decodes c head) := by
  unfold Decodes
  infer_instance

/-- The segment is a NUL segment that is taken. -/
def TakesNul (c : RdpCon) (pbuf : Packetbuf) : Prop :=
  (RdpHead.decode pbuf.data).seqnum - c.rcvCur - 1 < c.rcvMax * 2 ∧
    (RdpHead.decode pbuf.data).has flagRst = false ∧
    (RdpHead.decode pbuf.data).has flagNul = true ∧ pbuf.getLen = sizeofHead

instance (c : RdpCon) (pbuf : Packetbuf) : Decidable (TakesNul c pbuf) := by
  unfold TakesNul
  infer_instance

/-- The segment says that data is behind its header, and the lengths add up. -/
def HasData (head : RdpHead) (len : Nat) : Prop :=
  0 < head.dlen.toNat ∧ head.dlen.toNat + head.hlen.toNat * 2 = len

instance (head : RdpHead) (len : Nat) : Decidable (HasData head len) := by
  unfold HasData
  infer_instance

/-- The call for the data. -/
def dataCalls (pbuf : Packetbuf) : List OpenCall :=
  let head := RdpHead.decode pbuf.data
  if HasData head pbuf.getLen then
    [.rwndRecvData (pbuf.rmHead (head.hlen.toNat * 2)) head.seqnum]
  else
    []

/-- The calls for the selective acknowledgements and the data. -/
def eackDataCalls (pbuf : Packetbuf) : List OpenCall :=
  let head := RdpHead.decode pbuf.data
  (if head.has flagEak then eackCalls pbuf.view (RdpCon.eackCount head.hlen) 0 else []) ++
    dataCalls pbuf

/-- The calls with which `in_state_open` hands on what it reads, as long as none faults. -/
def openCalls (c : RdpCon) (pbuf : Packetbuf) : List OpenCall :=
  let head := RdpHead.decode pbuf.data
  if TakesNul c pbuf then
    [.rwndRecvData (pbuf.rmHead pbuf.getLen) head.seqnum]
  else if Decodes c head then
    (if head.has flagAck then [.recvAck head.acknum] else []) ++ eackDataCalls pbuf
  else
    []

section
variable {clock : Int} {c : RdpCon} {pbuf : Packetbuf}

/-- Calls in two parts. -/
theorem runOpenCalls_append (clock : Int) (c : RdpCon) (calls calls' : List OpenCall) :
    runOpenCalls clock c (calls ++ calls') = runOpenCalls clock c calls >>= fun r =>
      runOpenCalls clock r.1 calls' >>= fun r' => .ok (r'.1, r.2 ++ r'.2) := by
  induction calls generalizing c with
  | nil =>
    show runOpenCalls clock c calls' = runOpenCalls clock c calls' >>= fun r => .ok (r.1, [] ++ r.2)
    cases runOpenCalls clock c calls' <;> rfl
  | cons call calls ih =>
    show (call.run clock c >>= fun r => runOpenCalls clock r.1 (calls ++ calls') >>= fun r' =>
        .ok (r'.1, r.2 ++ r'.2))
      = (call.run clock c >>= fun r => runOpenCalls clock r.1 calls >>= fun r' =>
        .ok (r'.1, r.2 ++ r'.2)) >>= _
    cases call.run clock c with
    | error e => rfl
    | ok r =>
      rw [ok_bind, ok_bind, ih]
      cases runOpenCalls clock r.1 calls with
      | error e => rfl
      | ok r' =>
        rw [ok_bind, ok_bind, ok_bind]
        cases runOpenCalls clock r'.1 calls' with
        | error e => rfl
        | ok r'' =>
          show Except.ok (r''.1, r.2 ++ (r'.2 ++ r''.2)) = Except.ok (r''.1, r.2 ++ r'.2 ++ r''.2)
          rw [List.append_assoc]

/-- The calls for the numbers are the loop over them. -/
theorem runOpenCalls_eacks (clock : Int) (view : List Byte) (n : Nat) :
    ∀ (i : Nat) (c : RdpCon), runOpenCalls clock c (eackCalls view n i)
      = RdpCon.eackLoop view n i c >>= fun c' => .ok (c', []) := by
  induction n with
  | zero => intro i c; rfl
  | succ n ih =>
    intro i c
    show ((c.recvEack (rd32 view (sizeofHead + 4 * i)) >>= fun c' => .ok (c', [])) >>= fun r =>
        runOpenCalls clock r.1 (eackCalls view n (i + 1)) >>= fun r' => .ok (r'.1, r.2 ++ r'.2))
      = (c.recvEack (rd32 view (sizeofHead + 4 * i)) >>= fun c' =>
          RdpCon.eackLoop view n (i + 1) c') >>= _
    cases c.recvEack (rd32 view (sizeofHead + 4 * i)) with
    | error e => rfl
    | ok c' =>
      rw [ok_bind, ok_bind, ok_bind, ih]
      cases RdpCon.eackLoop view n (i + 1) c' <;> rfl

/-- One call. -/
theorem runOpenCalls_singleton (clock : Int) (c : RdpCon) (call : OpenCall) :
    runOpenCalls clock c [call] = call.run clock c := by
  show (call.run clock c >>= fun r => .ok (r.1, r.2 ++ [])) = _
  cases call.run clock c with
  | error e => rfl
  | ok r =>
    show Except.ok (r.1, r.2 ++ []) = _
    rw [List.append_nil]

/-- The last part of `in_state_open`: the data. -/
theorem takeData_eq (clock : Int) (c₂ : RdpCon) (out : List Emitted) (pbuf : Packetbuf) :
    let head := RdpHead.decode pbuf.data
    let hlen := head.hlen.toNat * 2
    ((if head.dlen.toNat > 0 ∧ head.dlen.toNat + hlen = pbuf.getLen then do
        let (c₃, out₃) ← c₂.rwndRecvData clock (pbuf.rmHead hlen) head.seqnum
        return (c₃, out ++ out₃, if c₃.rqueue ≠ [] then some RdpEvent.ready2read else none)
      else
        return (c₂, out, none)) >>= fun r => Except.ok (ε := Fault) (r.1, r.2.1))
      = runOpenCalls clock c₂ (dataCalls pbuf) >>= fun r => .ok (r.1, out ++ r.2) := by
  intro head hlen
  by_cases hdata : HasData head pbuf.getLen
  · have hcalls : dataCalls pbuf = [.rwndRecvData (pbuf.rmHead hlen) head.seqnum] := if_pos hdata
    have hboth : head.dlen.toNat > 0 ∧ head.dlen.toNat + hlen = pbuf.getLen := hdata
    rw [if_pos hboth, hcalls, runOpenCalls_singleton]
    show (c₂.rwndRecvData clock (pbuf.rmHead hlen) head.seqnum >>= _) >>= _
      = c₂.rwndRecvData clock (pbuf.rmHead hlen) head.seqnum >>= _
    cases c₂.rwndRecvData clock (pbuf.rmHead hlen) head.seqnum <;> rfl
  · have hcalls : dataCalls pbuf = [] := if_neg hdata
    have hrest : ¬ (head.dlen.toNat > 0 ∧ head.dlen.toNat + hlen = pbuf.getLen) := hdata
    rw [if_neg hrest, hcalls]
    show Except.ok (c₂, out) = Except.ok (c₂, out ++ [])
    rw [List.append_nil]

/-- The last parts of `in_state_open`: the selective acknowledgements and the data. -/
theorem takeEacks_eq (clock : Int) (c₁ : RdpCon) (out : List Emitted) (pbuf : Packetbuf) :
    let head := RdpHead.decode pbuf.data
    let hlen := head.hlen.toNat * 2
    ((do
      let c₂ ← if head.has flagEak then RdpCon.eackLoop pbuf.view (RdpCon.eackCount head.hlen) 0 c₁
        else pure c₁
      if head.dlen.toNat > 0 ∧ head.dlen.toNat + hlen = pbuf.getLen then
        let (c₃, out₃) ← c₂.rwndRecvData clock (pbuf.rmHead hlen) head.seqnum
        return (c₃, out ++ out₃, if c₃.rqueue ≠ [] then some RdpEvent.ready2read else none)
      else
        return (c₂, out, none)) >>= fun r => Except.ok (ε := Fault) (r.1, r.2.1))
      = runOpenCalls clock c₁ (eackDataCalls pbuf) >>= fun r => .ok (r.1, out ++ r.2) := by
  intro head hlen
  have hdata := fun c₂ => takeData_eq clock c₂ out pbuf
  by_cases heak : head.has flagEak = true
  · have hcalls : eackDataCalls pbuf
        = eackCalls pbuf.view (RdpCon.eackCount head.hlen) 0 ++ dataCalls pbuf := by
      show (if head.has flagEak then _ else _) ++ _ = _
      rw [if_pos heak]
    rw [if_pos heak, hcalls, runOpenCalls_append, runOpenCalls_eacks]
    cases RdpCon.eackLoop pbuf.view (RdpCon.eackCount head.hlen) 0 c₁ with
    | error e => rfl
    | ok c₂ =>
      rw [ok_bind, ok_bind, ok_bind]
      -- The data come after the numbers, with the record that these left.
      refine (hdata c₂).trans ?_
      cases runOpenCalls clock c₂ (dataCalls pbuf) <;> rfl
  · have hcalls : eackDataCalls pbuf = dataCalls pbuf := by
      show (if head.has flagEak then _ else _) ++ _ = _
      rw [if_neg heak, List.nil_append]
    rw [if_neg heak, hcalls]
    exact hdata c₁

/-- What `in_state_open` does to the record with a segment that is acceptable and neither a
reset nor a SYN is to make these calls. -/
theorem inStateOpen_eq (clock : Int) (c : RdpCon) (addr : RdpAddr) (pbuf : Packetbuf)
    (hseq : (RdpHead.decode pbuf.data).seqnum - c.rcvCur - 1 < c.rcvMax * 2)
    (hrst : (RdpHead.decode pbuf.data).has flagRst = false)
    (hsyn : (RdpHead.decode pbuf.data).has flagNul = true ∨
      (RdpHead.decode pbuf.data).has flagSyn = false) :
    (c.inStateOpen clock addr pbuf >>= fun r => .ok (r.1, r.2.1))
      = runOpenCalls clock c (openCalls c pbuf) := by
  have hin : ¬ (RdpHead.decode pbuf.data).seqnum - c.rcvCur - 1 ≥ c.rcvMax * 2 := by
    rw [ge_iff_le, BitVec.le_def]
    exact Nat.not_le.mpr hseq
  unfold RdpCon.inStateOpen
  dsimp only
  rw [if_neg hin, if_neg (by rw [hrst]; decide)]
  by_cases hnul : (RdpHead.decode pbuf.data).has flagNul = true
  · rw [if_pos hnul]
    by_cases hlen : pbuf.getLen = sizeofHead
    · have hcalls : openCalls c pbuf = [.rwndRecvData (pbuf.rmHead pbuf.getLen)
          (RdpHead.decode pbuf.data).seqnum] := if_pos ⟨hseq, hrst, hnul, hlen⟩
      rw [if_neg (by rw [hlen]; simp), hcalls, runOpenCalls_singleton]
      show (c.rwndRecvData _ _ _ >>= _) >>= _ = c.rwndRecvData _ _ _
      cases c.rwndRecvData clock (pbuf.rmHead pbuf.getLen) (RdpHead.decode pbuf.data).seqnum <;> rfl
    · have hcalls : openCalls c pbuf = [] := by
        unfold openCalls
        rw [if_neg fun h => hlen h.2.2.2, if_neg fun h => absurd (hnul.symm.trans h.2.2.1)
          (by decide)]
      rw [if_pos hlen, hcalls]
      rfl
  · have hdecodes : Decodes c (RdpHead.decode pbuf.data) :=
      ⟨hseq, hrst, Bool.not_eq_true _ ▸ hnul, hsyn.resolve_left hnul⟩
    have hcalls : openCalls c pbuf = (if (RdpHead.decode pbuf.data).has flagAck then
        [.recvAck (RdpHead.decode pbuf.data).acknum] else []) ++ eackDataCalls pbuf := by
      unfold openCalls
      rw [if_neg fun h => hnul h.2.2.1, if_pos hdecodes]
    rw [if_neg hnul, if_neg (by rw [hdecodes.2.2.2]; decide), hcalls]
    -- The acknowledgement comes first.
    by_cases hack : (RdpHead.decode pbuf.data).has flagAck = true
    · rw [if_pos hack, if_pos hack, runOpenCalls_append, runOpenCalls_singleton]
      show (c.recvAck clock _ >>= _) >>= _ = c.recvAck clock _ >>= _
      cases c.recvAck clock (RdpHead.decode pbuf.data).acknum with
      | error e => rfl
      | ok r => exact takeEacks_eq clock r.1 r.2 pbuf
    · rw [if_neg hack, if_neg hack, List.nil_append]
      refine (takeEacks_eq clock c [] pbuf).trans ?_
      cases runOpenCalls clock c (eackDataCalls pbuf) <;> rfl

/-- What `in_state_open` does to the record, and what it sends. -/
inductive OpenRun (clock : Int) (c : RdpCon) (addr : RdpAddr) (pbuf : Packetbuf) :
    RdpCon → List Emitted → Prop where
  | outside : OpenRun clock c addr pbuf { c with rcvAck := c.rcvCur, ackedTime := clock }
      [c.emit (c.ackHead addr).encode]
  | reset {c' : RdpCon} {out : List Emitted} (hack : c.delayedAck clock = .ok (c', out)) :
      OpenRun clock c addr pbuf
        { c' with state := .closeWaitPasv, rstTime := timeNull clock, rstTout := 1,
                  isRetryRst := true }
        (out ++ [c'.emit ({ flags := flagRst ||| flagFin ||| flagVer, hlen := 10,
                            sport := addr.sport, dport := addr.dport,
                            seqnum := c'.sndNxt } : RdpHead).encode])
  | syn {seg : List Byte} (hsyn : (RdpHead.decode pbuf.data).has flagSyn = true) :
      OpenRun clock c addr pbuf { c with state := .closed } [c.emit seg]
  | calls {c' : RdpCon} {out : List Emitted}
      (hcalls : runOpenCalls clock c (openCalls c pbuf) = .ok (c', out)) :
      OpenRun clock c addr pbuf c' out

theorem openRun_of_run {addr : RdpAddr} {c' : RdpCon} {out : List Emitted}
    {event : Option RdpEvent} (hrun : c.inStateOpen clock addr pbuf = .ok (c', out, event)) :
    OpenRun clock c addr pbuf c' out := by
  -- The checks in the order of the source: the window, RST, and SYN where there is no NUL.
  by_cases hseq : (RdpHead.decode pbuf.data).seqnum - c.rcvCur - 1 ≥ c.rcvMax * 2
  · unfold RdpCon.inStateOpen at hrun
    dsimp only at hrun
    rw [if_pos hseq] at hrun
    obtain ⟨rfl, hrest⟩ := Prod.mk.inj (Except.ok.inj hrun)
    obtain ⟨rfl, -⟩ := Prod.mk.inj hrest
    exact .outside
  by_cases hrst : (RdpHead.decode pbuf.data).has flagRst = true
  · unfold RdpCon.inStateOpen at hrun
    dsimp only at hrun
    rw [if_neg hseq, if_pos hrst] at hrun
    obtain ⟨⟨c₁, out₁⟩, hack, hret⟩ := bind_eq_ok hrun
    obtain ⟨rfl, hrest⟩ := Prod.mk.inj (Except.ok.inj hret)
    obtain ⟨rfl, -⟩ := Prod.mk.inj hrest
    exact .reset hack
  by_cases hsyn : (RdpHead.decode pbuf.data).has flagNul = false ∧
      (RdpHead.decode pbuf.data).has flagSyn = true
  · unfold RdpCon.inStateOpen at hrun
    dsimp only at hrun
    rw [if_neg hseq, if_neg hrst, if_neg (by rw [hsyn.1]; decide), if_pos hsyn.2] at hrun
    obtain ⟨pbuf', -, hret⟩ := bind_eq_ok hrun
    obtain ⟨rfl, hrest⟩ := Prod.mk.inj (Except.ok.inj hret)
    obtain ⟨rfl, -⟩ := Prod.mk.inj hrest
    exact .syn hsyn.2
  · have hlt : (RdpHead.decode pbuf.data).seqnum - c.rcvCur - 1 < c.rcvMax * 2 := by
      rw [BitVec.lt_def]
      exact Nat.not_le.mp hseq
    have hcalls := inStateOpen_eq clock c addr pbuf hlt (Bool.not_eq_true _ ▸ hrst) (by
      cases hnul : (RdpHead.decode pbuf.data).has flagNul with
      | true => exact Or.inl rfl
      | false => exact Or.inr (Bool.not_eq_true _ ▸ fun hs => hsyn ⟨hnul, hs⟩))
    rw [hrun] at hcalls
    exact .calls hcalls.symm

/-! ### The windows of an open connection -/

/-- Both windows are as the calls leave them, and the limit of the peer is the one of the
handshake. -/
structure OpenReady (sbufMax : BitVec 32) (c : RdpCon) : Prop where
  send : SendReady c
  recv : ∃ irs got arrived, RecvWindow irs got arrived c
  limit : c.sbufMax = sbufMax

/-- A packet of `rdp::send` has room for a header. -/
theorem construct_append_head {bytes : List Byte} {pbuf : Packetbuf}
    (h : deref (Packetbuf.construct.append bytes) = .ok pbuf) : sizeofHead ≤ pbuf.head := by
  cases happ : Packetbuf.construct.append bytes with
  | none => rw [happ] at h; cases h
  | some p =>
    rw [happ] at h
    obtain rfl := Except.ok.inj h
    rw [(Packetbuf.append_eq_some happ).1]
    decide

/-! ### What a loop keeps

`P` is about the connection and what was sent so far. -/

section
variable {P : RdpCon → List Emitted → Prop}

/-- What every call keeps, all calls for a segment keep. -/
theorem runOpenCalls_keeps
    (hcall : ∀ {c c' : RdpCon} {call : OpenCall} {out out' : List Emitted}, P c out →
      call.run clock c = .ok (c', out') → P c' (out ++ out'))
    (calls : List OpenCall) :
    ∀ (out : List Emitted) {c c' : RdpCon} {out' : List Emitted}, P c out →
      runOpenCalls clock c calls = .ok (c', out') → P c' (out ++ out') := by
  induction calls with
  | nil =>
    intro out c c' out' h hrun
    obtain ⟨rfl, rfl⟩ := Prod.mk.inj (Except.ok.inj hrun)
    rwa [List.append_nil]
  | cons call calls ih =>
    intro out c c' out' h hrun
    obtain ⟨⟨c₁, out₁⟩, hfirst, hrest⟩ := bind_eq_ok hrun
    obtain ⟨⟨c₂, out₂⟩, hcalls, hret⟩ := bind_eq_ok hrest
    obtain ⟨rfl, rfl⟩ := Prod.mk.inj (Except.ok.inj hret)
    have hlast : P c₂ (out ++ out₁ ++ out₂) := ih _ (hcall h hfirst) hcalls
    rwa [List.append_assoc] at hlast

/-- What every `enqueue_swnd` keeps, the loop of `rdp::send` keeps. -/
theorem sendLoop_keeps
    (henq : ∀ {c c' : RdpCon} {pbuf : Packetbuf} {done : Bool} {out out' : List Emitted}, P c out →
      sizeofHead ≤ pbuf.head → c.enqueueSwnd clock pbuf = .ok (done, c', out') →
      P c' (out ++ out'))
    (fuel : Nat) :
    ∀ {c c' : RdpCon} {buf : List Byte} {total t : Nat} {out out' : List Emitted}, P c out →
      RdpCon.sendLoop clock fuel c buf total out = .ok (t, c', out') → P c' out' := by
  induction fuel with
  | zero => intro c c' buf total t out out' _ hrun; cases hrun
  | succ fuel ih =>
    intro c c' buf total t out out' h hrun
    rw [RdpCon.sendLoop] at hrun
    dsimp only at hrun
    generalize (if (buf.length : Int) < _ then (buf.length : Int) else _) = size at hrun
    split at hrun
    · cases hrun
    obtain ⟨pbuf, hpbuf, hrun⟩ := bind_eq_ok hrun
    obtain ⟨⟨done, c₁, out₁⟩, hcall, hrun⟩ := bind_eq_ok hrun
    have h₁ : P c₁ (out ++ out₁) := henq h (construct_append_head hpbuf) hcall
    dsimp only at hrun
    split at hrun
    · obtain ⟨-, rfl, rfl⟩ : total = t ∧ c₁ = c' ∧ out ++ out₁ = out' := by
        simpa [pure, Except.pure] using hrun
      exact h₁
    · -- The buffer ends with this payload, or the loop goes on behind it.
      split at hrun
      · obtain ⟨-, rfl, rfl⟩ : total + size.toNat = t ∧ c₁ = c' ∧ out ++ out₁ = out' := by
          simpa [pure, Except.pure] using hrun
        exact h₁
      · exact ih h₁ hrun

/-- The same for `rdp::send`, which sends nothing on a connection that is not open. -/
theorem send_keeps
    (henq : ∀ {c c' : RdpCon} {pbuf : Packetbuf} {done : Bool} {out out' : List Emitted}, P c out →
      sizeofHead ≤ pbuf.head → c.enqueueSwnd clock pbuf = .ok (done, c', out') →
      P c' (out ++ out'))
    {c c' : RdpCon} {buf : List Byte} {total : Int} {out : List Emitted} (h : P c [])
    (hrun : c.send clock buf = .ok (total, c', out)) : P c' out := by
  rw [RdpCon.send] at hrun
  split at hrun
  · obtain ⟨-, rfl, rfl⟩ : -1 = total ∧ c = c' ∧ [] = out := by simpa using hrun
    exact h
  · split at hrun
    · obtain ⟨-, rfl, rfl⟩ : 0 = total ∧ c = c' ∧ [] = out := by simpa using hrun
      exact h
    · obtain ⟨⟨t, c₁, out₁⟩, hloop, hret⟩ := bind_eq_ok hrun
      obtain ⟨-, rfl, rfl⟩ : (t : Int) = total ∧ c₁ = c' ∧ out₁ = out := by
        simpa [pure, Except.pure] using hret
      exact sendLoop_keeps henq _ h hloop

end

namespace OpenReady
variable {sbufMax : BitVec 32}

/-- A call that leaves the receive window alone. -/
theorem sent {c' : RdpCon} (h : OpenReady sbufMax c) (hsend : SendReady c') (state : RdpState)
    (hsame : withoutSend c' = withoutSend { c with state := state }) : OpenReady sbufMax c' := by
  obtain ⟨irs, got, arrived, hrecv⟩ := h.recv
  exact ⟨hsend, ⟨irs, got, arrived, hrecv.congr state hsame⟩,
    (congrArg RdpCon.sbufMax hsame :).trans h.limit⟩

/-- A call that leaves the send window alone. -/
theorem received {c' : RdpCon} (h : OpenReady sbufMax c)
    (hrecv : ∃ irs got arrived, RecvWindow irs got arrived c') (state : RdpState)
    (hsame : withoutRecv c' = withoutRecv { c with state := state }) : OpenReady sbufMax c' :=
  ⟨h.send.congr state hsame, hrecv, (congrArg RdpCon.sbufMax hsame :).trans h.limit⟩

theorem rwndRecvData (h : OpenReady sbufMax c) {pbuf : Packetbuf} {seqnum : BitVec 32}
    {c' : RdpCon} {out : List Emitted}
    (hrun : c.rwndRecvData clock pbuf seqnum = .ok (c', out)) : OpenReady sbufMax c' := by
  obtain ⟨irs, got, arrived, hrecv⟩ := h.recv
  obtain ⟨arrived', got', c₁, out₁, hok, -, -, -, hwin, -, hsame, -⟩ :=
    rwndRecvData_spec hrecv clock pbuf seqnum
  obtain ⟨rfl, -⟩ := Prod.mk.inj (Except.ok.inj (hok.symm.trans hrun))
  exact h.received ⟨irs, got', arrived', hwin⟩ c.state hsame

theorem delayedAck (h : OpenReady sbufMax c) {c' : RdpCon} {out : List Emitted}
    (hrun : c.delayedAck clock = .ok (c', out)) : OpenReady sbufMax c' := by
  obtain ⟨irs, got, arrived, hrecv⟩ := h.recv
  obtain ⟨c₁, out₁, hok, hwin, hsame, -⟩ := delayedAck_spec hrecv clock
  obtain ⟨rfl, -⟩ := Prod.mk.inj (Except.ok.inj (hok.symm.trans hrun))
  exact h.received ⟨irs, got, arrived, hwin⟩ c.state hsame

theorem openCall (h : OpenReady sbufMax c) {call : OpenCall} {c' : RdpCon} {out : List Emitted}
    (hrun : call.run clock c = .ok (c', out)) : OpenReady sbufMax c' := by
  cases call with
  | recvAck acknum =>
    obtain ⟨hsend, hsame⟩ := h.send.recvAck hrun
    exact h.sent hsend c.state hsame
  | recvEack off eacknum =>
    obtain ⟨c₁, hok, hsend, hsame⟩ := h.send.recvEack eacknum
    have hrun' : (c.recvEack eacknum >>= fun c' => .ok (c', [])) = .ok (c', out) := hrun
    rw [hok, ok_bind] at hrun'
    obtain ⟨rfl, -⟩ := Prod.mk.inj (Except.ok.inj hrun')
    exact h.sent hsend c.state hsame
  | rwndRecvData pbuf seqnum => exact h.rwndRecvData hrun

/-- Every segment: one that is refused, a reset and a SYN leave both windows alone but for an
acknowledgement, and for the others there are the calls. -/
theorem inStateOpen (h : OpenReady sbufMax c) {addr : RdpAddr} {pbuf : Packetbuf} {c' : RdpCon}
    {out : List Emitted} {event : Option RdpEvent}
    (hrun : c.inStateOpen clock addr pbuf = .ok (c', out, event)) : OpenReady sbufMax c' := by
  cases openRun_of_run hrun with
  | outside =>
    obtain ⟨irs, got, arrived, hrecv⟩ := h.recv
    exact h.received ⟨irs, got, arrived, { hrecv.toRecvRing with }, hrecv.front⟩ c.state rfl
  | reset hack =>
    have h₁ := h.delayedAck hack
    obtain ⟨irs, got, arrived, hrecv⟩ := h₁.recv
    refine ⟨?_, ⟨irs, got, arrived, { hrecv.toRecvRing with }, hrecv.front⟩, h₁.limit⟩
    rcases h₁.send with ⟨o, hcursors⟩ | hnone
    · exact Or.inl ⟨o, { hcursors.toCursorRing with }, hcursors.ostand⟩
    · exact Or.inr ⟨hnone.len, hnone.used, hnone.cursor⟩
  | syn => exact h.sent (h.send.congr .closed rfl) .closed rfl
  | calls hcalls =>
    exact runOpenCalls_keeps (P := fun c _ => OpenReady sbufMax c)
      (fun h₁ hcall => h₁.openCall hcall) _ [] h hcalls

/-- A call that returns keeps both windows. -/
theorem step {e e' : End} (h : OpenReady sbufMax e.con) {act : Act} (hstep : e.step act = .ok e') :
    OpenReady sbufMax e'.con := by
  cases act with
  | send clock buf =>
    obtain ⟨⟨total, c, out⟩, hrun, hret⟩ := bind_eq_ok hstep
    obtain rfl := Except.ok.inj hret
    refine send_keeps (P := fun c _ => OpenReady sbufMax c) (fun h₁ hhead henq => ?_) h hrun
    obtain ⟨hsend, hsame⟩ := h₁.send.enqueueSwnd hhead henq
    exact h₁.sent hsend _ hsame
  | receive len =>
    obtain rfl := Except.ok.inj hstep
    obtain ⟨irs, got, arrived, hrecv⟩ := h.recv
    exact h.received ⟨irs, got, arrived, { hrecv.toRecvRing with }, hrecv.front⟩
      e.con.state rfl
  | arrive clock addr pbuf =>
    obtain ⟨⟨c, out, event⟩, hrun, hret⟩ := bind_eq_ok hstep
    obtain rfl := Except.ok.inj hret
    exact h.inStateOpen hrun
  | retransmit clock maxRetrans =>
    obtain ⟨⟨alive, c, out⟩, hrun, hret⟩ := bind_eq_ok hstep
    obtain rfl := Except.ok.inj hret
    obtain ⟨hsend, hsame⟩ := h.send.retransmit hrun
    exact h.sent hsend _ hsame
  | delayedAck clock =>
    obtain ⟨⟨c, out⟩, hrun, hret⟩ := bind_eq_ok hstep
    obtain rfl := Except.ok.inj hret
    exact h.delayedAck hrun

end OpenReady

/-! ### From the handshake on -/

/-- One end of a connection that a handshake with this SYN just opened. -/
def openedEnd (uninit : Uninit) (c : RdpCon) (addr : RdpAddr) (isPasv : Bool) (iss : BitVec 32)
    (clock : Int) (syn : RdpSyn) : End where
  con := { ((c.start addr isPasv .synRcvd iss clock).acceptSyn uninit clock syn) with
    state := .opened }
  accepted := []
  received := []
  net := []

/-- The limit of the peer, cut down to what a packet holds. -/
def peerLimit (syn : RdpSyn) : BitVec 32 :=
  if syn.segSizeMax.setWidth 32 > sbufLimit then sbufLimit else syn.segSizeMax.setWidth 32

theorem toNat_peerLimit (syn : RdpSyn) : (peerLimit syn).toNat = min syn.segSizeMax.toNat 884 := by
  unfold peerLimit
  have hseg : (syn.segSizeMax.setWidth 32).toNat = syn.segSizeMax.toNat := by
    rw [BitVec.toNat_setWidth]
    exact Nat.mod_eq_of_lt (by have := syn.segSizeMax.isLt; omega)
  have hlimit : sbufLimit.toNat = 884 := rfl
  split
  · next hgt =>
    have : sbufLimit.toNat < (syn.segSizeMax.setWidth 32).toNat := hgt
    omega
  · next hle =>
    have : ¬ sbufLimit.toNat < (syn.segSizeMax.setWidth 32).toNat := hle
    omega

/-- A handshake leaves a send window, or one without slots. -/
theorem sendReady_openedEnd (uninit : Uninit) (c : RdpCon) (addr : RdpAddr) (isPasv : Bool)
    (iss : BitVec 32) (clock : Int) (syn : RdpSyn) :
    SendReady (openedEnd uninit c addr isPasv iss clock syn).con := by
  have hmax : (syn.outSegsMax.setWidth 32).toNat = syn.outSegsMax.toNat := by
    rw [BitVec.toNat_setWidth]
    exact Nat.mod_eq_of_lt (by have := syn.outSegsMax.isLt; omega)
  have hlt := syn.outSegsMax.isLt
  by_cases hzero : syn.outSegsMax = 0
  · right
    refine ⟨?_, rfl, rfl⟩
    show (syn.outSegsMax.setWidth 32 * 4).toNat = 0
    rw [hzero]
    decide
  · left
    have hpos : syn.outSegsMax.toNat ≠ 0 := fun he => hzero (BitVec.eq_of_toNat_eq he)
    let limits : RdpCon :=
      { (c.start addr isPasv .synRcvd iss clock) with sndMax := syn.outSegsMax.setWidth 32 }
    have hmin : 1 ≤ limits.sndMax.toNat := by
      show 1 ≤ (syn.outSegsMax.setWidth 32).toNat
      omega
    have hmax' : limits.sndMax.toNat < 2 ^ 29 := by
      show (syn.outSegsMax.setWidth 32).toNat < 2 ^ 29
      omega
    have hring := initSwnd_cursors uninit hmin hmax' rfl
    exact ⟨0, { hring.toCursorRing with }, hring.ostand⟩

theorem openReady_openedEnd (uninit : Uninit) (c : RdpCon) (addr : RdpAddr) (isPasv : Bool)
    (iss : BitVec 32) (clock : Int) (syn : RdpSyn) :
    OpenReady (peerLimit syn) (openedEnd uninit c addr isPasv iss clock syn).con := by
  have hrecv : ∃ irs, RecvWindow irs 0 noArrivals
      ((c.start addr isPasv .synRcvd iss clock).acceptSyn uninit clock syn) := by
    unfold RdpCon.acceptSyn
    exact ⟨_, initRwnd_spec (show 0 < (rcvMaxDefault * 2).toNat by decide) uninit⟩
  obtain ⟨irs, hrecv⟩ := hrecv
  refine ⟨sendReady_openedEnd uninit c addr isPasv iss clock syn,
    ⟨irs, 0, noArrivals, hrecv.congr .opened rfl⟩, ?_⟩
  unfold openedEnd RdpCon.acceptSyn
  rfl

/-- An open connection at any time. -/
theorem openReady_of_run {uninit : Uninit} {c : RdpCon} {addr : RdpAddr} {isPasv : Bool}
    {iss : BitVec 32} {clock : Int} {syn : RdpSyn} {acts : List Act} {e : End}
    (hrun : run End.step (openedEnd uninit c addr isPasv iss clock syn) acts = .ok e) :
    OpenReady (peerLimit syn) e.con :=
  run_inv (fun e => OpenReady (peerLimit syn) e.con) (fun _ _ _ h hstep => h.step hstep)
    (openReady_openedEnd uninit c addr isPasv iss clock syn) hrun

end

end Libcage.Proofs.Rdp
