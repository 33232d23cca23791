import Libcage.Proofs.Rdp.Acknowledgements

/-!
# `Libcage.Proofs.Rdp.Resets`: the reset for a number that was never sent

Five states answer some segments with `<SEQ=SEG.ACK + 1><RST>`. `ResetDue` is where the
tables in the comments say so, branch by branch and in their order. `Resets` is what they
say: one reset goes out, with that number and between the two ports of the segment. What
an event callback sends does not count.

`resets_iff` says where it is so. Two of the seven copies of the reply are wrong. The one
for a selective acknowledgement in state SYN_RCVD takes the number through eight bits.
The one for a SYN in state OPEN is appended to the received packet, so no reset goes out
at all.
-/

set_option autoImplicit false

namespace Libcage.Proofs.Rdp

open Libcage.Lib
open Libcage.Rdp
open Relation (ReflTransGen)

/-! ### The law -/

/-- The reset for a segment, `<SEQ=SEG.ACK + 1><RST>`. -/
def resetSegment (pbuf : Packetbuf) : List Byte :=
  let head := RdpHead.decode pbuf.data
  ({ flags := flagRst, hlen := 10, sport := head.dport, dport := head.sport,
     seqnum := head.acknum + 1 } : RdpHead).encode

/-- `RCV.IRS < SEG.SEQ =< RCV.CUR + (RCV.MAX * 2)`, counted from `RCV.IRS`. -/
def AcceptableInSynRcvd (c : RdpCon) (head : RdpHead) : Prop :=
  0 < head.seqnum - c.rcvIrs ∧ head.seqnum - c.rcvIrs ≤ c.rcvCur + c.rcvMax * 2 - c.rcvIrs

/-- The segments that the table of a record's state answers with a reset. -/
def ResetDueIn (c : RdpCon) (pbuf : Packetbuf) : Prop :=
  let head := RdpHead.decode pbuf.data
  match c.state with
  | .closed => head.has flagRst = false ∧ (head.has flagAck = true ∨ head.has flagNul = true)
  | .synSent => head.has flagAck = true ∧ head.has flagRst = false ∧ head.acknum ≠ c.sndIss
  | .synRcvd =>
      ¬ (head.has flagSyn = true ∧ head.seqnum = c.rcvCur) ∧ AcceptableInSynRcvd c head ∧
        head.has flagRst = false ∧
        (head.has flagSyn = true ∨ head.has flagEak = true ∨
          head.has flagAck = true ∧ head.acknum ≠ c.sndIss)
  | .opened => SynInOpen c pbuf
  | .listen | .closeWaitPasv | .closeWaitActive => False

/-- The segments that are answered with a reset. Without a record the port is in state
CLOSED or LISTEN, and their tables agree. -/
def ResetDue (r : Members) (src : Id) (pbuf : Packetbuf) : Prop :=
  let head := RdpHead.decode pbuf.data
  sizeofHead ≤ pbuf.getLen ∧
    match r.addr2conn.lookup (addrOf src pbuf) with
    | some ptr => ResetDueIn (r.con ptr) pbuf
    | none => head.has flagRst = false ∧ (head.has flagAck = true ∨ head.has flagNul = true)

/-- What a step sends and to whom, but for what its callbacks send. -/
def ownOut (out : List Sent) : List (Id × List Byte) :=
  (out.filter fun s => !s.inCallback).map fun s => (s.did, s.seg)

/-- The step returns, unless a callback does not, and all it sends is the reset. -/
def Resets (r : Members) (src : Id) (pbuf : Packetbuf) : Prop :=
  ∀ env, (env.reactions = [] → ∃ r' out, step r env (.arrive src pbuf) = .ok (r', out)) ∧
    ∀ r' out, step r env (.arrive src pbuf) = .ok (r', out) →
      ownOut out = [(src, resetSegment pbuf)]

/-- The two places where the reply is another one. -/
def MissesReset (r : Members) (src : Id) (pbuf : Packetbuf) : Prop :=
  let head := RdpHead.decode pbuf.data
  ∃ ptr, r.addr2conn.lookup (addrOf src pbuf) = some ptr ∧
    ((r.con ptr).state = .synRcvd ∧ head.has flagSyn = false ∧ head.has flagEak = true ∧
        256 ≤ head.acknum ∨
      (r.con ptr).state = .opened)

/-! ### Replies -/

theorem ownOut_append (out out' : List Sent) :
    ownOut (out ++ out') = ownOut out ++ ownOut out' := by
  simp [ownOut]

/-- The handler sends one segment, and returns if no callback makes a call. -/
def Replies (m : M Unit) (w : World) (e : Id × List Byte) : Prop :=
  (w.env.reactions = [] → ∃ w', m w = .ok ((), w')) ∧
    ∀ w', m w = .ok ((), w') → ownOut w'.out = ownOut w.out ++ [e]

theorem Replies.of_run {m : M Unit} {w w' : World} {s : Sent} (hrun : m w = .ok ((), w'))
    (hout : w'.out = w.out ++ [s]) (hcallback : s.inCallback = false) :
    Replies m w (s.did, s.seg) := by
  refine ⟨fun _ => ⟨w', hrun⟩, fun w'' hrun' => ?_⟩
  obtain rfl : w' = w'' := (Prod.mk.inj (Except.ok.inj (hrun.symm.trans hrun'))).2
  rw [hout, ownOut_append]
  simp [ownOut, hcallback]

theorem Replies.congr {m m' : M Unit} {w : World} {e : Id × List Byte} (h : Replies m w e)
    (hrun : m' w = m w) : Replies m' w e := by
  rw [Replies, hrun]
  exact h

/-- The law for a step is one for the handler. -/
theorem resets_of_replies {r : Members} {src : Id} {pbuf : Packetbuf}
    (h : ∀ env, Replies (inputDgram src pbuf) (.start r env) (src, resetSegment pbuf)) :
    Resets r src pbuf := by
  intro env
  refine ⟨fun hreact => ?_, fun r' out hstep => ?_⟩
  · obtain ⟨w, hrun⟩ := (h env).1 hreact
    refine ⟨w.rdp, w.out, ?_⟩
    show ((inputDgram src pbuf) (.start r env) >>= fun a => .ok (a.2.rdp, a.2.out)) = _
    rw [hrun]
    rfl
  · obtain ⟨⟨⟨⟩, w⟩, hrun, hend⟩ := bind_eq_ok hstep
    obtain ⟨-, rfl⟩ := Prod.mk.inj (Except.ok.inj hend)
    exact (h env).2 w hrun

theorem not_resets_of_replies {r : Members} {src : Id} {pbuf : Packetbuf} {e : Id × List Byte}
    (h : Replies (inputDgram src pbuf) (.start r default) e) (hne : e ≠ (src, resetSegment pbuf)) :
    ¬ Resets r src pbuf := by
  intro hresets
  obtain ⟨w, hrun⟩ := h.1 rfl
  have hstep : step r default (.arrive src pbuf) = .ok (w.rdp, w.out) := by
    show ((inputDgram src pbuf) (.start r default) >>= fun a => .ok (a.2.rdp, a.2.out)) = _
    rw [hrun]
    rfl
  have hout := ((hresets default).2 w.rdp w.out hstep).symm.trans (h.2 w hrun)
  exact hne (List.singleton_inj.mp hout).symm

/-- A reset built by hand is the one that is due if its number is. -/
theorem rstHead_eq_reset {src : Id} {pbuf : Packetbuf} {seq : BitVec 32} :
    (rstHead (addrOf src pbuf) (flagRst ||| flagVer) seq).encode = resetSegment pbuf ↔
      seq = (RdpHead.decode pbuf.data).acknum + 1 := by
  constructor
  · intro h
    have hhead := congrArg (fun bs => (RdpHead.decode bs).seqnum) h
    simpa only [resetSegment, RdpHead.decode_encode_nil, rstHead] using hhead
  · rintro rfl
    rfl

/-! ### Events -/

/-- What has gone out of callbacks' reach since `out`: nothing. -/
def OnlyCallbacks (out : List Sent) (w : World) : Prop :=
  ownOut w.out = ownOut out ∧ w.inCallback = true

theorem OnlyCallbacks.quiet {out : List Sent} {w w' : World} (h : OnlyCallbacks out w)
    (hquiet : Quiet w w') (hcallback : w'.inCallback = w.inCallback) : OnlyCallbacks out w' :=
  ⟨by rw [hquiet.out, h.1], hcallback.trans h.2⟩

theorem OnlyCallbacks.callStep {out : List Sent} {w w' : World} (h : OnlyCallbacks out w)
    (hstep : CallStep w w') : OnlyCallbacks out w' := by
  refine ⟨?_, hstep.callback.1.trans h.2⟩
  cases hstep with
  | quiet hquiet => exact (h.quiet hquiet ‹_›).1
  | @con ptr c ems =>
    show ownOut (w.out ++ _) = _
    rw [ownOut_append, h.1]
    simp [ownOut, h.2]
  | erase => exact h.1
  | event => exact h.1
  | listen => exact h.1
  | unlisten => exact h.1
  | connect => exact h.1

/-- A callback and the closes it asked for. -/
theorem OnlyCallbacks.invokeOther {out : List Sent} {w w' : World} (hindex : Indexed w.rdp)
    (h : OnlyCallbacks out w) (hrun : invokeOther w = .ok ((), w')) : OnlyCallbacks out w' := by
  obtain ⟨⟨⟨⟩, w₂⟩, hcallback, hrest⟩ := bind_eq_ok hrun
  have h₁ : Indexed { w.rdp with isInvoke := true } := { hindex with }
  have h₂ : Indexed w₂.rdp := h₁.calls (runCallback_traces _ h₁) hcallback
  have hout₁ : OnlyCallbacks out { w with rdp := { w.rdp with isInvoke := true } } := h
  have hout₂ : OnlyCallbacks out w₂ :=
    (runCallback_traces _ h₁).inv (OnlyCallbacks out) (fun _ _ h => h.callStep) hout₁ hcallback
  obtain ⟨⟨⟨⟩, w₄⟩, hclose, hend⟩ := bind_eq_ok hrest
  have h₃ : Indexed { w₂.rdp with isInvoke := false } := { h₂ with }
  have hout₃ : OnlyCallbacks out { w₂ with rdp := { w₂.rdp with isInvoke := false } } := hout₂
  have hout₄ : OnlyCallbacks out w₄ :=
    (closeAll_traces _ _ h₃).inv (OnlyCallbacks out) (fun _ _ h => h.callStep) hout₃ hclose
  obtain ⟨-, rfl⟩ := Prod.mk.inj (Except.ok.inj hend)
  exact hout₄

/-- What an event sends, its callback sends. -/
theorem invokeEvent_own {w w' : World} (h : Indexed w.rdp) (hcallback : w.inCallback = false)
    {desc : Int} {event : RdpEvent} (hrun : invokeEvent desc 0 event w = .ok ((), w')) :
    ownOut w'.out = ownOut w.out ∧ w'.inCallback = false := by
  by_cases hnone : (w.rdp.desc2event.lookup desc).isNone = true
  · rw [invokeEvent_none hnone 0 event] at hrun
    obtain ⟨-, rfl⟩ := Prod.mk.inj (Except.ok.inj hrun)
    exact ⟨rfl, hcallback⟩
  · rw [invokeEvent_some hnone 0 event, if_neg (Int.lt_irrefl 0)] at hrun
    obtain ⟨⟨⟨⟩, w₁⟩, hother, hend⟩ := bind_eq_ok hrun
    obtain ⟨-, rfl⟩ := Prod.mk.inj (Except.ok.inj hend)
    have hstart : OnlyCallbacks w.out { w with inCallback := true } := ⟨rfl, rfl⟩
    have hindex : Indexed ({ w with inCallback := true } : World).rdp := h
    exact ⟨(hstart.invokeOther hindex hother).1, rfl⟩

/-! ### The copies of the reply -/

section
variable {w : World} {src : Id} {pbuf : Packetbuf}

/-- The replies to the sender that no record makes. -/
theorem replies_output (hcallback : w.inCallback = false) (seg : List Byte) :
    Replies (output src seg) w (src, seg) :=
  .of_run (s := ⟨src, seg, none, w.inCallback⟩) rfl rfl hcallback

/-- The replies of a record. -/
theorem replies_outputCon {ptr : ConPtr} (hdid : src = (w.rdp.con ptr).addr.did)
    (hcallback : w.inCallback = false) (seg : List Byte) :
    Replies (outputCon ptr src seg) w (src, seg) := by
  have hrun := outputCon_run (w := w) seg hdid
  rw [hdid] at hrun ⊢
  exact .of_run (s := ⟨_, seg, some (ptr, (w.rdp.con ptr).rcvCur), w.inCallback⟩) hrun rfl hcallback

theorem inStateClosed_replies (hcallback : w.inCallback = false)
    (hrst : (RdpHead.decode pbuf.data).has flagRst = false)
    (hack : (RdpHead.decode pbuf.data).has flagAck = true ∨
      (RdpHead.decode pbuf.data).has flagNul = true) :
    Replies (inStateClosed (addrOf src pbuf) pbuf) w (src, resetSegment pbuf) := by
  refine (replies_output hcallback (resetSegment pbuf)).congr ?_
  show (if _ then _ else if _ then _ else _ : M Unit) w = _
  rw [if_neg (ne_true_of_eq_false hrst), if_pos hack]
  rfl

theorem inStateListen_replies (hcallback : w.inCallback = false)
    (hrst : (RdpHead.decode pbuf.data).has flagRst = false)
    (hack : (RdpHead.decode pbuf.data).has flagAck = true ∨
      (RdpHead.decode pbuf.data).has flagNul = true) :
    Replies (inStateListen (addrOf src pbuf) pbuf) w (src, resetSegment pbuf) := by
  refine (replies_output hcallback (resetSegment pbuf)).congr ?_
  show (if _ then _ else if _ then _ else _ : M Unit) w = _
  rw [if_neg (ne_true_of_eq_false hrst), if_pos hack]
  rfl

theorem inStateSynSent_replies {ptr : ConPtr} (haddr : (w.rdp.con ptr).addr = addrOf src pbuf)
    (hcallback : w.inCallback = false)
    (hack : (RdpHead.decode pbuf.data).has flagAck = true)
    (hrst : (RdpHead.decode pbuf.data).has flagRst = false)
    (hnum : (RdpHead.decode pbuf.data).acknum ≠ (w.rdp.con ptr).sndIss) :
    Replies (inStateSynSent ptr (addrOf src pbuf) pbuf) w (src, resetSegment pbuf) := by
  refine (replies_outputCon (by rw [haddr]; rfl) hcallback (resetSegment pbuf)).congr ?_
  show (if _ then _ else _ : M Unit) w = _
  rw [if_pos ⟨hack, ne_true_of_eq_false hrst, hnum⟩]
  rfl

end

/-! ### State SYN_RCVD -/

section
variable {w : World} {ptr : ConPtr} {src : Id} {pbuf : Packetbuf}

/-- A record that is refused sends nothing, and keeps its address. -/
theorem refuse_own (h : Indexed w.rdp) (hfor : ForCon w.rdp (.arrive src pbuf) ptr pbuf)
    (hcallback : w.inCallback = false) {event : RdpEvent} {w' : World}
    (hrun : refuse ptr event w = .ok ((), w')) :
    ownOut w'.out = ownOut w.out ∧ w'.inCallback = false ∧
      (w'.rdp.con ptr).addr = (w.rdp.con ptr).addr := by
  have haddr : HasAddr ptr (w.rdp.con ptr).addr w' :=
    (refuse_traces w h hfor event).inv (HasAddr ptr _) (fun _ _ h => h.micro) ⟨hfor.lt h, rfl⟩ hrun
  suffices hown : ownOut w'.out = ownOut w.out ∧ w'.inCallback = false from
    ⟨hown.1, hown.2, haddr.2⟩
  by_cases hpasv : (w.rdp.con ptr).isPasv = true
  · -- A passive record goes without an event.
    have herase : refuse ptr event w
        = .ok ((), { w with rdp := w.rdp.eraseCon (w.rdp.con ptr).desc (w.rdp.con ptr).addr }) := by
      show (if _ then _ else _ : M Unit) w = _
      rw [if_pos hpasv]
      rfl
    obtain ⟨-, rfl⟩ := Prod.mk.inj (Except.ok.inj (herase.symm.trans hrun))
    exact ⟨rfl, hcallback⟩
  · have hevent : refuse ptr event w = invokeEvent (w.rdp.con ptr).desc 0 event
        (conStep w ptr { w.rdp.con ptr with state := .closed } []) := by
      show (if _ then _ else _ : M Unit) w = _
      rw [if_neg hpasv]
      show (setCon ptr _ w >>= fun a => invokeEvent _ 0 event a.2) = _
      rw [setCon_run, ok_bind]
    rw [hevent] at hrun
    have hindex : Indexed (conStep w ptr { w.rdp.con ptr with state := .closed } []).rdp :=
      h.setCon rfl rfl
    have hown := invokeEvent_own hindex hcallback hrun
    rwa [conStep, List.map_nil, List.append_nil] at hown

theorem refuse_returns (hrest : AtRest w.rdp) (hreact : w.env.reactions = []) (event : RdpEvent) :
    ∃ w', refuse ptr event w = .ok ((), w') := by
  by_cases hpasv : (w.rdp.con ptr).isPasv = true
  · refine ⟨{ w with rdp := w.rdp.eraseCon (w.rdp.con ptr).desc (w.rdp.con ptr).addr }, ?_⟩
    show (if _ then _ else _ : M Unit) w = _
    rw [if_pos hpasv]
    rfl
  · obtain ⟨w', hrun, -⟩ := invokeEvent_silent
      (w := conStep w ptr { w.rdp.con ptr with state := .closed } []) hrest hreact
      (w.rdp.con ptr).desc event
    refine ⟨w', ?_⟩
    show (if _ then _ else _ : M Unit) w = _
    rw [if_neg hpasv]
    show (setCon ptr _ w >>= fun a => invokeEvent _ 0 event a.2) = _
    rw [setCon_run, ok_bind]
    exact hrun

/-- The branch of the handler for an acceptable segment without `RST`. -/
theorem inStateSynRcvd_run
    (hagain : ¬ ((RdpHead.decode pbuf.data).has flagSyn = true ∧
      (RdpHead.decode pbuf.data).seqnum = (w.rdp.con ptr).rcvCur))
    (hin : AcceptableInSynRcvd (w.rdp.con ptr) (RdpHead.decode pbuf.data))
    (hrst : (RdpHead.decode pbuf.data).has flagRst = false) (addr : RdpAddr) :
    inStateSynRcvd ptr addr pbuf w =
      (let head := RdpHead.decode pbuf.data
       if head.has flagSyn then do
         refuse ptr .reset
         outputCon ptr addr.did (rstHead addr (flagRst ||| flagVer) (head.acknum + 1)).encode
       else if head.has flagEak then
         outputCon ptr addr.did
           (rstHead addr (flagRst ||| flagVer) ((head.acknum.setWidth 8).setWidth 32 + 1)).encode
       else if head.has flagAck then
         if head.acknum = (w.rdp.con ptr).sndIss then
           takeAck ptr addr pbuf
         else
           outputCon ptr addr.did (rstHead addr (flagRst ||| flagVer) (head.acknum + 1)).encode
       else
         return : M Unit) w := by
  rw [AcceptableInSynRcvd] at hin
  show (if _ then _ else _ : M Unit) w = _
  rw [if_neg hagain]
  show (if _ then _ else _ : M Unit) w = _
  rw [if_neg (not_not.mpr hin), if_neg (ne_true_of_eq_false hrst)]

/-- The reply of the handler. For a selective acknowledgement its number is the lowest
byte of the one acknowledged. -/
theorem inStateSynRcvd_replies (h : Started w.rdp) (hfor : ForCon w.rdp (.arrive src pbuf) ptr pbuf)
    (haddr : (w.rdp.con ptr).addr = addrOf src pbuf) (hcallback : w.inCallback = false)
    (hstate : (w.rdp.con ptr).state = .synRcvd) (hdue : ResetDueIn (w.rdp.con ptr) pbuf) :
    Replies (inStateSynRcvd ptr (addrOf src pbuf) pbuf) w (src,
      if (RdpHead.decode pbuf.data).has flagSyn = false ∧
          (RdpHead.decode pbuf.data).has flagEak = true then
        (rstHead (addrOf src pbuf) (flagRst ||| flagVer)
          (((RdpHead.decode pbuf.data).acknum.setWidth 8).setWidth 32 + 1)).encode
      else
        resetSegment pbuf) := by
  rw [ResetDueIn, hstate] at hdue
  obtain ⟨hagain, hin, hrst, hcase⟩ := hdue
  have hdid : src = (w.rdp.con ptr).addr.did := by rw [haddr]; rfl
  refine Replies.congr ?_ (inStateSynRcvd_run hagain hin hrst (addrOf src pbuf))
  dsimp only
  by_cases hsyn : (RdpHead.decode pbuf.data).has flagSyn = true
  · -- The connection ends before the reset goes out.
    rw [if_pos hsyn, if_neg (by rw [hsyn]; simp)]
    refine ⟨fun hreact => ?_, fun w' hrun => ?_⟩
    · obtain ⟨w₁, hrefuse⟩ : ∃ w₁, refuse ptr .reset w = .ok ((), w₁) :=
        refuse_returns h.atRest hreact .reset
      refine ⟨conStep w₁ ptr (w₁.rdp.con ptr) [(w₁.rdp.con ptr).emit (resetSegment pbuf)], ?_⟩
      obtain ⟨-, -, haddr₁⟩ := refuse_own h.indexed hfor hcallback hrefuse
      show (refuse ptr .reset w >>= fun a => outputCon ptr src (resetSegment pbuf) a.2) = _
      rw [hrefuse, ok_bind]
      exact outputCon_run _ (by rw [haddr₁, haddr]; rfl)
    · obtain ⟨⟨⟨⟩, w₁⟩, hrefuse, hsend⟩ := bind_eq_ok hrun
      obtain ⟨hown, hcallback₁, haddr₁⟩ := refuse_own h.indexed hfor hcallback hrefuse
      have hreply : Replies (outputCon ptr src (resetSegment pbuf)) w₁ (src, resetSegment pbuf) :=
        replies_outputCon (by rw [haddr₁, haddr]; rfl) hcallback₁ _
      rw [← hown]
      exact hreply.2 w' hsend
  · rw [if_neg hsyn]
    have hsyn' : (RdpHead.decode pbuf.data).has flagSyn = false := Bool.not_eq_true _ ▸ hsyn
    by_cases heak : (RdpHead.decode pbuf.data).has flagEak = true
    · rw [if_pos heak, if_pos ⟨hsyn', heak⟩]
      exact replies_outputCon hdid hcallback _
    · -- The acknowledgement of a number that was not sent.
      obtain ⟨hack, hnum⟩ := (hcase.resolve_left hsyn).resolve_left heak
      have hboth : ¬ ((RdpHead.decode pbuf.data).has flagSyn = false ∧
          (RdpHead.decode pbuf.data).has flagEak = true) := fun hboth => heak hboth.2
      rw [if_neg heak, if_pos hack, if_neg hnum, if_neg hboth]
      exact replies_outputCon hdid hcallback _

end

/-- A number survives eight bits if it is below 256. -/
theorem lowByte_eq_iff (x : BitVec 32) : (x.setWidth 8).setWidth 32 = x ↔ x < 256 := by
  rw [← BitVec.toNat_inj, BitVec.lt_def]
  simp only [BitVec.toNat_setWidth]
  have hx := x.isLt
  constructor
  · intro h
    show x.toNat < 256
    omega
  · intro h
    have h' : x.toNat < 256 := h
    omega

/-! ### State OPEN -/

/-- The segment that state OPEN sends is longer than a reset. -/
theorem inStateOpen_notReset {r : Members} (h : Started r) {src : Id} {pbuf : Packetbuf}
    {ptr : ConPtr} (hlen : sizeofHead ≤ pbuf.getLen)
    (hlook : r.addr2conn.lookup (addrOf src pbuf) = some ptr) (hsyn : SynInOpen (r.con ptr) pbuf) :
    ¬ Resets r src pbuf := by
  intro hresets
  -- The step returns, since no callback makes a call.
  obtain ⟨r', out, hstep⟩ := (hresets default).1 rfl
  have hout := (hresets default).2 r' out hstep
  obtain ⟨⟨⟨⟩, w⟩, hrun, hend⟩ := bind_eq_ok hstep
  obtain ⟨-, rfl⟩ := Prod.mk.inj (Except.ok.inj hend)
  have haddr := h.indexed.addr_addr hlook
  have hdispatch := inputDgram_con (w := .start r default) hlen hlook
  have hopen : inStateOpen ptr (r.con ptr).addr pbuf (.start r default) = .ok ((), w) := by
    rw [haddr]
    have hstate : (r.con ptr).state = .opened := hsyn.1
    have hrun' := hdispatch.symm.trans hrun
    simp only [World.start, hstate] at hrun'
    exact hrun'
  have hevent := inStateOpen_echo (w := .start r default) hsyn hopen
  have hindex : Indexed (conStep (.start r default) ptr { r.con ptr with state := .closed }
      [(r.con ptr).emit (pbuf.data ++ (openRst (r.con ptr).addr pbuf).encode)]).rdp :=
    h.indexed.setCon rfl rfl
  have hown := (invokeEvent_own hindex rfl hevent).1
  have hecho : ownOut w.out
      = [((r.con ptr).addr.did, pbuf.data ++ (openRst (r.con ptr).addr pbuf).encode)] := hown
  rw [hout] at hecho
  have hseg := congrArg (fun bs : List Byte => bs.length)
    (Prod.mk.inj (List.singleton_inj.mp hecho)).2
  have hlen' : sizeofHead ≤ pbuf.data.length := hlen
  simp only [resetSegment, List.length_append, RdpHead.length_encode, sizeofHead] at hseg hlen'
  omega

/-! ### The law holds where it does -/

section
variable {r : Members} {src : Id} {pbuf : Packetbuf} {ptr : ConPtr}

/-- Only the record of the segment can miss the reset. -/
theorem missesReset_iff (hlook : r.addr2conn.lookup (addrOf src pbuf) = some ptr) :
    MissesReset r src pbuf ↔
      (r.con ptr).state = .synRcvd ∧ (RdpHead.decode pbuf.data).has flagSyn = false ∧
        (RdpHead.decode pbuf.data).has flagEak = true ∧
          256 ≤ (RdpHead.decode pbuf.data).acknum ∨ (r.con ptr).state = .opened := by
  refine ⟨fun ⟨p, hp, hcase⟩ => ?_, fun hcase => ⟨ptr, hlook, hcase⟩⟩
  obtain rfl := Option.some.inj (hlook.symm.trans hp)
  exact hcase

/-- The law without a record, in state CLOSED or LISTEN. -/
theorem resets_noCon (hlen : sizeofHead ≤ pbuf.getLen)
    (hlook : r.addr2conn.lookup (addrOf src pbuf) = none)
    (hrst : (RdpHead.decode pbuf.data).has flagRst = false)
    (hack : (RdpHead.decode pbuf.data).has flagAck = true ∨
      (RdpHead.decode pbuf.data).has flagNul = true) : Resets r src pbuf := by
  refine resets_of_replies fun env => ?_
  cases hport : (r.listeningLeft (addrOf src pbuf).sport).isSome with
  | true =>
    exact (inStateListen_replies rfl hrst hack).congr (inputDgram_listen hlen hlook hport)
  | false =>
    exact (inStateClosed_replies rfl hrst hack).congr (inputDgram_closed hlen hlook hport)

/-- The law in state SYN_RCVD. A number that does not survive eight bits is answered
under another one. -/
theorem resets_synRcvd_iff (h : Started r) (hlen : sizeofHead ≤ pbuf.getLen)
    (hlook : r.addr2conn.lookup (addrOf src pbuf) = some ptr)
    (hstate : (r.con ptr).state = .synRcvd) (hdue : ResetDueIn (r.con ptr) pbuf) :
    Resets r src pbuf ↔ ¬ ((RdpHead.decode pbuf.data).has flagSyn = false ∧
      (RdpHead.decode pbuf.data).has flagEak = true ∧
        256 ≤ (RdpHead.decode pbuf.data).acknum) := by
  have haddr := h.indexed.addr_addr hlook
  have hfor : ForCon r (.arrive src pbuf) ptr pbuf := ⟨src, rfl, hlen, haddr, hlook⟩
  have hreply : ∀ env, Replies (inputDgram src pbuf) (.start r env) _ := fun env => by
    refine (inStateSynRcvd_replies (w := .start r env) h hfor haddr rfl hstate hdue).congr ?_
    rw [inputDgram_con (w := .start r env) hlen hlook]
    show inState (r.con ptr).state ptr _ pbuf _ = _
    rw [hstate]
    rfl
  by_cases heak : (RdpHead.decode pbuf.data).has flagSyn = false ∧
      (RdpHead.decode pbuf.data).has flagEak = true
  · -- The reset has the lowest byte of the number, which is all of it below 256.
    simp only [if_pos heak] at hreply
    have hnum : (rstHead (addrOf src pbuf) (flagRst ||| flagVer)
        (((RdpHead.decode pbuf.data).acknum.setWidth 8).setWidth 32 + 1)).encode
          = resetSegment pbuf ↔ (RdpHead.decode pbuf.data).acknum < 256 := by
      rw [rstHead_eq_reset, ← lowByte_eq_iff]
      exact add_left_inj 1
    constructor
    · rintro hresets ⟨-, -, hle⟩
      refine not_resets_of_replies (hreply default) (fun heq => ?_) hresets
      exact absurd (hnum.mp (Prod.mk.inj heq).2) (BitVec.not_lt.mpr hle)
    · intro hgood
      have hlt : (RdpHead.decode pbuf.data).acknum < 256 :=
        BitVec.not_le.mp fun hle => hgood ⟨heak.1, heak.2, hle⟩
      rw [hnum.mpr hlt] at hreply
      exact resets_of_replies hreply
  · simp only [if_neg heak] at hreply
    refine iff_of_true (resets_of_replies hreply) ?_
    rintro ⟨hsyn, hflag, -⟩
    exact heak ⟨hsyn, hflag⟩

end

/-- Where a reset is due: one goes out with the right number and ports, except for a
selective acknowledgement of a number from 256 on in state SYN_RCVD and for a SYN in state
OPEN. -/
theorem resets_iff {con : ConPtr → RdpCon} {inputs : List (Env × Input)} {r : Members}
    (hrun : run machine (.init con) inputs = .ok r) {src : Id} {pbuf : Packetbuf}
    (hdue : ResetDue r src pbuf) : Resets r src pbuf ↔ ¬ MissesReset r src pbuf := by
  have hr := started_of_run hrun
  obtain ⟨hlen, hdue⟩ := hdue
  cases hlook : r.addr2conn.lookup (addrOf src pbuf) with
  | none =>
    rw [hlook] at hdue
    obtain ⟨hrst, hack⟩ := hdue
    refine iff_of_true (resets_noCon hlen hlook hrst hack) ?_
    rintro ⟨ptr, hptr, -⟩
    rw [hlook] at hptr
    cases hptr
  | some ptr =>
    rw [hlook] at hdue
    have haddr := hr.indexed.addr_addr hlook
    have hdispatch : ∀ env, inputDgram src pbuf (.start r env)
        = inState (r.con ptr).state ptr (addrOf src pbuf) pbuf (.start r env) := fun env =>
      inputDgram_con (w := .start r env) hlen hlook
    rw [missesReset_iff hlook]
    cases hstate : (r.con ptr).state with
    | listen => simp only [ResetDueIn, hstate] at hdue
    | closeWaitPasv => simp only [ResetDueIn, hstate] at hdue
    | closeWaitActive => simp only [ResetDueIn, hstate] at hdue
    | closed =>
      simp only [ResetDueIn, hstate] at hdue
      refine iff_of_true (resets_of_replies fun env => ?_) (by simp)
      refine (inStateClosed_replies rfl hdue.1 hdue.2).congr ?_
      rw [hdispatch, hstate]
      rfl
    | synSent =>
      simp only [ResetDueIn, hstate] at hdue
      obtain ⟨hack, hrst, hnum⟩ := hdue
      refine iff_of_true (resets_of_replies fun env => ?_) (by simp)
      refine (inStateSynSent_replies (w := .start r env) haddr rfl hack hrst hnum).congr ?_
      rw [hdispatch, hstate]
      rfl
    | synRcvd =>
      rw [resets_synRcvd_iff hr hlen hlook hstate hdue]
      simp
    | opened =>
      -- The segment that answers a SYN here is longer than a reset.
      simp only [ResetDueIn, hstate] at hdue
      exact iff_of_false (inStateOpen_notReset hr hlen hlook hdue) (not_not.mpr (Or.inr rfl))

/-- A port that nobody has. -/
theorem resets_iff_closedPort :
    Resets (.init fun _ => default) 1 plainAck ↔
      ¬ MissesReset (.init fun _ => default) 1 plainAck := by
  have hrun : run machine (.init fun _ => default) [] = .ok (.init fun _ => default) := rfl
  exact resets_iff hrun ⟨by decide, by decide, Or.inl (by decide)⟩

/-- A selective acknowledgement of number 1000 from port 200 to port 100, with number 6. -/
def eackTo100 : Packetbuf :=
  incoming ({ flags := flagEak ||| flagAck ||| flagVer, hlen := 10, sport := 200, dport := 100,
              seqnum := 6, acknum := 1000 } : RdpHead).encode (by decide)

/-- After a SYN it is answered with a reset of number 233, and 1001 is due. -/
theorem eack_misses :
    ∃ r, run machine (.init fun _ => default) (acceptSynRun 1) = .ok r ∧ ResetDue r 1 eackTo100 ∧
      ¬ Resets r 1 eackTo100 := by
  have h : (do
      let r ← run machine (.init fun _ => default) (acceptSynRun 1)
      let p ← step r default (.arrive 1 eackTo100)
      return (r.addr2conn.lookup (addrOf 1 eackTo100),
        ((r.con 0).state, (r.con 0).rcvCur, (r.con 0).rcvIrs, (r.con 0).rcvMax),
        decide (ownOut p.2 = [(1, resetSegment eackTo100)])))
      = (.ok (some 0, (.synRcvd, 5, 5, 1024), false) : Except Fault _) := by decide +kernel
  obtain ⟨r, hrun, hrest⟩ := bind_eq_ok h
  obtain ⟨⟨r', out⟩, hstep, hend⟩ := bind_eq_ok hrest
  have hend' := Except.ok.inj hend
  simp only [Prod.mk.injEq] at hend'
  obtain ⟨hlook, ⟨hstate, hcur, hirs, hmax⟩, hout⟩ := hend'
  refine ⟨r, hrun, ⟨by decide, ?_⟩, fun hresets => ?_⟩
  · rw [hlook]
    dsimp only [ResetDueIn, AcceptableInSynRcvd]
    rw [hstate, hcur, hirs, hmax]
    exact ⟨by decide, by decide, by decide, Or.inr (Or.inl (by decide))⟩
  · exact of_decide_eq_false hout ((hresets default).2 r' out hstep)

end Libcage.Proofs.Rdp
