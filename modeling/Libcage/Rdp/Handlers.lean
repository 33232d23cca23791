import Mathlib.Algebra.GroupWithZero.Nat
import Libcage.Rdp.Machine

/-!
# `Libcage.Rdp.Handlers`: segments, the timer and runs of `rdp`

The handlers of `rdp::input_dgram`, one for each state, and
`rdp::timer_rdp::operator()`. `step` is one call from outside: of the user, of the
network or of the timer. A run takes one step after the other, each with an `Env`
of its own.
-/

set_option autoImplicit false

namespace Libcage.Rdp

open Libcage.Lib

/-! ### Segments -/

/-- `rdp::in_state_close_wait_active`. -/
def inStateCloseWaitActive (ptr : ConPtr) (addr : RdpAddr) (pbuf : Packetbuf) : M Unit := do
  let w ← get
  let c ← getCon ptr
  let head := RdpHead.decode pbuf.data
  if head.has flagRst ∧ head.has flagFin then
    setCon ptr { c with isRetryRst := false }
    outputCon ptr c.addr.did (rstHead addr (flagFin ||| flagVer) c.sndNxt).encode
  else if head.has flagAck then
    setCon ptr { c with rstTime := timeNull w.env.clock }
    outputCon ptr addr.did (rstHead addr (flagRst ||| flagVer) c.sndNxt).encode
  else
    return

/-- `rdp::in_state_close_wait_pasv`. -/
def inStateCloseWaitPasv (ptr : ConPtr) (addr : RdpAddr) (pbuf : Packetbuf) : M Unit := do
  let w ← get
  let c ← getCon ptr
  let head := RdpHead.decode pbuf.data
  if head.has flagFin then
    setCon ptr { c with isRetryRst := false }
  else if head.has flagRst then
    setCon ptr { c with rstTime := timeNull w.env.clock }
    outputCon ptr c.addr.did (rstHead addr (flagRst ||| flagFin ||| flagVer) c.sndNxt).encode
  else
    return

/-- `rdp::in_state_closed`. -/
def inStateClosed (addr : RdpAddr) (pbuf : Packetbuf) : M Unit := do
  let head := RdpHead.decode pbuf.data
  if head.has flagRst then
    return
  else if head.has flagAck ∨ head.has flagNul then
    output addr.did (rstHead addr (flagRst ||| flagVer) (head.acknum + 1)).encode
  else
    output addr.did
      ({ rstHead addr (flagRst ||| flagAck ||| flagVer) 0 with
          acknum := head.seqnum } : RdpHead).encode

/-- `rdp::in_state_listen`. -/
def inStateListen (addr : RdpAddr) (pbuf : Packetbuf) : M Unit := do
  let head := RdpHead.decode pbuf.data
  if head.has flagRst then
    return
  else if head.has flagAck ∨ head.has flagNul then
    output addr.did (rstHead addr (flagRst ||| flagVer) (head.acknum + 1)).encode
  else if head.has flagSyn ∧ ¬ pbuf.getLen < sizeofSyn then
    let w ← get
    let uninit := w.env.uninit w.rdp.nextPtr
    let iss ← rnd
    let c := ((RdpCon.new uninit).start addr true .synRcvd iss w.env.clock).acceptSyn uninit
      w.env.clock (RdpSyn.decode pbuf.data)
    let desc ← generateDesc
    let ptr ← openCon desc c
    outputCon ptr addr.did (c.synSegment addr (flagSyn ||| flagAck ||| flagVer) c.rcvCur)
  else
    return

/-- `rdp::in_state_syn_sent`, where it takes a SYN. -/
def takeSyn (ptr : ConPtr) (addr : RdpAddr) (pbuf : Packetbuf) : M Unit := do
  let w ← get
  let c ← getCon ptr
  let syn := RdpSyn.decode pbuf.data
  let c := c.acceptSyn (w.env.uninit ptr) w.env.clock syn
  if syn.head.has flagAck then
    setCon ptr { c with sndUna := syn.head.acknum, state := .opened }
    outputCon ptr addr.did (c.ackHead addr).encode
    invokeEvent c.desc 0 .connected
  else
    setCon ptr { c with state := .synRcvd, synTime := timeNull w.env.clock, synTout := 1 }
    outputCon ptr addr.did (c.synSegment addr (flagSyn ||| flagAck ||| flagVer) c.rcvCur)

/-- `rdp::in_state_syn_sent`. -/
def inStateSynSent (ptr : ConPtr) (addr : RdpAddr) (pbuf : Packetbuf) : M Unit := do
  let c ← getCon ptr
  let head := RdpHead.decode pbuf.data
  if head.has flagAck ∧ ¬ head.has flagRst ∧ head.acknum ≠ c.sndIss then
    outputCon ptr addr.did (rstHead addr (flagRst ||| flagVer) (head.acknum + 1)).encode
  else if head.has flagRst then
    if head.has flagAck then
      setCon ptr { c with state := .closed }
      invokeEvent c.desc 0 .refused
    else
      return
  else if head.has flagSyn ∧ ¬ pbuf.getLen < sizeofSyn then
    takeSyn ptr addr pbuf
  else
    return

/-- `rdp::in_state_syn_rcvd` on the data of the segment that opened the
connection. -/
def takeFirstData (ptr : ConPtr) (pbuf : Packetbuf) : M Unit := do
  let head := RdpHead.decode pbuf.data
  if pbuf.getLen > sizeofHead ∨ head.has flagNul then
    if head.dlen.toNat + sizeofHead ≠ pbuf.getLen ∨ head.has flagNul ∧ head.dlen.toNat > 0 then
      return
    else
      onCon ptr fun clock c => do
        let (c', ems) ← c.rwndRecvData clock (pbuf.rmHead sizeofHead) head.seqnum
        return ((), c', ems)
      let c ← getCon ptr
      if c.rqueue ≠ [] then
        invokeEvent c.desc 0 .ready2read
      else
        return
  else
    return

/-- `rdp::in_state_syn_rcvd`, where it takes the acknowledgement of its SYN. -/
def takeAck (ptr : ConPtr) (addr : RdpAddr) (pbuf : Packetbuf) : M Unit := do
  let c ← getCon ptr
  setCon ptr { c with state := .opened }
  if c.isPasv then
    let w ← get
    match w.rdp.listeningLeft addr.sport with
    | some desc =>
        invokeEvent desc c.desc .accepted
        takeFirstData ptr pbuf
    | none => close c.desc
  else
    takeFirstData ptr pbuf

/-- `rdp::in_state_syn_rcvd`, where the connection ends: a passive one goes away, an
active one is closed and raises an event. -/
def refuse (ptr : ConPtr) (event : RdpEvent) : M Unit := do
  let c ← getCon ptr
  if c.isPasv then
    modifyRdp fun r => r.eraseCon c.desc c.addr
  else
    setCon ptr { c with state := .closed }
    invokeEvent c.desc 0 event

/-- `rdp::in_state_syn_rcvd`. -/
def inStateSynRcvd (ptr : ConPtr) (addr : RdpAddr) (pbuf : Packetbuf) : M Unit := do
  let w ← get
  let c ← getCon ptr
  let head := RdpHead.decode pbuf.data
  let seqIrs := head.seqnum - c.rcvIrs
  let rcvMax2 := c.rcvCur + c.rcvMax * 2 - c.rcvIrs
  if head.has flagSyn ∧ head.seqnum = c.rcvCur then
    -- The acknowledgement number is not filled in.
    setCon ptr { c with synTime := timeNull w.env.clock }
    outputCon ptr addr.did (c.synSegment addr (flagAck ||| flagSyn ||| flagVer) 0)
  else if ¬ (0 < seqIrs ∧ seqIrs ≤ rcvMax2) then
    setCon ptr { c with rcvAck := c.rcvCur, ackedTime := w.env.clock }
    outputCon ptr addr.did (c.ackHead addr).encode
  else if head.has flagRst then
    refuse ptr .refused
  else if head.has flagSyn then
    refuse ptr .reset
    outputCon ptr addr.did (rstHead addr (flagRst ||| flagVer) (head.acknum + 1)).encode
  else if head.has flagEak then
    -- The number goes through an `uint8_t`.
    outputCon ptr addr.did
      (rstHead addr (flagRst ||| flagVer) ((head.acknum.setWidth 8).setWidth 32 + 1)).encode
  else if head.has flagAck then
    if head.acknum = c.sndIss then
      takeAck ptr addr pbuf
    else
      outputCon ptr addr.did (rstHead addr (flagRst ||| flagVer) (head.acknum + 1)).encode
  else
    return

/-- `rdp::in_state_open`. What it sends goes to the peer of the record, who sent the
segment. -/
def inStateOpen (ptr : ConPtr) (addr : RdpAddr) (pbuf : Packetbuf) : M Unit := do
  let c ← getCon ptr
  let event ← onCon ptr fun clock c => do
    let (c', ems, event) ← c.inStateOpen clock addr pbuf
    return (event, c', ems)
  match event with
  | some event => invokeEvent c.desc 0 event
  | none => return

/-- `rdp::input_dgram`. -/
def inputDgram (src : Id) (pbuf : Packetbuf) : M Unit := do
  if pbuf.getLen < sizeofHead then
    return
  else
    let head := RdpHead.decode pbuf.data
    let addr : RdpAddr := ⟨src, head.sport, head.dport⟩
    let w ← get
    match w.rdp.addr2conn.lookup addr with
    | some ptr =>
        match (w.rdp.con ptr).state with
        | .closeWaitPasv => inStateCloseWaitPasv ptr addr pbuf
        | .closeWaitActive => inStateCloseWaitActive ptr addr pbuf
        | .synSent => inStateSynSent ptr addr pbuf
        | .synRcvd => inStateSynRcvd ptr addr pbuf
        | .opened => inStateOpen ptr addr pbuf
        | .closed => inStateClosed addr pbuf
        | .listen => return
    | none =>
        if (w.rdp.listeningLeft addr.sport).isSome then
          inStateListen addr pbuf
        else
          inStateClosed addr pbuf

/-! ### The timer -/

/-- The timer on a connection whose handshake is under way. -/
def tickSyn (desc : Int) (ptr : ConPtr) : M (Option (Int × ConPtr)) := do
  let w ← get
  let c ← getCon ptr
  let next := w.rdp.nextEntry desc
  if c.synTout ≥ w.rdp.maxRetrans then
    if c.isPasv then
      modifyRdp fun r => r.eraseCon desc c.addr
    else
      setCon ptr { c with state := .closed }
      invokeEvent desc 0 .failed
  else if timeNull w.env.clock - c.synTime > c.synTout then
    let isRcvd := c.state = .synRcvd
    outputCon ptr c.addr.did
      (c.synSegment c.addr (if isRcvd then flagSyn ||| flagVer ||| flagAck else flagSyn ||| flagVer)
        (if isRcvd then c.rcvCur else 0))
    setCon ptr { c with synTout := c.synTout * 2, synTime := timeNull w.env.clock }
  return next

/-- The timer on a connection that closes. -/
def tickRst (desc : Int) (ptr : ConPtr) : M (Option (Int × ConPtr)) := do
  let w ← get
  let c ← getCon ptr
  let next := w.rdp.nextEntry desc
  if c.rstTout ≥ w.rdp.maxRetrans then
    if c.isClosed then
      modifyRdp fun r => r.eraseCon desc c.addr
    else
      setCon ptr { c with state := .closed }
  else if timeNull w.env.clock - c.rstTime > c.rstTout then
    setCon ptr { c with rstTout := c.rstTout * 2, rstTime := timeNull w.env.clock }
    if c.isRetryRst then
      outputCon ptr c.addr.did
        (rstHead c.addr
          (if c.state = .closeWaitActive then flagRst ||| flagVer
           else flagRst ||| flagFin ||| flagVer)
          c.sndNxt).encode
  return next

/-- The timer on an open connection. -/
def tickOpen (desc : Int) (ptr : ConPtr) : M (Option (Int × ConPtr)) := do
  let w ← get
  let c ← getCon ptr
  let next := w.rdp.nextEntry desc
  let alive ← onCon ptr fun clock c => c.retransmit clock w.rdp.maxRetrans
  if ¬ alive then
    invokeEvent c.desc 0 .broken
  else
    let c ← getCon ptr
    if w.env.clock - c.ackedTime > ackInterval then
      delayedAckCon ptr
  return next

/-- One round of the timer's loop: what it does to the element, and the next one. -/
def tickEntry (desc : Int) (ptr : ConPtr) : M (Option (Int × ConPtr)) := do
  let w ← get
  if w.rdp.desc2conn.lookup desc ≠ some ptr then
    throw .dangling
  else
    match (w.rdp.con ptr).state with
    | .synSent | .synRcvd => tickSyn desc ptr
    | .closeWaitActive | .closeWaitPasv => tickRst desc ptr
    | .opened => tickOpen desc ptr
    | .closed | .listen => return w.rdp.nextEntry desc

/-- The timer's loop. -/
def tickLoop : Nat → Option (Int × ConPtr) → M Unit
  | _, none => return
  | 0, some _ => throw .unfinished
  | fuel + 1, some (desc, ptr) => do
      let next ← tickEntry desc ptr
      tickLoop fuel next

/-- `rdp::timer_rdp::operator()`. A round meets an element once, and callbacks add at
most one element with each call. -/
def tick : M Unit := do
  let w ← get
  tickLoop (w.rdp.desc2conn.entries.length + (w.env.reactions.map List.length).sum + 1)
    w.rdp.beginEntry

/-! ### Runs -/

/-- What comes from outside. -/
inductive Input where
  | call (call : Call)
  | arrive (src : Id) (pbuf : Packetbuf)
  | tick

/-- The handler of an input. -/
def handle : Input → M Unit
  | .call call => runCall call
  | .arrive src pbuf => inputDgram src pbuf
  | .tick => tick

/-- One input: the `rdp` after it and what it sent. -/
def step (r : Members) (env : Env) (input : Input) : Except Fault (Members × List Sent) := do
  let (_, w) ← (handle input).run (.start r env)
  return (w.rdp, w.out)

/-- One input, for runs. -/
def machine (r : Members) (input : Env × Input) : Except Fault Members := do
  let (r', _) ← step r input.1 input.2
  return r'

end Libcage.Rdp
