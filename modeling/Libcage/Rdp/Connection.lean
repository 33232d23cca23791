import Libcage.Rdp.Segment

/-!
# `Libcage.Rdp.Connection`: connection records and their windows

`RdpCon` is `rdp_con`, the record of one connection, with the send window
(`swnd` and its three cursors) and the receive window (`rwnd` and its two). The
functions are the members of `rdp_con` that work on the windows, and the parts of
`rdp::send`, `rdp::receive` and `rdp::in_state_open` that touch one record only.

Each function takes the clock where the source calls `time` or `gettimeofday`
and returns the record after the call together with the segments it passed to
`rdp::output`, in order. An emitted segment carries a second value, the `rcv_cur`
of the record at that moment, which no code reads.

C++ behaviour that has no result is a `Fault`: the remainder by a zero window
length, an access through a null buffer pointer or outside a window array, a copy
of negative length. A loop that has no bound in the source runs on fuel here, and
`Fault.unfinished` stands for fuel that ran out.

The cursors are `int` in the source. They are natural numbers here: every
decrement of `m_swnd_used` and `m_rwnd_used` undoes an earlier increment.
-/

set_option autoImplicit false

namespace Libcage.Rdp

open Libcage.Lib

/-- Node ids, `uint160_t`. -/
abbrev Id := BitVec 160

/-- `rdp_event`. -/
inductive RdpEvent where
  | accepted | connected | refused | reset | failed | ready2read | broken
deriving DecidableEq

/-- `rdp_state`. -/
inductive RdpState where
  | closed | listen | synSent | synRcvd | opened | closeWaitPasv | closeWaitActive
deriving DecidableEq, Inhabited

/-- `rdp_addr`: the peer, its port and the local port. -/
structure RdpAddr where
  did : Id
  dport : BitVec 16
  sport : BitVec 16
deriving DecidableEq, Inhabited

/-- What stops the program, or a loop that has not ended yet. -/
inductive Fault where
  | divByZero
  | nullDeref
  | outOfBounds
  | badCopy
  | dangling
  | unfinished
deriving DecidableEq

/-- A slot of the send window, `rdp_con::swnd`. -/
structure Swnd where
  pbuf : Option Packetbuf
  sentTime : Int
  isAcked : Bool
  isSent : Bool
  seqnum : BitVec 32
  rtSec : Int
deriving Inhabited

/-- A slot of the receive window, `rdp_con::rwnd`. -/
structure Rwnd where
  pbuf : Option Packetbuf
  seqnum : BitVec 32
  isUsed : Bool
  isEacked : Bool

/-- `rdp_con`. Times of day are microseconds (`acked_time`), the other times
seconds. -/
structure RdpCon where
  addr : RdpAddr
  desc : Int
  isPasv : Bool
  isClosed : Bool
  state : RdpState
  sbufMax : BitVec 32
  rbufMax : BitVec 32
  sndNxt : BitVec 32
  sndUna : BitVec 32
  sndMax : BitVec 32
  sndIss : BitVec 32
  rcvCur : BitVec 32
  rcvMax : BitVec 32
  rcvIrs : BitVec 32
  rcvAck : BitVec 32
  ackedTime : Int
  synTime : Int
  synTout : Int
  rstTime : Int
  rstTout : Int
  isRetryRst : Bool
  rqueue : List Packetbuf
  swnd : List Swnd
  swndLen : Nat
  swndHead : Nat
  swndUsed : Nat
  swndOstand : Nat
  rwnd : List Rwnd
  rwndLen : Nat
  rwndHead : Nat
  rwndUsed : Nat
deriving Inhabited

/-- A segment handed to `rdp::output`, with the `rcv_cur` its record then had. -/
structure Emitted where
  seg : List Byte
  rcvCur : BitVec 32
deriving DecidableEq

/-- What `new` leaves in the members that no constructor sets. -/
structure Uninit where
  con : RdpCon
  swnd : Nat → Swnd
  rwndSeqnum : Nat → BitVec 32
deriving Inhabited

/-- `time(NULL)`, from the clock in microseconds. -/
def timeNull (clock : Int) : Int := clock / 1000000

/-- `rdp::rcv_max_default`. -/
def rcvMaxDefault : BitVec 32 := 1024

/-- `rdp::rbuf_max_default`. -/
def rbufMaxDefault : BitVec 32 := 1012 - 128

/-- `rdp::sbuf_limit`. -/
def sbufLimit : BitVec 32 := 1012 - 128

/-- `rdp::ack_interval`, in microseconds. -/
def ackInterval : Int := 300000

/-- `MAX_EACK`. -/
def maxEack : Nat := 64

/-- Dereference a packet pointer. -/
def deref (p : Option Packetbuf) : Except Fault Packetbuf :=
  match p with
  | some pbuf => .ok pbuf
  | none => .error .nullDeref

/-- `i % len`. -/
def modLen (i len : Nat) : Except Fault Nat :=
  if len = 0 then .error .divByZero else .ok (i % len)

/-- `if (i >= len) i %= len`. -/
def wrap (i len : Nat) : Except Fault Nat :=
  if i ≥ len then modLen i len else .ok i

namespace RdpCon

/-- `m_swnd[i]`. -/
def swndAt (c : RdpCon) (i : Nat) : Except Fault Swnd :=
  match c.swnd[i]? with
  | some w => .ok w
  | none => .error .outOfBounds

/-- `m_rwnd[i]`. -/
def rwndAt (c : RdpCon) (i : Nat) : Except Fault Rwnd :=
  match c.rwnd[i]? with
  | some w => .ok w
  | none => .error .outOfBounds

/-- Hand a segment to `rdp::output`. -/
def emit (c : RdpCon) (seg : List Byte) : Emitted := ⟨seg, c.rcvCur⟩

/-- `rdp_con::init_rwnd`. -/
def initRwnd (uninit : Uninit) (c : RdpCon) : RdpCon :=
  { c with
    rwndLen := (c.rcvMax * 2).toNat
    rwndHead := 0
    rwndUsed := 0
    rwnd := (List.range (c.rcvMax * 2).toNat).map fun i =>
      { pbuf := none, seqnum := uninit.rwndSeqnum i, isUsed := false, isEacked := false } }

/-- `rdp_con::init_swnd`. The slots have no constructor: only the buffer pointer
is set. -/
def initSwnd (uninit : Uninit) (c : RdpCon) : RdpCon :=
  { c with
    swndLen := (c.sndMax * 4).toNat
    swndHead := 0
    swndUsed := 0
    swndOstand := 0
    swnd := (List.range (c.sndMax * 4).toNat).map fun i => { uninit.swnd i with pbuf := none } }

/-! ### The send window -/

/-- The header `send_ostand_swnd` puts in front of a payload of `len` bytes. -/
def dataHead (c : RdpCon) (len : Nat) : RdpHead where
  flags := flagAck ||| flagVer
  hlen := 10
  sport := c.addr.sport
  dport := c.addr.dport
  dlen := BitVec.ofNat 16 len
  seqnum := c.sndNxt
  acknum := c.rcvCur

/-- The body of the loop of `rdp_con::send_ostand_swnd`: slot `i` goes out as
number `snd_nxt`. -/
def sendSlot (clock : Int) (c : RdpCon) (i : Nat) : Except Fault (RdpCon × Emitted) := do
  let pWnd ← c.swndAt i
  let payload ← deref pWnd.pbuf
  let pbuf ← deref (payload.prepend (c.dataHead payload.getLen).encode)
  let sent : Swnd :=
    { pWnd with pbuf := some pbuf, sentTime := timeNull clock, isSent := true, seqnum := c.sndNxt }
  return ({ c with swnd := c.swnd.set i sent, sndNxt := c.sndNxt + 1 }, c.emit pbuf.data)

/-- The loop of `rdp_con::send_ostand_swnd`, from slot `i` to slot `stop`. -/
def sendOstandLoop (clock : Int) (stop : Nat) :
    Nat → RdpCon → Nat → List Emitted → Except Fault (RdpCon × List Emitted)
  | 0, _, _, _ => .error .unfinished
  | fuel + 1, c, i, out =>
      if i = stop then
        .ok ({ c with swndOstand := i }, out)
      else if c.sndNxt - c.sndUna < c.sndMax then do
        let (c', e) ← c.sendSlot clock i
        let i' ← wrap (i + 1) c.swndLen
        sendOstandLoop clock stop fuel c' i' (out ++ [e])
      else
        .ok ({ c with swndOstand := i }, out)

/-- `rdp_con::send_ostand_swnd`. -/
def sendOstandSwnd (clock : Int) (c : RdpCon) : Except Fault (RdpCon × List Emitted) := do
  let stop ← modLen (c.swndHead + c.swndUsed) c.swndLen
  sendOstandLoop clock stop (c.swndLen + 1) c c.swndOstand []

/-- `rdp_con::enqueue_swnd`. -/
def enqueueSwnd (clock : Int) (c : RdpCon) (pbuf : Packetbuf) :
    Except Fault (Bool × RdpCon × List Emitted) :=
  if c.swndUsed ≥ c.swndLen ∨ c.state ≠ .opened then
    .ok (false, c, [])
  else do
    let pos ← modLen (c.swndHead + c.swndUsed) c.swndLen
    let pWnd ← c.swndAt pos
    let queued : Swnd :=
      { pWnd with pbuf := some pbuf, sentTime := 0, isAcked := false, isSent := false, rtSec := 1 }
    let (c', out) ← sendOstandSwnd clock
      { c with swnd := c.swnd.set pos queued, swndUsed := c.swndUsed + 1 }
    return (true, c', out)

/-- The loop of `rdp_con::recv_ack`, from slot `i` to `m_swnd_ostand`. -/
def recvAckLoop (acknum : BitVec 32) : Nat → RdpCon → Nat → Except Fault (RdpCon × Nat)
  | 0, _, _ => .error .unfinished
  | fuel + 1, c, i =>
      if i = c.swndOstand then
        .ok (c, i)
      else do
        let pWnd ← c.swndAt i
        if pWnd.seqnum - c.sndUna ≤ acknum - c.sndUna then
          let c' :=
            if pWnd.isSent then
              { c with
                swnd := if pWnd.isAcked then c.swnd else c.swnd.set i { pWnd with pbuf := none }
                swndUsed := c.swndUsed - 1 }
            else
              c
          let i' ← wrap (i + 1) c.swndLen
          recvAckLoop acknum fuel c' i'
        else
          return (c, i)

/-- `rdp_con::recv_ack`. -/
def recvAck (clock : Int) (c : RdpCon) (acknum : BitVec 32) :
    Except Fault (RdpCon × List Emitted) := do
  if acknum - c.sndUna < c.sndNxt - c.sndUna then
    let (c', i) ← recvAckLoop acknum (c.swndLen + 1) c c.swndHead
    sendOstandSwnd clock { c' with swndHead := i, sndUna := acknum }
  else
    sendOstandSwnd clock c

/-- The loop of `rdp_con::recv_eack` that removes the head of the window. -/
def eackPopLoop : Nat → RdpCon → Except Fault RdpCon
  | 0, _ => .error .unfinished
  | fuel + 1, c =>
      if c.swndHead = c.swndOstand then
        .ok c
      else do
        let pWnd ← c.swndAt c.swndHead
        if pWnd.isSent && pWnd.isAcked then
          let head ← wrap (c.swndHead + 1) c.swndLen
          eackPopLoop fuel { c with swndHead := head }
        else
          return c

/-- `rdp_con::recv_eack`. -/
def recvEack (c : RdpCon) (eacknum : BitVec 32) : Except Fault RdpCon :=
  if c.swndUsed = 0 then
    .ok c
  else do
    let first ← c.swndAt c.swndHead
    let pos := eacknum - first.seqnum
    if pos.toNat ≥ c.swndLen then
      return c
    else
      let pos ← wrap (pos.toNat + c.swndHead) c.swndLen
      let pWnd ← c.swndAt pos
      let c' :=
        if pWnd.seqnum = eacknum ∧ pWnd.isSent ∧ ¬ pWnd.isAcked then
          { c with swnd := c.swnd.set pos { pWnd with pbuf := none, isAcked := true } }
        else
          c
      eackPopLoop (c'.swndLen + 1) c'

/-- The loop of `rdp_con::retransmit` over `n` more slots from slot `i`. The
result tells whether it ran to its end (`true`) or the pipe broke (`false`). -/
def retransmitLoop (clock maxRetrans : Int) :
    Nat → RdpCon → Nat → List Emitted → Except Fault (Bool × RdpCon × List Emitted)
  | 0, c, _, out => .ok (true, c, out)
  | n + 1, c, i, out => do
      let pWnd ← c.swndAt i
      let i' ← wrap (i + 1) c.swndLen
      if ¬ pWnd.isSent then
        return (true, c, out)
      else if pWnd.isAcked then
        retransmitLoop clock maxRetrans n c i' out
      else if pWnd.rtSec > maxRetrans then
        return (false, { c with state := .closed }, out)
      else if timeNull clock - pWnd.sentTime > pWnd.rtSec then
        let pbuf ← deref pWnd.pbuf
        let again := pbuf.set32 12 c.rcvCur
        let sent : Swnd :=
          { pWnd with pbuf := some again, sentTime := timeNull clock, rtSec := pWnd.rtSec * 2 }
        retransmitLoop clock maxRetrans n { c with swnd := c.swnd.set i sent } i'
          (out ++ [c.emit again.data])
      else
        retransmitLoop clock maxRetrans n c i' out

/-- `rdp_con::retransmit`, up to the event it raises when the pipe broke. -/
def retransmit (clock maxRetrans : Int) (c : RdpCon) :
    Except Fault (Bool × RdpCon × List Emitted) :=
  retransmitLoop clock maxRetrans c.swndUsed c c.swndHead []

/-! ### The receive window -/

/-- The header of a plain acknowledgement `<SEQ=SND.NXT><ACK=RCV.CUR><ACK>`. -/
def ackHead (c : RdpCon) (addr : RdpAddr) : RdpHead where
  flags := flagAck ||| flagVer
  hlen := 10
  sport := addr.sport
  dport := addr.dport
  seqnum := c.sndNxt
  acknum := c.rcvCur

/-- The scanning loop of `rdp_con::delayed_ack`: `i` used slots seen, the numbers
in `seqs` collected, `idx` the next slot. -/
def eackScanLoop : Nat → RdpCon → Nat → Nat → List (BitVec 32) →
    Except Fault (RdpCon × List (BitVec 32))
  | 0, _, _, _, _ => .error .unfinished
  | fuel + 1, c, idx, i, seqs =>
      if i < c.rwndUsed ∧ seqs.length < maxEack then do
        let w ← c.rwndAt idx
        let idx' ← wrap (idx + 1) c.rwndLen
        if w.isUsed then
          if w.isEacked then
            eackScanLoop fuel c idx' (i + 1) seqs
          else
            eackScanLoop fuel { c with rwnd := c.rwnd.set idx { w with isEacked := true } } idx'
              (i + 1) (seqs ++ [w.seqnum])
        else
          eackScanLoop fuel c idx' i seqs
      else
        .ok (c, seqs)

/-- The acknowledgement with the collected numbers. Without any it is a plain
one. -/
def eackSegment (c : RdpCon) (seqs : List (BitVec 32)) : List Byte :=
  let ack := c.ackHead c.addr
  if seqs = [] then
    ack.encode
  else
    ({ ack with
        flags := ack.flags ||| flagEak
        hlen := ack.hlen + BitVec.ofNat 8 (4 * seqs.length / 2) } : RdpHead).encode ++ wr32s seqs

/-- `rdp_con::delayed_ack`. -/
def delayedAck (clock : Int) (c : RdpCon) : Except Fault (RdpCon × List Emitted) := do
  let (c', seqs) ← eackScanLoop (c.rwndLen + 1) c c.rwndHead 0 []
  if c'.rcvCur = c'.rcvAck ∧ seqs = [] then
    return (c', [])
  else
    return ({ c' with rcvAck := c'.rcvCur, ackedTime := clock }, [c'.emit (c'.eackSegment seqs)])

/-- The loop of `rdp_con::rwnd_recv_data` that removes the head of the window. -/
def rwndPopLoop : Nat → RdpCon → Except Fault RdpCon
  | 0, _ => .error .unfinished
  | fuel + 1, c => do
      let w ← c.rwndAt c.rwndHead
      if w.isUsed then
        let pbuf ← deref w.pbuf
        let head ← wrap (c.rwndHead + 1) c.rwndLen
        rwndPopLoop fuel { c with
          rcvCur := c.rcvCur + 1
          rqueue := if pbuf.getLen > 0 then c.rqueue ++ [pbuf] else c.rqueue
          rwnd := c.rwnd.set c.rwndHead { w with pbuf := none, isUsed := false, isEacked := false }
          rwndUsed := c.rwndUsed - 1
          rwndHead := head }
      else
        return c

/-- `rdp_con::rwnd_recv_data`. -/
def rwndRecvData (clock : Int) (c : RdpCon) (pbuf : Packetbuf) (seqnum : BitVec 32) :
    Except Fault (RdpCon × List Emitted) :=
  let seqCur := seqnum - c.rcvCur
  if ¬ (0 < seqCur ∧ seqCur.toNat ≤ c.rwndLen) then
    .ok (c, [])
  else do
    let idx ← wrap (c.rwndHead + seqCur.toNat - 1) c.rwndLen
    let w ← c.rwndAt idx
    let c₁ :=
      if w.isUsed then
        c
      else
        { c with
          rwnd := c.rwnd.set idx
            { pbuf := some pbuf, seqnum := seqnum, isUsed := true, isEacked := false }
          rwndUsed := c.rwndUsed + 1 }
    let c₂ ← rwndPopLoop (c₁.rwndLen + 1) c₁
    if c₂.rcvCur - c₂.rcvAck > c₂.rcvMax / 4 ∨ pbuf.getLen = 0 then
      delayedAck clock c₂
    else
      return (c₂, [])

/-! ### User data -/

/-- The loop of `rdp::send` over the bytes that are left. The result is the
number of bytes enqueued. -/
def sendLoop (clock : Int) : Nat → RdpCon → List Byte → Nat → List Emitted →
    Except Fault (Nat × RdpCon × List Emitted)
  | 0, _, _, _, _ => .error .unfinished
  | fuel + 1, c, buf, total, out => do
      -- The difference is unsigned and becomes an `int`.
      let dmax : Int := (c.sbufMax - BitVec.ofNat 32 sizeofHead).toInt
      let size : Int := if (buf.length : Int) < dmax then buf.length else dmax
      if size < 0 then
        throw .badCopy
      let pbuf ← deref (Packetbuf.construct.append (buf.take size.toNat))
      let (done, c', out') ← c.enqueueSwnd clock pbuf
      if ¬ done then
        return (total, c', out ++ out')
      else if buf.length = size.toNat then
        return (total + size.toNat, c', out ++ out')
      else
        sendLoop clock fuel c' (buf.drop size.toNat) (total + size.toNat) (out ++ out')

/-- `rdp::send` on the record of its descriptor. Each round of the loop fills one
slot of the window, so the free slots bound their number. -/
def send (clock : Int) (c : RdpCon) (buf : List Byte) :
    Except Fault (Int × RdpCon × List Emitted) :=
  if c.state ≠ .opened then
    .ok (-1, c, [])
  else if buf = [] then
    .ok (0, c, [])
  else do
    let (total, c', out) ← sendLoop clock (c.swndLen - c.swndUsed + 1) c buf 0 []
    return (total, c', out)

/-- The loop of `rdp::receive` over the read queue, into a buffer of `len`
bytes. -/
def receiveLoop (len : Int) : List Packetbuf → List Byte → List Byte × List Packetbuf
  | [], dst => (dst, [])
  | pbuf :: rqueue, dst =>
      if (dst.length : Int) + pbuf.getLen > len then
        (dst, pbuf :: rqueue)
      else
        receiveLoop len rqueue (dst ++ pbuf.data)

/-- `rdp::receive` on the record of its descriptor: the bytes copied out. -/
def receive (c : RdpCon) (len : Int) : List Byte × RdpCon :=
  let (dst, rqueue) := receiveLoop len c.rqueue []
  (dst, { c with rqueue := rqueue })

/-! ### Segments in state OPEN -/

/-- The EACK loop of `rdp::in_state_open`: number `i` of the `uint32_t` array
behind the header, for `n` more entries. -/
def eackLoop (view : List Byte) : Nat → Nat → RdpCon → Except Fault RdpCon
  | 0, _, c => .ok c
  | n + 1, i, c => do
      let c' ← c.recvEack (rd32 view (sizeofHead + 4 * i))
      eackLoop view n (i + 1) c'

/-- The number of entries `rdp::in_state_open` reads behind a header, in 8-bit
arithmetic. -/
def eackCount (hlen : Byte) : Nat := ((hlen - BitVec.ofNat 8 (sizeofHead / 2)) / 2).toNat

/-- `rdp::in_state_open`, up to the event it raises last. -/
def inStateOpen (clock : Int) (c : RdpCon) (addr : RdpAddr) (pbuf : Packetbuf) :
    Except Fault (RdpCon × List Emitted × Option RdpEvent) :=
  let head := RdpHead.decode pbuf.data
  let seq := head.seqnum
  if seq - c.rcvCur - 1 ≥ c.rcvMax * 2 then
    .ok ({ c with rcvAck := c.rcvCur, ackedTime := clock },
      [c.emit (c.ackHead addr).encode], none)
  else if head.has flagRst then do
    let (c', out) ← c.delayedAck clock
    let rst : RdpHead :=
      { flags := flagRst ||| flagFin ||| flagVer, hlen := 10, sport := addr.sport,
        dport := addr.dport, seqnum := c'.sndNxt }
    return ({ c' with state := .closeWaitPasv, rstTime := timeNull clock, rstTout := 1,
                      isRetryRst := true },
      out ++ [c'.emit rst.encode], some .reset)
  else if head.has flagNul then
    if pbuf.getLen ≠ sizeofHead then
      .ok (c, [], none)
    else do
      let (c', out) ← c.rwndRecvData clock (pbuf.rmHead pbuf.getLen) seq
      return (c', out, none)
  else if head.has flagSyn then do
    let rst : RdpHead :=
      { flags := flagRst ||| flagVer, hlen := 10, sport := addr.sport, dport := addr.dport,
        seqnum := head.acknum + 1 }
    -- The reply is appended to the received packet, and that packet is sent.
    let pbuf' ← deref (pbuf.append rst.encode)
    return ({ c with state := .closed }, [c.emit pbuf'.data], some .reset)
  else do
    let (c₁, out₁) ← if head.has flagAck then c.recvAck clock head.acknum else pure (c, [])
    let c₂ ← if head.has flagEak then eackLoop pbuf.view (eackCount head.hlen) 0 c₁ else pure c₁
    let hlen := head.hlen.toNat * 2
    if head.dlen.toNat > 0 ∧ head.dlen.toNat + hlen = pbuf.getLen then
      let (c₃, out₃) ← c₂.rwndRecvData clock (pbuf.rmHead hlen) seq
      return (c₃, out₁ ++ out₃, if c₃.rqueue ≠ [] then some .ready2read else none)
    else
      return (c₂, out₁, none)

end RdpCon

end Libcage.Rdp
