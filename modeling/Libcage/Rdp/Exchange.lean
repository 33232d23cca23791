import Mathlib.Logic.Relation
import Libcage.Rdp.Connection

/-!
# `Libcage.Rdp.Exchange`: two ends of one connection and the network between them

An `End` is the record of one end, the bytes its user got rid of and took in, and
the segments it ever sent. The network delivers any segment that the other end ever
sent, at any time and any number of times, so it may lose, repeat and reorder them.

Each end moves by itself: its user calls `rdp::send` or `rdp::receive`, a segment
arrives in state OPEN, or the timer calls `rdp_con::retransmit` or
`rdp_con::delayed_ack`. Every call has its own clock.
-/

set_option autoImplicit false

namespace Libcage.Rdp

open Libcage.Lib

/-- One end: its record, the bytes that `send` accepted and `receive` returned so
far, and the segments it sent so far. -/
structure End where
  con : RdpCon
  accepted : List Byte
  received : List Byte
  net : List (List Byte)

/-- What an end does next. -/
inductive Act where
  | send (clock : Int) (buf : List Byte)
  | receive (len : Int)
  | arrive (clock : Int) (addr : RdpAddr) (pbuf : Packetbuf)
  | retransmit (clock maxRetrans : Int)
  | delayedAck (clock : Int)

namespace End

/-- The record and the segments after a call. -/
def emits (e : End) (c : RdpCon) (out : List Emitted) : End :=
  { e with con := c, net := e.net ++ out.map Emitted.seg }

/-- One call. `send` accepts as many bytes as it returns. -/
def step (e : End) : Act → Except Fault End
  | .send clock buf => do
      let (total, c, out) ← e.con.send clock buf
      return { e.emits c out with accepted := e.accepted ++ buf.take total.toNat }
  | .receive len =>
      let (dst, c) := e.con.receive len
      .ok { e with con := c, received := e.received ++ dst }
  | .arrive clock addr pbuf => do
      let (c, out, _) ← e.con.inStateOpen clock addr pbuf
      return e.emits c out
  | .retransmit clock maxRetrans => do
      let (_, c, out) ← e.con.retransmit clock maxRetrans
      return e.emits c out
  | .delayedAck clock => do
      let (c, out) ← e.con.delayedAck clock
      return e.emits c out

end End

/-- A record in state OPEN with the default windows and the given initial numbers,
after the handshake. -/
structure Opened (iss irs : BitVec 32) (c : RdpCon) : Prop where
  state : c.state = .opened
  sndMax : c.sndMax = rcvMaxDefault
  rcvMax : c.rcvMax = rcvMaxDefault
  sbufMax : c.sbufMax = sbufLimit
  sndIss : c.sndIss = iss
  sndNxt : c.sndNxt = iss + 1
  sndUna : c.sndUna = iss
  rcvCur : c.rcvCur = irs
  rcvAck : c.rcvAck = irs
  rqueue : c.rqueue = []

/-- An end whose windows were just initialised. -/
def End.start (uninit : Uninit) (c : RdpCon) : End :=
  { con := (c.initRwnd uninit).initSwnd uninit, accepted := [], received := [], net := [] }

/-- What arrives was sent. The room around the data is any. -/
def Act.SentBy (net : List (List Byte)) : Act → Prop
  | .arrive _ _ pbuf => pbuf.data ∈ net
  | _ => True

/-- Both ends. -/
structure Exchange where
  left : End
  right : End

namespace Exchange

/-- One end makes a call. -/
inductive Step (s : Exchange) : Exchange → Prop where
  | left (act : Act) {e : End} (hsent : act.SentBy s.right.net) (hstep : s.left.step act = .ok e) :
      Step s { s with left := e }
  | right (act : Act) {e : End} (hsent : act.SentBy s.left.net)
      (hstep : s.right.step act = .ok e) : Step s { s with right := e }

/-- Fewer than 2^31 segments sent in each direction. -/
def Short (s : Exchange) : Prop :=
  s.left.net.length < 2 ^ 31 ∧ s.right.net.length < 2 ^ 31

/-- Everything that can happen. -/
def Reaches : Exchange → Exchange → Prop := Relation.ReflTransGen Step

/-- Both ends of a fresh connection. -/
def start (uninit uninit' : Uninit) (a b : RdpCon) : Exchange :=
  { left := End.start uninit a, right := End.start uninit' b }

end Exchange

end Libcage.Rdp
