import Libcage.Msg

/-!
# `Libcage.Natdetector`: what kind of address the node has

`Natdetector` is `natdetector`. An echo that comes back says that the first server can be
reached. Then a packet to another socket of the node shows whether its address is a global
one. Behind a NAT, two servers are sent the same echo, and the ports that they saw tell a cone
NAT from a symmetric one. `timer_nat` tries again every 30 seconds.

`pending` is the nonce of the last echo that was made, and is not a member of the source.
What is sent, and the calls of other parts, are written down in the order they are made. All
addresses that `peers` has are IPv4 ones, as `boost::get` throws for any other. A socket can
always be opened. The setters of the state that only tests call are left out.
-/

set_option autoImplicit false

namespace Libcage

open Libcage.Lib
open Libcage.Rdp (Id Table)
open Libcage.Dht (Saddr)

/-- `type_nat_echo_redirect_reply`. -/
def typeNatEchoRedirectReply : Byte := 0x14

/-- `natdetector::state`. -/
inductive NatState where
  | undefined
  | echoWait1
  | echoRedirectWait
  | global
  | nat
  | echoWait2
  | coneNat
  | symmetricNat
deriving DecidableEq

/-- `natdetector::timer_echo_wait1` and `natdetector::timer_echo_wait2`. -/
inductive EchoTimer where
  | wait1
  | wait2
deriving DecidableEq

/-- `msg_nat_echo_reply`. -/
structure MsgNatEchoReply where
  src : Id
  dst : Id
  nonce : BitVec 32
  domain : BitVec 16
  port : BitVec 16
  addr : BitVec 128
deriving DecidableEq

/-- `sizeof(msg_nat_echo_redirect_reply)`. -/
def sizeofEchoRedirectReply : Nat := 72

/-- An IPv4 address of a peer: the port and the address. -/
abbrev Inet := BitVec 16 × BitVec 32

/-- Its socket address. -/
def Inet.saddr (in_ : Inet) : Saddr := .inet in_.1 in_.2

/-- What the detector sends and calls. -/
inductive NatCall where
  | echo (dst : Saddr) (src : Id) (nonce : BitVec 32)
  | redirect (dst : Saddr) (src server : Id) (nonce : BitVec 32) (port : BitVec 16)
  | joinDht
  | registerNode
deriving DecidableEq

/-- The members of `natdetector`, and the calls. The flag `timerNat` says whether
`m_timer_nat` is set. -/
structure Natdetector where
  id : Id
  isInet6 : Bool
  state : NatState
  globalPort : BitVec 16
  globalAddr : BitVec 128
  timerNat : Bool
  timers : Table (BitVec 32) EchoTimer
  udps : Finset (BitVec 32)
  reply : Table (BitVec 32) (BitVec 16)
  pending : BitVec 32
  calls : List NatCall

namespace Natdetector

/-- `natdetector::natdetector`. -/
def init (id : Id) (isInet6 : Bool) : Natdetector :=
  ⟨id, isInet6, .undefined, 0, 0, false, ∅, ∅, ∅, 0, []⟩

/-- A message is sent, or a function is called. -/
def call (s : Natdetector) (c : NatCall) : Natdetector := { s with calls := s.calls ++ [c] }

/-- `natdetector::timer_echo_wait1::operator()`. -/
def timerEchoWait1 (s : Natdetector) (nonce : BitVec 32) : Natdetector :=
  { s with
    state := .undefined
    timers := s.timers.erase nonce }

/-- `natdetector::timer_echo_wait2::operator()`. -/
def timerEchoWait2 (s : Natdetector) (nonce : BitVec 32) : Natdetector :=
  { s with
    state := .nat
    reply := s.reply.erase nonce
    timers := s.timers.erase nonce }

/-- `natdetector::recv_echo_redirect_reply`. -/
def recvEchoRedirectReply (s : Natdetector) (msg : List Byte) : Natdetector :=
  if s.state ≠ .echoRedirectWait then
    { s with state := .undefined }
  else if rd32 msg 48 ∉ s.udps then
    { s with state := .undefined }
  else
    { s with
      globalPort := rd16 msg 54
      globalAddr := rd32 msg 56 ++ (rd32 msg 60 ++ (rd32 msg 64 ++ rd32 msg 68))
      state := .global }.call .joinDht

/-- `natdetector::udp_receiver::operator()` on a timeout. -/
def receiverTimeout (s : Natdetector) (nonce : BitVec 32) : Natdetector :=
  { s with
    state := .nat
    udps := s.udps.erase nonce }

/-- `natdetector::udp_receiver::operator()` on a packet. -/
def receiverPacket (s : Natdetector) (nonce : BitVec 32) (pbuf : List Byte) : Natdetector :=
  let s :=
    if pbuf.length = sizeofEchoRedirectReply then
      -- With any other type the state is left as it is.
      if (MsgHdr.decode pbuf).type = typeNatEchoRedirectReply then
        s.recvEchoRedirectReply pbuf
      else
        s
    else
      { s with state := .undefined }
  { s with udps := s.udps.erase nonce }

/-- `natdetector::get_echo`, and the echo is sent. There is nowhere to send it to where the
name of the host cannot be resolved. -/
def getEcho (s : Natdetector) (dst : Option Saddr) (nonce : BitVec 32) : Natdetector :=
  let s := { s with
    timers := s.timers.insert nonce .wait1
    state := .echoWait1
    pending := nonce }
  match dst with
  | none => s
  | some dst => s.call (.echo dst s.id nonce)

/-- `natdetector::detect_nat`. -/
def detectNat (s : Natdetector) (dst : Option Saddr) (nonce : BitVec 32) : Natdetector :=
  if s.state ≠ .undefined then s else s.getEcho dst nonce

/-- `natdetector::detect_nat_type`. -/
def detectNatType (s : Natdetector) (saddr1 saddr2 : Saddr) (nonce : BitVec 32) : Natdetector :=
  if s.state ≠ .nat then
    s
  else
    { ((s.call (.echo saddr1 s.id nonce)).call (.echo saddr2 s.id nonce)) with
      timers := s.timers.insert nonce .wait2
      reply := s.reply.insert nonce 0
      state := .echoWait2
      pending := nonce }

/-- `natdetector::recv_echo_reply_wait1`, with the nonce and the port of the new socket. -/
def recvEchoReplyWait1 (s : Natdetector) (reply : MsgNatEchoReply) (from_ : Sockaddr)
    (nonce2 : BitVec 32) (port : BitVec 16) : Natdetector :=
  if (s.timers.lookup reply.nonce).isNone then
    s
  else
    { s with
      timers := s.timers.erase reply.nonce
      udps := insert nonce2 s.udps
      state := .echoRedirectWait }.call (.redirect from_.1 s.id reply.src nonce2 port)

/-- `natdetector::recv_echo_reply_wait2`. -/
def recvEchoReplyWait2 (s : Natdetector) (reply : MsgNatEchoReply) : Natdetector :=
  if (s.timers.lookup reply.nonce).isNone then
    s
  else
    let port := (s.reply.lookup reply.nonce).getD 0
    if port = 0 then
      { s with reply := s.reply.insert reply.nonce reply.port }
    else if port = reply.port then
      { s with
        state := .coneNat
        reply := s.reply.erase reply.nonce
        timers := s.timers.erase reply.nonce }.call .joinDht
    else
      { s with
        state := .symmetricNat
        reply := s.reply.erase reply.nonce
        timers := s.timers.erase reply.nonce }.call .registerNode

/-- `natdetector::recv_echo_reply`. The first half does not leave `echo_wait2`. -/
def recvEchoReply (s : Natdetector) (reply : MsgNatEchoReply) (from_ : Sockaddr)
    (nonce2 : BitVec 32) (port : BitVec 16) : Natdetector :=
  let s := if s.state = .echoWait1 then s.recvEchoReplyWait1 reply from_ nonce2 port else s
  if s.state = .echoWait2 then s.recvEchoReplyWait2 reply else s

/-- `natdetector::recv_echo`: the answer of a server. -/
def recvEcho (id : Id) (src : Id) (nonce : BitVec 32) (from_ : Sockaddr) : MsgNatEchoReply :=
  match from_.1 with
  | .inet port addr => ⟨id, src, nonce, 1, port, addr ++ (0 : BitVec 96)⟩
  | .inet6 port addr => ⟨id, src, nonce, 2, port, addr⟩
  | .loopback => ⟨id, src, nonce, 0, 0, 0⟩

/-- `natdetector::timer_nat::operator()`, with the addresses of the peers, from
`get_first` on. -/
def onTimerNat (s : Natdetector) (peers : List Inet) (nonce : BitVec 32) : Natdetector :=
  if s.state = .global ∨ s.state = .coneNat ∨ s.state = .symmetricNat then
    { s with timerNat := false }
  else if s.state = .echoWait1 ∨ s.state = .echoWait2 ∨ s.state = .echoRedirectWait then
    s
  else
    match peers with
    | [] => s
    | in1 :: rest =>
        if s.state = .undefined then
          s.detectNat (some in1.saddr) nonce
        else
          match rest.find? fun in2 => in1.2 ≠ in2.2 with
          | none => s
          | some in2 => s.detectNatType in1.saddr in2.saddr nonce

/-- `natdetector::detect`, with the address of the host. -/
def detect (s : Natdetector) (host : Option Saddr) (nonce : BitVec 32) : Natdetector :=
  if s.isInet6 then
    { s with state := .global }
  else if s.state = .global ∨ s.state = .coneNat ∨ s.state = .symmetricNat then
    s
  else
    { s.detectNat host nonce with timerNat := true }

/-- The events. -/
inductive Input where
  | detect (host : Option Saddr) (nonce : BitVec 32)
  | detectNat (dst : Option Saddr) (nonce : BitVec 32)
  | detectNatType (saddr1 saddr2 : Saddr) (nonce : BitVec 32)
  | timerNat (peers : List Inet) (nonce : BitVec 32)
  | timerEcho (nonce : BitVec 32)
  | receiverTimeout (nonce : BitVec 32)
  | receiverPacket (nonce : BitVec 32) (pbuf : List Byte)
  | recvEchoReply (reply : MsgNatEchoReply) (from_ : Sockaddr) (nonce2 : BitVec 32)
      (port : BitVec 16)
  | setStateGlobal

/-- The nonce that an event draws is not in use. -/
def Fresh (s : Natdetector) : Input → Prop
  | .detect _ nonce => s.timers.lookup nonce = none
  | .detectNat _ nonce => s.timers.lookup nonce = none
  | .detectNatType _ _ nonce => s.timers.lookup nonce = none
  | .timerNat _ nonce => s.timers.lookup nonce = none
  | .recvEchoReply _ _ nonce2 _ => nonce2 ∉ s.udps
  | _ => True

instance (s : Natdetector) (i : Input) : Decidable (s.Fresh i) := by
  cases i <;> unfold Fresh <;> infer_instance

/-- One event. A timer that is not set and a socket that is not open raise none. -/
def handle (s : Natdetector) : Input → Natdetector
  | .detect host nonce => s.detect host nonce
  | .detectNat dst nonce => s.detectNat dst nonce
  | .detectNatType saddr1 saddr2 nonce => s.detectNatType saddr1 saddr2 nonce
  | .timerNat peers nonce => if s.timerNat then s.onTimerNat peers nonce else s
  | .timerEcho nonce =>
      match s.timers.lookup nonce with
      | none => s
      | some .wait1 => s.timerEchoWait1 nonce
      | some .wait2 => s.timerEchoWait2 nonce
  | .receiverTimeout nonce => if nonce ∈ s.udps then s.receiverTimeout nonce else s
  | .receiverPacket nonce pbuf =>
      -- `udp_callback` does not hand on an empty datagram.
      if nonce ∈ s.udps ∧ pbuf ≠ [] then s.receiverPacket nonce pbuf else s
  | .recvEchoReply reply from_ nonce2 port => s.recvEchoReply reply from_ nonce2 port
  | .setStateGlobal => { s with state := .global }

/-- One event that draws nonces that are not in use. -/
def step (s : Natdetector) (i : Input) : Except Empty Natdetector :=
  if s.Fresh i then .ok (s.handle i) else .ok s

end Natdetector

end Libcage
