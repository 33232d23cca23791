import Libcage.Cage
import Libcage.Dgram

/-!
# `Libcage.Ping`: pings and their answers

A full row of a routing table pings its front contact. Both networks, `dtun` and `dht`, do it
with the same three templates, each under its own message types. `receive` is what a node
calls for a message that the dispatcher takes for a ping or an answer. It calls nothing for
the pings of `dht`: their types have no case.

The functions return their calls. What `dtun::request` does for a ping whose address is not
known is left out.
-/

set_option autoImplicit false

namespace Libcage

open Libcage.Lib
open Libcage.Rdp (Id)
open Libcage.Dht (Cageaddr Rttable id2i maxEntry)

/-- `node_state`. -/
inductive NodeState where
  | undefined
  | nat
  | cone
  | symmetric
  | global
deriving DecidableEq

/-- The two networks, each with a routing table of its own. -/
inductive Overlay where
  | dtun
  | dht
deriving DecidableEq

/-- What the functions for pings call. -/
inductive PingCall where
  | sendto (d : Datagram)
  | addNode (addr : Cageaddr)
  | recvPingReply (table : Overlay) (src : Cageaddr) (nonce : BitVec 32)
  | request (dst : Cageaddr) (nonce : BitVec 32)
deriving DecidableEq

/-- What they read of a node. -/
structure PingNode where
  id : Id
  state : NodeState
  isDtun : Bool
  peers : Peers

/-- `sizeof(msg_dht_ping)`, and of the three others. -/
def sizeofPing : Nat := 52

/-- A ping or an answer. -/
def pingMsg (type : Byte) (dst src : Id) (nonce : BitVec 32) : List Byte :=
  (sendMsg 0 sizeofPing type dst src).encode ++ wr32 nonce

/-! ### The templates -/

/-- `send_ping_tmpl`. To an address without a socket address, `boost::get` throws. -/
def sendPingTmpl (dst : Cageaddr) (nonce : BitVec 32) (type : Byte) (id : Id) : List PingCall :=
  match sendto (pingMsg type dst.id id nonce) dst with
  | none => []
  | some d => [.sendto d]

/-- `recv_ping_tmpl`. -/
def recvPingTmpl (msg : List Byte) (from_ : Sockaddr) (type : Byte) (id : Id) : List PingCall :=
  let hdr := MsgHdr.decode msg
  if hdr.dst ≠ id then
    []
  else
    [.sendto ⟨from_.1, pingMsg type hdr.src id (rd32 msg sizeofHdr)⟩,
      .addNode (newCageaddr hdr.src from_)]

/-- `recv_ping_reply_tmpl`. -/
def recvPingReplyTmpl (msg : List Byte) (from_ : Sockaddr) (id : Id) (rt : Overlay) :
    List PingCall :=
  let hdr := MsgHdr.decode msg
  if hdr.dst ≠ id then
    []
  else
    [.recvPingReply rt (newCageaddr hdr.src from_) (rd32 msg sizeofHdr),
      .addNode (newCageaddr hdr.src from_)]

/-! ### The two networks -/

/-- `dtun::send_ping`. -/
def Dtun.sendPing (node : PingNode) (dst : Cageaddr) (nonce : BitVec 32) : List PingCall :=
  sendPingTmpl dst nonce typeDtunPing node.id

/-- `dtun::recv_ping`. -/
def Dtun.recvPing (node : PingNode) (msg : List Byte) (from_ : Sockaddr) : List PingCall :=
  if node.state ≠ .global then [] else recvPingTmpl msg from_ typeDtunPingReply node.id

/-- `dtun::recv_ping_reply`. -/
def Dtun.recvPingReply (node : PingNode) (msg : List Byte) (from_ : Sockaddr) : List PingCall :=
  recvPingReplyTmpl msg from_ node.id .dtun

/-- `dht::send_ping`. -/
def Dht.sendPing (node : PingNode) (dst : Cageaddr) (nonce : BitVec 32) : List PingCall :=
  if node.isDtun then
    if node.state = .symmetric ∨ node.state = .undefined ∨ node.state = .nat then
      []
    else
      match node.peers.getAddr dst.id with
      | none => [.request dst nonce]
      | some _ => sendPingTmpl dst nonce typeDhtPing node.id
  else
    sendPingTmpl dst nonce typeDhtPing node.id

/-- `dht::recv_ping`. -/
def Dht.recvPing (node : PingNode) (msg : List Byte) (from_ : Sockaddr) : List PingCall :=
  recvPingTmpl msg from_ typeDhtPingReply node.id

/-- `dht::recv_ping_reply`. -/
def Dht.recvPingReply (node : PingNode) (msg : List Byte) (from_ : Sockaddr) : List PingCall :=
  recvPingReplyTmpl msg from_ node.id .dht

namespace PingNode

/-- `rttable::send_ping` of the table of a network. -/
def sendPing (node : PingNode) : Overlay → Cageaddr → BitVec 32 → List PingCall
  | .dtun => Dtun.sendPing node
  | .dht => Dht.sendPing node

/-- The calls for a message, as far as they are for pings. `cage::udp_receiver` has no call of
`dht::recv_ping` and `dht::recv_ping_reply`. -/
def receive (node : PingNode) (msg : List Byte) (from_ : Sockaddr) : List PingCall :=
  match udpReceiver msg with
  | some .dtunRecvPing => Dtun.recvPing node msg from_
  | some .dtunRecvPingReply => Dtun.recvPingReply node msg from_
  | _ => []

end PingNode

/-! ### The table -/

/-- The call of `send_ping` in the last branch of `rttable::add`. -/
def Dht.Rttable.addPing (t : Rttable) (rnd : List (BitVec 32)) (addr : Cageaddr) :
    Option (Cageaddr × BitVec 32) :=
  let i := id2i t.id addr.id
  let row := t.row i
  if addr.id = t.id ∨ i < 0 ∨ addr.id ∈ t.nodes ∨ (t.table.lookup i).isNone ∨
      (row.any fun a => a.id = addr.id) ∨ row.length < maxEntry ∨ i ∈ t.pingSend then
    none
  else
    match row, Rttable.pickNonce t.pingWait rnd with
    | addrOld :: _, .ok nonce => some (addrOld, nonce)
    | _, _ => none

/-- The messages among the calls. -/
def sends (calls : List PingCall) : List Datagram :=
  calls.filterMap fun
    | .sendto d => some d
    | _ => none

/-- The call of `rttable::recv_ping_reply`, for the table of a network. -/
def replyTo (o : Overlay) (t : Rttable) : PingCall → Except Dht.TableFault Rttable
  | .recvPingReply o' src nonce => if o' = o then t.recvPingReply src nonce else .ok t
  | _ => .ok t

/-- An `add` at the node `a`, and then its timer. Between them the other node gets what `a`
sent, and `a` gets what the other one sent. -/
def exchange (o : Overlay) (a b : PingNode) (fromA fromB : Sockaddr) (t : Rttable)
    (rnd : List (BitVec 32)) (addr : Cageaddr) : Except Dht.TableFault Rttable := do
  let added ← t.add rnd addr
  match t.addPing rnd addr with
  | none => return added
  | some (old, nonce) =>
      let pings := sends (a.sendPing o old nonce)
      let answers := pings.flatMap fun d => sends (b.receive d.msg fromA)
      let calls := answers.flatMap fun d => a.receive d.msg fromB
      let answered ← calls.foldlM (replyTo o) added
      answered.timerPing nonce

end Libcage
