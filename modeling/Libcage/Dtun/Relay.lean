import Libcage.Dht.FindValueReply
import Libcage.Dtun.Register
import Libcage.Dtun.Request
import Libcage.Lib.Network
import Libcage.Proxy.Register

/-!
# `Libcage.Dtun.Relay`: how a request comes to its node

A `msg_dtun_request` goes to a global node that the other node is registered with. It answers
for itself (`recvRequest`), or sends a `msg_dtun_request_by` with the address of the sender to
the address that is registered. There `recvRequestBy` answers the sender, for the node itself or
for a client of its proxy.

`Relay` is a node with all that takes part in this, and `Relay.party` the network of them. A
message says what is in it after the header, and the `len` of a `msg_dtun_request_by` is that of
its bytes.
-/

set_option autoImplicit false

namespace Libcage.Dtun

open Libcage.Lib
open Libcage.Rdp (Id Table)
open Libcage.Dht (Saddr Cageaddr domainInet domainInet6 sizeofInet sizeofInet6)

/-- `msg_dtun_request`. -/
structure MsgDtunRequest where
  src : Id
  dst : Id
  nonce : BitVec 32
  id : Id
deriving DecidableEq

/-- `msg_dtun_request_by`. The address is a `msg_inet` or a `msg_inet6`. -/
structure MsgDtunRequestBy where
  src : Id
  dst : Id
  nonce : BitVec 32
  domain : BitVec 16
  addr : List Byte
deriving DecidableEq

deriving instance DecidableEq for RequestReply

/-- The messages of a request. A ping has the type `type_undefined`. -/
inductive RelayMsg where
  | ping (src dst : Id)
  | request (req : MsgDtunRequest)
  | requestBy (req : MsgDtunRequestBy)
  | requestReply (reply : RequestReply)
deriving DecidableEq

namespace RegisteredNodes

/-- The `msg_dtun_request_by` with the address of a sender. -/
def requestBy (own : Id) (addr reg : Cageaddr) (nonce : BitVec 32) :
    Option (Saddr × RelayMsg) :=
  let req (domain : BitVec 16) (min : List Byte) : Saddr × RelayMsg :=
    (reg.saddr, .requestBy ⟨own, reg.id, nonce, domain, min⟩)
  if addr.domain = domainInet then
    addr.msgInet.map (req domainInet)
  else if addr.domain = domainInet6 then
    addr.msgInet6.map (req domainInet6)
  else
    none

/-- `dtun::recv_request`: the node afterwards, and what it sends. -/
def recvRequest (s : RegisteredNodes) (isGlobal : Bool) (now : Int) (req : MsgDtunRequest)
    (from_ : Sockaddr) : Except PeersFault (RegisteredNodes × Option (Saddr × RelayMsg)) :=
  if ¬ isGlobal then
    .ok (s, none)
  else if req.dst ≠ s.id then
    .ok (s, none)
  else do
    let addr := newCageaddr req.src from_
    let (_, peers) ← s.peers.addNode now addr 0
    let s := { s with peers }
    if req.id = s.id then
      return (s, some (from_.1, .requestReply ⟨s.id, req.src, req.nonce⟩))
    else
      match s.registeredNodes.lookup req.id with
      | none => return (s, none)
      | some reg =>
          if reg.addr.domain ≠ addr.domain then
            return (s, none)
          else
            return (s, requestBy s.id addr reg.addr req.nonce)

end RegisteredNodes

/-- The sender of a request, as a `msg_dtun_request_by` names it, where the message is as long
as it should be. -/
def MsgDtunRequestBy.sender (req : MsgDtunRequestBy) : Option Cageaddr :=
  if req.domain = domainInet then
    if sizeofInet ≠ req.addr.length then
      none
    else
      some ⟨rd160 req.addr 8, .inet (rd16 req.addr 0) (rd32 req.addr 4)⟩
  else if req.domain = domainInet6 then
    if sizeofInet6 ≠ req.addr.length then
      none
    else
      let addr : BitVec 128 := rd32 req.addr 4 ++ (rd32 req.addr 8 ++
        (rd32 req.addr 12 ++ rd32 req.addr 16))
      some ⟨rd160 req.addr 20, .inet6 (rd16 req.addr 0) addr⟩
  else
    none

/-- `dtun::recv_request_by`: what a node sends that is the proxy of some clients. -/
def recvRequestBy (own : Id) (isRegistered : Id → Bool) (req : MsgDtunRequestBy) :
    Option (Saddr × RelayMsg) :=
  if req.dst ≠ own ∧ ¬ isRegistered req.dst then
    none
  else
    let src := if req.dst ≠ own then req.dst else own
    req.sender.map fun addr => (addr.saddr, .requestReply ⟨src, addr.id, req.nonce⟩)

/-- What stops the program. -/
inductive RelayFault where
  | request (e : RequestFault)
  | peers (e : PeersFault)
deriving DecidableEq

/-- A node that makes requests, has nodes registered with it, and is the proxy of some clients.
`asked` are the ids that were asked for, one for each request, and `relayed` the messages that
were sent for others. -/
structure Relay where
  isGlobal : Bool
  requests : Requests
  nodes : RegisteredNodes
  clients : Proxy.RegisteredClients
  asked : List Id
  relayed : List (Saddr × RelayMsg)

/-- What happens on a node, but for the messages of requests. -/
inductive RelayInput where
  | natState (isGlobal : Bool)
  | requests (i : Requests.Input)
  | nodes (i : RegisteredNodes.Input)
  | clients (i : Proxy.RegisteredClients.Input)

namespace Relay

/-- A node that has just been started. -/
def init (id : Id) (isEnabled : Bool) (peers : Peers) : Relay :=
  ⟨false, .init id isEnabled, .init id peers, .init id, [], []⟩

/-- The messages that a node has sent. -/
def sentMsg (own : Id) : RequestSent → Saddr × RelayMsg
  | .ping dst saddr => (saddr, .ping own dst)
  | .request dst id nonce saddr => (saddr, .request ⟨own, dst, nonce, id⟩)

def sent (s : Relay) : List (Saddr × RelayMsg) :=
  s.requests.sent.map (sentMsg s.requests.id) ++ s.relayed

/-- What was asked for, after an event of the requests. -/
def askedAfter (s : Relay) (requests : Requests) : Requests.Input → List Id
  | .request dst .. => if s.requests.made < requests.made then s.asked ++ [dst] else s.asked
  | _ => s.asked

/-- An event of the requests. -/
def requestStep (s : Relay) (i : Requests.Input) : Except RelayFault Relay := do
  let requests ← (s.requests.step i).mapError .request
  return { s with requests, asked := s.askedAfter requests i }

/-- A reply comes as a message only. -/
def IsReply : Requests.Input → Prop
  | .requestReply .. => True
  | _ => False

instance : DecidablePred IsReply
  | .requestReply .. => inferInstanceAs (Decidable True)
  | .setEnabled .. => inferInstanceAs (Decidable False)
  | .request .. => inferInstanceAs (Decidable False)
  | .lookupEnds .. => inferInstanceAs (Decidable False)
  | .timerRequest .. => inferInstanceAs (Decidable False)

/-- One event on the node. -/
def act (s : Relay) : RelayInput → Except RelayFault Relay
  | .natState isGlobal => .ok { s with isGlobal }
  | .requests i => if IsReply i then .ok s else s.requestStep i
  | .nodes i => do
      let nodes ← (s.nodes.step i).mapError .peers
      return { s with nodes }
  | .clients (.recvRegister now reg from_) =>
      .ok { s with clients := s.clients.recvRegister now reg from_ }
  | .clients (.refresh now) => .ok { s with clients := s.clients.refresh now }

/-- A message comes. -/
def recv (s : Relay) (from_ : Sockaddr × Int) : RelayMsg → Except RelayFault Relay
  | .ping .. => .ok s
  | .request req => do
      let (nodes, out) ← (s.nodes.recvRequest s.isGlobal from_.2 req from_.1).mapError .peers
      return { s with nodes, relayed := s.relayed ++ out.toList }
  | .requestBy req =>
      .ok { s with
        relayed := s.relayed ++ (recvRequestBy s.nodes.id s.clients.isRegistered req).toList }
  | .requestReply reply => s.requestStep (.requestReply reply from_.1.1)

/-- The program of the nodes. A message is told the address it comes from, and the time. -/
def party : Party Relay RelayFault RelayInput (Saddr × RelayMsg) (Sockaddr × Int) where
  act := act
  recv s a p := s.recv a p.2
  sent := sent

/-- A message comes to the node that its address belongs to, from an address of its sender. -/
def Reach {ν : Type} (owner : Saddr → Option ν) (src : ν) (p : Saddr × RelayMsg) (dst : ν)
    (a : Sockaddr × Int) : Prop :=
  owner p.1 = some dst ∧ owner a.1.1 = some src

instance {ν : Type} [DecidableEq ν] (owner : Saddr → Option ν) (src : ν) (p : Saddr × RelayMsg)
    (dst : ν) (a : Sockaddr × Int) : Decidable (Reach owner src p dst a) := by
  unfold Reach
  infer_instance

end Relay

end Libcage.Dtun
