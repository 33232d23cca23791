import Libcage.Dgram

/-!
# `Libcage.Datagrams`: datagrams and the requests for addresses

`Datagrams` is `dgram` with its pools of messages and the ends of the requests for addresses. A
request ends in `request_func` or `find_node_func`, later or while it is made. What else changes
the peers is an event of its own.

Of a pool there is whether it exists, as it is made with the first message of a destination and
erased with the queue.
-/

set_option autoImplicit false

namespace Libcage

open Libcage.Lib
open Libcage.Rdp (Id Table)

/-- What ends a part that goes on in the source. -/
inductive DgramFault where
  | nullAppend
  | nullPool
deriving DecidableEq

/-- How a request for an address ends: in `dgram::request_func` with a result, or in
`dgram::find_node_func`. -/
inductive Completion where
  | request (result : Bool)
  | findNode

/-- The members of `dgram`, and the destinations that have a pool in `m_data_pool`. -/
structure Datagrams where
  dgram : Dgram
  pools : Finset Id

namespace Datagrams

/-- `dgram::dgram`. -/
def init (id : Id) (isDtunEnabled isCallback : Bool) : Datagrams :=
  ⟨⟨id, .init, ∅, ∅, isDtunEnabled, isCallback, [], []⟩, ∅⟩

/-- `dgram::send_queue`. A message is destroyed in its pool. -/
def sendQueue (s : Datagrams) (id : Id) : Except DgramFault Datagrams :=
  match s.dgram.peers.getAddr id with
  | none => .ok { dgram := s.dgram.sendQueue id, pools := s.pools.erase id }
  | some _ =>
      if s.dgram.waiting id ≠ [] ∧ id ∉ s.pools then
        .error .nullPool
      else
        .ok { s with dgram := s.dgram.sendQueue id }

/-- The queue and the pool of a destination are erased. -/
def eraseQueue (s : Datagrams) (id : Id) : Datagrams where
  dgram := { s.dgram with queue := s.dgram.queue.erase id }
  pools := s.pools.erase id

/-- `m_requesting.erase`. -/
def eraseRequesting (s : Datagrams) (id : Id) : Datagrams :=
  { s with dgram := { s.dgram with requesting := s.dgram.requesting.erase id } }

/-- `dgram::request_func::operator()`. -/
def requestFunc (s : Datagrams) (dst : Id) (result : Bool) : Except DgramFault Datagrams := do
  let s ← if result then s.sendQueue dst else .ok (s.eraseQueue dst)
  return s.eraseRequesting dst

/-- `dgram::find_node_func::operator()`. -/
def findNodeFunc (s : Datagrams) (dst : Id) : Except DgramFault Datagrams := do
  let s ← match s.dgram.peers.getAddr dst with
    | some _ => s.sendQueue dst
    | none => .ok (s.eraseQueue dst)
  return s.eraseRequesting dst

/-- The end of a request. -/
def complete (s : Datagrams) (dst : Id) : Completion → Except DgramFault Datagrams
  | .request result => s.requestFunc dst result
  | .findNode => s.findNodeFunc dst

/-- `peers` has other entries. -/
def setPeers (s : Datagrams) (peers : Peers) : Datagrams :=
  { s with dgram := { s.dgram with peers } }

/-- `dgram::request`, and the end of the request where it comes before the call returns, with
the peers that it finds. -/
def request (s : Datagrams) (id : Id) (now : Option (Peers × Completion)) :
    Except DgramFault Datagrams :=
  if id ∈ s.dgram.requesting then
    .ok s
  else
    match s.dgram.peers.getAddr id with
    | some _ => s.sendQueue id
    | none =>
        let s := { s with dgram := { s.dgram with
          requesting := insert id s.dgram.requesting
          asked := s.dgram.asked ++ [id] } }
        match now with
        | none => .ok s
        | some (peers, c) => (s.setPeers peers).complete id c

/-- `dgram::push2queue` of a packet buffer. -/
def push2queue (s : Datagrams) (id : Id) (pbuf : Packetbuf) (src : Id) (type : Byte) :
    Datagrams where
  dgram := s.dgram.push2queue id pbuf src type
  pools := insert id s.pools

/-- The bytes that a constructed packet buffer has place for. -/
def dmax : Nat := pbufSize - pbufDefaultOffset

/-- `dgram::push2queue` of bytes: one packet buffer for each piece. -/
def push2queueBytes (s : Datagrams) (id : Id) (src : Id) :
    List (List Byte) → Except DgramFault Datagrams
  | [] => .ok s
  | piece :: pieces =>
      match Packetbuf.construct.append piece with
      | none => .error .nullAppend
      | some pbuf => (s.push2queue id pbuf src typeDgram).push2queueBytes id src pieces

/-- `dgram::send_dgram` of a packet buffer. -/
def sendPbuf (s : Datagrams) (pbuf : Packetbuf) (id : Id) (type : Byte)
    (now : Option (Peers × Completion)) : Except DgramFault Datagrams :=
  (s.push2queue id pbuf s.dgram.id type).request id now

/-- `dgram::send_dgram` of bytes. -/
def sendBytes (s : Datagrams) (msg : List Byte) (len : Int) (id src : Id)
    (now : Option (Peers × Completion)) : Except DgramFault Datagrams :=
  if len < 0 then
    .ok s
  else do
    let s ← s.push2queueBytes id src (cut dmax (msg.take len.toNat))
    s.request id now

/-- The events. Without a sender of its own, a message is from the node. -/
inductive Input where
  | sendPbuf (pbuf : Packetbuf) (id : Id) (type : Byte) (now : Option (Peers × Completion))
  | sendBytes (msg : List Byte) (len : Int) (id : Id) (src : Option Id)
      (now : Option (Peers × Completion))
  | complete (id : Id) (c : Completion)
  | peers (peers : Peers)

/-- One event. -/
def step (s : Datagrams) : Input → Except DgramFault Datagrams
  | .sendPbuf pbuf id type now => s.sendPbuf pbuf id type now
  | .sendBytes msg len id src now => s.sendBytes msg len id (src.getD s.dgram.id) now
  | .complete id c => s.complete id c
  | .peers peers => .ok (s.setPeers peers)

end Datagrams

end Libcage
