import Libcage.Cage
import Libcage.Lib.Packets
import Libcage.Packetbuf
import Libcage.Peers

/-!
# `Libcage.Dgram`: datagrams between nodes

`Dgram` is the part of `dgram` that sends: the messages that wait for each destination, and
the destinations whose address is asked for. A message leaves with a header in front of it,
and `sendMsg` drops it where the buffer has no room there. `recvDgram` says what a message
that arrives makes a node call.

What `dtun::request` and `dht::find_node` do is left out. `asked` has the destinations they
were called for.
-/

set_option autoImplicit false

namespace Libcage

open Libcage.Lib
open Libcage.Rdp (Id Table)
open Libcage.Dht (Saddr Cageaddr domainInet domainInet6)

/-- A message on its way to an address. -/
structure Datagram where
  dst : Saddr
  msg : List Byte
deriving DecidableEq

/-- `udphandler::sendto` to the address of a node, where it has one. -/
def sendto (msg : List Byte) (dst : Cageaddr) : Option Datagram :=
  if dst.saddr = .loopback then none else some ⟨dst.saddr, msg⟩

/-- `dgram::send_data`. -/
structure SendData where
  pbuf : Packetbuf
  src : Id
  len : Nat
  type : Byte

/-- The members of `dgram`, and what was sent. -/
structure Dgram where
  id : Id
  peers : Peers
  queue : Table Id (List SendData)
  requesting : Finset Id
  isDtunEnabled : Bool
  isCallback : Bool
  asked : List Id
  sent : List Datagram

/-- What `dgram::recv_dgram` and `proxy::recv_forwarded` call. -/
inductive DgramCall where
  | addNode (addr : Cageaddr)
  | advertiseTo (id : Id) (domain port : BitVec 16) (addr : List Byte)
  | callback (data : List Byte) (src : Id)
  | inputDgram (src : Id) (pbuf : Packetbuf)
  | forwardMsg (msg : List Byte) (from_ : Sockaddr)

/-- The port of a socket address. -/
def sinPort : Saddr → BitVec 16
  | .loopback => 0
  | .inet port _ => port
  | .inet6 port _ => port

/-- The bytes of an IPv4 or IPv6 address. -/
def sinAddr : Saddr → List Byte
  | .loopback => []
  | .inet _ addr => wr32 addr
  | .inet6 _ addr =>
      wr32 (addr.extractLsb' 96 32) ++ (wr32 (addr.extractLsb' 64 32) ++
        (wr32 (addr.extractLsb' 32 32) ++ wr32 (addr.extractLsb' 0 32)))

namespace Dgram

/-! ### Sending -/

/-- `dgram::send_msg`. -/
def sendMsg (data : SendData) (dst : Cageaddr) : Option Datagram :=
  let size := data.len + sizeofHdr
  let hdr := Libcage.sendMsg 0 size data.type dst.id data.src
  match data.pbuf.prepend hdr.encode with
  | none => none
  | some pbuf => sendto (pbuf.view.take size) dst

/-- The messages that wait for a destination. -/
def waiting (s : Dgram) (id : Id) : List SendData := (s.queue.lookup id).getD []

/-- `dgram::send_queue`. -/
def sendQueue (s : Dgram) (id : Id) : Dgram :=
  match s.peers.getAddr id with
  | none => { s with queue := s.queue.erase id }
  | some addr =>
      match s.queue.lookup id with
      | none => s
      | some q =>
          { s with
            queue := s.queue.insert id []
            sent := s.sent ++ q.filterMap (sendMsg · addr) }

/-- `dgram::push2queue` of a packet buffer. -/
def push2queue (s : Dgram) (id : Id) (pbuf : Packetbuf) (src : Id) (type : Byte) : Dgram :=
  { s with queue := s.queue.insert id (s.waiting id ++ [⟨pbuf, src, pbuf.getLen, type⟩]) }

/-- `dgram::request`. -/
def request (s : Dgram) (id : Id) : Dgram :=
  if id ∈ s.requesting then
    s
  else
    match s.peers.getAddr id with
    | some _ => s.sendQueue id
    | none => { s with requesting := insert id s.requesting, asked := s.asked ++ [id] }

/-- `dgram::send_dgram` of a packet buffer. -/
def sendDgram (s : Dgram) (pbuf : Packetbuf) (id : Id) (type : Byte) : Dgram :=
  (s.push2queue id pbuf s.id type).request id

/-! ### Receiving -/

/-- `dgram::recv_dgram`. -/
def recvDgram (s : Dgram) (pbuf : Packetbuf) (from_ : Sockaddr) : List DgramCall :=
  let hdr := MsgHdr.decode pbuf.view
  if hdr.len.toNat ≠ pbuf.getLen then
    []
  else if hdr.dst ≠ s.id then
    [.forwardMsg pbuf.data from_]
  else
    let addr := newCageaddr hdr.src from_
    .addNode addr ::
      ((if s.isDtunEnabled then
          [.advertiseTo addr.id addr.domain (sinPort from_.1) (sinAddr from_.1)]
        else []) ++
      if hdr.type = typeDgram ∧ s.isCallback then
        [.callback (pbuf.data.drop sizeofHdr) hdr.src]
      else if hdr.type = typeRdp then
        [.inputDgram addr.id (pbuf.rmHead sizeofHdr)]
      else [])

end Dgram

end Libcage
