import Libcage.Lib.Run
import Libcage.Dht.StoreRdp

/-!
# `Libcage.Dht.Get`: the values of a key over an RDP connection

The client (`rdp_get_func`) sends a header, the key and a request for the first value. The
server (`rdp_recv_get_func`) answers each request with a header and a value, and the header
with no length ends the exchange. `GetExchange` puts the two together with the packets that
are on their way. An event is the arrival of some of these.

`m_stored` and the clock are read once, when the server has the whole key. The server sees
the stored values of that moment and its time. What the client does after it has closed the
connection is not part of the exchange, and neither is the reset that it sends then.
-/

set_option autoImplicit false

namespace Libcage.Dht

open Libcage.Lib
open Libcage.Rdp (Id)

/-- `dht_get_next`. -/
def dhtGetNext : Byte := 0xc0

/-- `msg_dht_rdp_get`. -/
structure MsgDhtRdpGet where
  id : Id
  keylen : BitVec 16
  reserved : BitVec 16
deriving DecidableEq

/-- `sizeof(msg_dht_rdp_get)`. -/
def sizeofRdpGet : Nat := 24

namespace MsgDhtRdpGet

/-- The header in network byte order. -/
def encode (msg : MsgDhtRdpGet) : List Byte :=
  wr160 msg.id ++ (wr16 msg.keylen ++ wr16 msg.reserved)

/-- The header a cast of the received bytes reads. -/
def decode (bs : List Byte) : MsgDhtRdpGet where
  id := rd160 bs 0
  keylen := rd16 bs 20
  reserved := rd16 bs 22

@[simp] theorem length_encode (msg : MsgDhtRdpGet) : msg.encode.length = sizeofRdpGet := rfl

/-- The header that is read is the one that was written. -/
@[simp] theorem decode_encode (msg : MsgDhtRdpGet) : decode msg.encode = msg := by
  have hid : rd160 msg.encode 0 = msg.id := rd160_wr160_zero _ _
  have hkeylen : rd16 msg.encode 20 = msg.keylen := bytes16 _
  have hreserved : rd16 msg.encode 22 = msg.reserved := bytes16 _
  simp only [decode, hid, hkeylen, hreserved]

end MsgDhtRdpGet

/-- `msg_dht_rdp_get_reply`. -/
structure MsgDhtRdpGetReply where
  valuelen : BitVec 16
  reserved : BitVec 16
deriving DecidableEq

/-- `sizeof(msg_dht_rdp_get_reply)`. -/
def sizeofRdpGetReply : Nat := 4

namespace MsgDhtRdpGetReply

/-- The header in network byte order. -/
def encode (msg : MsgDhtRdpGetReply) : List Byte := wr16 msg.valuelen ++ wr16 msg.reserved

/-- The header a cast of the received bytes reads. -/
def decode (bs : List Byte) : MsgDhtRdpGetReply := ⟨rd16 bs 0, rd16 bs 2⟩

@[simp] theorem length_encode (msg : MsgDhtRdpGetReply) :
    msg.encode.length = sizeofRdpGetReply := rfl

/-- The header that is read is the one that was written. -/
@[simp] theorem decode_encode (msg : MsgDhtRdpGetReply) : decode msg.encode = msg := by
  have hvaluelen : rd16 msg.encode 0 = msg.valuelen := bytes16 _
  have hreserved : rd16 msg.encode 2 = msg.reserved := bytes16 _
  rw [decode, hvaluelen, hreserved]

end MsgDhtRdpGetReply

/-! ### The client -/

/-- `dht::query::query_state`. -/
inductive QueryState where
  | queryHdr
  | queryVal
deriving DecidableEq

/-- The fields of `dht::query` for RDP. The array `val` is the bytes that have been read. -/
structure RdpGet where
  rdpState : QueryState
  vallen : BitVec 16
  val : List Byte
  vset : Finset Buf
deriving DecidableEq

/-- How a function of the loop ends: it waits for more, goes on, or has closed the
connection. -/
inductive Progress where
  | wait
  | next
  | close
deriving DecidableEq

namespace RdpGet

/-- The packets of `dht::rdp_get_func` at the event CONNECTED. -/
def connected (dst : Id) (key : Buf) : List (List Byte) :=
  sendPackets (MsgDhtRdpGet.encode ⟨dst, key.len, 0⟩) ++
    (sendPackets key.1 ++ sendPackets [dhtGetNext])

/-- `dht::rdp_get_func::read_hdr`. -/
def readHdr (q : RdpGet) (rqueue : List (List Byte)) : Progress × RdpGet × List (List Byte) :=
  let (bytes, rqueue) := receive sizeofRdpGetReply rqueue
  if bytes = [] then
    (.wait, q, rqueue)
  else if bytes.length ≠ sizeofRdpGetReply then
    (.close, q, rqueue)
  else
    let msg := MsgDhtRdpGetReply.decode bytes
    let q := { q with rdpState := .queryVal, vallen := msg.valuelen, val := [] }
    if msg.valuelen = 0 then (.close, q, rqueue) else (.next, q, rqueue)

/-- `dht::rdp_get_func::read_val`, with what is sent. -/
def readVal (q : RdpGet) (rqueue : List (List Byte)) :
    Progress × RdpGet × List (List Byte) × List (List Byte) :=
  let (bytes, rqueue) := receive (q.vallen.toNat - q.val.length) rqueue
  if bytes = [] then
    (.wait, q, rqueue, [])
  else
    let q := { q with val := q.val ++ bytes }
    if q.vallen.toNat = q.val.length then
      (.next, { q with vset := insert (Buf.copy q.vallen q.val) q.vset, rdpState := .queryHdr },
        rqueue, sendPackets [dhtGetNext])
    else
      (.next, q, rqueue, [])

/-- One round of the loop. -/
def read (q : RdpGet) (rqueue : List (List Byte)) :
    Progress × RdpGet × List (List Byte) × List (List Byte) :=
  match q.rdpState with
  | .queryHdr =>
      let (progress, q, rqueue) := q.readHdr rqueue
      (progress, q, rqueue, [])
  | .queryVal => q.readVal rqueue

end RdpGet

/-- The query of an open connection, and the packets that have not been read. -/
structure GetClient where
  query : RdpGet
  rqueue : List (List Byte)
  isClosed : Bool

namespace GetClient

/-- The loop of `dht::rdp_get_func::operator()` at the event READY2READ, with what has been
sent so far. -/
def ready2ReadLoop : Nat → GetClient → List (List Byte) →
    Except StoreFault (GetClient × List (List Byte))
  | 0, _, _ => .error .unfinished
  | rounds + 1, s, sent =>
      let (progress, q, rqueue, sent') := s.query.read s.rqueue
      match progress with
      | .wait => .ok ({ s with query := q, rqueue := rqueue }, sent ++ sent')
      | .next => ready2ReadLoop rounds { s with query := q, rqueue := rqueue } (sent ++ sent')
      | .close => .ok (⟨q, [], true⟩, sent ++ sent')

/-- `dht::rdp_get_func::operator()` at the event READY2READ. Every round but the last reads a
packet. -/
def ready2Read (s : GetClient) : Except StoreFault (GetClient × List (List Byte)) :=
  ready2ReadLoop (s.rqueue.length + 1) s []

/-- Packets arrive. A connection that is closed drops them. -/
def arrive (s : GetClient) (packets : List (List Byte)) :
    Except StoreFault (GetClient × List (List Byte)) :=
  if s.isClosed then
    .ok (s, [])
  else
    let s := { s with rqueue := s.rqueue ++ packets }
    if s.rqueue = [] then .ok (s, []) else s.ready2Read

end GetClient

/-! ### The server -/

/-- `dht::rdp_recv_get::rget_state`. -/
inductive RgetState where
  | rgetHdr
  | rgetKey
  | rgetVal
  | rgetEnd
deriving DecidableEq

/-- `dht::rdp_recv_get`. The array `m_key` is the bytes that have been read. -/
structure RdpRecvGet where
  state : RgetState
  id : Id
  keylen : BitVec 16
  key : List Byte
  data : List StoredData

/-- `dht::rdp_recv_get::rdp_recv_get`, at the event ACCEPTED. The id and the length of the
key are left unset. -/
def RdpRecvGet.accepted (id : Id) (keylen : BitVec 16) : RdpRecvGet :=
  ⟨.rgetHdr, id, keylen, [], []⟩

/-- The entry of a connection in `m_rdp_recv_get`, the packets that have not been read, and
`m_stored`. The entry is erased when the connection is closed. -/
structure GetServer where
  entry : Option RdpRecvGet
  rqueue : List (List Byte)
  stored : Stored

namespace GetServer

/-- The connection is closed and its entry erased. -/
def close (s : GetServer) : GetServer := ⟨none, [], s.stored⟩

/-- `dht::rdp_recv_get_func::read_hdr`: whether to go on. -/
def readHdr (rget : RdpRecvGet) (s : GetServer) : Bool × GetServer :=
  let (bytes, rqueue) := receive sizeofRdpGet s.rqueue
  if bytes.length ≠ sizeofRdpGet then
    (false, s.close)
  else
    let msg := MsgDhtRdpGet.decode bytes
    let rget := { rget with state := .rgetKey, id := msg.id, keylen := msg.keylen }
    (true, { s with entry := some rget, rqueue := rqueue })

/-- `dht::rdp_recv_get_func::read_val`. -/
def readVal (now : Int) (rget : RdpRecvGet) (stored : Stored) : RdpRecvGet × Stored :=
  let (stored, data) := stored.readVal now rget.id (Buf.copy rget.keylen rget.key)
  ({ rget with data := rget.data ++ data }, stored)

/-- The loop of `dht::rdp_recv_get_func::read_key`: whether to go on. -/
def readKeyLoop (now : Int) : Nat → RdpRecvGet → GetServer → Except StoreFault (Bool × GetServer)
  | 0, _, _ => .error .unfinished
  | rounds + 1, rget, s =>
      let (bytes, rqueue) := receive (rget.keylen.toNat - rget.key.length) s.rqueue
      if bytes = [] then
        .ok (false, { s with entry := some rget, rqueue := rqueue })
      else
        let rget := { rget with key := rget.key ++ bytes }
        if rget.keylen.toNat = rget.key.length then
          let (rget, stored) := readVal now { rget with state := .rgetVal } s.stored
          .ok (true, ⟨some rget, rqueue, stored⟩)
        else
          readKeyLoop now rounds rget { s with rqueue := rqueue }

/-- What a request is answered with. -/
def reply (rget : RdpRecvGet) : RdpRecvGet × List (List Byte) :=
  match rget.data with
  | [] => ({ rget with state := .rgetEnd }, sendPackets (MsgDhtRdpGetReply.encode ⟨0, 0⟩))
  | it :: data =>
      ({ rget with data := data },
        sendPackets (MsgDhtRdpGetReply.encode ⟨it.value.len, 0⟩) ++ sendPackets it.value.1)

/-- The loop of `dht::rdp_recv_get_func::read_op`, with what has been sent so far. -/
def readOpLoop : Nat → RdpRecvGet → GetServer → List (List Byte) →
    Except StoreFault (GetServer × List (List Byte))
  | 0, _, _, _ => .error .unfinished
  | rounds + 1, rget, s, sent =>
      let (bytes, rqueue) := receive 1 s.rqueue
      if bytes = [] then
        .ok ({ s with entry := some rget, rqueue := rqueue }, sent)
      else if bytes ≠ [dhtGetNext] then
        .ok (s.close, sent)
      else
        let (rget, sent') := reply rget
        readOpLoop rounds rget { s with rqueue := rqueue } (sent ++ sent')

/-- The loop of `dht::rdp_recv_get_func::operator()` at the event READY2READ, with what is
sent. -/
def ready2ReadLoop (now : Int) : Nat → GetServer → Except StoreFault (GetServer × List (List Byte))
  | 0, _ => .error .unfinished
  | rounds + 1, s =>
      match s.entry with
      | none => .error .useAfterErase
      | some rget =>
          match rget.state with
          | .rgetHdr =>
              let (goOn, s) := readHdr rget s
              if goOn then ready2ReadLoop now rounds s else .ok (s, [])
          | .rgetKey => do
              let (goOn, s) ← readKeyLoop now (s.rqueue.length + 1) rget s
              if goOn then ready2ReadLoop now rounds s else return (s, [])
          | .rgetVal => readOpLoop (s.rqueue.length + 1) rget s []
          | .rgetEnd => .ok (s.close, [])

/-- `dht::rdp_recv_get_func::operator()` at the event READY2READ. There is at most one round
for each state. -/
def ready2Read (now : Int) (s : GetServer) : Except StoreFault (GetServer × List (List Byte)) :=
  ready2ReadLoop now 4 s

/-- Packets arrive. A connection that is closed drops them. -/
def arrive (now : Int) (s : GetServer) (packets : List (List Byte)) :
    Except StoreFault (GetServer × List (List Byte)) :=
  if s.entry.isNone then
    .ok (s, [])
  else
    let s := { s with rqueue := s.rqueue ++ packets }
    if s.rqueue = [] then .ok (s, []) else ready2Read now s

end GetServer

/-! ### The two together -/

/-- The two ends of a connection, and the packets on their way in both directions. -/
structure GetExchange where
  client : GetClient
  server : GetServer
  toServer : List (List Byte)
  toClient : List (List Byte)

namespace GetExchange

/-- The connection of a query that has no values yet is open, and the client has sent its
request. -/
def init (id : Id) (key : Buf) (stored : Stored) (query : RdpGet) (uninit : RdpRecvGet) :
    GetExchange where
  client := ⟨{ query with rdpState := .queryHdr, vset := ∅ }, [], false⟩
  server := ⟨some (.accepted uninit.id uninit.keylen), [], stored⟩
  toServer := RdpGet.connected id key
  toClient := []

/-- The first packets on their way arrive. -/
inductive Input where
  | toServer (n : Nat)
  | toClient (n : Nat)

/-- The packets that arrive, at the time `now` if the key is complete with them. -/
def step (now : Int) (s : GetExchange) : Input → Except StoreFault GetExchange
  | .toServer n => do
      let (server, sent) ← s.server.arrive now (s.toServer.take n)
      return { s with
        server := server
        toServer := s.toServer.drop n
        toClient := s.toClient ++ sent }
  | .toClient n => do
      let (client, sent) ← s.client.arrive (s.toClient.take n)
      return { s with
        client := client
        toClient := s.toClient.drop n
        toServer := s.toServer ++ sent }

end GetExchange

end Libcage.Dht
