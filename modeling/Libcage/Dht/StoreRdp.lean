import Libcage.Lib.Bytes
import Libcage.Lib.Packets
import Libcage.Lib.Run
import Libcage.Dht.Store

/-!
# `Libcage.Dht.StoreRdp`: a store over an RDP connection

`StoreFunc.connected` is what `rdp_store_func` sends when its connection is open: a header,
the key and the value. Each call of `rdp::send` starts a new packet. `ready2Read` is what
`rdp_recv_store_func` does with the packets that have come, and `arrive` is one or more of
them coming, with the event that follows. `connection` is all that happens on a connection.
The times of the last activity, which only `sweep_rdp` reads, are left out.
-/

set_option autoImplicit false

namespace Libcage.Dht

open Libcage.Lib
open Libcage.Rdp (Id Table)

/-- The data of a segment to a peer with the default buffers, `sbuf_max - sizeof(rdp_head)`. -/
def segmentData : Nat := 884 - 20

/-- The packets of one `rdp::send`. -/
def sendPackets (bytes : List Byte) : List (List Byte) := cut segmentData bytes

/-- `msg_dht_rdp_store`. -/
structure MsgDhtRdpStore where
  id : Id
  origin : Id
  keylen : BitVec 16
  valuelen : BitVec 16
  ttl : BitVec 16
  flags : BitVec 8
  reserved : BitVec 8
deriving DecidableEq

/-- `sizeof(msg_dht_rdp_store)`. -/
def sizeofRdpStore : Nat := 48

namespace MsgDhtRdpStore

/-- The header in network byte order. -/
def encode (msg : MsgDhtRdpStore) : List Byte :=
  wr160 msg.id ++ (wr160 msg.origin ++ (wr16 msg.keylen ++ (wr16 msg.valuelen ++
    (wr16 msg.ttl ++ [msg.flags, msg.reserved]))))

/-- The header a cast of the received bytes reads. -/
def decode (bs : List Byte) : MsgDhtRdpStore where
  id := rd160 bs 0
  origin := rd160 bs 20
  keylen := rd16 bs 40
  valuelen := rd16 bs 42
  ttl := rd16 bs 44
  flags := byteAt bs 46
  reserved := byteAt bs 47

@[simp] theorem length_encode (msg : MsgDhtRdpStore) : msg.encode.length = sizeofRdpStore := rfl

/-- The header that is read is the one that was written. -/
@[simp] theorem decode_encode (msg : MsgDhtRdpStore) : decode msg.encode = msg := by
  have hid : rd160 msg.encode 0 = msg.id := rd160_wr160_zero _ _
  have horigin : rd160 msg.encode 20 = msg.origin := rd160_wr160 (wr160 msg.id) _ _
  have hkeylen : rd16 msg.encode 40 = msg.keylen :=
    rd16_wr16 (wr160 msg.id ++ wr160 msg.origin) _ _
  have hvaluelen : rd16 msg.encode 42 = msg.valuelen :=
    rd16_wr16 (wr160 msg.id ++ (wr160 msg.origin ++ wr16 msg.keylen)) _ _
  have httl : rd16 msg.encode 44 = msg.ttl :=
    rd16_wr16 (wr160 msg.id ++ (wr160 msg.origin ++ (wr16 msg.keylen ++ wr16 msg.valuelen))) _ _
  simp only [decode, hid, horigin, hkeylen, hvaluelen, httl]
  rfl

end MsgDhtRdpStore

/-- The header of a store. -/
def StoreFunc.header (func : StoreFunc) : MsgDhtRdpStore where
  id := func.id
  origin := func.origin
  keylen := func.key.len
  valuelen := func.value.len
  ttl := func.ttl
  flags := if func.isUnique then dhtFlagUnique else 0
  reserved := 0

/-- `dht::rdp_store_func` at the event CONNECTED: the packets that it sends. -/
def StoreFunc.connected (func : StoreFunc) : List (List Byte) :=
  sendPackets func.header.encode ++ (sendPackets func.key.1 ++ sendPackets func.value.1)

/-- `dht::rdp_recv_store`. The arrays are the bytes that have been read. -/
structure RecvStore where
  keylen : BitVec 16
  valuelen : BitVec 16
  ttl : BitVec 16
  key : List Byte
  value : List Byte
  id : Id
  src : Id
  isHdrRead : Bool
  isUnique : Bool
deriving DecidableEq

/-- `dht::rdp_recv_store::rdp_recv_store`, at the event ACCEPTED. The flag is left unset. -/
def RecvStore.accepted (did : Id) (uninit : Bool) : RecvStore where
  keylen := 0
  valuelen := 0
  ttl := 0
  key := []
  value := []
  id := 0
  src := did
  isHdrRead := false
  isUnique := uninit

/-- The record of `m_rdp_recv_store` with its buffers filled. -/
def RecvStore.finished (rs : RecvStore) : RdpRecvStore where
  key := Buf.copy rs.keylen rs.key
  value := Buf.copy rs.valuelen rs.value
  ttl := rs.ttl
  id := rs.id
  src := rs.src
  isUnique := rs.isUnique

/-- The entry of a connection in `m_rdp_recv_store`, the packets that have not been read, and
`m_stored`. -/
structure RecvState where
  entry : Option RecvStore
  rqueue : List (List Byte)
  stored : Stored

/-- `dht::rdp_recv_store_func::read_hdr`: whether to go on. -/
def readHdr (rs : RecvStore) (s : RecvState) : Except StoreFault (Bool × RecvState) :=
  let (bytes, rqueue) := receive sizeofRdpStore s.rqueue
  if bytes.length ≠ sizeofRdpStore then
    -- The entry is erased, and the result `-1` makes the caller go on with it.
    .error .useAfterErase
  else
    let msg := MsgDhtRdpStore.decode bytes
    if msg.keylen = 0 ∨ msg.valuelen = 0 then
      .ok (false, { s with entry := none, rqueue := rqueue })
    else
      let rs := { rs with
        keylen := msg.keylen
        valuelen := msg.valuelen
        ttl := msg.ttl
        id := msg.id
        src := msg.origin
        isHdrRead := true
        isUnique := if msg.flags &&& dhtFlagUnique ≠ 0 then true else rs.isUnique }
      .ok (true, { s with entry := some rs, rqueue := rqueue })

/-- `dht::rdp_recv_store_func::read_body`: whether to go on. -/
def readBody (now : Int) (rs : RecvStore) (s : RecvState) : Except StoreFault (Bool × RecvState) :=
  if rs.key.length < rs.keylen.toNat then
    let (bytes, rqueue) := receive (rs.keylen.toNat - rs.key.length) s.rqueue
    if bytes = [] then
      .ok (false, { s with rqueue := rqueue })
    else
      .ok (true, { s with entry := some { rs with key := rs.key ++ bytes }, rqueue := rqueue })
  else
    let (bytes, rqueue) := receive (rs.valuelen.toNat - rs.value.length) s.rqueue
    if bytes = [] then
      .ok (false, { s with rqueue := rqueue })
    else
      let rs := { rs with value := rs.value ++ bytes }
      if rs.valuelen.toNat = rs.value.length then do
        let stored ← rs.finished.store2local now s.stored
        return (false, ⟨none, rqueue, stored⟩)
      else
        .ok (true, { s with entry := some rs, rqueue := rqueue })

/-- The loop of `dht::rdp_recv_store_func::operator()` at the event READY2READ. -/
def ready2ReadLoop (now : Int) : Nat → RecvState → Except StoreFault RecvState
  | 0, _ => .error .unfinished
  | rounds + 1, s =>
      match s.entry with
      | none => .ok s
      | some rs => do
          let (goOn, s) ← if rs.isHdrRead then readBody now rs s else readHdr rs s
          if goOn then ready2ReadLoop now rounds s else return s

/-- `dht::rdp_recv_store_func::operator()` at the event READY2READ. Every round but the last
reads a packet. -/
def ready2Read (now : Int) (s : RecvState) : Except StoreFault RecvState :=
  ready2ReadLoop now (s.rqueue.length + 1) s

/-- Packets arrive, and the event is raised if there is something to read. -/
def arrive (now : Int) (s : RecvState) (packets : List (List Byte)) : Except StoreFault RecvState :=
  let s := { s with rqueue := s.rqueue ++ packets }
  if s.rqueue = [] then .ok s else ready2Read now s

/-- Any other event erases the entry and closes the connection. -/
def RecvState.closed (s : RecvState) : RecvState := { s with entry := none }

/-- A connection to the port of stores, from ACCEPTED on: packets come in groups, each with
the time of its event, and at the end there may be another event. -/
def connection (stored : Stored) (did : Id) (uninit : Bool)
    (groups : List (Int × List (List Byte))) (ended : Bool) : Except StoreFault RecvState := do
  let s ← run (fun s (now, packets) => arrive now s packets)
    ⟨some (.accepted did uninit), [], stored⟩ groups
  return if ended then s.closed else s

end Libcage.Dht
