import Mathlib.Data.Finset.Card
import Libcage.Lib.Run
import Libcage.Dht.StoreRdp

/-!
# `Libcage.Proxy.Get`: the values of a key from a proxy

A proxy that has looked up the values of a key opens an RDP connection to its client. The
proxy (`rdp_get_reply_func`) sends a header, and after each request a header and a value. It
closes the connection when it has sent the last one. The client (`rdp_recv_get_reply_func`)
then calls the function of the get. `GetReplyExchange` puts the two together with the packets
that are on their way. The client learns that the connection was closed after all packets have
come.

A byte of an array that was never written is `none`. What a header has on the stack where
nothing was written is `uninit`. The times of the last activity, which only `sweep_rdp` reads,
and the timeout of the get are left out.
-/

set_option autoImplicit false

namespace Libcage.Proxy

open Libcage.Lib
open Libcage.Rdp (Id Table)
open Libcage.Dht (Buf StoreFault sendPackets)

/-- `proxy_get_success`. -/
def proxyGetSuccess : Byte := 0xd0

/-- `proxy_get_fail`. -/
def proxyGetFail : Byte := 0xd1

/-- `proxy_get_next`. -/
def proxyGetNext : Byte := 0xd2

/-- `msg_proxy_rdp_get_reply`. The reserved bytes are zero. -/
structure MsgProxyRdpGetReply where
  nonce : BitVec 32
  id : Id
  flag : Byte
deriving DecidableEq

/-- `sizeof(msg_proxy_rdp_get_reply)`. -/
def sizeofRdpGetReplyHdr : Nat := 28

namespace MsgProxyRdpGetReply

/-- The header in network byte order. -/
def encode (msg : MsgProxyRdpGetReply) : List Byte :=
  wr32 msg.nonce ++ (wr160 msg.id ++ [msg.flag, 0, 0, 0])

/-- The header a cast of the received bytes reads. -/
def decode (bs : List Byte) : MsgProxyRdpGetReply := ⟨rd32 bs 0, rd160 bs 4, byteAt bs 24⟩

@[simp] theorem length_encode (msg : MsgProxyRdpGetReply) :
    msg.encode.length = sizeofRdpGetReplyHdr := rfl

/-- The header that is read is the one that was written. -/
@[simp] theorem decode_encode (msg : MsgProxyRdpGetReply) (rest : List Byte) :
    decode (msg.encode ++ rest) = msg := by
  have hnonce : rd32 (msg.encode ++ rest) 0 = msg.nonce := bytes32 _
  have hid : rd160 (msg.encode ++ rest) 4 = msg.id :=
    rd160_wr160 (wr32 msg.nonce) ([msg.flag, 0, 0, 0] ++ rest) msg.id
  simp only [decode, hnonce, hid]
  rfl

end MsgProxyRdpGetReply

/-- `msg_proxy_rdp_get_reply_val`. The reserved bytes are zero. -/
structure MsgProxyRdpGetReplyVal where
  valuelen : BitVec 16
deriving DecidableEq

/-- `sizeof(msg_proxy_rdp_get_reply_val)`. -/
def sizeofRdpGetReplyVal : Nat := 4

namespace MsgProxyRdpGetReplyVal

/-- The header in network byte order. -/
def encode (msg : MsgProxyRdpGetReplyVal) : List Byte := wr16 msg.valuelen ++ [0, 0]

/-- The header a cast of the received bytes reads. -/
def decode (bs : List Byte) : MsgProxyRdpGetReplyVal := ⟨rd16 bs 0⟩

@[simp] theorem length_encode (msg : MsgProxyRdpGetReplyVal) :
    msg.encode.length = sizeofRdpGetReplyVal := rfl

/-- The header that is read is the one that was written. -/
@[simp] theorem decode_encode (msg : MsgProxyRdpGetReplyVal) (rest : List Byte) :
    decode (msg.encode ++ rest) = msg := by
  have hvaluelen : rd16 (msg.encode ++ rest) 0 = msg.valuelen := bytes16 _
  rw [decode, hvaluelen]

end MsgProxyRdpGetReplyVal

/-! ### The client -/

/-- The bytes of a value that was read. -/
abbrev Cells := List (Option Byte)

/-- The bytes of a value are all there. -/
def cells (value : List Byte) : Cells := value.map some

/-- `memcpy` of some bytes to an offset. -/
def Cells.write (val : Cells) (off : Nat) (bytes : List Byte) : Cells :=
  val.take off ++ (cells bytes ++ val.drop (off + bytes.length))

/-- `rdp_recv_get_reply::recv_get_reply_state`. -/
inductive RecvGetReplyState where
  | rgrHdr
  | rgrValHdr
  | rgrVal
deriving DecidableEq

/-- `proxy::rdp_recv_get_reply`. -/
structure RdpRecvGetReply where
  val : Cells
  valuelen : BitVec 16
  valRead : BitVec 16
  state : RecvGetReplyState
  nonce : BitVec 32
deriving DecidableEq

/-- `rdp_recv_get_reply::rdp_recv_get_reply`, at the event ACCEPTED. The lengths and the nonce
are left unset. -/
def RdpRecvGetReply.accepted (valuelen valRead : BitVec 16) (nonce : BitVec 32) :
    RdpRecvGetReply :=
  ⟨[], valuelen, valRead, .rgrHdr, nonce⟩

/-- The entry of a connection in `m_rdp_recv_get_reply`, the packets that have not been read,
the values of each get in `m_getdata`, and the calls of the functions of the gets. The entry is
erased when the connection is closed. -/
structure GetReplyClient where
  entry : Option RdpRecvGetReply
  rqueue : List (List Byte)
  getdata : Table (BitVec 32) (Finset Cells)
  calls : List (Bool × Finset Cells)

namespace GetReplyClient

/-- The connection is closed and its entry erased. -/
def close (s : GetReplyClient) : GetReplyClient := { s with entry := none, rqueue := [] }

/-- `rdp_recv_get_reply_func::close_rdp`. -/
def closeRdp (s : GetReplyClient) (ptr : RdpRecvGetReply) : GetReplyClient :=
  match s.getdata.lookup ptr.nonce with
  | none => s.close
  | some vset =>
      { s.close with
        getdata := s.getdata.erase ptr.nonce
        calls := s.calls ++ [(decide (vset.card > 0), vset)] }

/-- `rdp_recv_get_reply_func::read_hdr`: whether to go on, and what is sent. -/
def readHdr (uninit : List Byte) (ptr : RdpRecvGetReply) (s : GetReplyClient) :
    Bool × GetReplyClient × List (List Byte) :=
  let (bytes, rqueue) := receive sizeofRdpGetReplyHdr s.rqueue
  let s := { s with rqueue := rqueue }
  if bytes = [] then
    (false, s, [])
  else
    let msg := MsgProxyRdpGetReply.decode (bytes ++ uninit)
    match s.getdata.lookup msg.nonce with
    | none => (false, s.close, [])
    | some _ =>
        let ptr := { ptr with nonce := msg.nonce, state := .rgrValHdr }
        if msg.flag = proxyGetFail then
          (false, s.closeRdp ptr, [])
        else
          (true, { s with entry := some ptr }, sendPackets [proxyGetNext])

/-- `rdp_recv_get_reply_func::read_val_hdr`. -/
def readValHdr (uninit : List Byte) (ptr : RdpRecvGetReply) (s : GetReplyClient) :
    Bool × GetReplyClient × List (List Byte) :=
  match s.getdata.lookup ptr.nonce with
  | none => (false, s.close, [])
  | some _ =>
      let (bytes, rqueue) := receive sizeofRdpGetReplyVal s.rqueue
      let s := { s with rqueue := rqueue }
      if bytes = [] then
        (false, s, [])
      else
        let msg := MsgProxyRdpGetReplyVal.decode (bytes ++ uninit)
        let ptr := { ptr with
          valuelen := msg.valuelen
          valRead := 0
          state := .rgrVal
          val := List.replicate msg.valuelen.toNat none }
        (true, { s with entry := some ptr }, [])

/-- The loop of `rdp_recv_get_reply_func::read_val`. -/
def readValLoop : Nat → RdpRecvGetReply → Finset Cells → GetReplyClient →
    Except StoreFault (Bool × GetReplyClient × List (List Byte))
  | 0, _, _, _ => .error .unfinished
  | rounds + 1, ptr, vset, s =>
      let (bytes, rqueue) := receive (ptr.valuelen.toNat - ptr.valRead.toNat) s.rqueue
      let s := { s with rqueue := rqueue }
      if bytes = [] then
        .ok (false, { s with entry := some ptr }, [])
      else
        let val := ptr.val.write ptr.valRead.toNat bytes
        let valRead := ptr.valRead + .ofNat 16 bytes.length
        -- The condition of the `if` is `m_val_read += m_valuelen`.
        let valRead := valRead + ptr.valuelen
        if valRead ≠ 0 then
          .ok (true,
            { s with
              entry := some { ptr with val := [], valRead := 0, state := .rgrValHdr }
              getdata := s.getdata.insert ptr.nonce (insert val vset) },
            sendPackets [proxyGetNext])
        else
          readValLoop rounds { ptr with val := val, valRead := valRead } vset s

/-- `rdp_recv_get_reply_func::read_val`. Every round but the last reads a packet. -/
def readVal (ptr : RdpRecvGetReply) (s : GetReplyClient) :
    Except StoreFault (Bool × GetReplyClient × List (List Byte)) :=
  match s.getdata.lookup ptr.nonce with
  | none => .ok (false, s.close, [])
  | some vset => readValLoop (s.rqueue.length + 1) ptr vset s

/-- One round of the loop of `rdp_recv_get_reply_func::operator()`. -/
def read (uninit : List Byte) (ptr : RdpRecvGetReply) (s : GetReplyClient) :
    Except StoreFault (Bool × GetReplyClient × List (List Byte)) :=
  match ptr.state with
  | .rgrHdr => .ok (readHdr uninit ptr s)
  | .rgrValHdr => .ok (readValHdr uninit ptr s)
  | .rgrVal => readVal ptr s

/-- The loop of `rdp_recv_get_reply_func::operator()` at the event READY2READ, with what has
been sent so far. -/
def ready2ReadLoop (uninit : List Byte) : Nat → GetReplyClient → List (List Byte) →
    Except StoreFault (GetReplyClient × List (List Byte))
  | 0, _, _ => .error .unfinished
  | rounds + 1, s, sent =>
      match s.entry with
      | none => .error .useAfterErase
      | some ptr => do
          let (goOn, s, sent') ← read uninit ptr s
          if goOn then ready2ReadLoop uninit rounds s (sent ++ sent') else return (s, sent ++ sent')

/-- Packets arrive, and the event READY2READ. A connection that is closed drops them. Every
round but the last reads a packet. -/
def arrive (uninit : List Byte) (s : GetReplyClient) (packets : List (List Byte)) :
    Except StoreFault (GetReplyClient × List (List Byte)) :=
  if s.entry.isNone then
    .ok (s, [])
  else
    let s := { s with rqueue := s.rqueue ++ packets }
    if s.rqueue = [] then .ok (s, []) else ready2ReadLoop uninit (s.rqueue.length + 1) s []

/-- The connection was closed by the other end: the `default` of
`rdp_recv_get_reply_func::operator()`. -/
def reset (s : GetReplyClient) : GetReplyClient :=
  match s.entry with
  | none => s.close
  | some ptr => s.closeRdp ptr

end GetReplyClient

/-! ### The proxy -/

/-- `rdp_get_reply_func` with an open or a closed connection, and the packets that have not
been read. The values are in the order in which the set has them. -/
structure GetReplyServer where
  isOpen : Bool
  result : Bool
  vset : List Buf
  rqueue : List (List Byte)

namespace GetReplyServer

/-- The packets of `rdp_get_reply_func::operator()` at the event CONNECTED. -/
def connected (result : Bool) (nonce : BitVec 32) (id : Id) : List (List Byte) :=
  sendPackets (MsgProxyRdpGetReply.encode
    ⟨nonce, id, if result then proxyGetSuccess else proxyGetFail⟩)

/-- The connection is closed. -/
def close (s : GetReplyServer) : GetReplyServer := { s with isOpen := false, rqueue := [] }

/-- The packets of a value. -/
def value (it : Buf) : List (List Byte) :=
  sendPackets (MsgProxyRdpGetReplyVal.encode ⟨it.len⟩) ++ sendPackets it.1

/-- The loop of `rdp_get_reply_func::read_op`, with what has been sent so far. -/
def readOpLoop : Nat → GetReplyServer → List (List Byte) →
    Except StoreFault (GetReplyServer × List (List Byte))
  | 0, _, _ => .error .unfinished
  | rounds + 1, s, sent =>
      match s.vset with
      | [] => .ok (s.close, sent)
      | it :: vset =>
          let (bytes, rqueue) := receive 1 s.rqueue
          if bytes = [] then
            .ok ({ s with rqueue := rqueue }, sent)
          else if bytes ≠ [proxyGetNext] then
            .ok (s.close, sent)
          else
            readOpLoop rounds { s with vset := vset, rqueue := rqueue } (sent ++ value it)

/-- `rdp_get_reply_func::operator()` at the event READY2READ. Every round but the last reads a
packet. -/
def ready2Read (s : GetReplyServer) : Except StoreFault (GetReplyServer × List (List Byte)) :=
  if s.result then readOpLoop (s.rqueue.length + 1) s [] else .ok (s.close, [])

/-- Packets arrive. A connection that is closed drops them. -/
def arrive (s : GetReplyServer) (packets : List (List Byte)) :
    Except StoreFault (GetReplyServer × List (List Byte)) :=
  if ¬ s.isOpen then
    .ok (s, [])
  else
    let s := { s with rqueue := s.rqueue ++ packets }
    if s.rqueue = [] then .ok (s, []) else s.ready2Read

end GetReplyServer

/-! ### The two together -/

/-- The two ends of a connection, and the packets on their way in both directions. -/
structure GetReplyExchange where
  client : GetReplyClient
  server : GetReplyServer
  toServer : List (List Byte)
  toClient : List (List Byte)

namespace GetReplyExchange

/-- The connection is open, the proxy has sent its header, and the get has no values yet. -/
def init (nonce : BitVec 32) (id : Id) (vset : List Buf) (ptr : RdpRecvGetReply) :
    GetReplyExchange where
  client := ⟨some (.accepted ptr.valuelen ptr.valRead ptr.nonce), [], AList.singleton nonce ∅, []⟩
  server := ⟨true, true, vset, []⟩
  toServer := []
  toClient := GetReplyServer.connected true nonce id

/-- The first packets on their way arrive, or the end of the connection does. -/
inductive Input where
  | toServer (n : Nat)
  | toClient (n : Nat)
  | closed

/-- The end of the connection is next at the client. -/
def Closes (s : GetReplyExchange) : Prop :=
  s.server.isOpen = false ∧ s.toClient = [] ∧ s.client.entry.isSome

instance (s : GetReplyExchange) : Decidable s.Closes := by
  unfold Closes
  infer_instance

/-- One event. -/
def step (uninit : List Byte) (s : GetReplyExchange) : Input → Except StoreFault GetReplyExchange
  | .toServer n => do
      let (server, sent) ← s.server.arrive (s.toServer.take n)
      return { s with
        server := server
        toServer := s.toServer.drop n
        toClient := s.toClient ++ sent }
  | .toClient n => do
      let (client, sent) ← s.client.arrive uninit (s.toClient.take n)
      return { s with
        client := client
        toClient := s.toClient.drop n
        toServer := s.toServer ++ sent }
  | .closed => .ok (if s.Closes then { s with client := s.client.reset } else s)

end GetReplyExchange

end Libcage.Proxy
