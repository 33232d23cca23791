import Libcage.Dgram
import Libcage.Proxy.Store

/-!
# `Libcage.Proxy.Relay`: datagrams that go over a proxy

Up: a client sends a datagram for a node it has no address of to its proxy (`sendDgram`), and
the proxy sends it on (`recvDgram`). Down: a datagram for a client that reaches its proxy is
put into a `msg_proxy_dgram_forwarded` (`forwardMsg`), and the client takes it out again
(`recvForwarded`).

`proxy::send_dgram` leaves two bytes of the header as they are in its buffer.
-/

set_option autoImplicit false

namespace Libcage.Proxy

open Libcage.Lib
open Libcage.Rdp (Id)
open Libcage.Dht (Saddr Cageaddr)

/-- The size of the buffer in `proxy::send_dgram`. -/
def sizeofDgramBuf : Nat := 1024

/-- The size of the buffer in `proxy::forward_msg`. -/
def sizeofForwardBuf : Nat := 1024 * 4

/-- `sizeof(msg_proxy_dgram_forwarded) - sizeof(msg_proxy_dgram_forwarded::data)`. -/
def sizeofForwardedHead : Nat := 68

/-! ### Up -/

/-- Where a client sends a datagram for a node. -/
def Client.relay (s : Client) (peers : Peers) (id : Id) : Option Cageaddr :=
  match peers.getAddr id with
  | some addr => some addr
  | none => if s.isRegistered then some s.server else none

/-- `proxy::send_dgram` of bytes. -/
def Client.sendDgram (s : Client) (peers : Peers) (reserved : BitVec 16) (msg : List Byte)
    (id : Id) : Option Datagram :=
  match s.relay peers id with
  | none => none
  | some addr =>
      let size := sizeofHdr + msg.length
      if size > sizeofDgramBuf then
        none
      else
        sendto ((sendMsg reserved size typeProxyDgram id s.id).encode ++ msg) addr

/-- `proxy::send_dgram` of a packet buffer. -/
def Client.sendPbuf (s : Client) (peers : Peers) (reserved : BitVec 16) (pbuf : Packetbuf)
    (id : Id) (type : Byte) : Option Datagram :=
  match s.relay peers id with
  | none => none
  | some addr =>
      match pbuf.prepend (sendMsg reserved (sizeofHdr + pbuf.getLen) type id s.id).encode with
      | none => none
      | some pbuf => sendto pbuf.data addr

/-- `proxy::recv_dgram`. -/
def RegisteredClients.recvDgram (s : RegisteredClients) (dgram : Dgram) (pbuf : Packetbuf) :
    Dgram :=
  let hdr := MsgHdr.decode pbuf.view
  if ¬ s.isRegistered hdr.src then dgram else dgram.sendDgram pbuf hdr.dst hdr.type

/-! ### Down -/

/-- The 16 bytes of `msg_proxy_dgram_forwarded::addr`. -/
def forwardedAddr (saddr : Saddr) : List Byte :=
  sinAddr saddr ++ List.replicate (16 - (sinAddr saddr).length) 0

/-- The type a message is forwarded with. -/
def forwardedType (type : Byte) : Option Byte :=
  if type = typeDgram then
    some typeProxyDgramForwarded
  else if type = typeRdp then
    some typeProxyRdpForwarded
  else
    none

/-- `proxy::forward_msg` of a message as it was received. -/
def RegisteredClients.forwardMsg (s : RegisteredClients) (msg : List Byte) (from_ : Sockaddr) :
    Option Datagram :=
  let hdr := MsgHdr.decode msg
  let data := msg.drop sizeofHdr
  match s.registered.lookup hdr.dst with
  | none => none
  | some it =>
      let len := data.length + sizeofForwardedHead
      if len > sizeofForwardBuf then
        none
      else
        match forwardedType hdr.type with
        | none => none
        | some type =>
            sendto ((sendMsg 0 len type it.addr.id hdr.src).encode ++
              (wr16 (newCageaddr hdr.src from_).domain ++ (wr16 (sinPort from_.1) ++
                (forwardedAddr from_.1 ++ data)))) it.addr

/-- `proxy::recv_forwarded`. The datagram callback of the client is set. -/
def recvForwarded (pbuf : Packetbuf) : List DgramCall :=
  if pbuf.getLen ≤ sizeofForwardedHead then
    []
  else
    let hdr := MsgHdr.decode pbuf.view
    (if hdr.type = typeProxyDgramForwarded then
        [.callback (pbuf.data.drop sizeofForwardedHead) hdr.src]
      else if hdr.type = typeProxyRdpForwarded then
        [.inputDgram hdr.src pbuf]
      else []) ++
    [.advertiseTo hdr.src (rd16 pbuf.view 48) (rd16 pbuf.view 50) ((pbuf.view.drop 52).take 16)]

/-- A datagram at a client, where it is one for `recv_dgram` or `recv_forwarded`. -/
def receiveDgram (dgram : Dgram) (pbuf : Packetbuf) (from_ : Sockaddr) : List DgramCall :=
  match udpReceiver pbuf.data with
  | some .dgramRecvDgram => dgram.recvDgram pbuf from_
  | some .proxyRecvForwarded => recvForwarded pbuf
  | _ => []

end Libcage.Proxy
