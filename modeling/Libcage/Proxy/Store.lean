import Libcage.Cage
import Libcage.Dht.Store
import Libcage.Proxy.Register

/-!
# `Libcage.Proxy.Store`: values that a client stores by its proxy

A client that is registered puts the id, the key and the value into a `msg_proxy_store`
(`store`), and the proxy hands them to `dht::store` (`recvStore`). A read that leaves the
message is a fault (`outside`), whatever lies behind it in the buffer.

The client that is not registered, or that stores over RDP, builds no such message.
-/

set_option autoImplicit false

namespace Libcage.Proxy

open Libcage.Lib
open Libcage.Rdp (Id)
open Libcage.Dht (Cageaddr Buf dhtFlagUnique)

/-- `sizeof(msg_proxy_store) - sizeof(msg_proxy_store::data)`. -/
def sizeofStoreHead : Nat := 76

/-- The size of the buffer in `proxy::store`. -/
def sizeofStoreBuf : Nat := 1024 * 4

/-- What is stored. -/
structure Stores where
  id : Id
  key : Buf
  value : Buf
  ttl : BitVec 16
  isUnique : Bool
deriving DecidableEq

/-- The members of a client that `proxy::store` reads. -/
structure Client where
  id : Id
  isRegistered : Bool
  server : Cageaddr
  isUseRdp : Bool

/-- What follows the header in a `msg_proxy_store`. -/
def Stores.encode (func : Stores) : List Byte :=
  wr160 func.id ++ (wr16 func.key.len ++ (wr16 func.value.len ++ (wr16 func.ttl ++
    ((if func.isUnique then dhtFlagUnique else 0) :: 0 :: (func.key.1 ++ func.value.1)))))

/-- The message of `proxy::store`, for the server. -/
def Client.store (s : Client) (func : Stores) : Option (List Byte) :=
  if ¬ s.isRegistered ∨ s.isUseRdp then
    none
  else
    let size := sizeofStoreHead + func.key.1.length + func.value.1.length
    if size > sizeofStoreBuf then
      none
    else
      some ((sendMsg 0 size typeProxyStore s.server.id s.id).encode ++ func.encode)

/-- A read behind the end of a message. -/
inductive ReadFault where
  | outside
deriving DecidableEq

/-- What a read of `n` bytes at an offset of a message gives. -/
def inside {α : Type} (msg : List Byte) (off n : Nat) (a : α) : Except ReadFault α :=
  if n = 0 ∨ off + n ≤ msg.length then .ok a else .error .outside

/-- The 16-bit field at an offset. -/
def readWord (msg : List Byte) (off : Nat) : Except ReadFault (BitVec 16) :=
  inside msg off 2 (rd16 msg off)

/-- The id at an offset. -/
def readId (msg : List Byte) (off : Nat) : Except ReadFault Id := inside msg off 20 (rd160 msg off)

/-- `memcpy` of `len` bytes from an offset into a new array. -/
def readBuf (msg : List Byte) (off : Nat) (len : BitVec 16) : Except ReadFault Buf :=
  inside msg off len.toNat (.copy len (msg.drop off))

/-- A call of `dht::store`, with the node it is made for. -/
structure DhtStore where
  func : Stores
  src : Id
deriving DecidableEq

/-- `proxy::recv_store`, with the call it makes. -/
def RegisteredClients.recvStore (s : RegisteredClients) (msg : List Byte) :
    Except ReadFault (Option DhtStore) := do
  let keylen ← readWord msg 68
  let valuelen ← readWord msg 70
  if sizeofStoreHead + keylen.toNat + valuelen.toNat ≠ msg.length then
    return none
  else
    let dst ← readId msg 28
    if dst ≠ s.id then
      return none
    else
      let src ← readId msg 8
      if ¬ s.isRegistered src then
        return none
      else
        let id ← readId msg 48
        let flags ← inside msg 74 1 (byteAt msg 74)
        let key ← readBuf msg sizeofStoreHead keylen
        -- `data` is an array of words, and `&data[keylen]` is `keylen` words from its start.
        let value ← readBuf msg (sizeofStoreHead + 4 * keylen.toNat) valuelen
        let ttl ← readWord msg 72
        return some ⟨⟨id, key, value, ttl, flags &&& dhtFlagUnique ≠ 0⟩, src⟩

/-- A datagram at the proxy, where it is one for `recv_store`. -/
def RegisteredClients.receiveStore (s : RegisteredClients) (msg : List Byte) :
    Except ReadFault (Option DhtStore) :=
  if udpReceiver msg = some .proxyRecvStore then s.recvStore msg else .ok none

end Libcage.Proxy
