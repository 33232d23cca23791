import Libcage.Dht.FindValue
import Libcage.Dht.Lookup
import Libcage.Lib.Draft
import Libcage.Msg

/-!
# `Libcage.Dht.FindValueReply`: the bytes of the answers to `find_value`

`MsgDhtFindValueReply.draft` is what `recv_find_value` writes into its buffer for a reply, with
the size that it computes in 16 bits and passes to `send_msg`. `Rttable.found` is the lookup in
the routing table for it.

`write_nodes_inet` and `write_nodes_inet6` throw at a contact with an address of the other
family, and there is no reply then.
-/

set_option autoImplicit false

namespace Libcage.Dht

open Libcage.Lib
open Libcage.Rdp (Id Table)

/-- What `lookup` finds in a routing table. Where its loop has not ended there is no reply yet. -/
def Rttable.found (t : Rttable) (rounds : Nat) (id : Id) : List Cageaddr :=
  match t.lookup rounds id numFindNode [] with
  | .ok nodes => nodes
  | .error _ => []

/-- The `msg_inet` of a contact. -/
def Cageaddr.msgInet (addr : Cageaddr) : Option (List Byte) :=
  match addr.saddr with
  | .loopback => some (wr16 0 ++ (wr16 0 ++ (wr32 0 ++ wr160 addr.id)))
  | .inet port sin => some (wr16 port ++ (wr16 0 ++ (wr32 sin ++ wr160 addr.id)))
  | .inet6 .. => none

/-- The `msg_inet6` of a contact. -/
def Cageaddr.msgInet6 (addr : Cageaddr) : Option (List Byte) :=
  match addr.saddr with
  | .loopback =>
      some (wr16 0 ++ (wr16 0 ++ (wr32 0 ++ (wr32 0 ++ (wr32 0 ++ (wr32 0 ++ wr160 addr.id))))))
  | .inet6 port sin =>
      some (wr16 port ++ (wr16 0 ++ (wr32 (sin.extractLsb' 96 32) ++
        (wr32 (sin.extractLsb' 64 32) ++ (wr32 (sin.extractLsb' 32 32) ++
          (wr32 (sin.extractLsb' 0 32) ++ wr160 addr.id))))))
  | .inet .. => none

/-- The loop of `write_nodes_inet` and `write_nodes_inet6`. -/
def writeNodes (write : Cageaddr → Option (List Byte)) : List Cageaddr → Option (List Byte)
  | [] => some []
  | addr :: nodes => do
      let min ← write addr
      let rest ← writeNodes write nodes
      return min ++ rest

/-- `write_nodes_inet`. -/
def writeNodesInet (nodes : List Cageaddr) : Option (List Byte) :=
  writeNodes Cageaddr.msgInet nodes

/-- `write_nodes_inet6`. -/
def writeNodesInet6 (nodes : List Cageaddr) : Option (List Byte) :=
  writeNodes Cageaddr.msgInet6 nodes

namespace ReplyData

/-- The size of the data, as `recv_find_value` computes it. -/
def size : ReplyData → Nat
  | .nul => 0
  | .value key val => 4 + key.1.length + val.1.length
  | .nodes domain addrs =>
      4 + (if domain = domainInet then sizeofInet else sizeofInet6) * addrs.length

/-- The `msg_data` or the `msg_nodes` of a reply. -/
def encode : ReplyData → Option (List Byte)
  | .nul => some []
  | .value key val => some (wr16 key.len ++ (wr16 val.len ++ (key.1 ++ val.1)))
  | .nodes domain addrs =>
      (if domain = domainInet then writeNodesInet addrs else writeNodesInet6 addrs).map fun nodes =>
        wr16 domain ++ (.ofNat 8 addrs.length :: 0 :: nodes)

end ReplyData

/-- `sizeof(msg_dht_find_value_reply) - sizeof(msg_dht_find_value_reply::data)`. -/
def sizeofFindValueReplyHead : Nat := 80

/-- The reply in the buffer, with what `send_msg` puts in front of it. -/
def MsgDhtFindValueReply.draft (mId dst : Id) (reply : MsgDhtFindValueReply) :
    Option (Draft 16) := do
  let data ← reply.data.encode
  let size := .ofNat 16 (sizeofFindValueReplyHead + reply.data.size)
  return {
    bytes := (sendMsg 0 size.toNat typeDhtFindValueReply dst mId).encode ++ (wr32 reply.nonce ++
      (wr160 reply.id ++ (wr16 reply.index ++ (wr16 reply.total ++ (reply.flag :: 0 :: 0 :: 0 ::
        data)))))
    len := size }

end Libcage.Dht
