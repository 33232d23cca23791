import Libcage.Dht.Store

/-!
# `Libcage.Dht.FindValue`: what a node answers to `find_value`

`recvFindValue` is `recv_find_value`. A request for the UDP path carries the key and gets
one message for each value, and a request for the RDP path asks only whether the node has
something for the id. A node that has nothing answers with the nodes it knows.

A value is written into a buffer on the stack whatever its length, and what does not fit
stops the program. What `rttable::add` and the request cache do with the sender is left out.
-/

set_option autoImplicit false

namespace Libcage.Dht

open Libcage.Lib (Byte Index)
open Libcage.Rdp (Id Table)

/-- `data_are_nodes`, `data_are_values` and `data_are_nul`. -/
def dataAreNodes : BitVec 8 := 0xa0

def dataAreValues : BitVec 8 := 0xa1

def dataAreNul : BitVec 8 := 0xa2

/-- `get_by_udp` and `get_by_rdp`. -/
def getByUdp : BitVec 8 := 0xb0

def getByRdp : BitVec 8 := 0xb1

/-- `domain_inet` and `domain_inet6`. -/
def domainInet : BitVec 16 := 1

def domainInet6 : BitVec 16 := 2

/-- `sizeof(msg_dht_find_value) - sizeof(msg_dht_find_value::key)`. -/
def sizeofFindValueHead : Nat := 80

/-- The size of the head of a `msg_dht_find_value_reply` and of its `msg_data`. -/
def sizeofValueHead : Nat := 80 + 4

/-- `msg_dht_find_value`. What follows the head is in `key`. -/
structure MsgDhtFindValue where
  src : Id
  dst : Id
  nonce : BitVec 32
  id : Id
  domain : BitVec 16
  keylen : BitVec 16
  flag : BitVec 8
  key : List Byte

/-- The three kinds of data in a reply. -/
inductive ReplyData where
  | nul
  | value (key value : Buf)
  | nodes (domain : BitVec 16) (addrs : List Cageaddr)

/-- `msg_dht_find_value_reply`. -/
structure MsgDhtFindValueReply where
  nonce : BitVec 32
  id : Id
  index : BitVec 16
  total : BitVec 16
  flag : BitVec 8
  data : ReplyData

/-- The loop over the values of a set. The index is never counted up. -/
def valueReplies (req : MsgDhtFindValue) (total : BitVec 16) :
    List StoredData → Except StoreFault (List MsgDhtFindValueReply)
  | [] => .ok []
  | it :: its =>
      if sizeofValueHead + it.key.1.length + it.value.1.length > sizeofBuf then
        .error .overflow
      else do
        let replies ← valueReplies req total its
        return ⟨req.nonce, req.id, 1, total, dataAreValues, .value it.key it.value⟩ :: replies

/-- The end of `recv_find_value`: the nodes closest to the id. -/
def nodesReply (lookup : Id → List Cageaddr) (req : MsgDhtFindValue) :
    List MsgDhtFindValueReply :=
  if req.domain = domainInet ∨ req.domain = domainInet6 then
    [⟨req.nonce, req.id, 0, 0, dataAreNodes, .nodes req.domain (lookup req.id)⟩]
  else
    []

/-- `dht::recv_find_value`. -/
def recvFindValue (mId : Id) (stored : Stored) (lookup : Id → List Cageaddr)
    (req : MsgDhtFindValue) : Except StoreFault (List MsgDhtFindValueReply) :=
  if req.dst ≠ mId then
    .ok []
  -- The sum is a 16-bit number.
  else if (sizeofFindValueHead + req.keylen.toNat) % 2 ^ 16
      ≠ sizeofFindValueHead + req.key.length then
    .ok []
  else if req.flag = getByRdp then
    if (stored.lookup req.id).isSome then
      .ok [⟨req.nonce, req.id, 0, 0, dataAreNul, .nul⟩]
    else
      .ok (nodesReply lookup req)
  else if req.flag = getByUdp then
    match stored.lookup req.id with
    | none => .ok (nodesReply lookup req)
    | some map =>
        match map.lookup (Buf.copy req.keylen req.key) with
        | none => .ok (nodesReply lookup req)
        | some set =>
            valueReplies req (.ofNat 16 set.entries.length) (set.entries.map (·.2))
  else
    .ok []

end Libcage.Dht
