import Libcage.Dht.FindValueReply
import Libcage.Dht.Query

/-!
# `Libcage.Dht.FindNode`: the answer to `find_node`

`recvFindNode` is `dht::recv_find_node`: the sender comes into the routing table, and the
nodes closest to the id are written into a reply. `findNodeReply` is the reply as it is sent,
with the fields of the header that its receiver looks at.

The request cache is left out. `write_nodes_inet` and `write_nodes_inet6` throw at a contact
with an address of the other family, and there is no reply then.
-/

set_option autoImplicit false

namespace Libcage.Dht

open Libcage.Lib
open Libcage.Rdp (Id)

/-- `msg_dht_find_node`. -/
structure FindNode where
  src : Id
  dst : Id
  nonce : BitVec 32
  id : Id
  domain : BitVec 16

/-- The nodes of a reply, written for the domain of the request. -/
def writeNodesFor (domain : BitVec 16) (nodes : List Cageaddr) : Option (List Byte) :=
  if domain = domainInet then
    writeNodesInet nodes
  else if domain = domainInet6 then
    writeNodesInet6 nodes
  else
    none

/-- The `msg_dht_find_node_reply` to a request. -/
def findNodeReply (own : Id) (req : FindNode) (nodes : List Cageaddr) : Option FindNodeReply := do
  let addrs ← writeNodesFor req.domain nodes
  return {
    src := own
    dst := req.src
    nonce := req.nonce
    id := req.id
    domain := req.domain
    num := .ofNat 8 nodes.length
    addrs := addrs }

namespace Rttable

/-- `dht::recv_find_node` on a socket of a domain: the table afterwards, and the reply. -/
def recvFindNode (t : Rttable) (rnd : List (BitVec 32)) (rounds : Nat) (domain : BitVec 16)
    (req : FindNode) (sender : Saddr) : Except TableFault (Rttable × Option FindNodeReply) := do
  if req.dst ≠ t.id ∧ req.dst ≠ 0 then
    return (t, none)
  else if req.domain ≠ domain then
    return (t, none)
  else
    let t ← t.add rnd ⟨req.src, sender⟩
    let nodes ← t.lookup rounds req.id numFindNode []
    return (t, findNodeReply t.id req nodes)

end Rttable

end Libcage.Dht
