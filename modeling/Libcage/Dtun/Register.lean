import Libcage.Msg
import Libcage.Peers

/-!
# `Libcage.Dtun.Register`: the nodes that are registered with a node

`RegisteredNodes` is the part of `dtun` that keeps the addresses of other nodes.
`recv_register` enters a node, or sets what is known of it where the message has its session.
A message with another session from the same address counts as a sign of life. `refresh` takes
out the nodes that gave none for `registered_ttl` seconds.
-/

set_option autoImplicit false

namespace Libcage.Dtun

open Libcage.Lib
open Libcage.Rdp (Id Table)
open Libcage.Dht (Cageaddr)

/-- `dtun::registered_ttl`. -/
def registeredTtl : Int := 300

/-- `msg_dtun_register`. -/
structure MsgDtunRegister where
  src : Id
  dst : Id
  session : BitVec 32
deriving DecidableEq

/-- `dtun::registered`. -/
structure Registered where
  addr : Cageaddr
  session : BitVec 32
  t : Int
deriving DecidableEq

/-- `dtun::registered::operator==`. -/
def Registered.same (lhs rhs : Registered) : Except PeersFault Bool :=
  if lhs.addr.id ≠ rhs.addr.id then
    .ok false
  else
    Peers.sameAddr lhs.addr.saddr rhs.addr.saddr

/-- The members of `dtun` for registrations. -/
structure RegisteredNodes where
  id : Id
  registeredNodes : Table Id Registered
  peers : Peers

namespace RegisteredNodes

/-- No node is registered. -/
def init (id : Id) (peers : Peers) : RegisteredNodes := ⟨id, ∅, peers⟩

/-- What `dtun::recv_register` does to `m_registered_nodes`. -/
def enter (nodes : Table Id Registered) (r : Registered) :
    Except PeersFault (Table Id Registered) :=
  match nodes.lookup r.addr.id with
  | none => .ok (nodes.insert r.addr.id r)
  | some it =>
      if it.session = r.session then
        .ok (nodes.insert r.addr.id r)
      else do
        if ← it.same r then
          return nodes.insert r.addr.id { it with t := r.t }
        else
          return nodes

/-- `dtun::recv_register`. -/
def recvRegister (s : RegisteredNodes) (now : Int) (reg : MsgDtunRegister) (from_ : Sockaddr) :
    Except PeersFault RegisteredNodes :=
  if reg.dst ≠ s.id then
    .ok s
  else do
    let r : Registered := ⟨newCageaddr reg.src from_, reg.session, now⟩
    let nodes ← enter s.registeredNodes r
    let (_, peers) ← s.peers.addNode now r.addr r.session
    return { s with registeredNodes := nodes, peers := peers }

/-- `dtun::refresh`. -/
def refresh (s : RegisteredNodes) (now : Int) : RegisteredNodes :=
  { s with
    registeredNodes :=
      filterMap (fun _ r => if now - r.t > registeredTtl then none else some r)
        s.registeredNodes }

/-- The events. -/
inductive Input where
  | recvRegister (now : Int) (reg : MsgDtunRegister) (from_ : Sockaddr)
  | refresh (now : Int)
deriving DecidableEq

/-- One event. -/
def step (s : RegisteredNodes) : Input → Except PeersFault RegisteredNodes
  | .recvRegister now reg from_ => s.recvRegister now reg from_
  | .refresh now => .ok (s.refresh now)

end RegisteredNodes

end Libcage.Dtun
