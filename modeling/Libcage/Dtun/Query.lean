import Libcage.Dht.Query

/-!
# `Libcage.Dtun.Query`: the queries of `dtun`

A query of `dtun` looks for the nodes closest to an id, or for the node with the id. `Queries`
is `m_query`, and `step` is one event: a call of `find_node` or `find_value`, the timer of a
node that was asked, or a reply.

The timers are those that run. Nothing holds a query that was taken out of `m_query`. What
`rttable`, the request cache and `send_msg` do is left out. The calls of callback functions
are written down in the order they are made. A callback function does not call back into the
node here.
-/

set_option autoImplicit false

namespace Libcage.Dtun

open Libcage.Lib
open Libcage.Rdp (Id Table)
open Libcage.Dht (Saddr Cageaddr domainInet domainInet6 Sender sizeofInet sizeofInet6
  readNodesInet readNodesInet6 readNodes sortNodes mergeNodes FindNodeReply)

/-- `dtun::num_find_node`. -/
def numFindNode : Nat := 10

/-- `dtun::max_query`. -/
def maxQuery : Int := 6

/-- `msg_dtun_find_value_reply`. What follows the head is in `addrs`. -/
structure FindValueReply where
  src : Id
  dst : Id
  nonce : BitVec 32
  id : Id
  domain : BitVec 16
  num : BitVec 8
  flag : BitVec 8
  addrs : List Byte

/-- The nodes of a reply to a `find_value`, where the message is as long as it says. A domain
that is not known has none. -/
def readValueNodes (sender : Sender) (domain : BitVec 16) (num : BitVec 8) (bs : List Byte) :
    Option (List Cageaddr) :=
  if domain = domainInet then
    if sizeofInet * num.toNat ≠ bs.length then none else some (readNodesInet sender num.toNat bs)
  else if domain = domainInet6 then
    if sizeofInet6 * num.toNat ≠ bs.length then none else some (readNodesInet6 sender num.toNat bs)
  else
    some []

/-- `dtun::query`. -/
structure Query where
  nodes : List Cageaddr
  timers : Finset Id
  sent : Finset Id
  dst : Id
  numQuery : Int
  isFindValue : Bool

/-- What a callback function is called with. Nothing stands for the two empty addresses. -/
inductive Called where
  | nodes (nodes : List Cageaddr)
  | value (result : Bool) (addrs : Option (Cageaddr × Cageaddr))
deriving DecidableEq

namespace Query

/-- The timer of a node is over, and the node is not asked again. -/
def timedOut (q : Query) (id : Id) : Query :=
  { q with
    sent := insert id q.sent
    numQuery := q.numQuery - 1
    timers := q.timers.erase id
    nodes := if id ≠ 0 then q.nodes.filter (·.id ≠ id) else q.nodes }

/-- A timer is stopped. -/
def stopTimer (q : Query) (id : Id) : Query := { q with timers := q.timers.erase id }

/-- A node has answered. -/
def heard (q : Query) (src : Id) : Query :=
  { q with
    sent := insert src q.sent
    numQuery := q.numQuery - 1 }

/-- The nodes of a reply are sorted and merged with those of the query. -/
def merge (q : Query) (nodes : List Cageaddr) : Query :=
  { q with nodes := mergeNodes q.dst numFindNode q.nodes (sortNodes q.dst nodes) [] }

/-- The loop of `dtun::send_find` over the nodes. -/
def sendFindLoop : List Cageaddr → Query → Query
  | [], q => q
  | addr :: nodes, q =>
      if q.numQuery ≥ maxQuery then
        q
      else if addr.id ∈ q.sent then
        sendFindLoop nodes q
      else
        sendFindLoop nodes { q with
          timers := insert addr.id q.timers
          sent := insert addr.id q.sent
          numQuery := q.numQuery + 1 }

/-- The call of a query that has nobody to ask. -/
def failed (q : Query) : Called := if q.isFindValue then .value false none else .nodes q.nodes

end Query

/-- The members of `dtun` for queries. -/
structure Queries where
  id : Id
  isEnabled : Bool
  query : Table (BitVec 32) Query
  called : List (BitVec 32 × Called)

namespace Queries

/-- A node without queries. -/
def init (id : Id) (isEnabled : Bool) : Queries := ⟨id, isEnabled, ∅, []⟩

/-- The callback function of a query is called, and the query is taken out of `m_query`. -/
def finish (s : Queries) (nonce : BitVec 32) (c : Called) : Queries :=
  { s with
    query := s.query.erase nonce
    called := s.called ++ [(nonce, c)] }

/-- `dtun::send_find` on a query. -/
def sendFind (s : Queries) (nonce : BitVec 32) (q : Query) : Queries :=
  let q := q.sendFindLoop q.nodes
  if q.numQuery = 0 then s.finish nonce q.failed else { s with query := s.query.insert nonce q }

/-- `dtun::find_nv`. The nodes are those that `lookup` finds, and the nonce is the first random
number that is not in use. -/
def findNv (s : Queries) (dst : Id) (isFindValue : Bool) (nodes : List Cageaddr)
    (nonce : BitVec 32) : Queries :=
  let q : Query := ⟨nodes, ∅, {s.id}, dst, 0, isFindValue⟩
  if nodes.length = 1 then
    { s with called := s.called ++ [(nonce, q.failed)] }
  else
    s.sendFind nonce q

/-- `dtun::find_node` on an address: the id of the node is not known yet. -/
def findNode (s : Queries) (nonce : BitVec 32) : Queries :=
  { s with query := s.query.insert nonce ⟨[], {0}, {s.id}, s.id, 1, false⟩ }

/-- `dtun::timer_query::operator()`. -/
def timerQuery (s : Queries) (nonce : BitVec 32) (q : Query) (id : Id) : Queries :=
  s.sendFind nonce (q.timedOut id)

/-- `dtun::recv_find_node_reply`. -/
def recvFindNodeReply (s : Queries) (reply : FindNodeReply) (sender : Sender) : Queries :=
  match s.query.lookup reply.nonce with
  | none => s
  | some q =>
      if reply.dst ≠ s.id ∨ q.dst ≠ reply.id ∨ q.isFindValue then
        s
      else
        let id := if reply.src ∈ q.timers then reply.src else 0
        if id ∉ q.timers then
          s
        else
          let q := q.stopTimer id
          match readNodes sender reply.domain reply.num reply.addrs with
          | none => { s with query := s.query.insert reply.nonce q }
          | some nodes => s.sendFind reply.nonce ((q.heard reply.src).merge nodes)

/-- `dtun::recv_find_value_reply`. -/
def recvFindValueReply (s : Queries) (reply : FindValueReply) (sender : Sender) : Queries :=
  match s.query.lookup reply.nonce with
  | none => s
  | some q =>
      if reply.dst ≠ s.id ∨ q.dst ≠ reply.id ∨ ¬ q.isFindValue then
        s
      else
        let q := if reply.src ∈ q.timers then q.stopTimer reply.src else q
        match readValueNodes sender reply.domain reply.num reply.addrs with
        | none => { s with query := s.query.insert reply.nonce q }
        | some nodes =>
            let q := q.heard reply.src
            match nodes with
            | node :: _ =>
                if reply.flag = 1 then
                  s.finish reply.nonce (.value true (some (node, ⟨reply.src, sender.saddr⟩)))
                else
                  s.sendFind reply.nonce (q.merge nodes)
            | [] => s.sendFind reply.nonce (q.merge nodes)

/-- The events. -/
inductive Input where
  | findNv (dst : Id) (isFindValue : Bool) (nodes : List Cageaddr) (nonce : BitVec 32)
  | findNode (nonce : BitVec 32)
  | timerQuery (nonce : BitVec 32) (id : Id)
  | findNodeReply (reply : FindNodeReply) (sender : Sender)
  | findValueReply (reply : FindValueReply) (sender : Sender)

/-- One event. A timer that does not run raises none. Nothing here stops the program. -/
def step (s : Queries) : Input → Except Empty Queries
  | .findNv dst isFindValue nodes nonce =>
      if s.isEnabled ∧ s.query.lookup nonce = none then
        .ok (s.findNv dst isFindValue nodes nonce)
      else
        .ok s
  | .findNode nonce =>
      if s.isEnabled ∧ s.query.lookup nonce = none then .ok (s.findNode nonce) else .ok s
  | .timerQuery nonce id =>
      match s.query.lookup nonce with
      | none => .ok s
      | some q => if id ∈ q.timers then .ok (s.timerQuery nonce q id) else .ok s
  | .findNodeReply reply sender => .ok (s.recvFindNodeReply reply sender)
  | .findValueReply reply sender => .ok (s.recvFindValueReply reply sender)

end Queries

end Libcage.Dtun
