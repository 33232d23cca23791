import Mathlib.Data.Finset.Card
import Mathlib.Logic.Function.Basic
import Libcage.Dht.FindValue
import Libcage.Dht.Get

/-!
# `Libcage.Dht.Query`: the queries of a node

A query looks for the nodes closest to an id, or for the values of a key. `Queries` has all
query objects that were ever made, `m_query`, and the RDP connections that were opened for a
query and can still raise an event. `step` is one event: a call of `find_node` or
`find_value` that the state of the NAT lets through, a timer, a reply, an event of a
connection, or the sweep.

A query is known to its timers and connections by its place, as `query_ptr`, and may be known
to them after it has been taken out of `m_query`. The field `timers` is the timers that run.
`remove_query` stops them and leaves the entries of the map, which nobody reads again. What
`rttable`, the request cache and `send_msg` do is left out. The calls of callback functions
and of `rdp::connect` are written down in the order they are made. A callback function does
not call back into the node here.

`rdp::connect` returns the number that comes with the event, where it is a descriptor that is
not in use, and `-1` otherwise.
-/

set_option autoImplicit false

namespace Libcage.Dht

open Libcage.Lib
open Libcage.Rdp (Id Table)

/-- `dht::max_query`. -/
def maxQuery : Int := 6

/-- `dht::rdp_timeout`. -/
def rdpTimeout : Int := 30

/-- `dht::rdp_get_port`. -/
def rdpGetPort : BitVec 16 := 101

/-! ### Messages -/

/-- `msg_dht_find_node_reply`. What follows the head is in `addrs`. -/
structure FindNodeReply where
  src : Id
  dst : Id
  nonce : BitVec 32
  id : Id
  domain : BitVec 16
  num : BitVec 8
  addrs : List Byte

/-- `msg_dht_find_value_reply`, as it is received. What follows the head is in `data`. -/
structure FindValueReply where
  src : Id
  dst : Id
  nonce : BitVec 32
  id : Id
  index : BitVec 16
  total : BitVec 16
  flag : BitVec 8
  data : List Byte

/-- The sender of a message, and what the request cache knows of other nodes. -/
structure Sender where
  saddr : Saddr
  isTimeout : Id → Bool

/-- `sizeof(msg_inet)`. -/
def sizeofInet : Nat := 28

/-- `sizeof(msg_inet6)`. -/
def sizeofInet6 : Nat := 40

/-- `read_nodes_inet`. -/
def readNodesInet (sender : Sender) (num : Nat) (bs : List Byte) : List Cageaddr :=
  (List.range num).filterMap fun i =>
    let min := sizeofInet * i
    let id := rd160 bs (min + 8)
    if sender.isTimeout id then
      none
    else if rd16 bs min = 0 ∧ rd32 bs (min + 4) = 0 then
      some ⟨id, sender.saddr⟩
    else
      some ⟨id, .inet (rd16 bs min) (rd32 bs (min + 4))⟩

/-- `read_nodes_inet6`. -/
def readNodesInet6 (sender : Sender) (num : Nat) (bs : List Byte) : List Cageaddr :=
  (List.range num).filterMap fun i =>
    let min6 := sizeofInet6 * i
    let id := rd160 bs (min6 + 20)
    let addr : BitVec 128 := rd32 bs (min6 + 4) ++ (rd32 bs (min6 + 8) ++
      (rd32 bs (min6 + 12) ++ rd32 bs (min6 + 16)))
    if sender.isTimeout id then
      none
    else if rd16 bs min6 = 0 ∧ addr = 0 then
      some ⟨id, sender.saddr⟩
    else
      some ⟨id, .inet6 (rd16 bs min6) addr⟩

/-- The nodes of a reply, where the message is as long as it says. -/
def readNodes (sender : Sender) (domain : BitVec 16) (num : BitVec 8) (bs : List Byte) :
    Option (List Cageaddr) :=
  if domain = domainInet then
    if sizeofInet * num.toNat ≠ bs.length then none else some (readNodesInet sender num.toNat bs)
  else if domain = domainInet6 then
    if sizeofInet6 * num.toNat ≠ bs.length then none else some (readNodesInet6 sender num.toNat bs)
  else
    none

/-- `std::sort` by the distance to an id. -/
def sortNodes (id : Id) (nodes : List Cageaddr) : List Cageaddr :=
  nodes.mergeSort fun lhs rhs => decide (id ^^^ lhs.id ≤ id ^^^ rhs.id)

/-- `rttable::merge_nodes` on what is left of the two lists, with `max - n` rounds left. -/
def mergeNodes (id : Id) : Nat → List Cageaddr → List Cageaddr → List Id → List Cageaddr
  | 0, _, _, _ => []
  | _ + 1, [], [], _ => []
  | n + 1, [], b :: v2, already => push b already (mergeNodes id n [] v2)
  | n + 1, a :: v1, [], already => push a already (mergeNodes id n v1 [])
  | n + 1, a :: v1, b :: v2, already =>
      if a.id = b.id then
        push a already (mergeNodes id n v1 v2)
      else if a.id ^^^ id < b.id ^^^ id then
        push a already (mergeNodes id n v1 (b :: v2))
      else
        push b already (mergeNodes id n (a :: v1) v2)
where
  /-- A node goes to the result once. -/
  push (addr : Cageaddr) (already : List Id) (rest : List Id → List Cageaddr) : List Cageaddr :=
    if addr.id ∈ already then rest already else addr :: rest (addr.id :: already)

/-! ### Queries -/

/-- `dht::query::val_info`. -/
structure ValInfo where
  indeces : Finset (BitVec 16)
  values : Finset Buf
  numValue : BitVec 16

/-- `dht::query`. The fields for a get by RDP and the set of values are in `get`. The value
timer runs while `timerRecvd` is set. A find node query has no key. -/
structure Query where
  nodes : List Cageaddr
  timers : Finset Id
  sent : Finset Id
  dst : Id
  nonce : BitVec 32
  numQuery : Int
  isFindValue : Bool
  key : Option (List Byte)
  keylen : Int
  valinfo : Table Id ValInfo
  get : RdpGet
  ids : List Id
  isRdpCon : Bool
  rdpDesc : Int
  rdpTime : Int
  timerRecvd : Bool
  isTimerRecvdStarted : Bool

namespace Query

/-- The timer of a node is over, and the node is not asked again. -/
def timedOut (q : Query) (id : Id) : Query :=
  { q with
    sent := insert id q.sent
    numQuery := q.numQuery - 1
    timers := q.timers.erase id
    nodes := if id ≠ 0 then q.nodes.filter (·.id ≠ id) else q.nodes }

/-- A node has answered, and the timer under `id` has been stopped. -/
def heard (q : Query) (id src : Id) : Query :=
  { q with
    timers := q.timers.erase id
    sent := insert src q.sent
    numQuery := q.numQuery - 1 }

/-- The nodes of a reply are sorted and merged with those of the query. -/
def merge (q : Query) (nodes : List Cageaddr) : Query :=
  { q with nodes := mergeNodes q.dst numFindNode q.nodes (sortNodes q.dst nodes) [] }

end Query

/-- What a callback function is called with. -/
inductive Called where
  | nodes (nodes : List Cageaddr)
  | value (result : Bool) (vset : Option (Finset Buf))

/-- A connection whose events go to `rdp_get_func`, the place of its query, and the packets
that have not been read. -/
structure Conn where
  query : Nat
  isOpen : Bool
  rqueue : List (List Byte)

/-- A call of `rdp::connect` for a query. -/
structure Connect where
  query : Nat
  sport : BitVec 16
  did : Id
  dport : BitVec 16
deriving DecidableEq

/-- The members of `dht` for queries. The objects that were made are those below `size`. -/
structure Queries where
  id : Id
  isUseRdp : Bool
  obj : Nat → Query
  size : Nat
  query : Table (BitVec 32) Nat
  conns : Table Int Conn
  called : List (Nat × Called)
  connects : List Connect

/-- What stops the program, or a loop that has not ended yet. -/
inductive QueryFault where
  | nullDeref
  | badGet
  | useAfterErase
  | unfinished
deriving DecidableEq

namespace Queries

/-- A node without queries. -/
def init (id : Id) (isUseRdp : Bool) (uninit : Query) : Queries :=
  ⟨id, isUseRdp, fun _ => uninit, 0, ∅, ∅, [], []⟩

def setQuery (s : Queries) (r : Nat) (q : Query) : Queries :=
  { s with obj := Function.update s.obj r q }

/-- A callback function is called. -/
def call (s : Queries) (r : Nat) (c : Called) : Queries := { s with called := s.called ++ [(r, c)] }

/-- `dht::remove_query`. -/
def removeQuery (s : Queries) (r : Nat) : Queries :=
  { s.setQuery r { s.obj r with timers := ∅, timerRecvd := false } with
    query := s.query.erase (s.obj r).nonce }

/-- The loop of `dht::send_find` over the nodes. -/
def sendFindLoop : List Cageaddr → Query → Query
  | [], q => q
  | addr :: nodes, q =>
      if q.numQuery ≥ maxQuery then
        q
      else if addr.id ∈ q.sent then
        sendFindLoop nodes q
      else
        sendFindLoop nodes { q with
          timers := insert addr.id q.timers
          sent := insert addr.id q.sent
          numQuery := q.numQuery + 1 }

/-- The call of a query that has nobody to ask. -/
def failed (q : Query) : Called := if q.isFindValue then .value false none else .nodes q.nodes

/-- `dht::send_find`. -/
def sendFind (s : Queries) (r : Nat) : Queries :=
  if s.isUseRdp ∧ (s.obj r).isFindValue ∧ (s.obj r).isRdpCon then
    s
  else
    let q := sendFindLoop (s.obj r).nodes (s.obj r)
    let s := s.setQuery r q
    if q.numQuery = 0 then (s.call r (failed q)).removeQuery r else s

/-- `dht::recvd_value`. -/
def recvdValue (s : Queries) (r : Nat) : Except QueryFault Queries :=
  let q := s.obj r
  if q.isFindValue then
    .ok ((s.call r (.value true (some q.get.vset))).removeQuery r)
  else
    -- `boost::get` throws, and nobody catches it.
    .error .badGet

/-- `rdp::connect` for a query, and `rdp_desc` with its result. -/
def connect (s : Queries) (r : Nat) (sport : BitVec 16) (did : Id) (dport : BitVec 16)
    (desc : Int) : Queries :=
  let isNew := 0 < desc ∧ s.conns.lookup desc = none
  { s.setQuery r { s.obj r with rdpDesc := if isNew then desc else -1 } with
    conns := if isNew then s.conns.insert desc ⟨r, false, []⟩ else s.conns
    connects := s.connects ++ [⟨r, sport, did, dport⟩] }

/-- `rdp::close` on the connection of a query: no event comes from it after this. -/
def close (s : Queries) (desc : Int) : Queries := { s with conns := s.conns.erase desc }

/-- A new query. The fields that the source leaves unset come from `uninit`. -/
def newQuery (s : Queries) (uninit : Query) (dst : Id) (nonce : BitVec 32) (isFindValue : Bool)
    (nodes : List Cageaddr) : Query :=
  { uninit with
    nodes := nodes
    timers := ∅
    sent := {s.id}
    dst := dst
    nonce := nonce
    numQuery := 0
    isFindValue := isFindValue
    key := none
    valinfo := ∅
    get := { uninit.get with vset := ∅ }
    ids := []
    isRdpCon := false
    timerRecvd := false
    isTimerRecvdStarted := false }

/-- A new query object, which is put into `m_query` under its nonce. -/
def enter (s : Queries) (q : Query) : Queries :=
  { s.setQuery s.size q with size := s.size + 1, query := s.query.insert q.nonce s.size }

/-- `dht::find_nv`. The nodes are those that `lookup` finds, and the nonce is the first random
number that is not in use. -/
def findNv (s : Queries) (uninit : Query) (dst : Id) (key : Option Buf) (nodes : List Cageaddr)
    (nonce : BitVec 32) : Queries :=
  let q := s.newQuery uninit dst nonce key.isSome nodes
  if nodes = [] then
    { (s.setQuery s.size q).call s.size (failed q) with size := s.size + 1 }
  else
    let q := match key with
      | some key => { q with key := some key.1, keylen := key.1.length }
      | none => q
    (s.enter q).sendFind s.size

/-- `dht::find_node` on an address: the id of the node is not known yet. -/
def findNode (s : Queries) (uninit : Query) (nonce : BitVec 32) : Queries :=
  s.enter { s.newQuery uninit s.id nonce false [] with numQuery := 1, timers := {0} }

/-- `dht::timer_query::operator()`. -/
def timerQuery (s : Queries) (nonce : BitVec 32) (id : Id) : Except QueryFault Queries :=
  match s.query.lookup nonce with
  | none => .error .nullDeref
  | some r =>
      .ok ((s.setQuery r ((s.obj r).timedOut id)).sendFind r)

/-- `dht::recv_find_node_reply`. -/
def recvFindNodeReply (s : Queries) (reply : FindNodeReply) (sender : Sender) : Queries :=
  match s.query.lookup reply.nonce with
  | none => s
  | some r =>
      let q := s.obj r
      if reply.dst ≠ s.id ∨ q.dst ≠ reply.id ∨ q.isFindValue then
        s
      else
        let id := if reply.src ∈ q.timers then reply.src else 0
        if id ∉ q.timers then
          s
        else
          match readNodes sender reply.domain reply.num reply.addrs with
          | none => s.setQuery r { q with timers := q.timers.erase id }
          | some nodes => (s.setQuery r ((q.heard id reply.src).merge nodes)).sendFind r

/-- The key and the value of a reply with data, where the message is as long as it says. -/
def readData (bs : List Byte) : Option (List Byte × Buf) :=
  let keylen := rd16 bs 0
  let valuelen := rd16 bs 2
  if bs.length < 4 ∨ 4 + keylen.toNat + valuelen.toNat ≠ bs.length then
    none
  else
    some ((bs.drop 4).take keylen.toNat, Buf.copy valuelen (bs.drop (4 + keylen.toNat)))

/-- `keylen` is the one of the query, and the bytes of the key are compared. -/
def sameKey (q : Query) (key : List Byte) : Except QueryFault Bool :=
  if (key.length : Int) ≠ q.keylen then
    .ok false
  else
    match q.key with
    | none => if key = [] then .ok true else .error .nullDeref
    | some k => .ok (key = k)

/-- A value from a node. -/
def ValInfo.add (info : ValInfo) (index : BitVec 16) (value : Buf) : ValInfo :=
  { info with values := insert value info.values, indeces := insert index info.indeces }

/-- The second half of `dht::recv_find_value_reply` on a value: nothing where the number of
values is another one than before. -/
def addValue (q : Query) (reply : FindValueReply) (value : Buf) : Option Query :=
  let info := (q.valinfo.lookup reply.src).getD ⟨∅, ∅, reply.total⟩
  if info.numValue ≠ reply.total then
    none
  else
    some { q with
      valinfo := q.valinfo.insert reply.src (ValInfo.add info reply.index value)
      get := { q.get with vset := insert value q.get.vset }
      timerRecvd := q.timerRecvd || !q.isTimerRecvdStarted
      isTimerRecvdStarted := true }

/-- Every node that sent values has sent all of them. -/
def Complete (q : Query) : Prop :=
  ∀ info ∈ q.valinfo.entries, ¬ info.2.numValue.toNat > info.2.values.card

instance (q : Query) : Decidable (Complete q) := by
  unfold Complete
  infer_instance

/-- The first half of `dht::recv_find_value_reply`: the timer of the sender stops. -/
def stopTimer (q : Query) (src : Id) : Query := if src ∈ q.timers then q.heard src src else q

/-- What `dht::recv_find_value_reply` does with the data of a reply. -/
def recvData (s : Queries) (now : Int) (r : Nat) (reply : FindValueReply) (sender : Sender)
    (desc : Int) : Except QueryFault Queries :=
  let q := s.obj r
  if reply.flag = dataAreNul ∧ s.isUseRdp then
    if q.isRdpCon then
      .ok (s.setQuery r { q with ids := q.ids ++ [reply.src] })
    else
      .ok ((s.setQuery r { q with isRdpCon := true, rdpTime := now }).connect r 0 reply.src
        rdpGetPort desc)
  else if reply.flag = dataAreValues ∧ ¬ s.isUseRdp then
    match readData reply.data with
    | none => .ok s
    | some (key, value) => do
        if ← sameKey q key then
          match addValue q reply value with
          | none => return s
          | some q => if Complete q then (s.setQuery r q).recvdValue r else return s.setQuery r q
        else
          return s
  else if reply.flag = dataAreNodes then
    if reply.data.length < 4 then
      .ok s
    else
      match readNodes sender (rd16 reply.data 0) (byteAt reply.data 2) (reply.data.drop 4) with
      | none => .ok s
      | some nodes => .ok ((s.setQuery r (q.merge nodes)).sendFind r)
  else
    .ok s

/-- `dht::recv_find_value_reply`. -/
def recvFindValueReply (s : Queries) (now : Int) (reply : FindValueReply) (sender : Sender)
    (desc : Int) : Except QueryFault Queries :=
  match s.query.lookup reply.nonce with
  | none => .ok s
  | some r =>
      let q := s.obj r
      if reply.dst ≠ s.id ∨ q.dst ≠ reply.id then
        .ok s
      else if reply.src ∈ q.timers ∧ ¬ q.isFindValue then
        .ok s
      else
        (s.setQuery r (stopTimer q reply.src)).recvData now r reply sender desc

/-! ### Connections -/

/-- The next candidate, or the nodes again where none is left, after a connection that
brought nothing. -/
def retry (s : Queries) (now : Int) (r : Nat) (desc : Int) : Queries :=
  let q := s.obj r
  match q.ids with
  | id :: ids =>
      (s.setQuery r { q with ids := ids, rdpTime := now }).connect r rdpGetPort id 0 desc
  | [] => (s.setQuery r { q with isRdpCon := false }).sendFind r

/-- `dht::rdp_get_func::close_rdp`. The number `desc'` is for a new connection. -/
def closeRdp (s : Queries) (now : Int) (r : Nat) (desc desc' : Int) : Except QueryFault Queries :=
  let s := s.close desc
  if (s.obj r).get.vset ≠ ∅ then s.recvdValue r else .ok (s.retry now r desc')

/-- `dht::rdp_get_func::operator()` at the event CONNECTED. -/
def connected (s : Queries) (now : Int) (desc : Int) (con : Conn) : Except QueryFault Queries :=
  let q := s.obj con.query
  if q.key = none ∧ q.keylen > 0 then
    -- The key is sent, and there is none.
    .error .nullDeref
  else
    let s := s.setQuery con.query { q with
      isRdpCon := true
      rdpDesc := desc
      rdpTime := now
      get := { q.get with rdpState := .queryHdr } }
    .ok { s with conns := s.conns.insert desc { con with isOpen := true } }

/-- `dht::rdp_get_func::operator()` at the event READY2READ, which packets raise. The time of
the query is set by every round that reads one. -/
def ready2Read (s : Queries) (now : Int) (desc : Int) (con : Conn) (packets : List (List Byte))
    (desc' : Int) : Except QueryFault Queries :=
  let q := s.obj con.query
  let rqueue := con.rqueue ++ packets
  match GetClient.ready2Read ⟨q.get, rqueue, false⟩ with
  | .error _ => .error .unfinished
  | .ok (client, _) =>
      let s := s.setQuery con.query { q with
        get := client.query
        rdpTime := if client.rqueue.length < rqueue.length then now else q.rdpTime }
      if client.isClosed then
        s.closeRdp now con.query desc desc'
      else
        .ok { s with conns := s.conns.insert desc { con with rqueue := client.rqueue } }

/-- The connection of a query has been silent for too long. -/
def Silent (now : Int) (q : Query) : Prop := q.isRdpCon ∧ now - q.rdpTime > rdpTimeout

instance (now : Int) (q : Query) : Decidable (Silent now q) := by
  unfold Silent
  infer_instance

/-- One round of the last loop of `dht::sweep_rdp`. -/
def sweepOne (s : Queries) (now : Int) (nonce : BitVec 32) (desc : Int) :
    Except QueryFault Queries :=
  match s.query.lookup nonce with
  | none => .ok s
  | some r =>
      if Silent now (s.obj r) then
        let s := s.close (s.obj r).rdpDesc
        if (s.obj r).get.vset ≠ ∅ then
          s.recvdValue r
        else
          let s := s.retry now r desc
          -- The iterator is counted up, and its entry may have been erased.
          if s.query.lookup nonce = none then .error .useAfterErase else .ok s
      else
        .ok s

/-- The last loop of `dht::sweep_rdp`, in the order of the nonces. -/
def sweepLoop (now : Int) (desc : BitVec 32 → Int) :
    List (BitVec 32) → Queries → Except QueryFault Queries
  | [], s => .ok s
  | nonce :: nonces, s => s.sweepOne now nonce (desc nonce) >>= sweepLoop now desc nonces

/-- `dht::sweep_rdp` on the queries. -/
def sweepRdp (s : Queries) (now : Int) (desc : BitVec 32 → Int) : Except QueryFault Queries :=
  sweepLoop now desc (s.query.keys.mergeSort fun a b => decide (a ≤ b)) s

/-! ### Events -/

/-- The events. -/
inductive Input where
  | findNv (uninit : Query) (dst : Id) (key : Option Buf) (nodes : List Cageaddr)
      (nonce : BitVec 32)
  | findNode (uninit : Query) (nonce : BitVec 32)
  | timerQuery (r : Nat) (id : Id)
  | findNodeReply (reply : FindNodeReply) (sender : Sender)
  | findValueReply (now : Int) (reply : FindValueReply) (sender : Sender) (desc : Int)
  | timerRecvd (r : Nat)
  | connected (now : Int) (desc : Int)
  | ready2Read (now : Int) (desc : Int) (packets : List (List Byte)) (desc' : Int)
  | disconnected (now : Int) (desc : Int) (desc' : Int)
  | sweepRdp (now : Int) (desc : BitVec 32 → Int)

/-- One event. A timer that does not run and a connection that is not there raise none, and a
connection is open when it raises READY2READ. -/
def step (s : Queries) : Input → Except QueryFault Queries
  | .findNv uninit dst key nodes nonce =>
      if s.query.lookup nonce = none then .ok (s.findNv uninit dst key nodes nonce) else .ok s
  | .findNode uninit nonce =>
      if s.query.lookup nonce = none then .ok (s.findNode uninit nonce) else .ok s
  | .timerQuery r id =>
      if r < s.size ∧ id ∈ (s.obj r).timers then
        (s.setQuery r { s.obj r with timers := (s.obj r).timers.erase id }).timerQuery
          (s.obj r).nonce id
      else
        .ok s
  | .findNodeReply reply sender => .ok (s.recvFindNodeReply reply sender)
  | .findValueReply now reply sender desc => s.recvFindValueReply now reply sender desc
  | .timerRecvd r =>
      if r < s.size ∧ (s.obj r).timerRecvd then
        (s.setQuery r { s.obj r with timerRecvd := false }).recvdValue r
      else
        .ok s
  | .connected now desc =>
      match s.conns.lookup desc with
      | none => .ok s
      | some con => if con.isOpen then .ok s else s.connected now desc con
  | .ready2Read now desc packets desc' =>
      match s.conns.lookup desc with
      | none => .ok s
      | some con =>
          if con.isOpen ∧ con.rqueue ++ packets ≠ [] then
            s.ready2Read now desc con packets desc'
          else
            .ok s
  | .disconnected now desc desc' =>
      match s.conns.lookup desc with
      | none => .ok s
      | some con => s.closeRdp now con.query desc desc'
  | .sweepRdp now desc => s.sweepRdp now desc

end Queries

end Libcage.Dht
