import Mathlib.Logic.Function.Basic
import Libcage.Dht.Store

/-!
# `Libcage.Dht.Replication`: nodes that restore each other's records

A restore sends the records of a node to the nodes that are closest to them. `Replication` is
all nodes, each with its own store, and the messages that restores have sent. An event is a
restore, the arrival of one of these messages, or anything else that happens at one node.

Messages take no time: one arrives at the time of the restore that sent it, whenever its turn
comes, any number of times or never. A restore that looks for nodes gets its answer at once.
A record that comes into a store in another way than by such a message is an original.
-/

set_option autoImplicit false

namespace Libcage.Dht

open Libcage.Rdp (Id)

/-- A message of a restore. By RDP the functor sends its fields to the node it is connected
to. -/
inductive Packet where
  | udp (req : MsgDhtStore)
  | rdp (dst : Id) (func : StoreFunc)

/-- The time to live in the message. -/
def Packet.ttl : Packet → BitVec 16
  | .udp req => req.ttl
  | .rdp _ func => func.ttl

/-- What a restore has sent for a record, and when. -/
structure Replica where
  record : StoredData
  time : Int
  packet : Packet

/-- The nodes, the records that were not brought by a restore, and the messages of the
restores. -/
structure Replication where
  node : Id → Store
  originals : List StoredData
  replicas : List Replica

namespace Replication

/-- Nodes that have nothing stored. -/
def init (isUseRdp : Id → Bool) : Replication := ⟨fun id => .init id (isUseRdp id), [], []⟩

/-- The record that an event brings to the node `mId`. The callback of a lookup that does not
find its record puts one there. -/
def brought (mId : Id) : Store.Input → Option StoredData
  | .store now func => some (func.sdata now originalPutNum)
  | .found func _ uninit =>
      some { func.sdata uninit.storedTime uninit.original with ttl := uninit.ttl }
  | .recvStore now req uninit => if req.Accepted mId then some (req.sdata now uninit) else none
  | .store2local now rs => some (rs.sdata now)
  | _ => none

/-- The messages for one record. `answer` has the nodes that `find_node` finds. -/
def packets (mId : Id) (answer : StoreFunc → List Cageaddr) (r : Restored) : List Packet :=
  r.udp.map Packet.udp ++ ((r.rdp.map fun p => Packet.rdp p.1 p.2) ++
    r.finding.flatMap fun func =>
      (StoreFunc.storeByRdp mId (answer func)).2.map fun dst => Packet.rdp dst func)

/-- The messages of a restore. -/
def restoring (s : Store) (now : Int) (lookup : Id → List Cageaddr)
    (connect : StoredData → Id → Bool) (answer : StoreFunc → List Cageaddr) : List Replica :=
  s.stored.entries.flatMap fun ids =>
    if lookup ids.1 = [] then
      []
    else
      ids.2.entries.flatMap fun keys =>
        keys.2.entries.flatMap fun values =>
          (packets s.id answer (restoreOne s.id s.isUseRdp now (lookup ids.1) connect values.2)).map
            fun packet => ⟨values.2, now, packet⟩

/-- A message arrives at the time it was sent. An RDP store without key or value is refused,
and its flag is left unset where the message does not have it. -/
def received (replica : Replica) (uninit : Bool) : Id × Option Store.Input :=
  match replica.packet with
  | .udp req => (req.dst, some (.recvStore replica.time req uninit))
  | .rdp dst func =>
      if func.key.1 = [] ∨ func.value.1 = [] then
        (dst, none)
      else
        (dst, some (.store2local replica.time
          ⟨func.key, func.value, func.ttl, func.id, func.origin, func.isUnique || uninit⟩))

/-- The events. -/
inductive Input where
  | node (i : Id) (input : Store.Input)
  | restore (i : Id) (now : Int) (lookup : Id → List Cageaddr) (connect : StoredData → Id → Bool)
      (answer : StoreFunc → List Cageaddr)
  | arrive (n : Nat) (uninit : Bool)

/-- One event at one node. -/
def stepAt (s : Replication) (i : Id) (input : Store.Input) : Except StoreFault Replication := do
  let store ← (s.node i).step input
  return { s with node := Function.update s.node i store }

/-- One event. A restore is an event of its own. -/
def step (s : Replication) : Input → Except StoreFault Replication
  | .node _ (.restore ..) => .ok s
  | .node i input => do
      let s ← s.stepAt i input
      return { s with originals := s.originals ++ (brought i input).toList }
  | .restore i now lookup connect answer => do
      let sent := restoring (s.node i) now lookup connect answer
      let s ← s.stepAt i (.restore now lookup connect)
      return { s with replicas := s.replicas ++ sent }
  | .arrive n uninit =>
      match s.replicas[n]? with
      | none => .ok s
      | some replica =>
          match received replica uninit with
          | (_, none) => .ok s
          | (i, some input) => s.stepAt i input

end Replication

end Libcage.Dht
