import Libcage.Dht.Query

/-!
# `Libcage.Peers`: the cache of peers

`Peers` is `peers`: the address of each id that was heard from, and the ids that did not
answer. An entry of `m_map` has its time stamp and session in the key. Two keys are equal
where their ids are, so an insert under an id that is there leaves the map as it is.

The right side of the map is ordered by the address, and a comparison of two addresses
without a socket address throws (`mustNotReach`). Nobody catches it. The call of the
callback function, the walk with `get_first` and `get_next`, and the timer that calls
`refresh` are left out. `time(NULL)` comes with the call.
-/

set_option autoImplicit false

namespace Libcage

open Libcage.Lib
open Libcage.Rdp (Id Table)
open Libcage.Dht (Saddr Cageaddr domainInet domainInet6)

/-- `peers::timeout_ttl`. -/
def timeoutTtl : Int := 30

/-- `peers::map_ttl`. -/
def mapTtl : Int := 300

/-- The fields `t` and `session` of a `peers::__id` in `m_map`, and its `peers::_addr`. -/
structure PeerEntry where
  t : Int
  session : BitVec 32
  addr : Saddr
deriving DecidableEq

/-- The members of `peers`. Of an id in `m_timeout` there is the time stamp. -/
structure Peers where
  map : Table Id PeerEntry
  timeout : Table Id Int

/-- The exception of a comparison of addresses. -/
inductive PeersFault where
  | mustNotReach
deriving DecidableEq

namespace Peers

/-- `peers::peers`. -/
def init : Peers := ⟨∅, ∅⟩

/-- `peers::_addr::operator==`. -/
def sameAddr (lhs rhs : Saddr) : Except PeersFault Bool :=
  match lhs, rhs with
  | .loopback, .loopback => .error .mustNotReach
  | _, _ => .ok (lhs = rhs)

/-- An address in `m_map` that cannot be compared with the one given. -/
def Clashes (s : Peers) (addr : Saddr) : Prop :=
  addr = .loopback ∧ ∃ e ∈ s.map.entries, e.2.addr = .loopback

instance (s : Peers) (addr : Saddr) : Decidable (s.Clashes addr) := by
  unfold Clashes
  infer_instance

/-- `peers::get_addr`. Nothing stands for `std::out_of_range`. -/
def getAddr (s : Peers) (id : Id) : Option Cageaddr :=
  (s.map.lookup id).map fun e => ⟨id, e.addr⟩

/-- `m_map.insert`. -/
def insert (s : Peers) (id : Id) (e : PeerEntry) : Except PeersFault Peers :=
  if (s.map.lookup id).isSome then
    .ok s
  else if s.Clashes e.addr then
    -- The place of the new address is searched among those that are there.
    .error .mustNotReach
  else
    .ok { s with map := s.map.insert id e }

/-- `m_timeout.erase`. -/
def eraseTimeout (s : Peers) (id : Id) : Peers := { s with timeout := s.timeout.erase id }

/-- The entry of an id in `m_map`, with another time stamp. -/
def touch (s : Peers) (id : Id) (e : PeerEntry) (now : Int) : Peers :=
  { s with map := s.map.insert id { e with t := now } }

/-- `peers::add_node`. -/
def addNode (s : Peers) (now : Int) (addr : Cageaddr) (session : BitVec 32) :
    Except PeersFault (Bool × Peers) :=
  if addr.domain ≠ domainInet ∧ addr.domain = domainInet6 then
    .ok (false, s)
  else
    match s.map.lookup addr.id with
    | some it =>
        if it.session = session ∨ it.session = 0 then do
          let s ← s.insert addr.id ⟨now, session, addr.saddr⟩
          return (true, s.eraseTimeout addr.id)
        else do
          if ← sameAddr it.addr addr.saddr then
            return (true, (s.touch addr.id it now).eraseTimeout addr.id)
          else
            return (false, s)
    | none => do
        let s ← s.insert addr.id ⟨now, session, addr.saddr⟩
        return (true, s.eraseTimeout addr.id)

/-- `peers::add_node_force`. -/
def addNodeForce (s : Peers) (now : Int) (addr : Cageaddr) : Except PeersFault Peers :=
  if addr.domain ≠ domainInet ∧ addr.domain ≠ domainInet6 then
    .ok s
  else
    s.insert addr.id ⟨now, 0, addr.saddr⟩

/-- `peers::remove_id`. -/
def removeId (s : Peers) (id : Id) : Peers := { s with map := s.map.erase id }

/-- `peers::remove_addr`. -/
def removeAddr (s : Peers) (addr : Saddr) : Except PeersFault Peers :=
  if s.Clashes addr then
    .error .mustNotReach
  else
    .ok { s with map := filterMap (fun _ e => if e.addr = addr then none else some e) s.map }

/-- `peers::refresh`. -/
def refresh (s : Peers) (now : Int) : Peers where
  map := filterMap (fun _ e => if now - e.t > mapTtl then none else some e) s.map
  timeout := filterMap (fun _ t => if now - t > timeoutTtl then none else some t) s.timeout

/-- `peers::add_timeout`. -/
def addTimeout (s : Peers) (now : Int) (id : Id) : Peers :=
  if s.timeout.lookup id = none then
    s
  else
    -- An insert of an id that is there leaves `m_timeout` as it is.
    { s with
      map := s.map.erase id
      timeout := if (s.timeout.lookup id).isSome then s.timeout else s.timeout.insert id now }

/-- `peers::is_timeout`. -/
def isTimeout (s : Peers) (id : Id) : Bool := (s.timeout.lookup id).isSome

/-- The calls. The time is the one the call reads. -/
inductive Input where
  | addNode (now : Int) (addr : Cageaddr) (session : BitVec 32)
  | addNodeForce (now : Int) (addr : Cageaddr)
  | removeId (id : Id)
  | removeAddr (addr : Saddr)
  | refresh (now : Int)
  | addTimeout (now : Int) (id : Id)
deriving DecidableEq

/-- One call. -/
def step (s : Peers) : Input → Except PeersFault Peers
  | .addNode now addr session => do
      let (_, s) ← s.addNode now addr session
      return s
  | .addNodeForce now addr => s.addNodeForce now addr
  | .removeId id => .ok (s.removeId id)
  | .removeAddr addr => s.removeAddr addr
  | .refresh now => .ok (s.refresh now)
  | .addTimeout now id => .ok (s.addTimeout now id)

end Peers

end Libcage
