import Libcage.Dtun.Query

/-!
# `Libcage.Dtun.Request`: the requests of `dtun`

`dtun::request` asks for the address of a node. It looks for a node that knows it with
`find_value`, sends the request there, and waits for the reply of the node. `Requests` is
`m_request` with the queries of `find_value` that a request has started and the timers of
requests. `step` is one event: a call of `request` or `set_enabled`, the end of a lookup, a
reply, or a timer.

A query ends with any result and at any time here, `Libcage.Dtun.Query` says when. A callback
function is known by the number of its request, and does not call back into the node. The
source does not keep this number in `request_find_value`, and no function here reads it there.
What the request cache does is left out.
-/

set_option autoImplicit false

namespace Libcage.Dtun

open Libcage.Rdp (Id Table)
open Libcage.Dht (Saddr Cageaddr)

/-- `dtun::request_retry`. -/
def requestRetry : Nat := 2

/-- `msg_dtun_request_reply`. -/
structure RequestReply where
  src : Id
  dst : Id
  nonce : BitVec 32

/-- `dtun::request_query`. `retry` is an `int` in the source, and never gets below 0. -/
structure RequestQuery where
  func : Nat
  dst : Id
  finishedFindValue : Bool
  retry : Nat

/-- `dtun::request_find_value`, and the number of the request that made it. -/
structure RequestFindValue where
  nonce : BitVec 32
  func : Nat

/-- What `find_nv` finds: the nodes of `lookup`, and a random number for the query. -/
structure FindStart where
  nodes : List Cageaddr
  nonce : BitVec 32

/-- A message that is sent. -/
inductive RequestSent where
  | ping (dst : Id) (saddr : Saddr)
  | request (dst : Id) (id : Id) (nonce : BitVec 32) (saddr : Saddr)
deriving DecidableEq

/-- What happens where the program would crash. -/
inductive RequestFault where
  /-- `operator[]` makes a record that is null, and the record is used. -/
  | nullRecord
  /-- The timer of a record that has been freed is raised. -/
  | freedTimer
deriving DecidableEq

/-- The members of `dtun` for requests. `query` is the part of `m_query` that requests have
started, and `made` the number of requests. A timer is known by its request. -/
structure Requests where
  id : Id
  isEnabled : Bool
  query : Table (BitVec 32) RequestFindValue
  requests : Table (BitVec 32) RequestQuery
  timers : Table Nat (BitVec 32)
  made : Nat
  called : List (Nat × Option Cageaddr)
  sent : List RequestSent

namespace Requests

/-- A node without requests. -/
def init (id : Id) (isEnabled : Bool) : Requests := ⟨id, isEnabled, ∅, ∅, ∅, 0, [], []⟩

/-- The callback function of a record is called, and the record is taken out of `m_request`. -/
def finish (s : Requests) (nonce : BitVec 32) (q : RequestQuery) (addr : Option Cageaddr) :
    Requests :=
  { s with
    requests := s.requests.erase nonce
    called := s.called ++ [(q.func, addr)] }

/-- Whether `find_nv` calls its callback function before it returns: there is nobody to ask. -/
def failsAtOnce (s : Requests) (dst : Id) (start : FindStart) : Bool :=
  let q : Query := ⟨start.nodes, ∅, {s.id}, dst, 0, true⟩
  decide (start.nodes.length = 1) || decide ((q.sendFindLoop q.nodes).numQuery = 0)

/-- `dtun::find_value` of a request. `failed` is `fv` on the result `false`. -/
def findValue (s : Requests) (dst : Id) (fv : RequestFindValue) (start : FindStart)
    (failed : Requests → Requests) : Requests :=
  if ¬ s.isEnabled then
    s
  else if s.failsAtOnce dst start then
    failed s
  else
    { s with query := s.query.insert start.nonce fv }

/-- `request_find_value::operator()` on the result `false`. The record is `q`, and the last
argument is its `retry`. -/
def lookupFailed (fv : RequestFindValue) (q : RequestQuery) (start : FindStart) :
    Nat → Requests → Requests
  | 0, s => s.finish fv.nonce q none
  | retry + 1, s =>
      let q := { q with retry }
      let s := { s with requests := s.requests.insert fv.nonce q }
      if retry > 0 then
        s.findValue q.dst fv start (lookupFailed fv q start retry)
      else
        s.finish fv.nonce q none

/-- `request_find_value::operator()`. The result is the address of the node that was looked
for, as it is known to the node that has sent it. -/
def requestFindValue (s : Requests) (fv : RequestFindValue) (start : FindStart)
    (result : Option (Cageaddr × Cageaddr)) : Except RequestFault Requests :=
  match s.requests.lookup fv.nonce with
  | none => .error .nullRecord
  | some q =>
      match result with
      | none => .ok (lookupFailed fv q start q.retry s)
      | some (addr, sender) =>
          .ok { s with
            requests := s.requests.insert fv.nonce { q with finishedFindValue := true }
            timers := s.timers.insert q.func fv.nonce
            sent := s.sent ++ [.ping addr.id addr.saddr,
              .request sender.id addr.id fv.nonce sender.saddr] }

/-- `dtun::request`, with the first random number that is not in use. -/
def request (s : Requests) (dst : Id) (nonce : BitVec 32) (start : FindStart) : Requests :=
  let q : RequestQuery := ⟨s.made, dst, false, requestRetry⟩
  let fv : RequestFindValue := ⟨nonce, s.made⟩
  let s := { s with
    requests := s.requests.insert nonce q
    made := s.made + 1 }
  s.findValue dst fv start (lookupFailed fv q start q.retry)

/-- The callback function of a query of `find_value` is called, and the query is taken out of
`m_query`. -/
def lookupEnds (s : Requests) (nonce : BitVec 32) (fv : RequestFindValue) (start : FindStart)
    (result : Option (Cageaddr × Cageaddr)) : Except RequestFault Requests :=
  { s with query := s.query.erase nonce }.requestFindValue fv start result

/-- `dtun::recv_request_reply`. -/
def recvRequestReply (s : Requests) (reply : RequestReply) (saddr : Saddr) : Requests :=
  if reply.dst ≠ s.id then
    s
  else
    match s.requests.lookup reply.nonce with
    | none => s
    | some q =>
        if q.dst ≠ reply.src then
          s
        else
          { s with timers := s.timers.erase q.func }.finish reply.nonce q
            (some ⟨reply.src, saddr⟩)

/-- `dtun::timer_request::operator()`, where the record of the timer has not been freed. -/
def timerRequest (s : Requests) (func : Nat) (nonce : BitVec 32) : Except RequestFault Requests :=
  match s.requests.lookup nonce with
  | none => .error .freedTimer
  | some q =>
      if q.func ≠ func then
        .error .freedTimer
      else
        .ok ({ s with timers := s.timers.erase func }.finish nonce q none)

/-- The events. -/
inductive Input where
  | setEnabled (isEnabled : Bool)
  | request (dst : Id) (nonce : BitVec 32) (start : FindStart)
  | lookupEnds (nonce : BitVec 32) (result : Option (Cageaddr × Cageaddr)) (start : FindStart)
  | requestReply (reply : RequestReply) (saddr : Saddr)
  | timerRequest (func : Nat)

/-- One event. A random number that is in use is not taken, and a timer that does not run is
not raised. -/
def step (s : Requests) : Input → Except RequestFault Requests
  | .setEnabled isEnabled => .ok { s with isEnabled }
  | .request dst nonce start =>
      if s.requests.lookup nonce = none ∧ s.query.lookup start.nonce = none then
        .ok (s.request dst nonce start)
      else
        .ok s
  | .lookupEnds nonce result start =>
      match s.query.lookup nonce with
      | none => .ok s
      | some fv =>
          if s.query.lookup start.nonce = none then
            s.lookupEnds nonce fv start result
          else
            .ok s
  | .requestReply reply saddr => .ok (s.recvRequestReply reply saddr)
  | .timerRequest func =>
      match s.timers.lookup func with
      | none => .ok s
      | some nonce => s.timerRequest func nonce

end Requests

end Libcage.Dtun
