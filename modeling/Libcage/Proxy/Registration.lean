import Libcage.Dtun.Query
import Libcage.Proxy.Register

/-!
# `Libcage.Proxy.Registration`: how a node registers with a proxy

`Registration` is the part of `proxy` that registers the node itself. `register_node` looks up
the own id with the DTUN, and `register_func` sends a `msg_proxy_register` to the first other
node that was found. The reply ends the registration, and so does `m_timer_register`.

`lookups` are the queries of `dtun` that have a `register_func` to call. A query that ends in
the call that made it calls its function at once. Whoever else uses `dtun` calls it between the
events of the proxy.
-/

set_option autoImplicit false

namespace Libcage.Proxy

open Libcage.Rdp (Id Table)
open Libcage.Dht (Cageaddr)
open Libcage.Dtun (Queries Called)

/-- `msg_proxy_register_reply`. -/
structure MsgProxyRegisterReply where
  src : Id
  dst : Id
  nonce : BitVec 32
deriving DecidableEq

/-- The members of `proxy` for its own registration, and the queries of `dtun`. The flag
`timerRegister` says whether `m_timer_register` is set. -/
structure Registration where
  id : Id
  isRegistered : Bool
  isRegistering : Bool
  nonce : BitVec 32
  server : Option Cageaddr
  timerRegister : Bool
  dtun : Queries
  lookups : Finset (BitVec 32)
  sent : List (Cageaddr × MsgProxyRegister)

namespace Registration

/-- `proxy::proxy`. The nonce is left unset. -/
def init (id : Id) (isEnabled : Bool) (nonce : BitVec 32) : Registration :=
  ⟨id, false, false, nonce, none, false, .init id isEnabled, ∅, []⟩

/-- `proxy::timer_register::operator()`. -/
def onTimerRegister (s : Registration) : Registration :=
  { s with isRegistering := false, timerRegister := false }

/-- `proxy::register_func::operator()`, with the next random number and `get_session()`. -/
def registerFunc (s : Registration) (rnd session : BitVec 32) (nodes : List Cageaddr) :
    Registration :=
  match nodes.find? (·.id ≠ s.id) with
  | none => s
  | some addr =>
      { s with
        nonce := rnd
        timerRegister := true
        sent := s.sent ++ [(addr, ⟨s.id, addr.id, session, rnd⟩)] }

/-- A call that `dtun` makes. The function is a `register_func` where the query is one of
`lookups`. -/
def called (rnd session : BitVec 32) (s : Registration) : BitVec 32 × Called → Registration
  | (n, .nodes nodes) =>
      if n ∈ s.lookups then
        { s with lookups := s.lookups.erase n }.registerFunc rnd session nodes
      else
        s
  | (_, .value ..) => s

/-- What `dtun` has done, and the calls that it made. -/
def callBack (s : Registration) (dtun : Queries) (rnd session : BitVec 32) : Registration :=
  (dtun.called.drop s.dtun.called.length).foldl (called rnd session) { s with dtun }

/-- `proxy::register_node`, with what `dtun::find_node` finds in its table and the nonce that
it draws. -/
def registerNode (s : Registration) (nodes : List Cageaddr) (n rnd session : BitVec 32) :
    Registration :=
  if s.isRegistering then
    s
  else if s.dtun.isEnabled then
    { s with
      isRegistering := true
      lookups := insert n s.lookups }.callBack (s.dtun.findNv s.id false nodes n) rnd session
  else
    -- `find_node` returns without a call.
    { s with isRegistering := true }

/-- `proxy::recv_register_reply`. -/
def recvRegisterReply (s : Registration) (reply : MsgProxyRegisterReply) (from_ : Sockaddr) :
    Registration :=
  if ¬ s.isRegistering ∨ reply.dst ≠ s.id ∨ s.nonce ≠ reply.nonce then
    s
  else
    { s with
      server := some (newCageaddr reply.src from_)
      isRegistered := true
      isRegistering := false
      timerRegister := false }

/-- The events. -/
inductive Input where
  | registerNode (nodes : List Cageaddr) (n rnd session : BitVec 32)
  | dtun (input : Queries.Input) (rnd session : BitVec 32)
  | setEnabled (flag : Bool)
  | timerRegister
  | recvRegisterReply (reply : MsgProxyRegisterReply) (from_ : Sockaddr)

/-- One event. `dtun` draws no nonce that is in use, and a timer that is not set raises
none. -/
def step (s : Registration) : Input → Except Empty Registration
  | .registerNode nodes n rnd session =>
      if s.dtun.query.lookup n = none then .ok (s.registerNode nodes n rnd session) else .ok s
  | .dtun input rnd session => do
      let dtun ← s.dtun.step input
      return s.callBack dtun rnd session
  | .setEnabled flag => .ok { s with dtun := { s.dtun with isEnabled := flag } }
  | .timerRegister => if s.timerRegister then .ok s.onTimerRegister else .ok s
  | .recvRegisterReply reply from_ => .ok (s.recvRegisterReply reply from_)

end Registration

end Libcage.Proxy
