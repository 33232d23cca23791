import Libcage.Dtun.Register

/-!
# `Libcage.Proxy.Register`: the clients of a proxy

`RegisteredClients` is the part of `proxy` that keeps the addresses of the clients it relays
for. `recv_register` enters a client, or sets its address where the message has its session.
Any other message is dropped. A client that is entered is also registered with the DTUN
(`registerNode`), and each message that is not dropped is answered. `refresh` takes out the
clients that were silent for `register_ttl` seconds.
-/

set_option autoImplicit false

namespace Libcage.Proxy

open Libcage.Lib
open Libcage.Rdp (Id Table)
open Libcage.Dht (Cageaddr)

/-- `proxy::register_ttl`. -/
def registerTtl : Int := 300

/-- `msg_proxy_register`. -/
structure MsgProxyRegister where
  src : Id
  dst : Id
  session : BitVec 32
  nonce : BitVec 32
deriving DecidableEq

/-- `proxy::_addr`. -/
structure Addr where
  session : BitVec 32
  addr : Cageaddr
  recvTime : Int
deriving DecidableEq

/-- What `proxy::recv_register` calls: `dtun::register_node`, or `send_msg` with a
`msg_proxy_register_reply`. -/
inductive Registering where
  | registerNode (src : Id) (session : BitVec 32)
  | reply (dst : Cageaddr) (nonce : BitVec 32)
deriving DecidableEq

/-- The members of `proxy` for registrations, and the calls that were made. -/
structure RegisteredClients where
  id : Id
  registered : Table Id Addr
  calls : List Registering

namespace RegisteredClients

/-- No client is registered. -/
def init (id : Id) : RegisteredClients := ⟨id, ∅, []⟩

/-- `proxy::recv_register`. -/
def recvRegister (s : RegisteredClients) (now : Int) (reg : MsgProxyRegister)
    (from_ : Sockaddr) : RegisteredClients :=
  if reg.dst ≠ s.id then
    s
  else
    let addr := newCageaddr reg.src from_
    match s.registered.lookup addr.id with
    | none =>
        { s with
          registered := s.registered.insert addr.id ⟨reg.session, addr, now⟩
          calls := s.calls ++ [.registerNode addr.id reg.session, .reply addr reg.nonce] }
    | some it =>
        if it.session = reg.session then
          { s with
            registered := s.registered.insert addr.id { it with addr := addr, recvTime := now }
            calls := s.calls ++ [.reply addr reg.nonce] }
        else
          s

/-- `proxy::refresh`. -/
def refresh (s : RegisteredClients) (now : Int) : RegisteredClients :=
  { s with
    registered :=
      filterMap (fun _ a => if now - a.recvTime > registerTtl then none else some a)
        s.registered }

/-- `proxy::is_registered`. -/
def isRegistered (s : RegisteredClients) (id : Id) : Bool := (s.registered.lookup id).isSome

/-- The events. -/
inductive Input where
  | recvRegister (now : Int) (reg : MsgProxyRegister) (from_ : Sockaddr)
  | refresh (now : Int)
deriving DecidableEq

/-- One event. -/
def step (s : RegisteredClients) : Input → Except Empty RegisteredClients
  | .recvRegister now reg from_ => .ok (s.recvRegister now reg from_)
  | .refresh now => .ok (s.refresh now)

end RegisteredClients

end Libcage.Proxy
