import Mathlib.Data.Finset.Insert
import Mathlib.Data.Finset.Erase
import Libcage.Rdp.Machine

/-!
# `Libcage.Dht.Rttable`: the routing table

`Rttable` is `rttable`: rows of contacts by their distance, the set of their ids, and the
pings to the front of a full row that have not been answered. A ping waits in `pingWait`
under its nonce, together with the contact that takes the place of a silent one two
seconds later. `step` is one call from outside.

A `pop_front` on an empty row stops the program. The loop that draws a nonce works on the
random numbers to come, and has not ended where they run out. `send_ping` and
`peers::add_timeout` are left out: neither touches the table.
-/

set_option autoImplicit false

namespace Libcage.Dht

open Libcage.Rdp (Id Table)

/-- A socket address. A `cageaddr` of the own node has none. -/
inductive Saddr where
  | loopback
  | inet (port : BitVec 16) (addr : BitVec 32)
  | inet6 (port : BitVec 16) (addr : BitVec 128)
deriving DecidableEq

/-- `cageaddr`. The field `domain` is the one of the socket address. -/
structure Cageaddr where
  id : Id
  saddr : Saddr
deriving DecidableEq

/-- `cageaddr::domain`: `domain_loopback`, `domain_inet` or `domain_inet6`. -/
def Cageaddr.domain (addr : Cageaddr) : BitVec 16 :=
  match addr.saddr with
  | .loopback => 0
  | .inet .. => 1
  | .inet6 .. => 2

/-- `rttable::max_entry`. -/
def maxEntry : Nat := 20

/-- `rttable::timer_ping`. -/
structure TimerPing where
  addrOld : Cageaddr
  addrNew : Cageaddr
  i : Int

/-- The members of `rttable`. -/
structure Rttable where
  id : Id
  table : Table Int (List Cageaddr)
  pingWait : Table (BitVec 32) TimerPing
  pingSend : Finset Int
  nodes : Finset Id

/-- What stops the program, or a loop that has not ended yet. -/
inductive TableFault where
  | popEmpty
  | unfinished
deriving DecidableEq

/-- The loop of `rttable::id2i`, from bit `i - 1` of the distance down. -/
def id2iLoop (d : Id) : Nat → Int
  | 0 => -1
  | i + 1 => if d &&& (1#160 <<< i) > 0 then i else id2iLoop d i

/-- `rttable::id2i`. -/
def id2i (own id : Id) : Int := id2iLoop (own ^^^ id) 160

namespace Rttable

/-- `rttable::rttable`. -/
def init (id : Id) : Rttable := ⟨id, ∅, ∅, ∅, ∅⟩

/-- `m_table[i]`. -/
def row (t : Rttable) (i : Int) : List Cageaddr := (t.table.lookup i).getD []

/-- The loop of `rttable::add` that draws a nonce. -/
def pickNonce (pingWait : Table (BitVec 32) TimerPing) :
    List (BitVec 32) → Except TableFault (BitVec 32)
  | [] => .error .unfinished
  | nonce :: rnd => if (pingWait.lookup nonce).isNone then .ok nonce else pickNonce pingWait rnd

/-- `rttable::add` on a row that is there. -/
def addToRow (t : Rttable) (rnd : List (BitVec 32)) (i : Int) (addr : Cageaddr) :
    Except TableFault Rttable :=
  let row := t.row i
  if row.any fun a => a.id = addr.id then
    .ok { t with table := t.table.insert i (row.eraseP (fun a => a.id = addr.id) ++ [addr]) }
  else if row.length < maxEntry then
    .ok { t with table := t.table.insert i (row ++ [addr]), nodes := insert addr.id t.nodes }
  else if i ∈ t.pingSend then
    .ok t
  else
    match row with
    | [] => .error .popEmpty
    | addrOld :: _ => do
        let nonce ← pickNonce t.pingWait rnd
        return { t with
          pingWait := t.pingWait.insert nonce ⟨addrOld, addr, i⟩
          pingSend := insert i t.pingSend }

/-- `rttable::add`. -/
def add (t : Rttable) (rnd : List (BitVec 32)) (addr : Cageaddr) : Except TableFault Rttable :=
  if addr.id = t.id then
    .ok t
  else
    let i := id2i t.id addr.id
    if i < 0 ∨ addr.id ∈ t.nodes then
      .ok t
    else if (t.table.lookup i).isNone then
      .ok { t with table := t.table.insert i [addr], nodes := insert addr.id t.nodes }
    else
      t.addToRow rnd i addr

/-- `rttable::remove`. -/
def remove (t : Rttable) (id : Id) : Rttable :=
  if id ∉ t.nodes then
    t
  else
    let i := id2i t.id id
    let row := (t.row i).eraseP fun a => a.id = id
    { t with
      table := if row = [] then t.table.erase i else t.table.insert i row
      nodes := t.nodes.erase id }

/-- `rttable::timer_ping::operator()`, while the ping still waits. -/
def timerPing (t : Rttable) (nonce : BitVec 32) : Except TableFault Rttable :=
  match t.pingWait.lookup nonce with
  | none => .ok t
  | some ping =>
      match t.row ping.i with
      | [] => .error .popEmpty
      | _ :: row =>
          .ok { t with
            table := t.table.insert ping.i (row ++ [ping.addrNew])
            pingSend := t.pingSend.erase ping.i
            nodes := insert ping.addrNew.id (t.nodes.erase ping.addrOld.id)
            pingWait := t.pingWait.erase nonce }

/-- The comparison of `rttable::recv_ping_reply`. -/
def answers (src old : Cageaddr) : Bool :=
  match src.saddr, old.saddr with
  | .inet port addr, .inet port' addr' => src.id = old.id ∧ port = port' ∧ addr = addr'
  -- `memcmp` is given the length `sizeof(in6_addr) == 0` and finds no difference, which the
  -- source takes for another address.
  | _, _ => false

/-- `rttable::recv_ping_reply`. -/
def recvPingReply (t : Rttable) (src : Cageaddr) (nonce : BitVec 32) :
    Except TableFault Rttable :=
  match t.pingWait.lookup nonce with
  | none => .ok t
  | some ping =>
      if answers src ping.addrOld then
        match t.row ping.i with
        | [] => .error .popEmpty
        | _ :: row =>
            .ok { t with
              table := t.table.insert ping.i (row ++ [ping.addrOld])
              pingSend := t.pingSend.erase ping.i
              pingWait := t.pingWait.erase nonce }
      else
        .ok t

/-- The calls from outside. -/
inductive Input where
  | add (rnd : List (BitVec 32)) (addr : Cageaddr)
  | remove (id : Id)
  | timerPing (nonce : BitVec 32)
  | recvPingReply (src : Cageaddr) (nonce : BitVec 32)

/-- One call. -/
def step (t : Rttable) : Input → Except TableFault Rttable
  | .add rnd addr => t.add rnd addr
  | .remove id => .ok (t.remove id)
  | .timerPing nonce => t.timerPing nonce
  | .recvPingReply src nonce => t.recvPingReply src nonce

end Rttable

end Libcage.Dht
