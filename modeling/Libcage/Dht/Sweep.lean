import Libcage.Lib.Cursor
import Libcage.Dht.Query
import Libcage.Dht.StoreRdp

/-!
# `Libcage.Dht.Sweep`: the sweep of the RDP connections

`sweep_rdp` walks four maps and closes the connections that have been silent for too long. The
first three walks are one function, `sweepIdle`, with the map and the time of its entries.
The fourth one walks `m_query` while `send_find` and `recvd_value` take queries out of it and
call callback functions, which may put new queries into it.

A `Reaction` is what a callback function does: it starts queries, and the callback functions of
these may be called before the start returns. `sendFindWith`, `recvdValueWith` and
`findNvWith` are the functions of `Libcage.Dht.Query` with a callback function that reacts. The
walk keeps its place by the nonce of the entry. It stops (`useAfterErase`) where the entry
was erased when the iterator is counted up or read.
-/

set_option autoImplicit false

namespace Libcage.Dht

open Libcage.Lib
open Libcage.Rdp (Id Table)

/-! ### Callback functions -/

/-- A call of `find_node` or `find_value` that the state of the NAT lets through. -/
structure Start where
  uninit : Query
  dst : Id
  key : Option Buf
  nodes : List Cageaddr
  nonce : BitVec 32

/-- What a callback function does: nothing more, or it starts a query and goes on with
`next`. The callback function of that query does what is in `called`. -/
inductive Reaction where
  | done
  | start (query : Start) (called next : Reaction)

namespace Queries

/-- `dht::send_find`. -/
def sendFindWith (react : Queries → Queries) (s : Queries) (r : Nat) : Queries :=
  if s.isUseRdp ∧ (s.obj r).isFindValue ∧ (s.obj r).isRdpCon then
    s
  else
    let q := sendFindLoop (s.obj r).nodes (s.obj r)
    let s := s.setQuery r q
    if q.numQuery = 0 then (react (s.call r (failed q))).removeQuery r else s

/-- `dht::recvd_value`. -/
def recvdValueWith (react : Queries → Queries) (s : Queries) (r : Nat) :
    Except QueryFault Queries :=
  let q := s.obj r
  if q.isFindValue then
    .ok ((react (s.call r (.value true (some q.get.vset)))).removeQuery r)
  else
    .error .badGet

/-- `dht::find_nv`. -/
def findNvWith (react : Queries → Queries) (s : Queries) (start : Start) : Queries :=
  let q := s.newQuery start.uninit start.dst start.nonce start.key.isSome start.nodes
  if start.nodes = [] then
    react { (s.setQuery s.size q).call s.size (failed q) with size := s.size + 1 }
  else
    let q := match start.key with
      | some key => { q with key := some key.1, keylen := key.1.length }
      | none => q
    sendFindWith react (s.enter q) s.size

end Queries

/-- A callback function runs. The nonce of a new query is not in use. -/
def Reaction.run : Reaction → Queries → Queries
  | .done, s => s
  | .start query called next, s =>
      next.run (if s.query.lookup query.nonce = none then s.findNvWith called.run query else s)

/-! ### The first three walks -/

/-- A connection that was last used at `time` has been silent for too long. -/
def Idle (now time : Int) : Prop := now - time > rdpTimeout

instance (now time : Int) : Decidable (Idle now time) := by
  unfold Idle
  infer_instance

section
variable {α : Type} (now : Int) (time : α → Int)

/-- The walk over the descriptors that are left, with those that were closed before. -/
def sweepIdleLoop : List Int → Table Int α → List Int → Table Int α × List Int
  | [], t, closed => (t, closed)
  | desc :: descs, t, closed =>
      match t.lookup desc with
      | none => sweepIdleLoop descs t closed
      | some it =>
          if Idle now (time it) then
            sweepIdleLoop descs (t.erase desc) (closed ++ [desc])
          else
            sweepIdleLoop descs t closed

/-- A walk that closes and erases what is idle: the map, and the descriptors that were
closed. -/
def sweepIdle (t : Table Int α) : Table Int α × List Int :=
  sweepIdleLoop now time (Cursor.inOrder t) t []

end

/-- An entry of `m_rdp_recv_store`, with its `last_time`. -/
structure RecvStoreEntry where
  store : RecvStore
  lastTime : Int

/-- An entry of `m_rdp_recv_get`, with its `m_time`. -/
structure RecvGetEntry where
  get : RdpRecvGet
  time : Int

/-- The tables that `sweep_rdp` walks, and the descriptors for which `rdp::close` was
called. -/
structure RdpTables where
  recvStore : Table Int RecvStoreEntry
  store : Table Int Int
  recvGet : Table Int RecvGetEntry
  queries : Queries
  closed : List Int

namespace RdpTables

/-- The walk over `m_rdp_recv_store`. -/
def sweepRecvStore (now : Int) (s : RdpTables) : RdpTables :=
  let (recvStore, closed) := sweepIdle now RecvStoreEntry.lastTime s.recvStore
  { s with recvStore, closed := s.closed ++ closed }

/-- The walk over `m_rdp_store`. -/
def sweepStore (now : Int) (s : RdpTables) : RdpTables :=
  let (store, closed) := sweepIdle now id s.store
  { s with store, closed := s.closed ++ closed }

/-- The walk over `m_rdp_recv_get`. -/
def sweepRecvGet (now : Int) (s : RdpTables) : RdpTables :=
  let (recvGet, closed) := sweepIdle now RecvGetEntry.time s.recvGet
  { s with recvGet, closed := s.closed ++ closed }

end RdpTables

/-! ### The walk over the queries -/

namespace Queries

/-- The next candidate, or `send_find` where none is left. -/
def retryWith (react : Queries → Queries) (s : Queries) (now : Int) (r : Nat) (desc : Int) :
    Queries :=
  let q := s.obj r
  match q.ids with
  | id :: ids =>
      (s.setQuery r { q with ids := ids, rdpTime := now }).connect r rdpGetPort id 0 desc
  | [] => sendFindWith react (s.setQuery r { q with isRdpCon := false }) r

section
variable (now : Int) (react : Nat → Reaction) (descs : BitVec 32 → Int)

/-- The walk over `m_query` from an entry on: the queries, and the descriptors that were
closed. The callback function of a query does what `react` says, and `rdp::connect` for the
entry of a nonce returns what `descs` says. -/
def sweepQueriesLoop :
    Nat → Option (BitVec 32) → Queries → List Int → Except QueryFault (Queries × List Int)
  | 0, _, _, _ => .error .unfinished
  | _ + 1, none, s, closed => .ok (s, closed)
  | rounds + 1, some nonce, s, closed =>
      match s.query.lookup nonce with
      | none => .error .useAfterErase
      | some r =>
          let q := s.obj r
          if Silent now q then
            let s := s.close q.rdpDesc
            if q.get.vset ≠ ∅ then do
              -- The iterator is counted up before the query is taken out.
              let it := Cursor.next s.query nonce
              let s ← recvdValueWith (react r).run s r
              sweepQueriesLoop rounds it s (closed ++ [q.rdpDesc])
            else
              let s := retryWith (react r).run s now r (descs nonce)
              if s.query.lookup nonce = none then
                .error .useAfterErase
              else
                sweepQueriesLoop rounds (Cursor.next s.query nonce) s (closed ++ [q.rdpDesc])
          else
            sweepQueriesLoop rounds (Cursor.next s.query nonce) s closed

/-- The walk over `m_query`. The nonces go up, so there are no more rounds than nonces. -/
def sweepQueries (s : Queries) : Except QueryFault (Queries × List Int) :=
  sweepQueriesLoop now react descs (2 ^ 32 + 1) (Cursor.start s.query) s []

end

end Queries

/-- `dht::sweep_rdp`. -/
def RdpTables.sweepRdp (s : RdpTables) (now : Int) (react : Nat → Reaction)
    (descs : BitVec 32 → Int) : Except QueryFault RdpTables := do
  let s := ((s.sweepRecvStore now).sweepStore now).sweepRecvGet now
  let (queries, closed) ← s.queries.sweepQueries now react descs
  return { s with queries, closed := s.closed ++ closed }

end Libcage.Dht
