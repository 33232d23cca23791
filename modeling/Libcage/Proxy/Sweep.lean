import Libcage.Dht.Sweep
import Libcage.Proxy.ClientGets

/-!
# `Libcage.Proxy.Sweep`: the sweep of the RDP connections of a proxy

`sweep_rdp` walks five maps and closes the connections that have been silent for too long. The
first four walks are `Dht.sweepIdle`, with the `rdp_timeout` of `dht`, which is the same. The
last one is about the replies to the gets of a client. It has a body of its own: the difference
that it compares is `m_time` itself, and it completes a get where the record is not found. The
iterator then is the end of `m_getdata`, and reading it stops the program (`endDeref`).

An entry of the first four maps is known by its time. Of the callback functions of the gets
none is ever called here. `closed` has the descriptors for which `rdp::close` was called.
-/

set_option autoImplicit false

namespace Libcage.Proxy

open Libcage.Lib
open Libcage.Rdp (Table)
open Libcage.Dht (sweepIdle)

/-- The tables that `sweep_rdp` walks: `m_rdp_store`, `m_rdp_recv_store`, `m_rdp_recv_get` and
`m_rdp_get_reply` with their times, and `m_rdp_recv_get_reply` and `m_getdata` in `gets`. -/
structure ProxyTables where
  rdpStore : Table Int Int
  rdpRecvStore : Table Int Int
  rdpRecvGet : Table Int Int
  rdpGetReply : Table Int Int
  gets : ClientGets
  closed : List Int

namespace ProxyTables

/-- The walk over `m_rdp_store`. -/
def sweepStore (now : Int) (s : ProxyTables) : ProxyTables :=
  let (rdpStore, closed) := sweepIdle now id s.rdpStore
  { s with rdpStore, closed := s.closed ++ closed }

/-- The walk over `m_rdp_recv_store`. -/
def sweepRecvStore (now : Int) (s : ProxyTables) : ProxyTables :=
  let (rdpRecvStore, closed) := sweepIdle now id s.rdpRecvStore
  { s with rdpRecvStore, closed := s.closed ++ closed }

/-- The walk over `m_rdp_recv_get`. -/
def sweepRecvGet (now : Int) (s : ProxyTables) : ProxyTables :=
  let (rdpRecvGet, closed) := sweepIdle now id s.rdpRecvGet
  { s with rdpRecvGet, closed := s.closed ++ closed }

/-- The walk over `m_rdp_get_reply`. -/
def sweepGetReply (now : Int) (s : ProxyTables) : ProxyTables :=
  let (rdpGetReply, closed) := sweepIdle now id s.rdpGetReply
  { s with rdpGetReply, closed := s.closed ++ closed }

/-- `rdp::close`, and the entry of a reply is erased. -/
def closeReply (s : ProxyTables) (desc : Int) : ProxyTables :=
  { s with gets := s.gets.closeReply desc, closed := s.closed ++ [desc] }

/-- One round of the walk over `m_rdp_recv_get_reply`. -/
def sweepReply (s : ProxyTables) (desc : Int) : Except GetsFault ProxyTables :=
  match s.gets.recvGetReply.lookup desc with
  | none => .ok s
  | some it5 =>
      if it5.time > rdpTimeout then
        match it5.ptr.state with
        | .rgrHdr => .ok (s.closeReply desc)
        | .rgrValHdr | .rgrVal =>
            match s.gets.getdata.lookup it5.ptr.nonce with
            | none => .error .endDeref
            | some _ => .ok (s.closeReply desc)
      else
        .ok s

/-- The walk over `m_rdp_recv_get_reply`, with the descriptors that are left. -/
def sweepReplies : List Int → ProxyTables → Except GetsFault ProxyTables
  | [], s => .ok s
  | desc :: descs, s => s.sweepReply desc >>= sweepReplies descs

/-- `proxy::sweep_rdp`. -/
def sweepRdp (s : ProxyTables) (now : Int) : Except GetsFault ProxyTables :=
  let s := (((s.sweepStore now).sweepRecvStore now).sweepRecvGet now).sweepGetReply now
  sweepReplies (Cursor.inOrder s.gets.recvGetReply) s

end ProxyTables

end Libcage.Proxy
