import Libcage.Cage
import Libcage.Proxy.Get
import Libcage.Rdp.Connection

/-!
# `Libcage.Proxy.ClientGets`: the gets of a client

`ClientGets` is the part of `proxy` that gets values from the server of a client: `m_getdata`
with the timers of the gets, `m_rdp_get` with the connections that carry a request, and
`m_rdp_recv_get_reply` with those that bring a reply. A get ends with a reply over UDP, with the
end of a reply connection, with the end of its request connection, or with its timer.

A callback function is known by the number of its get, and does not call back into the node
here. What is sent, and the closing of a connection whose entry is erased, are left out.
`Libcage.Proxy.Get` has the two ends of a reply connection. Whether the node is registered and
uses RDP comes with the call of `get`, and `time(NULL)` with the event that reads it. What a
header has on the stack where nothing was written is `uninit`.
-/

set_option autoImplicit false

namespace Libcage.Proxy

open Libcage.Lib
open Libcage.Rdp (Id Table RdpEvent)

/-- `proxy::rdp_timeout`. -/
def rdpTimeout : Int := 30

/-- The size of the buffer in `proxy::get`. -/
def sizeofGetBuf : Nat := 1024 * 4

/-- `sizeof(msg_proxy_get) - sizeof(msg_proxy_get::key)`. -/
def sizeofGetHead : Nat := 76

/-- `sizeof(msg_proxy_get_reply) - sizeof(msg_proxy_get_reply::data)`. -/
def sizeofGetReplyHead : Nat := 80

/-- `proxy::getdata`. For a get by UDP `desc` is left unset. `indeces` is never read. -/
structure GetData where
  func : Nat
  vset : Finset Cells
  total : Nat
  isRdp : Bool
  desc : Int

/-- `proxy::rdp_get`. Its `m_data` is the `getdata` with the same function. -/
structure RdpGet where
  func : Nat
  nonce : BitVec 32

/-- An entry of `m_rdp_recv_get_reply`, its `m_time`, and the packets that have not been
read. -/
structure ReplyConn where
  ptr : RdpRecvGetReply
  time : Int
  rqueue : List (List Byte)

/-- What stops the program, or a loop that has not ended yet. -/
inductive GetsFault where
  | endDeref
  | useAfterErase
  | unfinished
deriving DecidableEq

/-- The members of `proxy` for gets, and the calls of the callback functions. A timer is known
by its get, and has the nonce of it. -/
structure ClientGets where
  id : Id
  getdata : Table (BitVec 32) GetData
  timers : Table Nat (BitVec 32)
  rdpGet : Table Int RdpGet
  recvGetReply : Table Int ReplyConn
  made : Nat
  called : List (Nat × Bool × Finset Cells)

namespace ClientGets

/-- A client without gets. -/
def init (id : Id) : ClientGets := ⟨id, ∅, ∅, ∅, ∅, 0, []⟩

/-- A callback function is called. -/
def call (s : ClientGets) (func : Nat) (result : Bool) (vset : Finset Cells) : ClientGets :=
  { s with called := s.called ++ [(func, result, vset)] }

/-- The callback function of a get is called, its timer is unset, and its entry erased. -/
def finish (s : ClientGets) (nonce : BitVec 32) (it : GetData) (result : Bool)
    (vset : Finset Cells) : ClientGets :=
  { s.call it.func result vset with
    timers := s.timers.erase it.func
    getdata := s.getdata.erase nonce }

/-! ### Getting -/

/-- The get that comes next is called at once. -/
def fail (s : ClientGets) : ClientGets := { s.call s.made false ∅ with made := s.made + 1 }

/-- The get that comes next is put into `m_getdata`, and its timer starts. -/
def enter (s : ClientGets) (nonce : BitVec 32) (isRdp : Bool) (desc : Int) : ClientGets :=
  { s with
    getdata := s.getdata.insert nonce ⟨s.made, ∅, 0, isRdp, desc⟩
    timers := s.timers.insert s.made nonce
    made := s.made + 1 }

/-- `proxy::get_by_rdp`, with the result of `rdp::connect`. -/
def getByRdp (s : ClientGets) (nonce : BitVec 32) (desc : Int) : ClientGets :=
  { s.enter nonce true desc with rdpGet := s.rdpGet.insert desc ⟨s.made, nonce⟩ }

/-- `proxy::get`, with the first random number that is not in use. -/
def get (s : ClientGets) (isRegistered isUseRdp : Bool) (keylen : BitVec 16) (nonce : BitVec 32)
    (desc : Int) : ClientGets :=
  if ¬ isRegistered then
    s.fail
  else if isUseRdp then
    s.getByRdp nonce desc
  else if sizeofGetHead + keylen.toNat > sizeofGetBuf then
    s.fail
  else
    s.enter nonce false desc

/-- `proxy::timer_get::operator()`. -/
def timerGet (s : ClientGets) (func : Nat) (nonce : BitVec 32) : Except GetsFault ClientGets :=
  match s.getdata.lookup nonce with
  | none => .error .endDeref
  | some it =>
      let s := if it.vset.card > 0 then s.call it.func true it.vset else s.call func false ∅
      let s :=
        if it.isRdp ∧ it.desc ≠ 0 then { s with rdpGet := s.rdpGet.erase it.desc } else s
      .ok { s with getdata := s.getdata.erase nonce }

/-- `proxy::recv_get_reply`. -/
def recvGetReplyMsg (s : ClientGets) (msg : List Byte) : ClientGets :=
  if rd160 msg 28 ≠ s.id then
    s
  else if msg.length < sizeofGetReplyHead then
    s
  else
    let nonce := rd32 msg 48
    match s.getdata.lookup nonce with
    | none => s
    | some it =>
        if byteAt msg 76 > 0 then
          let total := (rd16 msg 74).toNat
          let it := { it with
            vset := insert (cells (msg.drop sizeofGetReplyHead)) it.vset
            total := if it.total = 0 then total else it.total }
          if it.total ≤ it.vset.card then
            s.finish nonce it true it.vset
          else
            { s with getdata := s.getdata.insert nonce it }
        else
          s.finish nonce it false ∅

/-! ### The connection of a request -/

/-- `m_data->desc` of a request is set to 0. -/
def clearDesc (s : ClientGets) (p : RdpGet) : ClientGets :=
  match s.getdata.lookup p.nonce with
  | none => s
  | some it =>
      if it.func = p.func then
        { s with getdata := s.getdata.insert p.nonce { it with desc := 0 } }
      else
        -- The record of the request is not in `m_getdata` any more.
        s

/-- The default of `rdp_get_func::operator()` on an entry of `m_rdp_get`. -/
def requestEnds (s : ClientGets) (desc : Int) (p : RdpGet) : ClientGets :=
  let s := match s.getdata.lookup p.nonce with
    | none => s
    | some it2 =>
        { s with
          timers := s.timers.erase it2.func
          getdata := s.getdata.erase p.nonce }
  { s.call p.func false ∅ with rdpGet := s.rdpGet.erase desc }

/-- `proxy::rdp_get_func::operator()`. -/
def rdpGetFunc (s : ClientGets) (desc : Int) (event : RdpEvent) : ClientGets :=
  match s.rdpGet.lookup desc with
  | none => s
  | some p =>
      match event with
      | .connected => s
      | .reset => { s.clearDesc p with rdpGet := s.rdpGet.erase desc }
      | _ => s.requestEnds desc p

/-! ### The connection of a reply -/

/-- The connection is closed and its entry erased. -/
def closeReply (s : ClientGets) (desc : Int) : ClientGets :=
  { s with recvGetReply := s.recvGetReply.erase desc }

/-- The entry of a connection changes. -/
def setReply (s : ClientGets) (desc : Int) (con : ReplyConn) : ClientGets :=
  { s with recvGetReply := s.recvGetReply.insert desc con }

/-- `rdp_recv_get_reply_func::close_rdp`. -/
def closeRdp (s : ClientGets) (desc : Int) (ptr : RdpRecvGetReply) : ClientGets :=
  match s.getdata.lookup ptr.nonce with
  | none => s.closeReply desc
  | some it => (s.finish ptr.nonce it (decide (it.vset.card > 0)) it.vset).closeReply desc

/-- `rdp_recv_get_reply_func::read_hdr`: whether to go on. -/
def readHdr (uninit : List Byte) (now desc : Int) (con : ReplyConn) (s : ClientGets) :
    Bool × ClientGets :=
  let (bytes, rqueue) := receive sizeofRdpGetReplyHdr con.rqueue
  if bytes = [] then
    (false, s.setReply desc { con with rqueue })
  else
    let msg := MsgProxyRdpGetReply.decode (bytes ++ uninit)
    match s.getdata.lookup msg.nonce with
    | none => (false, s.closeReply desc)
    | some _ =>
        let ptr := { con.ptr with nonce := msg.nonce, state := .rgrValHdr }
        if msg.flag = proxyGetFail then
          (false, s.closeRdp desc ptr)
        else
          (true, s.setReply desc ⟨ptr, now, rqueue⟩)

/-- `rdp_recv_get_reply_func::read_val_hdr`. -/
def readValHdr (uninit : List Byte) (now desc : Int) (con : ReplyConn) (s : ClientGets) :
    Bool × ClientGets :=
  match s.getdata.lookup con.ptr.nonce with
  | none => (false, s.closeReply desc)
  | some _ =>
      let (bytes, rqueue) := receive sizeofRdpGetReplyVal con.rqueue
      if bytes = [] then
        (false, s.setReply desc { con with rqueue })
      else
        let msg := MsgProxyRdpGetReplyVal.decode (bytes ++ uninit)
        let ptr := { con.ptr with
          valuelen := msg.valuelen
          valRead := 0
          state := .rgrVal
          val := List.replicate msg.valuelen.toNat none }
        (true, s.setReply desc ⟨ptr, now, rqueue⟩)

/-- The loop of `rdp_recv_get_reply_func::read_val`. -/
def readValLoop (now desc : Int) (it : GetData) :
    Nat → ReplyConn → ClientGets → Except GetsFault (Bool × ClientGets)
  | 0, _, _ => .error .unfinished
  | rounds + 1, con, s =>
      let ptr := con.ptr
      let (bytes, rqueue) := receive (ptr.valuelen.toNat - ptr.valRead.toNat) con.rqueue
      if bytes = [] then
        .ok (false, s.setReply desc { con with rqueue })
      else
        let val := ptr.val.write ptr.valRead.toNat bytes
        let valRead := ptr.valRead + .ofNat 16 bytes.length
        -- The condition of the `if` is `m_val_read += m_valuelen`.
        let valRead := valRead + ptr.valuelen
        if valRead ≠ 0 then
          let ptr := { ptr with val := [], valRead := 0, state := .rgrValHdr }
          .ok (true,
            { s.setReply desc ⟨ptr, now, rqueue⟩ with
              getdata := s.getdata.insert ptr.nonce { it with vset := insert val it.vset } })
        else
          readValLoop now desc it rounds ⟨{ ptr with val, valRead }, now, rqueue⟩ s

/-- `rdp_recv_get_reply_func::read_val`. Every round but the last reads a packet. -/
def readVal (now desc : Int) (con : ReplyConn) (s : ClientGets) :
    Except GetsFault (Bool × ClientGets) :=
  match s.getdata.lookup con.ptr.nonce with
  | none => .ok (false, s.closeReply desc)
  | some it => readValLoop now desc it (con.rqueue.length + 1) con s

/-- One round of the loop of `rdp_recv_get_reply_func::operator()`. -/
def read (uninit : List Byte) (now desc : Int) (con : ReplyConn) (s : ClientGets) :
    Except GetsFault (Bool × ClientGets) :=
  match con.ptr.state with
  | .rgrHdr => .ok (readHdr uninit now desc con s)
  | .rgrValHdr => .ok (readValHdr uninit now desc con s)
  | .rgrVal => readVal now desc con s

/-- The loop of `rdp_recv_get_reply_func::operator()` at the event READY2READ. -/
def ready2ReadLoop (uninit : List Byte) (now desc : Int) :
    Nat → ClientGets → Except GetsFault ClientGets
  | 0, _ => .error .unfinished
  | rounds + 1, s =>
      match s.recvGetReply.lookup desc with
      | none => .error .useAfterErase
      | some con => do
          let (goOn, s) ← read uninit now desc con s
          if goOn then ready2ReadLoop uninit now desc rounds s else return s

/-- `rdp_recv_get_reply_func::operator()` at the event ACCEPTED. The lengths and the nonce are
left unset. -/
def accepted (s : ClientGets) (now desc : Int) (valuelen valRead : BitVec 16)
    (nonce : BitVec 32) : ClientGets :=
  s.setReply desc ⟨.accepted valuelen valRead nonce, now, []⟩

/-- Packets arrive, and the event READY2READ. Every round but the last reads a packet. -/
def ready2Read (s : ClientGets) (uninit : List Byte) (now desc : Int) (con : ReplyConn)
    (packets : List (List Byte)) : Except GetsFault ClientGets :=
  let rqueue := con.rqueue ++ packets
  if rqueue = [] then
    .ok s
  else
    ready2ReadLoop uninit now desc (rqueue.length + 1) (s.setReply desc { con with rqueue })

/-- One round of the last loop of `proxy::sweep_rdp`. The difference is `m_time` itself, and an
entry that is not found is used. -/
def sweepOne (s : ClientGets) (desc : Int) : Except GetsFault ClientGets :=
  match s.recvGetReply.lookup desc with
  | none => .ok s
  | some it5 =>
      if it5.time > rdpTimeout then
        if it5.ptr.state = .rgrHdr then
          .ok (s.closeReply desc)
        else
          match s.getdata.lookup it5.ptr.nonce with
          | none => .error .endDeref
          | some _ => .ok (s.closeReply desc)
      else
        .ok s

/-- The last loop of `proxy::sweep_rdp`. -/
def sweepLoop : List Int → ClientGets → Except GetsFault ClientGets
  | [], s => .ok s
  | desc :: descs, s => s.sweepOne desc >>= sweepLoop descs

/-- `proxy::sweep_rdp` on the replies, in the order of the descriptors. The other loops are
about other tables. -/
def sweepRdp (s : ClientGets) : Except GetsFault ClientGets :=
  sweepLoop (s.recvGetReply.keys.mergeSort fun a b => decide (a ≤ b)) s

/-! ### Events -/

/-- The events. -/
inductive Input where
  | get (isRegistered isUseRdp : Bool) (keylen : BitVec 16) (nonce : BitVec 32) (desc : Int)
  | timerGet (func : Nat)
  | recvGetReply (msg : List Byte)
  | request (desc : Int) (event : RdpEvent)
  | accepted (now desc : Int) (valuelen valRead : BitVec 16) (nonce : BitVec 32)
  | ready2Read (now desc : Int) (packets : List (List Byte)) (uninit : List Byte)
  | replyEnds (desc : Int)
  | sweepRdp

/-- A descriptor that is not in use. -/
def Unused (s : ClientGets) (desc : Int) : Prop :=
  0 < desc ∧ (s.rdpGet.lookup desc).isNone ∧ (s.recvGetReply.lookup desc).isNone

instance (s : ClientGets) (desc : Int) : Decidable (s.Unused desc) := by
  unfold Unused
  infer_instance

/-- One event. A number that is in use is not drawn, a timer that does not run is not raised,
and a connection that is not there raises nothing. `rdp::connect` returns a descriptor that is
not in use, or `-1`. -/
def step (s : ClientGets) : Input → Except GetsFault ClientGets
  | .get isRegistered isUseRdp keylen nonce desc =>
      if (s.getdata.lookup nonce).isNone then
        .ok (s.get isRegistered isUseRdp keylen nonce (if s.Unused desc then desc else -1))
      else
        .ok s
  | .timerGet func =>
      match s.timers.lookup func with
      | none => .ok s
      | some nonce => { s with timers := s.timers.erase func }.timerGet func nonce
  | .recvGetReply msg =>
      .ok (if udpReceiver msg = some .proxyRecvGetReply then s.recvGetReplyMsg msg else s)
  | .request desc event => .ok (s.rdpGetFunc desc event)
  | .accepted now desc valuelen valRead nonce =>
      .ok (if s.Unused desc then s.accepted now desc valuelen valRead nonce else s)
  | .ready2Read now desc packets uninit =>
      match s.recvGetReply.lookup desc with
      | none => .ok s
      | some con => s.ready2Read uninit now desc con packets
  | .replyEnds desc =>
      match s.recvGetReply.lookup desc with
      | none => .ok s
      | some con => .ok (s.closeRdp desc con.ptr)
  | .sweepRdp => s.sweepRdp

end ClientGets

end Libcage.Proxy
