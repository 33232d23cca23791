import Mathlib.Data.Finset.Insert
import Mathlib.Data.Finset.Erase
import Mathlib.Data.List.AList
import Mathlib.Data.List.Sort
import Libcage.Rdp.Connection

/-!
# `Libcage.Rdp.Machine`: the tables of `rdp` and its handlers

`Members` is the data of the class `rdp`: the descriptors, the listening ports, the connection
records with their two indices, and the callbacks. Records are shared pointers in
the source. Here they live in `con` under a `ConPtr` and are never freed, so a
handler may hold a record that the tables no longer have.

A handler runs in the monad `M`. Its state is a `World`: the `rdp` together with
what the call gets from outside (the clock, the random numbers to come, what `new`
leaves uninitialised, and what the callbacks do) and what it gives to
`rdp::output`. Each invocation of a callback makes the next list of `reactions`,
any calls at all.

The iterator of the timer is the element it points to. A loop round on an element
that is gone is `Fault.dangling`. The double arithmetic on times of day is exact
here.
-/

set_option autoImplicit false

namespace Libcage.Rdp

open Libcage.Lib

/-- `rdp_con_ptr`. -/
abbrev ConPtr := Nat

/-- `callback_rdp_event`: which function it is. -/
abbrev Callback := Nat

/-- `std::map` and `boost::unordered_map`. -/
abbrev Table (κ α : Type) [DecidableEq κ] := AList fun _ : κ => α

/-- A segment given to `m_output_func`: for the record it belongs to, the record and
its `rcv_cur` at that moment. `inCallback` marks what goes out while a callback runs or
for the closes it asked for. No code reads either. -/
structure Sent where
  did : Id
  seg : List Byte
  record : Option (ConPtr × BitVec 32)
  inCallback : Bool
deriving DecidableEq

/-- The members of `rdp`. -/
structure Members where
  descSet : Finset Int
  listening : List (BitVec 16 × Int)
  addr2conn : Table RdpAddr ConPtr
  desc2conn : Table Int ConPtr
  desc2event : Table Int Callback
  maxRetrans : Int
  isInvoke : Bool
  descClosed : List Int
  con : ConPtr → RdpCon
  nextPtr : ConPtr

/-- A call of the user, or of a callback. -/
inductive Call where
  | listen (sport : BitVec 16) (func : Callback)
  | connect (sport : BitVec 16) (did : Id) (dport : BitVec 16) (func : Callback)
  | close (desc : Int)
  | send (desc : Int) (buf : List Byte)
  | receive (desc : Int) (len : Int)
  | setMaxRetrans (sec : Int)
  | setCallbackRdpEvent (desc : Int) (func : Callback)

/-- What a call gets from outside. -/
structure Env where
  clock : Int
  rnd : List (BitVec 32)
  uninit : ConPtr → Uninit
  reactions : List (List Call)
deriving Inhabited

/-- The state a handler works on. `closedListening` are the listening descriptors that
were closed so far, which no code reads. -/
structure World where
  rdp : Members
  env : Env
  inCallback : Bool
  out : List Sent
  closedListening : List Int

/-- Where a call from outside starts. -/
def World.start (r : Members) (env : Env) : World := ⟨r, env, false, [], []⟩

/-- Handlers. -/
abbrev M := StateT World (Except Fault)

/-- `rdp::rdp`. -/
def Members.init (con : ConPtr → RdpCon) : Members where
  descSet := ∅
  listening := []
  addr2conn := ∅
  desc2conn := ∅
  desc2event := ∅
  maxRetrans := 32
  isInvoke := false
  descClosed := []
  con := con
  nextPtr := 0

namespace Members

/-- `m_listening.left.find(sport)`. -/
def listeningLeft (r : Members) (sport : BitVec 16) : Option Int :=
  (r.listening.find? fun v => v.1 == sport).map Prod.snd

/-- `m_listening.right.find(desc)`. -/
def listeningRight (r : Members) (desc : Int) : Option (BitVec 16) :=
  (r.listening.find? fun v => v.2 == desc).map Prod.fst

/-- `m_listening.insert`: a bimap takes a pair if both sides are new. -/
def insertListening (r : Members) (sport : BitVec 16) (desc : Int) : Members :=
  if (r.listeningLeft sport).isSome ∨ (r.listeningRight desc).isSome then r
  else { r with listening := r.listening ++ [(sport, desc)] }

/-- `m_listening.right.erase`. -/
def eraseListening (r : Members) (desc : Int) : Members :=
  { r with listening := r.listening.filter fun v => v.2 != desc }

/-- Remove a connection from all tables but that of the listening ports. -/
def eraseCon (r : Members) (desc : Int) (addr : RdpAddr) : Members :=
  { r with
    descSet := r.descSet.erase desc
    desc2event := r.desc2event.erase desc
    addr2conn := r.addr2conn.erase addr
    desc2conn := r.desc2conn.erase desc }

/-- Put a connection under a descriptor. -/
def insertCon (r : Members) (desc : Int) (addr : RdpAddr) (ptr : ConPtr) : Members :=
  { r with
    descSet := insert desc r.descSet
    addr2conn := r.addr2conn.insert addr ptr
    desc2conn := r.desc2conn.insert desc ptr }

/-- The element of `m_desc2conn` with the least descriptor that satisfies `p`. -/
def leastEntry (r : Members) (p : Int → Bool) : Option (Int × ConPtr) :=
  (r.desc2conn.entries.filter fun e => p e.1).foldl (fun best e =>
    match best with
    | none => some (e.1, e.2)
    | some b => if e.1 < b.1 then some (e.1, e.2) else some b) none

/-- `m_desc2conn.begin()`. -/
def beginEntry (r : Members) : Option (Int × ConPtr) := r.leastEntry fun _ => true

/-- `++it` at the element of a descriptor. -/
def nextEntry (r : Members) (desc : Int) : Option (Int × ConPtr) := r.leastEntry fun d => desc < d

end Members

/-! ### Segments built by hand -/

/-- The header of a reset. -/
def rstHead (addr : RdpAddr) (flags : Byte) (seqnum : BitVec 32) : RdpHead where
  flags := flags
  hlen := 10
  sport := addr.sport
  dport := addr.dport
  seqnum := seqnum

namespace RdpCon

/-- A SYN of the record. -/
def synSegment (c : RdpCon) (addr : RdpAddr) (flags : Byte) (acknum : BitVec 32) : List Byte :=
  ({ head :=
      { flags := flags, hlen := 12, sport := addr.sport, dport := addr.dport, seqnum := c.sndIss,
        acknum := acknum }
     outSegsMax := c.rcvMax.setWidth 16
     segSizeMax := c.rbufMax.setWidth 16 } : RdpSyn).encode

/-- What `in_state_listen` and `in_state_syn_sent` take from a SYN: the numbers, the
limits and the windows. -/
def acceptSyn (uninit : Uninit) (clock : Int) (c : RdpCon) (syn : RdpSyn) : RdpCon :=
  let sbufMax := syn.segSizeMax.setWidth 32
  let c' : RdpCon :=
    { c with
      rcvCur := syn.head.seqnum
      rcvIrs := syn.head.seqnum
      rcvAck := syn.head.seqnum
      sndMax := syn.outSegsMax.setWidth 32
      sbufMax := if sbufMax > sbufLimit then sbufLimit else sbufMax
      ackedTime := clock }
  (c'.initSwnd uninit).initRwnd uninit

/-- A record after `new rdp_con`: the queue and the arrays are empty. -/
def new (uninit : Uninit) : RdpCon := { uninit.con with rqueue := [], swnd := [], rwnd := [] }

/-- What `connect` and `in_state_listen` set in a new record. -/
def start (c : RdpCon) (addr : RdpAddr) (isPasv : Bool) (state : RdpState) (sndIss : BitVec 32)
    (clock : Int) : RdpCon :=
  { c with
    addr := addr
    isPasv := isPasv
    state := state
    sndIss := sndIss
    sndNxt := sndIss + 1
    sndUna := sndIss
    rcvMax := rcvMaxDefault
    rbufMax := rbufMaxDefault
    isClosed := false
    synTime := timeNull clock
    synTout := 1 }

end RdpCon

/-! ### What handlers do -/

/-- The record behind a pointer. -/
def getCon (ptr : ConPtr) : M RdpCon := return (← get).rdp.con ptr

/-- Write the record behind a pointer. -/
def setCon (ptr : ConPtr) (c : RdpCon) : M Unit :=
  modify fun w => { w with rdp := { w.rdp with con := Function.update w.rdp.con ptr c } }

/-- Note that a listening descriptor was closed. -/
def noteClosed (desc : Int) : M Unit :=
  modify fun w => { w with closedListening := w.closedListening ++ [desc] }

/-- Change the tables. -/
def modifyRdp (f : Members → Members) : M Unit := modify fun w => { w with rdp := f w.rdp }

/-- `rdp::output`, for no record. -/
def output (did : Id) (seg : List Byte) : M Unit :=
  modify fun w => { w with out := w.out ++ [⟨did, seg, none, w.inCallback⟩] }

/-- `rdp::output` of segments a record emitted. -/
def outputs (ptr : ConPtr) (did : Id) (ems : List Emitted) : M Unit :=
  modify fun w => { w with
    out := w.out ++ ems.map fun e => ⟨did, e.seg, some (ptr, e.rcvCur), w.inCallback⟩ }

/-- `rdp::output` of a segment for a record. -/
def outputCon (ptr : ConPtr) (did : Id) (seg : List Byte) : M Unit := do
  let c ← getCon ptr
  outputs ptr did [c.emit seg]

/-- A call on a record: its result, the record after it and what it emits to the
peer of the record. -/
def onCon {α : Type} (ptr : ConPtr) (f : Int → RdpCon → Except Fault (α × RdpCon × List Emitted)) :
    M α := do
  let w ← get
  let c := w.rdp.con ptr
  let (a, c', ems) ← f w.env.clock c
  setCon ptr c'
  outputs ptr c.addr.did ems
  return a

/-- `rdp_con::delayed_ack` on a record. -/
def delayedAckCon (ptr : ConPtr) : M Unit :=
  onCon ptr fun clock c => do
    let (c', ems) ← c.delayedAck clock
    return ((), c', ems)

/-- `m_rnd()`. Without numbers to come the call has not ended yet. -/
def rnd : M (BitVec 32) := do
  let w ← get
  match w.env.rnd with
  | [] => throw .unfinished
  | r :: rest =>
      set { w with env := { w.env with rnd := rest } }
      return r

/-- The loop of `rdp::generate_desc`. -/
def pickDesc (descSet : Finset Int) : List (BitVec 32) → Except Fault (Int × List (BitVec 32))
  | [] => .error .unfinished
  | r :: rest =>
      if r.toInt ∈ descSet ∨ r.toInt ≤ 0 then pickDesc descSet rest else .ok (r.toInt, rest)

/-- `rdp::generate_desc`. -/
def generateDesc : M Int := do
  let w ← get
  let (desc, rest) ← pickDesc w.rdp.descSet w.env.rnd
  set { w with env := { w.env with rnd := rest } }
  return desc

/-- The loop of `rdp::connect` that allocates a local port. Its `continue` goes to
the condition of the loop, so a well known port is tried like any other. -/
def pickPort (addr2conn : Table RdpAddr ConPtr) (did : Id) (dport : BitVec 16) :
    List (BitVec 32) → Except Fault (RdpAddr × List (BitVec 32))
  | [] => .error .unfinished
  | r :: rest =>
      let addr : RdpAddr := ⟨did, dport, r.setWidth 16⟩
      if (addr2conn.lookup addr).isSome then pickPort addr2conn did dport rest
      else .ok (addr, rest)

/-- A new record goes into the heap and, under its descriptor and its address, into
the tables. -/
def openCon (desc : Int) (c : RdpCon) : M ConPtr := do
  let w ← get
  let ptr := w.rdp.nextPtr
  modifyRdp fun r =>
    { r with con := Function.update r.con ptr { c with desc := desc },
             nextPtr := ptr + 1 }.insertCon
      desc c.addr ptr
  return ptr

/-! ### Calls -/

/-- `rdp::listen`. -/
def listen (sport : BitVec 16) (func : Callback) : M Int := do
  let w ← get
  if (w.rdp.listeningLeft sport).isNone then
    let desc ← generateDesc
    modifyRdp fun r =>
      let r' := { r with descSet := insert desc r.descSet }.insertListening sport desc
      { r' with desc2event := r'.desc2event.insert desc func }
    return desc
  else
    return -1

/-- `rdp::connect` from the point where the address is known. -/
def connectTo (addr : RdpAddr) (func : Callback) : M Int := do
  let w ← get
  let iss ← rnd
  let c := (RdpCon.new (w.env.uninit w.rdp.nextPtr)).start addr false .synSent iss w.env.clock
  let desc ← generateDesc
  let ptr ← openCon desc c
  modifyRdp fun r => { r with desc2event := r.desc2event.insert desc func }
  outputCon ptr addr.did (c.synSegment addr (flagSyn ||| flagVer) 0)
  return desc

/-- `rdp::connect`. -/
def connect (sport : BitVec 16) (did : Id) (dport : BitVec 16) (func : Callback) : M Int := do
  let w ← get
  if sport ≠ 0 then
    if (w.rdp.addr2conn.lookup ⟨did, dport, sport⟩).isSome then
      return -1
    else
      connectTo ⟨did, dport, sport⟩ func
  else
    let (addr, rest) ← pickPort w.rdp.addr2conn did dport w.env.rnd
    set { w with env := { w.env with rnd := rest } }
    connectTo addr func

/-- The end of `rdp::close` for a closed record: at once, or after the callback
that runs. -/
def closeClosed (desc : Int) (c : RdpCon) : M Unit := do
  let w ← get
  if ¬ w.rdp.isInvoke then
    modifyRdp fun r => r.eraseCon desc c.addr
  else
    modifyRdp fun r =>
      { r with descClosed := (r.descClosed.filter (· ≠ desc)).orderedInsert (· ≤ ·) desc }

/-- `rdp::close` on the record of its descriptor. -/
def closeCon (desc : Int) (ptr : ConPtr) : M Unit := do
  let w ← get
  let c ← getCon ptr
  match c.state with
  | .opened =>
      delayedAckCon ptr
      let c ← getCon ptr
      setCon ptr { c with
        state := .closeWaitActive, isClosed := true, rstTime := timeNull w.env.clock, rstTout := 1,
        isRetryRst := true }
      outputCon ptr c.addr.did (rstHead c.addr (flagRst ||| flagVer) c.sndNxt).encode
  | .closeWaitPasv => setCon ptr { c with isClosed := true }
  | .closed => closeClosed desc c
  | .synSent | .synRcvd =>
      setCon ptr { c with state := .closed }
      outputCon ptr c.addr.did (rstHead c.addr (flagRst ||| flagVer) c.sndNxt).encode
      closeClosed desc c
  | .listen | .closeWaitActive => return

/-- `rdp::close`. -/
def close (desc : Int) : M Unit := do
  let w ← get
  if (w.rdp.listeningRight desc).isSome then
    modifyRdp fun r => r.eraseListening desc
    noteClosed desc
  else
    match w.rdp.desc2conn.lookup desc with
    | none => return
    | some ptr => closeCon desc ptr

/-- `rdp::send`. -/
def send (desc : Int) (buf : List Byte) : M Int := do
  let w ← get
  match w.rdp.desc2conn.lookup desc with
  | none => return -1
  | some ptr => onCon ptr fun clock c => c.send clock buf

/-- `rdp::receive`. -/
def receive (desc : Int) (len : Int) : M (List Byte) := do
  let w ← get
  match w.rdp.desc2conn.lookup desc with
  | none => return []
  | some ptr => onCon ptr fun _ c => .ok ((c.receive len).1, (c.receive len).2, [])

/-- `rdp::set_callback_rdp_event`. -/
def setCallbackRdpEvent (desc : Int) (func : Callback) : M Unit := do
  let w ← get
  if desc ∈ w.rdp.descSet then
    modifyRdp fun r => { r with desc2event := r.desc2event.insert desc func }
  else
    return

/-- A call by name. -/
def runCall : Call → M Unit
  | .listen sport func => do let _ ← listen sport func
  | .connect sport did dport func => do let _ ← connect sport did dport func
  | .close desc => close desc
  | .send desc buf => do let _ ← send desc buf
  | .receive desc len => do let _ ← receive desc len
  | .setMaxRetrans sec => modifyRdp fun r => { r with maxRetrans := sec }
  | .setCallbackRdpEvent desc func => setCallbackRdpEvent desc func

/-- Some calls, one after the other. -/
def runCalls : List Call → M Unit
  | [] => return
  | call :: calls => do
      runCall call
      runCalls calls

/-! ### Events -/

/-- Run a callback: it makes the next calls of `reactions`. -/
def runCallback : M Unit := do
  let w ← get
  set { w with env := { w.env with reactions := w.env.reactions.tail } }
  runCalls (w.env.reactions.headD [])

/-- Close descriptors, one after the other. -/
def closeAll : List Int → M Unit
  | [] => return
  | desc :: descs => do
      close desc
      closeAll descs

/-- `rdp::invoke_event` for a connection that was accepted. It gets the callback of
the listening descriptor unless it has one by then. -/
def invokeAccepted (desc1 desc2 : Int) (event : RdpEvent) : M Unit := do
  runCallback
  let w ← get
  if event = .accepted ∧ (w.rdp.desc2event.lookup desc2).isNone then
    match w.rdp.desc2event.lookup desc1 with
    | none => throw .dangling
    | some func => modifyRdp fun r => { r with desc2event := r.desc2event.insert desc2 func }
  else
    return

/-- `rdp::invoke_event` for every other event. What the callback closes goes away
after it. -/
def invokeOther : M Unit := do
  modifyRdp fun r => { r with isInvoke := true }
  runCallback
  modifyRdp fun r => { r with isInvoke := false }
  let w ← get
  closeAll w.rdp.descClosed
  modifyRdp fun r => { r with descClosed := [] }

/-- `rdp::invoke_event`. The address goes to the callback only. -/
def invokeEvent (desc1 desc2 : Int) (event : RdpEvent) : M Unit := do
  let w ← get
  if (w.rdp.desc2event.lookup desc1).isNone then
    return
  else do
    modify fun w => { w with inCallback := true }
    if desc2 > 0 then invokeAccepted desc1 desc2 event else invokeOther
    modify fun w => { w with inCallback := false }

end Libcage.Rdp
