import Libcage.Dht.FindValue
import Libcage.Dtun.Register
import Libcage.Dtun.Request
import Libcage.Proxy.Store

/-!
# `Libcage.Decoders`: what the handlers of `dht` and `dtun` read of a message

Each handler is the part of the source up to its last read of the message: the reads in their
order, and between them what decides whether there is a next one. The result is what it then
works on, and nothing where it returns before. A read that leaves the message is a fault
(`outside`), whatever lies behind it in the buffer.

`Node` is what the handlers ask. Of `m_stored` there are the keys of each id. What they do in
between to tables of nodes, timers and queries decides about no read of the same message, and
is left out here, like the handlers of the other types of messages.
-/

set_option autoImplicit false

namespace Libcage

open Libcage.Lib
open Libcage.Rdp (Id Table)
open Libcage.Dht (Saddr Cageaddr Buf Sender domainInet domainInet6 sizeofInet sizeofInet6
  dataAreNodes dataAreValues dataAreNul getByUdp getByRdp dhtFlagUnique)
open Libcage.Dtun (Registered RequestQuery)
open Libcage.Proxy (ReadFault inside readWord readId readBuf)

/-! ### Reading -/

/-- The 8-bit field at an offset. -/
def readByte (msg : List Byte) (off : Nat) : Except ReadFault Byte :=
  inside msg off 1 (byteAt msg off)

/-- The 32-bit field at an offset. -/
def readLong (msg : List Byte) (off : Nat) : Except ReadFault (BitVec 32) :=
  inside msg off 4 (rd32 msg off)

/-- The 128-bit address at an offset. -/
def readAddr6 (msg : List Byte) (off : Nat) : Except ReadFault (BitVec 128) :=
  inside msg off 16
    (rd32 msg off ++ (rd32 msg (off + 4) ++ (rd32 msg (off + 8) ++ rd32 msg (off + 12))))

/-- A node in the list of a reply, where it is not one that timed out. -/
def consNode (node : Cageaddr) (nodes : Except ReadFault (List Cageaddr)) :
    Except ReadFault (List Cageaddr) := do
  return node :: (← nodes)

/-- `read_nodes_inet`, from an offset on. -/
def readNodesInetAt (sender : Sender) (msg : List Byte) :
    Nat → Nat → Except ReadFault (List Cageaddr)
  | 0, _ => .ok []
  | num + 1, min => do
      let id ← readId msg (min + 8)
      if sender.isTimeout id then
        readNodesInetAt sender msg num (min + sizeofInet)
      else do
        let port ← readWord msg min
        let addr ← readLong msg (min + 4)
        let saddr := if port = 0 ∧ addr = 0 then sender.saddr else .inet port addr
        consNode ⟨id, saddr⟩ (readNodesInetAt sender msg num (min + sizeofInet))

/-- `read_nodes_inet6`, from an offset on. -/
def readNodesInet6At (sender : Sender) (msg : List Byte) :
    Nat → Nat → Except ReadFault (List Cageaddr)
  | 0, _ => .ok []
  | num + 1, min6 => do
      let id ← readId msg (min6 + 20)
      if sender.isTimeout id then
        readNodesInet6At sender msg num (min6 + sizeofInet6)
      else do
        let port ← readWord msg min6
        let addr ← readAddr6 msg (min6 + 4)
        let saddr := if port = 0 ∧ addr = 0 then sender.saddr else .inet6 port addr
        consNode ⟨id, saddr⟩ (readNodesInet6At sender msg num (min6 + sizeofInet6))

/-- The nodes of a reply: their number is at `num`, and they are at `addrs`. Nothing comes back
where the message is not as long as it says. -/
def readNodesAt (sender : Sender) (msg : List Byte) (domain : BitVec 16) (num addrs : Nat) :
    Except ReadFault (Option (List Cageaddr)) :=
  if domain = domainInet then do
    let num ← readByte msg num
    if addrs + sizeofInet * num.toNat ≠ msg.length then
      return none
    else
      return some (← readNodesInetAt sender msg num.toNat addrs)
  else if domain = domainInet6 then do
    let num ← readByte msg num
    if addrs + sizeofInet6 * num.toNat ≠ msg.length then
      return none
    else
      return some (← readNodesInet6At sender msg num.toNat addrs)
  else
    return none

/-- The nodes of a `msg_dtun_find_value_reply`. A domain that is not known has none. -/
def readValueNodesAt (sender : Sender) (msg : List Byte) (domain : BitVec 16) :
    Except ReadFault (Option (List Cageaddr)) :=
  if domain = domainInet ∨ domain = domainInet6 then
    readNodesAt sender msg domain 74 76
  else
    .ok (some [])

/-! ### The handlers -/

/-- What the handlers ask the node: its id, whether `m_nat` says that its address is a global
one, the domain of its socket, and the members of `dht`, `dtun` and `proxy` that they look
into. -/
structure Node where
  id : Id
  isGlobal : Bool
  domain : BitVec 16
  dtunQuery : Table (BitVec 32) Dtun.Query
  request : Table (BitVec 32) RequestQuery
  registeredNodes : Table Id Registered
  isUseRdp : Bool
  dhtQuery : Table (BitVec 32) Dht.Query
  stored : Table Id (Finset Buf)
  isRegistered : Id → Bool

/-- A request for nodes: `msg_dtun_find_node`, `msg_dtun_find_value` and `msg_dht_find_node`,
which has no state. -/
structure FindRequest where
  src : Id
  nonce : BitVec 32
  id : Id
  domain : BitVec 16
  state : BitVec 16

/-- What `dtun::recv_request_by` answers to. -/
structure RequestBy where
  nonce : BitVec 32
  addr : Cageaddr

/-- What `dht::recv_store` stores. -/
structure StoreRequest where
  src : Id
  id : Id
  origin : Id
  key : Buf
  value : Buf
  ttl : BitVec 16
  isUnique : Bool

/-- The data of a `msg_dht_find_value_reply`. -/
inductive FoundData where
  | nul
  | value (index total : BitVec 16) (value : Buf)
  | nodes (nodes : List Cageaddr)

namespace Node

/-- `dtun::recv_ping`: the sender and the nonce. -/
def dtunRecvPing (s : Node) (msg : List Byte) : Except ReadFault (Option (Id × BitVec 32)) :=
  if ¬ s.isGlobal then
    return none
  else do
    let dst ← readId msg 28
    if dst ≠ s.id then
      return none
    else do
      let src ← readId msg 8
      let nonce ← readLong msg 48
      return some (src, nonce)

/-- `dtun::recv_ping_reply`. -/
def dtunRecvPingReply (s : Node) (msg : List Byte) :
    Except ReadFault (Option (Id × BitVec 32)) := do
  let dst ← readId msg 28
  if dst ≠ s.id then
    return none
  else do
    let src ← readId msg 8
    let nonce ← readLong msg 48
    return some (src, nonce)

/-- `dtun::recv_find_node`. -/
def dtunRecvFindNode (s : Node) (msg : List Byte) : Except ReadFault (Option FindRequest) :=
  if ¬ s.isGlobal then
    return none
  else do
    let dst ← readId msg 28
    if dst ≠ s.id ∧ dst ≠ 0 then
      return none
    else do
      let domain ← readWord msg 72
      if domain ≠ s.domain then
        return none
      else do
        let id ← readId msg 52
        if s.domain ≠ domainInet ∧ s.domain ≠ domainInet6 then
          return none
        else do
          let src ← readId msg 8
          let nonce ← readLong msg 48
          let state ← readWord msg 74
          return some ⟨src, nonce, id, domain, state⟩

/-- `dtun::recv_find_node_reply`: the sender and the nodes. -/
def dtunRecvFindNodeReply (s : Node) (sender : Sender) (msg : List Byte) :
    Except ReadFault (Option (Id × List Cageaddr)) := do
  let nonce ← readLong msg 48
  match s.dtunQuery.lookup nonce with
  | none => return none
  | some q => do
      let dst ← readId msg 28
      if dst ≠ s.id then
        return none
      else do
        let id ← readId msg 52
        if q.dst ≠ id ∨ q.isFindValue then
          return none
        else do
          let src ← readId msg 8
          if src ∉ q.timers ∧ 0 ∉ q.timers then
            return none
          else do
            let domain ← readWord msg 72
            match ← readNodesAt sender msg domain 74 76 with
            | none => return none
            | some nodes => return some (src, nodes)

/-- `dtun::recv_register`. -/
def dtunRecvRegister (s : Node) (msg : List Byte) :
    Except ReadFault (Option Dtun.MsgDtunRegister) := do
  let dst ← readId msg 28
  if dst ≠ s.id then
    return none
  else do
    let src ← readId msg 8
    let session ← readLong msg 48
    return some ⟨src, dst, session⟩

/-- `dtun::recv_find_value`. -/
def dtunRecvFindValue (s : Node) (msg : List Byte) : Except ReadFault (Option FindRequest) :=
  if ¬ s.isGlobal then
    return none
  else do
    let dst ← readId msg 28
    if dst ≠ s.id then
      return none
    else do
      let domain ← readWord msg 72
      if domain ≠ s.domain then
        return none
      else do
        let src ← readId msg 8
        let nonce ← readLong msg 48
        let id ← readId msg 52
        let state ← readWord msg 74
        return some ⟨src, nonce, id, domain, state⟩

/-- `dtun::recv_find_value_reply`: the sender, the nodes, and the flag that says that the first
of them is the one that was looked for. -/
def dtunRecvFindValueReply (s : Node) (sender : Sender) (msg : List Byte) :
    Except ReadFault (Option (Id × List Cageaddr × Byte)) := do
  let nonce ← readLong msg 48
  match s.dtunQuery.lookup nonce with
  | none => return none
  | some q => do
      let dst ← readId msg 28
      if dst ≠ s.id then
        return none
      else do
        let id ← readId msg 52
        if q.dst ≠ id ∨ ¬ q.isFindValue then
          return none
        else do
          let src ← readId msg 8
          let domain ← readWord msg 72
          match ← readValueNodesAt sender msg domain with
          | none => return none
          | some nodes => do
              let flag ← readByte msg 75
              return some (src, nodes, flag)

/-- `dtun::recv_request`: the sender, the nonce and the id of the node that is asked for. The
domain is the one of the sender's address. -/
def dtunRecvRequest (s : Node) (domain : BitVec 16) (msg : List Byte) :
    Except ReadFault (Option (Id × BitVec 32 × Id)) :=
  if ¬ s.isGlobal then
    return none
  else do
    let dst ← readId msg 28
    if dst ≠ s.id then
      return none
    else do
      let src ← readId msg 8
      let id ← readId msg 52
      if id = s.id then do
        let nonce ← readLong msg 48
        return some (src, nonce, id)
      else
        match s.registeredNodes.lookup id with
        | none => return none
        | some reg =>
            if reg.addr.domain ≠ domain then
              return none
            else do
              let nonce ← readLong msg 48
              return some (src, nonce, id)

/-- `dtun::recv_request_by`. -/
def dtunRecvRequestBy (s : Node) (msg : List Byte) : Except ReadFault (Option RequestBy) := do
  let dst ← readId msg 28
  if dst ≠ s.id ∧ ¬ s.isRegistered dst then
    return none
  else do
    let nonce ← readLong msg 48
    let domain ← readWord msg 52
    if domain = domainInet then
      if 56 + sizeofInet ≠ msg.length then
        return none
      else do
        let id ← readId msg 64
        let port ← readWord msg 56
        let addr ← readLong msg 60
        return some ⟨nonce, ⟨id, .inet port addr⟩⟩
    else if domain = domainInet6 then
      if 56 + sizeofInet6 ≠ msg.length then
        return none
      else do
        let id ← readId msg 76
        let port ← readWord msg 56
        let addr ← readAddr6 msg 60
        return some ⟨nonce, ⟨id, .inet6 port addr⟩⟩
    else
      return none

/-- `dtun::recv_request_reply`. -/
def dtunRecvRequestReply (s : Node) (msg : List Byte) :
    Except ReadFault (Option Dtun.RequestReply) := do
  let dst ← readId msg 28
  if dst ≠ s.id then
    return none
  else do
    let nonce ← readLong msg 48
    match s.request.lookup nonce with
    | none => return none
    | some q => do
        let src ← readId msg 8
        if q.dst ≠ src then
          return none
        else
          return some ⟨src, dst, nonce⟩

/-- `dht::recv_find_node`. -/
def dhtRecvFindNode (s : Node) (msg : List Byte) : Except ReadFault (Option FindRequest) := do
  let dst ← readId msg 28
  if dst ≠ s.id ∧ dst ≠ 0 then
    return none
  else do
    let domain ← readWord msg 72
    if domain ≠ s.domain then
      return none
    else do
      let src ← readId msg 8
      let id ← readId msg 52
      let nonce ← readLong msg 48
      return some ⟨src, nonce, id, domain, 0⟩

/-- `dht::recv_find_node_reply`: the sender and the nodes. -/
def dhtRecvFindNodeReply (s : Node) (sender : Sender) (msg : List Byte) :
    Except ReadFault (Option (Id × List Cageaddr)) := do
  let nonce ← readLong msg 48
  match s.dhtQuery.lookup nonce with
  | none => return none
  | some q => do
      let dst ← readId msg 28
      if dst ≠ s.id then
        return none
      else do
        let id ← readId msg 52
        if q.dst ≠ id ∨ q.isFindValue then
          return none
        else do
          let src ← readId msg 8
          if src ∉ q.timers ∧ 0 ∉ q.timers then
            return none
          else do
            let domain ← readWord msg 72
            match ← readNodesAt sender msg domain 74 76 with
            | none => return none
            | some nodes => return some (src, nodes)

/-- `dht::recv_store`. -/
def dhtRecvStore (s : Node) (msg : List Byte) : Except ReadFault (Option StoreRequest) := do
  let dst ← readId msg 28
  if dst ≠ s.id then
    return none
  else do
    let keylen ← readWord msg 88
    let valuelen ← readWord msg 90
    let ttl ← readWord msg 92
    if 96 + keylen.toNat + valuelen.toNat ≠ msg.length then
      return none
    else do
      let src ← readId msg 8
      let id ← readId msg 48
      let origin ← readId msg 68
      let key ← readBuf msg 96 keylen
      let value ← readBuf msg (96 + keylen.toNat) valuelen
      let flags ← readByte msg 94
      return some ⟨src, id, origin, key, value, ttl, flags &&& dhtFlagUnique ≠ 0⟩

/-- The head of the answer of `dht::recv_find_value`. Nodes are looked for in the domain of the
request. -/
def dhtAnswer (msg : List Byte) (src id : Id) : Except ReadFault (Option FindRequest) := do
  let domain ← readWord msg 72
  if domain ≠ domainInet ∧ domain ≠ domainInet6 then
    return none
  else do
    let nonce ← readLong msg 48
    return some ⟨src, nonce, id, domain, 0⟩

/-- `dht::recv_find_value`: nothing where the node has what is looked for, as the answer has no
more of the message than the nonce and the id. -/
def dhtRecvFindValue (s : Node) (msg : List Byte) : Except ReadFault (Option FindRequest) := do
  let dst ← readId msg 28
  if dst ≠ s.id then
    return none
  else do
    let keylen ← readWord msg 74
    -- `size` is a `uint16_t`.
    if (80 + keylen.toNat) % 2 ^ 16 ≠ msg.length then
      return none
    else do
      let src ← readId msg 8
      let id ← readId msg 52
      let flag ← readByte msg 76
      if flag = getByRdp then
        match s.stored.lookup id with
        | none => dhtAnswer msg src id
        | some _ => do
            let _ ← readLong msg 48
            return none
      else if flag = getByUdp then do
        let key ← readBuf msg 80 keylen
        if key ∈ (s.stored.lookup id).getD ∅ then do
          let _ ← readLong msg 48
          return none
        else
          dhtAnswer msg src id
      else
        return none

/-- The value in a `msg_dht_find_value_reply`, where its key is the one of the query, and the
number of values the one that the node has named before. -/
def dhtReadValue (q : Dht.Query) (src : Id) (msg : List Byte) :
    Except ReadFault (Option FoundData) :=
  if msg.length < 84 then
    return none
  else do
    let keylen ← readWord msg 80
    let valuelen ← readWord msg 82
    if 84 + keylen.toNat + valuelen.toNat ≠ msg.length then
      return none
    else if (keylen.toNat : Int) ≠ q.keylen then
      return none
    else do
      -- `memcmp` compares no more than the key.
      let key ← readBuf msg 84 keylen
      if some key.1 ≠ q.key ∧ keylen ≠ 0 then
        return none
      else do
        let index ← readWord msg 72
        let total ← readWord msg 74
        if ((q.valinfo.lookup src).getD ⟨∅, ∅, total⟩).numValue ≠ total then
          return none
        else do
          let value ← readBuf msg (84 + keylen.toNat) valuelen
          return some (.value index total value)

/-- `dht::recv_find_value_reply`: the sender and the data. -/
def dhtRecvFindValueReply (s : Node) (sender : Sender) (msg : List Byte) :
    Except ReadFault (Option (Id × FoundData)) := do
  let dst ← readId msg 28
  if dst ≠ s.id then
    return none
  else do
    let nonce ← readLong msg 48
    match s.dhtQuery.lookup nonce with
    | none => return none
    | some q => do
        let id ← readId msg 52
        if id ≠ q.dst then
          return none
        else do
          let src ← readId msg 8
          if src ∈ q.timers ∧ ¬ q.isFindValue then
            return none
          else do
            let flag ← readByte msg 76
            if flag = dataAreNul ∧ s.isUseRdp then
              return some (src, .nul)
            else if flag = dataAreValues ∧ ¬ s.isUseRdp then do
              let data ← dhtReadValue q src msg
              return data.map fun data => (src, data)
            else if flag = dataAreNodes then
              if msg.length < 84 then
                return none
              else do
                let domain ← readWord msg 80
                let nodes ← readNodesAt sender msg domain 82 84
                return nodes.map fun nodes => (src, .nodes nodes)
            else
              return none

/-! ### The dispatcher -/

/-- `cage::udp_receiver::operator()` up to the call of a handler. -/
def dispatch (msg : List Byte) : Except ReadFault (Option Handler) :=
  if msg.length < sizeofHdr then
    return none
  else do
    let magic ← readWord msg 0
    if magic ≠ magicNumber then
      return none
    else do
      let ver ← readByte msg 2
      if ver ≠ cageVersion then
        return none
      else do
        let type ← readByte msg 3
        match route type with
        | none => return none
        | some (extent, handler) =>
            return if extent.Has msg.length then some handler else none

/-- A handler of `dht` or `dtun` reads the message. -/
def handle (s : Node) (sender : Sender) (msg : List Byte) : Handler → Except ReadFault Unit
  | .dtunRecvPing => discard (s.dtunRecvPing msg)
  | .dtunRecvPingReply => discard (s.dtunRecvPingReply msg)
  | .dtunRecvFindNode => discard (s.dtunRecvFindNode msg)
  | .dtunRecvFindNodeReply => discard (s.dtunRecvFindNodeReply sender msg)
  | .dtunRecvRegister => discard (s.dtunRecvRegister msg)
  | .dtunRecvFindValue => discard (s.dtunRecvFindValue msg)
  | .dtunRecvFindValueReply => discard (s.dtunRecvFindValueReply sender msg)
  | .dtunRecvRequest =>
      discard (s.dtunRecvRequest (⟨0, sender.saddr⟩ : Cageaddr).domain msg)
  | .dtunRecvRequestBy => discard (s.dtunRecvRequestBy msg)
  | .dtunRecvRequestReply => discard (s.dtunRecvRequestReply msg)
  | .dhtRecvFindNode => discard (s.dhtRecvFindNode msg)
  | .dhtRecvFindNodeReply => discard (s.dhtRecvFindNodeReply sender msg)
  | .dhtRecvStore => discard (s.dhtRecvStore msg)
  | .dhtRecvFindValue => discard (s.dhtRecvFindValue msg)
  | .dhtRecvFindValueReply => discard (s.dhtRecvFindValueReply sender msg)
  | _ => .ok ()

/-- A datagram comes to the node. -/
def receive (s : Node) (sender : Sender) (msg : List Byte) : Except ReadFault Unit := do
  match ← dispatch msg with
  | none => return ()
  | some handler => s.handle sender msg handler

end Node

end Libcage
