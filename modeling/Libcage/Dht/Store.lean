import Libcage.Lib.Index
import Libcage.Dht.Rttable

/-!
# `Libcage.Dht.Store`: the values a node keeps for the others

`m_stored` has a set of records for every id and key. The source compares two records of a
set by their values, so a set is a table by value here. `add_sdata`, `erase_sdata`,
`insert2recvd_sdata` and `dec_origin_sdata` are the four operations on it. Over them stand
the local store and the callback of its lookup, the two ways a store arrives, and the
timers.

`Store` adds to `m_stored` the lookups that have not called back yet, and `Store.step` is
one event. The messages that an event sends are results of the functions and not part of
the state. Where the source leaves a field of a record unset, the event brings its value.
`erase_sdata` reads through `end()` where the set has no record with the value, which stops the
program here (`derefEnd`). So do a message longer than its buffer (`overflow`) and the use of
an entry after it was erased (`useAfterErase`). A loop whose rounds are used up has not ended
(`unfinished`).
-/

set_option autoImplicit false

namespace Libcage.Dht

open Libcage.Lib (Byte Index)
open Libcage.Rdp (Id Table)

/-- A `shared_array<char>` with its 16-bit length. -/
abbrev Buf := { bytes : List Byte // bytes.length < 2 ^ 16 }

/-- The length, as the source has it. -/
def Buf.len (buf : Buf) : BitVec 16 := .ofNat 16 buf.1.length

/-- `memcpy` of `len` bytes. -/
def Buf.copy (len : BitVec 16) (bytes : List Byte) : Buf :=
  ⟨bytes.take len.toNat, (List.length_take_le ..).trans_lt len.isLt⟩

/-- `dht::num_find_node`. -/
def numFindNode : Nat := 10

/-- `dht::original_put_num`. -/
def originalPutNum : Int := 3

/-- `dht_flag_unique`. -/
def dhtFlagUnique : BitVec 8 := 1

/-- `sizeof(msg_dht_store) - sizeof(msg_dht_store::data)`. -/
def sizeofStoreHead : Nat := 96

/-- The size of the buffers on the stack. -/
def sizeofBuf : Nat := 1024 * 2

/-- `dht::stored_data`. -/
structure StoredData where
  key : Buf
  value : Buf
  id : Id
  src : Id
  isUnique : Bool
  recvd : Finset Id
  storedTime : Int
  original : Int
  ttl : BitVec 16
deriving DecidableEq

/-- `dht::sdata_set`: the records by their values. -/
abbrev SdataSet := Table Buf StoredData

/-- The type of `dht::m_stored`. -/
abbrev Stored := Index Id Buf Buf StoredData

/-- `dht::store_func`, and `dht::rdp_store_func` has the same fields. -/
structure StoreFunc where
  key : Buf
  value : Buf
  ttl : BitVec 16
  id : Id
  origin : Id
  isUnique : Bool
deriving DecidableEq

/-- `msg_dht_store`. The fields `src` and `dst` are those of the header, and `data` is what
follows up to the end of the message. -/
structure MsgDhtStore where
  src : Id
  dst : Id
  id : Id
  origin : Id
  keylen : BitVec 16
  valuelen : BitVec 16
  ttl : BitVec 16
  flags : BitVec 8
  data : List Byte

/-- `dht::rdp_recv_store`, once all of it has been read. -/
structure RdpRecvStore where
  key : Buf
  value : Buf
  ttl : BitVec 16
  id : Id
  src : Id
  isUnique : Bool

/-- What stops the program. -/
inductive StoreFault where
  | derefEnd
  | overflow
  | useAfterErase
  | unfinished
deriving DecidableEq

/-! ### Operations on `m_stored` -/

namespace SdataSet

/-- `unordered_set::insert`: nothing happens where there is an equal record. -/
def add (set : SdataSet) (sdata : StoredData) : SdataSet :=
  if (set.lookup sdata.value).isSome then set else set.insert sdata.value sdata

/-- `dht::add_sdata` on a set that is there. -/
def addSdata (set : SdataSet) (sdata : StoredData) (isOrigin : Bool) : SdataSet :=
  if sdata.isUnique then
    match set.entries with
    | [] => set.add sdata
    | [⟨value, it⟩] =>
        if it.src = sdata.src ∧ it.isUnique then
          if value = sdata.value then
            set.insert value { it with
              ttl := sdata.ttl, original := sdata.original, storedTime := sdata.storedTime }
          else
            SdataSet.add (set.erase value) sdata
        else
          set
    | _ :: _ :: _ => set
  else if set.entries.length = 1 ∧ set.entries.any fun it => it.2.isUnique then
    -- The record to store is not unique, so the source returns and never reads the source id.
    set
  else
    match set.lookup sdata.value with
    | none => set.add sdata
    | some it =>
        if it.src ≠ sdata.src then
          set
        else
          set.insert sdata.value { it with
            ttl := sdata.ttl
            storedTime := sdata.storedTime
            original := if isOrigin then sdata.original else it.original }

end SdataSet

namespace Stored

/-- `dht::add_sdata`. -/
def addSdata (stored : Stored) (sdata : StoredData) (isOrigin : Bool) : Stored :=
  match stored.lookup sdata.id with
  | none => stored.put sdata.id sdata.key (SdataSet.add ∅ sdata)
  | some map =>
      match map.lookup sdata.key with
      | none => stored.put sdata.id sdata.key (SdataSet.add ∅ sdata)
      | some set => stored.put sdata.id sdata.key (SdataSet.addSdata set sdata isOrigin)

/-- `dht::erase_sdata`. -/
def eraseSdata (stored : Stored) (sdata : StoredData) : Except StoreFault Stored :=
  match stored.lookup sdata.id with
  | none => .ok stored
  | some map =>
      match map.lookup sdata.key with
      | none => .ok stored
      | some set =>
          match set.lookup sdata.value with
          | none => .error .derefEnd
          | some it =>
              if it.src ≠ sdata.src then
                .ok stored
              else
                .ok (stored.prune sdata.id map sdata.key (set.erase sdata.value))

/-- `dht::insert2recvd_sdata`. -/
def insert2recvdSdata (stored : Stored) (sdata : StoredData) (id : Id) : Stored :=
  match stored.lookup sdata.id with
  | none => stored
  | some map =>
      match map.lookup sdata.key with
      | none => stored
      | some set =>
          match set.lookup sdata.value with
          | none => stored
          | some it =>
              stored.put sdata.id sdata.key
                (set.insert sdata.value { it with recvd := insert id it.recvd })

/-- `dht::dec_origin_sdata`. -/
def decOriginSdata (stored : Stored) (sdata : StoredData) : Stored × Int :=
  match stored.lookup sdata.id with
  | none => (stored.put sdata.id sdata.key (SdataSet.add ∅ sdata), -1)
  | some map =>
      match map.lookup sdata.key with
      | none => (stored.put sdata.id sdata.key (SdataSet.add ∅ sdata), -1)
      | some set =>
          match set.lookup sdata.value with
          | none => (stored.put sdata.id sdata.key (SdataSet.add set sdata), -1)
          | some it =>
              let original := if it.original > 0 then it.original - 1 else it.original
              (stored.put sdata.id sdata.key
                (set.insert sdata.value { it with original }), original)

/-- A record whose time is over. -/
def Expired (now : Int) (it : StoredData) : Prop := now - it.storedTime > it.ttl.toNat

instance (now : Int) (it : StoredData) : Decidable (Expired now it) := by
  unfold Expired
  infer_instance

/-- What `refresh` and `read_val` keep. -/
def keepFresh (now : Int) (it : StoredData) : Option StoredData :=
  if Expired now it then none else some it

/-- `dht::refresh`. -/
def refresh (stored : Stored) (now : Int) : Stored :=
  Lib.filterMap (fun _ map => Index.sweep (fun _ _ it => keepFresh now it) map) stored

/-- `dht::rdp_recv_get_func::read_val`: the records pushed to `m_data` too. -/
def readVal (stored : Stored) (now : Int) (id : Id) (key : Buf) : Stored × List StoredData :=
  match stored.lookup id with
  | none => (stored, [])
  | some map =>
      match map.lookup key with
      | none => (stored, [])
      | some set =>
          let set := Lib.filterMap (fun _ it => keepFresh now it) set
          (stored.prune id map key set, set.entries.map (·.2))

end Stored

/-! ### Stores -/

/-- The message of a store by UDP. -/
def StoreFunc.msg (mId : Id) (func : StoreFunc) (dst : Id) : MsgDhtStore where
  src := mId
  dst := dst
  id := func.id
  origin := mId
  keylen := func.key.len
  valuelen := func.value.len
  ttl := func.ttl
  flags := if func.isUnique then dhtFlagUnique else 0
  data := func.key.1 ++ func.value.1

/-- `dht::store_func::store_by_udp`: whether the own node is among them, and the messages. -/
def StoreFunc.storeByUdp (mId : Id) (func : StoreFunc) (nodes : List Cageaddr) :
    Bool × List MsgDhtStore :=
  if sizeofStoreHead + func.key.1.length + func.value.1.length > sizeofBuf then
    (false, [])
  else
    (nodes.any (·.id = mId), (nodes.filter (·.id ≠ mId)).map fun addr => func.msg mId addr.id)

/-- `dht::store_func::store_by_rdp`: whether the own node is among them, and the nodes to
connect to. -/
def StoreFunc.storeByRdp (mId : Id) (nodes : List Cageaddr) : Bool × List Id :=
  (nodes.any (·.id = mId), (nodes.filter (·.id ≠ mId)).map (·.id))

/-- The record of a store. -/
def StoreFunc.sdata (func : StoreFunc) (now original : Int) : StoredData where
  key := func.key
  value := func.value
  id := func.id
  src := func.origin
  isUnique := func.isUnique
  recvd := ∅
  storedTime := now
  original := original
  ttl := func.ttl

/-- `dht::store_func::operator()` on `m_stored`. The time, the number and the time to live
of the record are left unset. -/
def StoreFunc.found (func : StoreFunc) (mId : Id) (isUseRdp : Bool) (nodes : List Cageaddr)
    (uninit : StoredData) (stored : Stored) : Except StoreFault Stored :=
  let me := if isUseRdp then (storeByRdp mId nodes).1 else (func.storeByUdp mId nodes).1
  if nodes.length ≥ numFindNode then
    let sdata := { func.sdata uninit.storedTime uninit.original with ttl := uninit.ttl }
    let (stored, origin) := stored.decOriginSdata sdata
    if origin = 0 ∧ ¬ me then stored.eraseSdata sdata else .ok stored
  else
    .ok stored

/-- The second half of `dht::store`. -/
def StoreFunc.storeLocal (func : StoreFunc) (now : Int) (stored : Stored) :
    Except StoreFault Stored :=
  let data := func.sdata now originalPutNum
  if func.ttl = 0 then stored.eraseSdata data else .ok (stored.addSdata data true)

/-- The record of a message. The flag is left unset where the message does not have it. -/
def MsgDhtStore.sdata (req : MsgDhtStore) (now : Int) (uninit : Bool) : StoredData where
  value := Buf.copy req.valuelen (req.data.drop req.keylen.toNat)
  key := Buf.copy req.keylen req.data
  ttl := req.ttl
  storedTime := now
  id := req.id
  original := 0
  src := req.origin
  isUnique := if req.flags &&& dhtFlagUnique ≠ 0 then true else uninit
  recvd := ∅

/-- The record of a finished `rdp_recv_store`. -/
def RdpRecvStore.sdata (rs : RdpRecvStore) (now : Int) : StoredData where
  value := rs.value
  key := rs.key
  ttl := rs.ttl
  storedTime := now
  id := rs.id
  src := rs.src
  original := 0
  isUnique := rs.isUnique
  recvd := ∅

/-- How `recv_store` and `store2local` end: a record with no time to live deletes. -/
def Stored.receive (stored : Stored) (data : StoredData) (sender : Id) : Except StoreFault Stored :=
  if data.ttl = 0 then
    stored.eraseSdata data
  else
    .ok ((stored.addSdata data false).insert2recvdSdata data sender)

/-- Whether the message is for this node and as long as it says. -/
def MsgDhtStore.Accepted (req : MsgDhtStore) (mId : Id) : Prop :=
  req.dst = mId ∧ req.keylen.toNat + req.valuelen.toNat = req.data.length

instance (req : MsgDhtStore) (mId : Id) : Decidable (req.Accepted mId) := by
  unfold MsgDhtStore.Accepted
  infer_instance

/-- `dht::recv_store` on `m_stored`. -/
def recvStore (mId : Id) (now : Int) (req : MsgDhtStore) (uninit : Bool) (stored : Stored) :
    Except StoreFault Stored :=
  if req.Accepted mId then stored.receive (req.sdata now uninit) req.src else .ok stored

/-- `dht::rdp_recv_store::store2local`. -/
def RdpRecvStore.store2local (rs : RdpRecvStore) (now : Int) (stored : Stored) :
    Except StoreFault Stored :=
  stored.receive (rs.sdata now) rs.src

/-! ### Restoring -/

/-- The lookup that restores a record of the own node, with what is left of its time. -/
def StoredData.storeFunc (it : StoredData) (diff : Int) : StoreFunc where
  key := it.key
  value := it.value
  ttl := .ofInt 16 (it.ttl.toNat - diff)
  id := it.id
  origin := it.src
  isUnique := it.isUnique

/-- What one record gives to a restore: whether it stays, the nodes that have it then, and
what is sent for it. -/
structure Restored where
  me : Bool
  recvd : Finset Id
  udp : List MsgDhtStore
  rdp : List (Id × StoreFunc)
  finding : List StoreFunc

/-- The loop of `restore_by_udp` over the nodes. -/
def restoreUdpLoop (mId : Id) :
    List Cageaddr → Bool → Finset Id → List Id → Bool × Finset Id × List Id
  | [], me, recvd, sent => (me, recvd, sent)
  | addr :: nodes, me, recvd, sent =>
      if mId = addr.id then
        restoreUdpLoop mId nodes true recvd sent
      else if addr.id ∈ recvd then
        restoreUdpLoop mId nodes me recvd sent
      else
        restoreUdpLoop mId nodes me (insert addr.id recvd) (sent ++ [addr.id])

/-- `dht::restore_func::restore_by_udp`. The second test of `original` in the source is
never reached. -/
def restoreByUdp (mId : Id) (now : Int) (nodes : List Cageaddr) (it : StoredData) : Restored :=
  let diff := now - it.storedTime
  if it.original > 0 then
    ⟨true, it.recvd, [], [], []⟩
  else if sizeofStoreHead + it.key.1.length + it.value.1.length > sizeofBuf then
    ⟨false, it.recvd, [], [], []⟩
  else if diff ≥ it.ttl.toNat then
    ⟨false, it.recvd, [], [], []⟩
  else
    let (me, recvd, sent) := restoreUdpLoop mId nodes false it.recvd []
    ⟨me, recvd, sent.map fun dst =>
      { src := mId
        dst := dst
        id := it.id
        origin := it.src
        keylen := it.key.len
        valuelen := it.value.len
        ttl := .ofInt 16 (it.ttl.toNat - diff)
        flags := if it.isUnique then dhtFlagUnique else 0
        data := it.key.1 ++ it.value.1 }, [], []⟩

/-- `dht::restore_func::restore_by_rdp`. The connections for which `rdp::connect` gives a
descriptor are those of `connect`. -/
def restoreByRdp (mId : Id) (now : Int) (nodes : List Cageaddr) (connect : Id → Bool)
    (it : StoredData) : Restored :=
  let diff := now - it.storedTime
  if diff ≥ it.ttl.toNat then
    ⟨false, it.recvd, [], [], []⟩
  else if it.original > 0 then
    ⟨true, it.recvd, [], [], [it.storeFunc diff]⟩
  else
    let func : StoreFunc := ⟨it.key, it.value, it.ttl, it.id, it.src, it.isUnique⟩
    let dsts := (nodes.map (·.id)).filter fun id => id ≠ mId ∧ id ∉ it.recvd ∧ connect id
    ⟨nodes.any (·.id = mId), it.recvd, [], dsts.map fun dst => (dst, func), []⟩

/-- What a restore does with one record. -/
def restoreOne (mId : Id) (isUseRdp : Bool) (now : Int) (nodes : List Cageaddr)
    (connect : StoredData → Id → Bool) (it : StoredData) : Restored :=
  if isUseRdp then restoreByRdp mId now nodes (connect it) it else restoreByUdp mId now nodes it

/-- The record after a restore. -/
def Restored.kept (r : Restored) (it : StoredData) : Option StoredData :=
  if r.me then some { it with recvd := r.recvd } else none

/-- `dht::restore_func::operator()` on `m_stored`. The nodes closest to an id are those of
`lookup`. -/
def Stored.restore (stored : Stored) (mId : Id) (isUseRdp : Bool) (now : Int)
    (lookup : Id → List Cageaddr) (connect : StoredData → Id → Bool) : Stored :=
  Lib.filterMap (fun id map =>
    if lookup id = [] then
      some map
    else
      Index.sweep (fun _ _ it =>
        (restoreOne mId isUseRdp now (lookup id) connect it).kept it) map) stored

/-- The records of `m_stored` that a restore goes over, each with the nodes for it, and what
it gives. -/
def Stored.restored (stored : Stored) (mId : Id) (isUseRdp : Bool) (now : Int)
    (lookup : Id → List Cageaddr) (connect : StoredData → Id → Bool) : List Restored :=
  stored.entries.flatMap fun ids =>
    if lookup ids.1 = [] then
      []
    else
      ids.2.entries.flatMap fun keys =>
        keys.2.entries.map fun values =>
          restoreOne mId isUseRdp now (lookup ids.1) connect values.2

/-! ### One node -/

/-- The members of `dht` for stored values, and the lookups of `store` that have not called
back yet. -/
structure Store where
  id : Id
  isUseRdp : Bool
  stored : Stored
  finding : List StoreFunc

namespace Store

/-- A node that has nothing stored. -/
def init (id : Id) (isUseRdp : Bool) : Store := ⟨id, isUseRdp, ∅, []⟩

/-- The events. -/
inductive Input where
  | store (now : Int) (func : StoreFunc)
  | found (func : StoreFunc) (nodes : List Cageaddr) (uninit : StoredData)
  | recvStore (now : Int) (req : MsgDhtStore) (uninit : Bool)
  | store2local (now : Int) (rs : RdpRecvStore)
  | storeReset (func : StoreFunc) (did : Id) (uninit : StoredData)
  | refresh (now : Int)
  | restore (now : Int) (lookup : Id → List Cageaddr) (connect : StoredData → Id → Bool)
  | readVal (now : Int) (id : Id) (key : Buf)
  | setEnabledRdp (flag : Bool)

/-- One event. A lookup calls back once. -/
def step (s : Store) : Input → Except StoreFault Store
  | .store now func => do
      let stored ← func.storeLocal now s.stored
      return { s with stored, finding := func :: s.finding }
  | .found func nodes uninit =>
      if func ∈ s.finding then do
        let stored ← func.found s.id s.isUseRdp nodes uninit s.stored
        return { s with stored, finding := s.finding.erase func }
      else
        .ok s
  | .recvStore now req uninit => do
      let stored ← recvStore s.id now req uninit s.stored
      return { s with stored }
  | .store2local now rs => do
      let stored ← rs.store2local now s.stored
      return { s with stored }
  | .storeReset func did uninit =>
      -- The other fields of the record are left unset, and are not read.
      let sdata := { uninit with key := func.key, value := func.value, id := func.id }
      .ok { s with stored := s.stored.insert2recvdSdata sdata did }
  | .refresh now => .ok { s with stored := s.stored.refresh now }
  | .restore now lookup connect =>
      .ok { s with
        stored := s.stored.restore s.id s.isUseRdp now lookup connect
        finding := (s.stored.restored s.id s.isUseRdp now lookup connect).flatMap (·.finding) ++
          s.finding }
  | .readVal now id key => .ok { s with stored := (s.stored.readVal now id key).1 }
  | .setEnabledRdp flag => .ok { s with isUseRdp := flag }

end Store

end Libcage.Dht
