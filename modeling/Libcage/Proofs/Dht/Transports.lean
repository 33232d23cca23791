import Libcage.Dht.StoreRdp
import Libcage.Proofs.Dht.Packets
import Libcage.Proofs.Dht.Unique

/-!
# `Libcage.Proofs.Dht.Transports`: the two transports of a store

A store goes to another node as one message by UDP, or over an RDP connection as a header, a
key and a value. `run_arrive` says what a node makes of the second, however the packets come
together. `transportsAgree_iff` compares the record with the one that a message gives.
-/

set_option autoImplicit false

namespace Libcage.Proofs.Dht

open Libcage.Lib
open Libcage.Dht
open Libcage.Rdp (Id Table)

/-! ### Reading a store from its connection -/

section
variable (func : StoreFunc) (uninit : Bool)

/-- The record of a store whose header has been read. -/
def reading (key value : List Byte) : RecvStore where
  keylen := func.key.len
  valuelen := func.value.len
  ttl := func.ttl
  key := key
  value := value
  id := func.id
  src := func.origin
  isHdrRead := true
  isUnique := func.isUnique || uninit

/-- The store as it was read. -/
def received : RdpRecvStore where
  key := func.key
  value := func.value
  ttl := func.ttl
  id := func.id
  src := func.origin
  isUnique := func.isUnique || uninit

/-- A node has read a part of a store, and the packets are those that are left. -/
inductive Reading : RecvStore → List (List Byte) → Prop where
  | header (did : Id) : Reading (.accepted did uninit) func.connected
  | key {k : List Byte} {todo : List (List Byte)} (hk : k ++ todo.flatten = func.key.1)
      (htodo : todo ≠ []) (hpackets : ∀ p ∈ todo, p ≠ []) :
      Reading (reading func uninit k []) (todo ++ sendPackets func.value.1)
  | value {v : List Byte} {todo : List (List Byte)} (hv : v ++ todo.flatten = func.value.1)
      (htodo : todo ≠ []) (hpackets : ∀ p ∈ todo, p ≠ []) :
      Reading (reading func uninit func.key.1 v) todo

/-- After an event, all that has come is read. When nothing is left, the store is done. -/
def Reads (now : Int) (stored : Stored) (later : List (List Byte))
    (result : Except StoreFault RecvState) : Prop :=
  later = [] ∧ result = ((received func uninit).store2local now stored >>= fun stored =>
      .ok ⟨none, [], stored⟩) ∨
  later ≠ [] ∧ ∃ rs, result = .ok ⟨some rs, [], stored⟩ ∧ Reading func uninit rs later

end

section
variable {func : StoreFunc} {uninit : Bool} {now : Int} {stored : Stored}
  {queue later : List (List Byte)}

/-- A round that has to read the value and finds nothing. -/
theorem readBody_idle {rs : RecvStore} : readBody now rs ⟨some rs, [], stored⟩ =
    .ok (false, ⟨some rs, [], stored⟩) := by
  unfold readBody
  split
  · rfl
  · rfl

theorem loop_idle (k v : List Byte) (rounds : Nat) :
    ready2ReadLoop now (rounds + 1) ⟨some (reading func uninit k v), [], stored⟩ =
      .ok ⟨some (reading func uninit k v), [], stored⟩ := by
  rw [ready2ReadLoop]
  show (readBody now _ _ >>= _) = _
  rw [readBody_idle]
  rfl

/-- A round that reads some of the key. -/
theorem readBody_key {k bytes : List Byte} {e : Option RecvStore} {queue' : List (List Byte)}
    (hk : k.length < func.key.1.length)
    (hrecv : receive (func.key.1.length - k.length) queue = (bytes, queue')) (hbytes : bytes ≠ []) :
    readBody now (reading func uninit k []) ⟨e, queue, stored⟩ =
      .ok (true, ⟨some (reading func uninit (k ++ bytes) []), queue', stored⟩) := by
  unfold readBody
  rw [if_pos (by show k.length < func.key.len.toNat; rw [toNat_len]; exact hk)]
  have hlen : (reading func uninit k []).keylen.toNat = func.key.1.length := toNat_len func.key
  have hkey : (reading func uninit k []).key = k := rfl
  simp only [hlen, hkey, hrecv, if_neg hbytes]
  rfl

/-- A round that reads some of the value. -/
theorem readBody_value {v bytes : List Byte} {e : Option RecvStore} {queue' : List (List Byte)}
    (hrecv : receive (func.value.1.length - v.length) queue = (bytes, queue'))
    (hbytes : bytes ≠ []) :
    readBody now (reading func uninit func.key.1 v) ⟨e, queue, stored⟩ =
      if func.value.1.length = (v ++ bytes).length then
        (reading func uninit func.key.1 (v ++ bytes)).finished.store2local now stored >>=
          fun stored => .ok (false, ⟨none, queue', stored⟩)
      else .ok (true, ⟨some (reading func uninit func.key.1 (v ++ bytes)), queue', stored⟩) := by
  unfold readBody
  rw [if_neg (by show ¬ func.key.1.length < func.key.len.toNat; rw [toNat_len]; exact lt_irrefl _)]
  have hlen : (reading func uninit func.key.1 v).valuelen.toNat = func.value.1.length :=
    toNat_len func.value
  have hvalue : (reading func uninit func.key.1 v).value = v := rfl
  simp only [hlen, hvalue, hrecv, if_neg hbytes]
  rfl

/-- The rounds that read the value. -/
theorem loop_value {v : List Byte} {todo : List (List Byte)} (hv : v ++ todo.flatten = func.value.1)
    (htodo : todo ≠ []) (hpackets : ∀ p ∈ todo, p ≠ []) (hqueue : queue ++ later = todo)
    {rounds : Nat} (hrounds : queue.length < rounds) :
    Reads func uninit now stored later
      (ready2ReadLoop now rounds ⟨some (reading func uninit func.key.1 v), queue, stored⟩) := by
  obtain ⟨rounds, rfl⟩ := exists_round hrounds
  -- One round reads all that is in the queue.
  by_cases hnil : queue = []
  · rw [hnil, List.nil_append] at hqueue
    rw [hnil, loop_idle, hqueue]
    exact Or.inr ⟨htodo, _, rfl, .value hv htodo hpackets⟩
  · have hnone : Starts ([] : List (List Byte)) := fun p rest h => nomatch h
    have hend : queue ++ later = todo ++ [] := by rw [hqueue, List.append_nil]
    rw [ready2ReadLoop]
    rcases receive_part (sub_length_of_todo hv) hend hnone with
      ⟨todo', hne, rfl, rfl, hrecv⟩ | ⟨queue', rfl, hlater, hrecv⟩
    · -- Some of the value is still missing.
      have hbytes : queue.flatten ≠ [] := flatten_ne_nil hnil fun p hp =>
        hpackets p (List.mem_append_left _ hp)
      have hpackets' : ∀ p ∈ todo', p ≠ [] := fun p hp => hpackets p (List.mem_append_right _ hp)
      have hv' : (v ++ queue.flatten) ++ todo'.flatten = func.value.1 := by
        rw [List.append_assoc, ← List.flatten_append]
        exact hv
      have hshort := length_lt_of_todo hv' (flatten_ne_nil hne hpackets')
      obtain ⟨rounds, rfl⟩ := exists_next_round hnil hrounds
      refine Or.inr
        ⟨by simpa using hne, reading func uninit func.key.1 (v ++ queue.flatten), ?_, ?_⟩
      · show (readBody now _ _ >>= _) = _
        rw [readBody_value hrecv hbytes, if_neg (Nat.ne_of_gt hshort), ok_bind]
        exact loop_idle _ _ rounds
      · rw [List.append_nil]
        exact .value hv' hne hpackets'
    · -- The value is complete, and nothing else is in the queue.
      obtain ⟨rfl, rfl⟩ := List.append_eq_nil_iff.mp hlater
      have hbytes : todo.flatten ≠ [] := flatten_ne_nil htodo hpackets
      refine Or.inl ⟨rfl, ?_⟩
      show (readBody now _ _ >>= _) = _
      rw [readBody_value hrecv hbytes, hv, if_pos rfl]
      have hfinished : (reading func uninit func.key.1 func.value.1).finished =
          received func uninit := by
        simp [RecvStore.finished, reading, received]
      rw [hfinished]
      cases (received func uninit).store2local now stored with
      | error e => rfl
      | ok stored' => rfl

/-- The rounds that read the key and go on with the value. -/
theorem loop_key (hvalue : func.value.1 ≠ []) {k : List Byte} {todo : List (List Byte)}
    (hk : k ++ todo.flatten = func.key.1) (htodo : todo ≠ []) (hpackets : ∀ p ∈ todo, p ≠ [])
    (hqueue : queue ++ later = todo ++ sendPackets func.value.1) {rounds : Nat}
    (hrounds : queue.length < rounds) :
    Reads func uninit now stored later
      (ready2ReadLoop now rounds ⟨some (reading func uninit k []), queue, stored⟩) := by
  obtain ⟨rounds, rfl⟩ := exists_round hrounds
  by_cases hnil : queue = []
  · rw [hnil, List.nil_append] at hqueue
    rw [hnil, loop_idle, hqueue]
    refine Or.inr ⟨?_, _, rfl, .key hk htodo hpackets⟩
    simp [htodo]
  · have hstarts : Starts (sendPackets func.value.1) := starts_of_forall mem_sendPackets
    have hshort := length_lt_of_todo hk (flatten_ne_nil htodo hpackets)
    rw [ready2ReadLoop]
    -- The queue ends within the key, or has the key and some of the value.
    rcases receive_part (sub_length_of_todo hk) hqueue hstarts with
      ⟨todo', hne, rfl, rfl, hrecv⟩ | ⟨queue', rfl, hlater, hrecv⟩
    · have hbytes : queue.flatten ≠ [] := flatten_ne_nil hnil fun p hp =>
        hpackets p (List.mem_append_left _ hp)
      have hpackets' : ∀ p ∈ todo', p ≠ [] := fun p hp => hpackets p (List.mem_append_right _ hp)
      have hk' : (k ++ queue.flatten) ++ todo'.flatten = func.key.1 := by
        rw [List.append_assoc, ← List.flatten_append]
        exact hk
      obtain ⟨rounds, rfl⟩ := exists_next_round hnil hrounds
      refine Or.inr ⟨by simp [hne], reading func uninit (k ++ queue.flatten) [], ?_, ?_⟩
      · show (readBody now _ _ >>= _) = _
        rw [readBody_key hshort hrecv hbytes, ok_bind]
        exact loop_idle _ _ rounds
      · exact .key hk' hne hpackets'
    · -- The key is complete, and the rest of the queue is of the value.
      have hbytes : todo.flatten ≠ [] := flatten_ne_nil htodo hpackets
      have hrest : queue'.length < rounds := by
        have hlen := List.length_pos_iff_ne_nil.mpr htodo
        rw [List.length_append] at hrounds
        omega
      have hflat : [] ++ (sendPackets func.value.1).flatten = func.value.1 :=
        flatten_sendPackets func.value.1
      show Reads func uninit now stored later (readBody now _ _ >>= _)
      rw [readBody_key hshort hrecv hbytes, ok_bind, hk]
      exact loop_value hflat (sendPackets_ne_nil hvalue) mem_sendPackets hlater hrest

/-- The flag that a message has is set, and otherwise it is left as it was. -/
theorem ite_flags (func : StoreFunc) (uninit : Bool) :
    (if (if func.isUnique then dhtFlagUnique else 0) &&& dhtFlagUnique ≠ 0 then true else uninit) =
      (func.isUnique || uninit) := by
  cases func.isUnique with
  | false => simp
  | true => simp [dhtFlagUnique]

/-- The header is one packet. -/
theorem sendPackets_header : sendPackets func.header.encode = [func.header.encode] :=
  sendPackets_short (MsgDhtRdpStore.length_encode _) (by decide)

/-- The round that reads the header. -/
theorem readHdr_header (hkey : func.key.1 ≠ []) (hvalue : func.value.1 ≠ []) (did : Id)
    {e : Option RecvStore} {queue' : List (List Byte)}
    (hrecv : receive sizeofRdpStore queue = (func.header.encode, queue')) :
    readHdr (.accepted did uninit) ⟨e, queue, stored⟩ =
      .ok (true, ⟨some (reading func uninit [] []), queue', stored⟩) := by
  have hlens : ¬ (func.header.keylen = 0 ∨ func.header.valuelen = 0) := by
    rintro (hzero | hzero)
    · exact len_ne_zero hkey hzero
    · exact len_ne_zero hvalue hzero
  have hflags : (if func.header.flags &&& dhtFlagUnique ≠ 0 then true else uninit) =
      (func.isUnique || uninit) := ite_flags func uninit
  unfold readHdr
  simp only [hrecv, MsgDhtRdpStore.length_encode, MsgDhtRdpStore.decode_encode, if_neg hlens]
  rw [if_neg (by simp)]
  simp only [RecvStore.accepted, hflags]
  rfl

/-- The rounds that read all three parts. -/
theorem loop_header (hkey : func.key.1 ≠ []) (hvalue : func.value.1 ≠ []) (did : Id)
    (hqueue : queue ++ later = func.connected) (hnil : queue ≠ []) {rounds : Nat}
    (hrounds : queue.length < rounds) :
    Reads func uninit now stored later
      (ready2ReadLoop now rounds ⟨some (.accepted did uninit), queue, stored⟩) := by
  obtain ⟨rounds, rfl⟩ := exists_round hrounds
  have hstarts : Starts (sendPackets func.key.1 ++ sendPackets func.value.1) :=
    starts_append mem_sendPackets (starts_of_forall mem_sendPackets)
  rw [StoreFunc.connected, sendPackets_header] at hqueue
  have hlen : sizeofRdpStore = [func.header.encode].flatten.length := by
    rw [List.flatten_singleton, MsgDhtRdpStore.length_encode]
  rcases receive_part hlen hqueue hstarts with ⟨todo', hne, htodo, -, -⟩ |
    ⟨queue', rfl, hlater, hrecv⟩
  · -- There is only one packet, and it has come.
    cases queue with
    | nil => exact absurd rfl hnil
    | cons p queue =>
      have htail := (List.cons.inj htodo).2
      exact absurd (List.append_eq_nil_iff.mp htail.symm).2 hne
  · rw [List.flatten_singleton] at hrecv
    have hrest : queue'.length < rounds := by
      rw [List.length_append, List.length_singleton] at hrounds
      omega
    have hflat : [] ++ (sendPackets func.key.1).flatten = func.key.1 :=
      flatten_sendPackets func.key.1
    rw [ready2ReadLoop]
    show Reads func uninit now stored later (readHdr _ _ >>= _)
    rw [readHdr_header hkey hvalue did hrecv, ok_bind]
    exact loop_key hvalue hflat (sendPackets_ne_nil hkey) mem_sendPackets hlater hrest

/-- Some packets of a store come. -/
theorem arrive_reads (hkey : func.key.1 ≠ []) (hvalue : func.value.1 ≠ []) {rs : RecvStore}
    {packets : List (List Byte)} (h : Reading func uninit rs (packets ++ later)) :
    Reads func uninit now stored later (arrive now ⟨some rs, [], stored⟩ packets) ∨
      packets = [] ∧ arrive now ⟨some rs, [], stored⟩ packets = .ok ⟨some rs, [], stored⟩ := by
  by_cases hnil : packets = []
  · subst hnil
    exact Or.inr ⟨rfl, rfl⟩
  · left
    have harrive : arrive now ⟨some rs, [], stored⟩ packets =
        ready2ReadLoop now (packets.length + 1) ⟨some rs, packets, stored⟩ := by
      unfold arrive
      exact if_neg hnil
    rw [harrive]
    generalize hall : packets ++ later = all at h
    cases h with
    | header did => exact loop_header hkey hvalue did hall hnil (Nat.lt_succ_self _)
    | key hk htodo hpackets =>
      exact loop_key hvalue hk htodo hpackets hall (Nat.lt_succ_self _)
    | value hv htodo hpackets => exact loop_value hv htodo hpackets hall (Nat.lt_succ_self _)

/-- There is something to read until the store is done. -/
theorem Reading.ne_nil {rs : RecvStore} {packets : List (List Byte)}
    (h : Reading func uninit rs packets) : packets ≠ [] := by
  intro hnil
  cases h with
  | header did =>
    rw [StoreFunc.connected, sendPackets_header] at hnil
    exact List.cons_ne_nil _ _ hnil
  | key hk htodo hpackets => exact htodo (List.append_eq_nil_iff.mp hnil).1
  | value hv htodo hpackets => exact htodo hnil

/-- Nothing comes, and nothing happens. -/
theorem run_arrive_nothing {entry : Option RecvStore} {groups : List (List (List Byte))}
    (h : groups.flatten = []) :
    run (arrive now) ⟨entry, [], stored⟩ groups = .ok ⟨entry, [], stored⟩ := by
  induction groups with
  | nil => rfl
  | cons packets groups ih =>
    obtain ⟨rfl, hgroups⟩ := List.append_eq_nil_iff.mp h
    exact ih hgroups

/-- All the packets of a store come, in any groups. -/
theorem run_arrive (hkey : func.key.1 ≠ []) (hvalue : func.value.1 ≠ []) {rs : RecvStore}
    {groups : List (List (List Byte))} (h : Reading func uninit rs groups.flatten) :
    run (arrive now) ⟨some rs, [], stored⟩ groups =
      ((received func uninit).store2local now stored >>= fun stored =>
        .ok ⟨none, [], stored⟩) := by
  induction groups generalizing rs with
  | nil => exact absurd rfl h.ne_nil
  | cons packets groups ih =>
    rw [run]
    rcases arrive_reads hkey hvalue h with (⟨hnil, hread⟩ | ⟨-, rs', hread, hrest⟩) | ⟨rfl, hread⟩
    · -- The last packets of the store have come.
      rw [hread]
      cases (received func uninit).store2local now stored with
      | error e => rfl
      | ok stored' => exact run_arrive_nothing hnil
    · rw [hread]
      exact ih hrest
    · rw [hread]
      exact ih h

end

/-! ### The two transports -/

/-- Both transports of a store leave the same records at the other node, however the packets
come together and whatever is in the fields that are left unset. -/
def TransportsAgree (mId : Id) (func : StoreFunc) : Prop :=
  ∀ nodes, ∀ dst ∈ (StoreFunc.storeByRdp mId nodes).2, ∃ req ∈ (func.storeByUdp mId nodes).2,
    req.dst = dst ∧ ∀ (stored : Stored) (now : Int) (uninit uninit' : Bool) (did : Id)
      (groups : List (List (List Byte))), groups.flatten = func.connected →
      ∃ stored', recvStore dst now req uninit stored = .ok stored' ∧
        run (arrive now) ⟨some (.accepted did uninit'), [], stored⟩ groups =
          .ok ⟨none, [], stored'⟩

/-- The record of a store that has come from `src`. -/
def arrived (func : StoreFunc) (src : Id) (uninit : Bool) (now : Int) : StoredData where
  key := func.key
  value := func.value
  id := func.id
  src := src
  isUnique := func.isUnique || uninit
  recvd := ∅
  storedTime := now
  original := 0
  ttl := func.ttl

section
variable {mId : Id} {func : StoreFunc}

theorem eq_msg_of_mem {nodes : List Cageaddr} {req : MsgDhtStore}
    (h : req ∈ (func.storeByUdp mId nodes).2) : req = func.msg mId req.dst := by
  unfold StoreFunc.storeByUdp at h
  split at h
  · cases h
  · obtain ⟨addr, -, rfl⟩ := List.mem_map.mp h
    rfl

/-- What a message to another node becomes there. -/
theorem recvStore_msg (dst : Id) (now : Int) (uninit : Bool) (stored : Stored) :
    recvStore dst now (func.msg mId dst) uninit stored =
      stored.receive (arrived func mId uninit now) mId := by
  have haccepted : (func.msg mId dst).Accepted dst := by
    refine ⟨rfl, ?_⟩
    show func.key.len.toNat + func.value.len.toNat = (func.key.1 ++ func.value.1).length
    rw [toNat_len, toNat_len, List.length_append]
  have hflags : (if (func.msg mId dst).flags &&& dhtFlagUnique ≠ 0 then true else uninit) =
      (func.isUnique || uninit) := ite_flags func uninit
  have hkey : Buf.copy func.key.len (func.key.1 ++ func.value.1) = func.key := copy_len _ _
  have hvalue : Buf.copy func.value.len ((func.key.1 ++ func.value.1).drop func.key.len.toNat) =
      func.value := by
    rw [toNat_len, List.drop_left, copy_len_self]
  have hsdata : (func.msg mId dst).sdata now uninit = arrived func mId uninit now := by
    unfold MsgDhtStore.sdata arrived
    rw [hflags]
    simp only [StoreFunc.msg, hkey, hvalue]
  rw [recvStore, if_pos haccepted, hsdata]
  rfl

/-- What the packets to another node become there. -/
theorem run_arrive_connected (hkey : func.key.1 ≠ []) (hvalue : func.value.1 ≠ [])
    {groups : List (List (List Byte))} (hgroups : groups.flatten = func.connected) (now : Int)
    (uninit : Bool) (did : Id) (stored : Stored) :
    run (arrive now) ⟨some (.accepted did uninit), [], stored⟩ groups =
      (stored.receive (arrived func func.origin uninit now) func.origin >>= fun stored =>
        .ok ⟨none, [], stored⟩) := by
  have h : Reading func uninit (.accepted did uninit) groups.flatten := by
    rw [hgroups]
    exact .header did
  exact run_arrive hkey hvalue h

/-- A record with a time to live that comes to a node with nothing stored. -/
theorem receive_empty {data : StoredData} (httl : data.ttl ≠ 0) {sender : Id} {stored : Stored}
    (h : (∅ : Stored).receive data sender = .ok stored) :
    (stored.row data.id data.key).lookup data.value =
      some { data with recvd := insert sender data.recvd } := by
  rw [Stored.receive, if_neg httl] at h
  have hid : ((∅ : Stored).addSdata data false).lookup data.id =
      some (AList.insert data.key (SdataSet.add ∅ data) ∅) := AList.lookup_insert _
  have hkey : (AList.insert data.key (SdataSet.add ∅ data) ∅ : Table Buf SdataSet).lookup data.key =
      some (SdataSet.add ∅ data) := AList.lookup_insert _
  have hvalue : (SdataSet.add ∅ data).lookup data.value = some data := AList.lookup_insert _
  rw [← Except.ok.inj h, Stored.insert2recvdSdata, hid]
  dsimp only
  rw [hkey]
  dsimp only
  rw [hvalue]
  dsimp only
  rw [Index.row_put, if_pos ⟨rfl, rfl⟩, AList.lookup_insert]

/-- Where the transports agree, the own id and the one of the store are the same, and the
store is of a unique record. -/
theorem TransportsAgree.own (hkey : func.key.1 ≠ []) (hvalue : func.value.1 ≠ [])
    (httl : func.ttl ≠ 0) (h : TransportsAgree mId func) :
    func.origin = mId ∧ func.isUnique = true := by
  -- Another node that has nothing stored, with the field left unset in both ways.
  let dst : Id := mId + 1
  have hdst : dst ∈ (StoreFunc.storeByRdp mId [⟨dst, .loopback⟩]).2 := by
    have hne : dst ≠ mId := by simp [dst]
    simp [StoreFunc.storeByRdp, hne]
  obtain ⟨req, hreq, hreqDst, hagree⟩ := h _ dst hdst
  obtain ⟨stored', hudp, hrdp⟩ := hagree ∅ 0 false true 0 [func.connected] (by simp)
  rw [eq_msg_of_mem hreq, hreqDst, recvStore_msg] at hudp
  rw [run_arrive_connected hkey hvalue (by simp)] at hrdp
  obtain ⟨stored'', hrecv, hend⟩ := bind_eq_ok hrdp
  cases hend
  have hu := receive_empty httl hudp
  have hr := receive_empty httl hrecv
  have heq := Option.some.inj (hu.symm.trans hr)
  refine ⟨(congrArg StoredData.src heq).symm, ?_⟩
  have hunique := congrArg StoredData.isUnique heq
  simpa [arrived] using hunique

/-- The two transports of a store agree exactly when the node stores a unique record of its
own. -/
theorem transportsAgree_iff (mId : Id) (func : StoreFunc) (hkey : func.key.1 ≠ [])
    (hvalue : func.value.1 ≠ []) (httl : func.ttl ≠ 0)
    (hfits : sizeofStoreHead + func.key.1.length + func.value.1.length ≤ sizeofBuf) :
    TransportsAgree mId func ↔ func.origin = mId ∧ func.isUnique = true := by
  constructor
  · intro h
    exact h.own hkey hvalue httl
  · rintro ⟨horigin, hunique⟩ nodes dst hdst
    have hreq : func.msg mId dst ∈ (func.storeByUdp mId nodes).2 := by
      rw [StoreFunc.storeByUdp, if_neg (Nat.not_lt.mpr hfits)]
      obtain ⟨addr, haddr, rfl⟩ := List.mem_map.mp hdst
      exact List.mem_map_of_mem haddr
    refine ⟨_, hreq, rfl, ?_⟩
    intro stored now uninit uninit' did groups hgroups
    rw [recvStore_msg, run_arrive_connected hkey hvalue hgroups]
    have harrived : arrived func mId uninit now = arrived func mId uninit' now := by
      simp [arrived, hunique]
    have httl' : (arrived func mId uninit' now).ttl ≠ 0 := httl
    rw [horigin, harrived, Stored.receive, if_neg httl']
    exact ⟨_, rfl, rfl⟩

/-- The node stores a unique record of its own. -/
theorem transportsAgree_iff_own : TransportsAgree 0 (uniqueStore 1) :=
  (transportsAgree_iff 0 (uniqueStore 1) (by decide) (by decide) (by decide) (by decide)).mpr
    ⟨rfl, rfl⟩

end

/-- A store for node 7, of a record that is not unique. -/
def otherStore : StoreFunc := ⟨oneByte 1, oneByte 2, 100, 5, 7, false⟩

/-- The message of the own node names it as the source, and the connection names node 7. -/
theorem transports_differ : ¬ ∀ (mId : Id) (func : StoreFunc), func.key.1 ≠ [] →
    func.value.1 ≠ [] → func.ttl ≠ 0 →
    sizeofStoreHead + func.key.1.length + func.value.1.length ≤ sizeofBuf →
    TransportsAgree mId func := by
  intro h
  have hagree := h 0 otherStore (by decide) (by decide) (by decide) (by decide)
  have hown := hagree.own (by decide) (by decide) (by decide)
  exact absurd hown.1 (by decide)

end Libcage.Proofs.Dht
