import Libcage.Dht.Replication
import Libcage.Proofs.Dht.Packets
import Libcage.Proofs.Dht.Requests

/-!
# `Libcage.Proofs.Dht.Lifetimes`: how long copies live

A restore sends a record with the rest of its time, so that the copy ends when the record
does. By RDP it sends all of its time (`Renews`), and the copy lives as long again from then
on.

* `sent_iff`: for one record, the messages have no more than the rest, unless it is renewed.
* `lifetimes_iff`: in a run, no copy outlives the records that it was made from, unless some
  restore renews one.
* `restore_renews`: a record lives on at another node.
-/

set_option autoImplicit false

namespace Libcage.Proofs.Dht

open Libcage.Lib
open Libcage.Dht
open Libcage.Rdp (Id Table)

/-- What is left of a record's time. -/
def left (it : StoredData) (now : Int) : Int := it.ttl.toNat - (now - it.storedTime)

/-- By RDP a copy of a record that is not the node's own goes to another node, some time after
it was stored. -/
def Renews (mId : Id) (isUseRdp : Bool) (now : Int) (nodes : List Cageaddr) (connect : Id → Bool)
    (it : StoredData) : Prop :=
  isUseRdp = true ∧ it.original ≤ 0 ∧ it.storedTime < now ∧ 0 < left it now ∧
    ∃ addr ∈ nodes, addr.id ≠ mId ∧ addr.id ∉ it.recvd ∧ connect addr.id = true

/-! ### The messages for one record -/

theorem toNat_ofInt_le {n : Int} (h : 0 ≤ n) : ((BitVec.ofInt 16 n).toNat : Int) ≤ n := by
  rw [BitVec.toNat_ofInt]
  have hmod : 0 ≤ n % ((2 ^ 16 : Nat) : Int) := Int.emod_nonneg _ (by decide)
  rw [Int.toNat_of_nonneg hmod]
  omega

/-- A message is about a record. -/
def About (it : StoredData) : Packet → Prop
  | .udp req => req.id = it.id ∧ req.origin = it.src ∧ req.keylen = it.key.len ∧
      req.valuelen = it.value.len ∧ req.data = it.key.1 ++ it.value.1
  | .rdp _ func => func.id = it.id ∧ func.origin = it.src ∧ func.key = it.key ∧
      func.value = it.value

section
variable {mId : Id} {isUseRdp : Bool} {now : Int} {nodes : List Cageaddr}
  {connect : StoredData → Id → Bool} {answer : StoreFunc → List Cageaddr} {it : StoredData}

/-- The messages by UDP have what is left. -/
theorem packets_udp {p : Packet}
    (h : p ∈ Replication.packets mId answer (restoreByUdp mId now nodes it)) :
    About it p ∧ (p.ttl.toNat : Int) ≤ left it now := by
  unfold restoreByUdp Replication.packets at h
  dsimp only at h
  split at h
  · simp at h
  · split at h
    · simp at h
    · split at h
      · simp at h
      · rename_i hfresh
        simp only [List.map_nil, List.flatMap_nil, List.append_nil, List.map_map, List.mem_map,
          Function.comp_apply] at h
        obtain ⟨dst, -, rfl⟩ := h
        refine ⟨⟨rfl, rfl, rfl, rfl, rfl⟩, toNat_ofInt_le ?_⟩
        omega

/-- By RDP, the own records are sent with what is left of them after a lookup, and the others
with all of their time. -/
theorem mem_packets_rdp {connect : Id → Bool} {p : Packet} :
    p ∈ Replication.packets mId answer (restoreByRdp mId now nodes connect it) ↔
      0 < left it now ∧
        (it.original > 0 ∧
          (∃ dst ∈ (StoreFunc.storeByRdp mId (answer (it.storeFunc (now - it.storedTime)))).2,
            .rdp dst (it.storeFunc (now - it.storedTime)) = p) ∨
        it.original ≤ 0 ∧ ∃ addr ∈ nodes, (addr.id ≠ mId ∧ addr.id ∉ it.recvd ∧
          connect addr.id = true) ∧
          .rdp addr.id ⟨it.key, it.value, it.ttl, it.id, it.src, it.isUnique⟩ = p) := by
  unfold restoreByRdp Replication.packets left
  dsimp only
  split
  · rename_i hover
    simp only [List.map_nil, List.flatMap_nil, List.append_nil, List.not_mem_nil, false_iff]
    omega
  · rename_i hfresh
    have hleft : 0 < (it.ttl.toNat : Int) - (now - it.storedTime) := by omega
    rw [and_iff_right hleft]
    split
    · rename_i hown
      have hnot : ¬ it.original ≤ 0 := by omega
      simp [hown, hnot]
    · rename_i hown
      have hother : it.original ≤ 0 := by omega
      simp [hown, hother, and_assoc]

theorem packets_about {p : Packet}
    (h : p ∈ Replication.packets mId answer (restoreOne mId isUseRdp now nodes connect it)) :
    About it p := by
  unfold restoreOne at h
  split at h
  · rcases (mem_packets_rdp.mp h).2 with ⟨-, dst, -, rfl⟩ | ⟨-, addr, -, -, rfl⟩
    · exact ⟨rfl, rfl, rfl, rfl⟩
    · exact ⟨rfl, rfl, rfl, rfl⟩
  · exact (packets_udp h).1

/-- The messages for a record have at most what is left of its time, unless it is renewed. -/
theorem sent_iff :
    (∀ p ∈ Replication.packets mId answer (restoreOne mId isUseRdp now nodes connect it),
      (p.ttl.toNat : Int) ≤ left it now) ↔
      ¬ Renews mId isUseRdp now nodes (connect it) it := by
  unfold restoreOne
  cases isUseRdp with
  | false =>
    refine ⟨fun _ hrenews => absurd hrenews.1 (by simp), fun _ p hp => ?_⟩
    rw [if_neg (by simp)] at hp
    exact (packets_udp hp).2
  | true =>
    rw [if_pos rfl]
    constructor
    · rintro h ⟨-, hother, hold, hleft, addr, haddr, hsend⟩
      have hsent := h (.rdp addr.id ⟨it.key, it.value, it.ttl, it.id, it.src, it.isUnique⟩)
        (mem_packets_rdp.mpr ⟨hleft, Or.inr ⟨hother, addr, haddr, hsend, rfl⟩⟩)
      unfold left at hsent
      change (it.ttl.toNat : Int) ≤ _ at hsent
      omega
    · intro hno p hp
      obtain ⟨hleft, ⟨-, dst, -, rfl⟩ | ⟨hother, addr, haddr, hsend, rfl⟩⟩ := mem_packets_rdp.mp hp
      · unfold left at hleft ⊢
        exact toNat_ofInt_le (Int.le_of_lt hleft)
      · -- A record of this moment has all of its time left.
        have hnew : ¬ it.storedTime < now := fun hold =>
          hno ⟨rfl, hother, hold, hleft, addr, haddr, hsend⟩
        show (it.ttl.toNat : Int) ≤ left it now
        unfold left
        omega

end

/-! ### Where a record comes from -/

/-- Two records that are one and the same but for what a node notes in its own. -/
structure SameStore (it sdata : StoredData) : Prop where
  id : it.id = sdata.id
  key : it.key = sdata.key
  value : it.value = sdata.value
  src : it.src = sdata.src
  storedTime : it.storedTime = sdata.storedTime
  ttl : it.ttl = sdata.ttl

theorem Kept.sameStore {it it' : StoredData} (h : Kept it it') : SameStore it' it := by
  rw [h.same]
  exact ⟨rfl, rfl, rfl, rfl, rfl, rfl⟩

theorem SameStore.trans {it it' it'' : StoredData} (h : SameStore it it')
    (h' : SameStore it' it'') : SameStore it it'' :=
  ⟨h.id.trans h'.id, h.key.trans h'.key, h.value.trans h'.value, h.src.trans h'.src,
    h.storedTime.trans h'.storedTime, h.ttl.trans h'.ttl⟩

/-- A record of a set that was written is an old one, or has what the new one says. -/
theorem Written.sameStore {sdata : StoredData} {isOrigin : Bool} {set set' : SdataSet}
    (h : Written sdata isOrigin set set')
    (hplace : ∀ v it, set.lookup v = some it → it.id = sdata.id ∧ it.key = sdata.key ∧ it.value = v)
    {v : Buf} {it : StoredData} (hit : set'.lookup v = some it) :
    set.lookup v = some it ∨ SameStore it sdata := by
  cases h with
  | kept => exact Or.inl hit
  | inserted =>
    rcases lookup_insert_eq_some.mp hit with ⟨-, rfl⟩ | ⟨-, hit⟩
    · exact Or.inr ⟨rfl, rfl, rfl, rfl, rfl, rfl⟩
    · exact Or.inl hit
  | renewed hold hsrc =>
    -- A renewed record keeps its place, and takes the rest from the request.
    obtain ⟨hid, hkey, hvalue⟩ := hplace _ _ hold
    rcases lookup_insert_eq_some.mp hit with ⟨-, rfl⟩ | ⟨-, hit⟩
    · exact Or.inr ⟨hid, hkey, hvalue, hsrc, rfl, rfl⟩
    · exact Or.inl hit
  | replaced =>
    rcases lookup_insert_eq_some.mp hit with ⟨-, rfl⟩ | ⟨-, hit⟩
    · exact Or.inr ⟨rfl, rfl, rfl, rfl, rfl, rfl⟩
    · exact Or.inl (lookup_erase_eq_some.mp hit).2

/-- The callback of a lookup leaves the records of a set, or puts its own there. -/
theorem found_source {func : StoreFunc} {mId : Id} {isUseRdp : Bool} {nodes : List Cageaddr}
    {uninit : StoredData} {stored stored' : Stored}
    (h : func.found mId isUseRdp nodes uninit stored = .ok stored') (id : Id) (key : Buf) :
    Shrinks (stored.row id key) (stored'.row id key) ∨
      stored'.row id key =
        (stored.row id key).insert func.value (StoreFunc.looked func uninit) := by
  rcases found_row h with rfl | ⟨-, set, hset, hrow⟩
  · exact Or.inl (shrinks_refl _)
  · rw [hrow]
    split
    · rename_i heq
      rw [heq.1, heq.2]
      cases hset with
      | revived => exact Or.inr rfl
      | counted hit => exact Or.inl (shrinks_insert hit (kept_decremented _))
      | ended hit =>
        exact Or.inl ((shrinks_insert hit (kept_decremented _)).trans (shrinks_erase _ _))
    · exact Or.inl (shrinks_refl _)

theorem brought_of_request {mId : Id} {i : Store.Input} {sdata : StoredData} {isOrigin : Bool}
    (h : request mId i = some (sdata, isOrigin)) : Replication.brought mId i = some sdata := by
  cases i with
  | store now func =>
    obtain ⟨rfl, -⟩ := Prod.mk.inj (Option.some.inj h)
    rfl
  | recvStore now req uninit =>
    change (if req.Accepted mId then some (req.sdata now uninit, false) else none) = _ at h
    change (if req.Accepted mId then some (req.sdata now uninit) else none) = _
    split at h
    · rename_i hacc
      obtain ⟨rfl, -⟩ := Prod.mk.inj (Option.some.inj h)
      rw [if_pos hacc]
    · cases h
  | store2local now rs =>
    obtain ⟨rfl, -⟩ := Prod.mk.inj (Option.some.inj h)
    rfl
  | _ => cases h

/-- A record of a node after an event was there before it, or is the one that the event
brings. -/
theorem find_source {s s' : Store} (hfiled : Filed s.stored) {i : Store.Input}
    (h : s.step i = .ok s') {id : Id} {key value : Buf} {it' : StoredData}
    (hit' : find s' id key value = some it') :
    (∃ it, find s id key value = some it ∧ SameStore it' it) ∨
      ∃ sdata, Replication.brought s.id i = some sdata ∧ SameStore it' sdata := by
  -- A record of a row that shrinks was there before.
  have hback : ∀ {set' : SdataSet}, Shrinks (s.stored.row id key) set' → ∀ {it},
      set'.lookup value = some it → ∃ it₀, find s id key value = some it₀ ∧ SameStore it it₀ := by
    intro set' hs it hit
    obtain ⟨it₀, hit₀, hkept⟩ := hs value it hit
    exact ⟨it₀, hit₀, hkept.sameStore⟩
  -- The row shrinks, a request writes to it, or a lookup puts its record back.
  rcases (step_row h id key).cases with
    hs | ⟨sdata, isOrigin, set₁, hreq, -, hid, hkey, hw, hn⟩ | ⟨func, uninit, hdone, -⟩
  · exact Or.inl (hback hs hit')
  · obtain ⟨it₁, hit₁, hkept⟩ := hn.shrinks value it' hit'
    have hplace : ∀ v it, (s.stored.row id key).lookup v = some it →
        it.id = sdata.id ∧ it.key = sdata.key ∧ it.value = v := by
      rw [hid, hkey]
      exact hfiled id key
    rcases hw.sameStore hplace hit₁ with hold | hnew
    · exact Or.inl ⟨it₁, hold, hkept.sameStore⟩
    · exact Or.inr ⟨sdata, brought_of_request hreq, hkept.sameStore.trans hnew⟩
  · cases i with
    | found func' nodes uninit' =>
      change (if func' ∈ s.finding then _ else _) = _ at h
      split at h
      · obtain ⟨stored, hstored, hs'⟩ := bind_eq_ok h
        rw [← Except.ok.inj hs'] at hit'
        rcases found_source hstored id key with hs | hrow
        · exact Or.inl (hback hs hit')
        · change (stored.row id key).lookup value = some it' at hit'
          rw [hrow] at hit'
          rcases lookup_insert_eq_some.mp hit' with ⟨-, rfl⟩ | ⟨-, hit'⟩
          · exact Or.inr ⟨_, rfl, rfl, rfl, rfl, rfl, rfl, rfl⟩
          · exact Or.inl ⟨it', hit', (Kept.refl it').sameStore⟩
      · rw [← Except.ok.inj h] at hit'
        exact Or.inl ⟨it', hit', (Kept.refl it').sameStore⟩
    | _ => cases hdone

/-! ### All nodes -/

/-- The record ends no later than an original of it. -/
def Bounded (originals : List StoredData) (it : StoredData) : Prop :=
  ∃ o ∈ originals, o.id = it.id ∧ o.key = it.key ∧ o.value = it.value ∧ o.src = it.src ∧
    it.storedTime + it.ttl.toNat ≤ o.storedTime + o.ttl.toNat

/-- No restore has given a copy more time than its record had left, and no node has a copy
that ends later than the original. -/
structure NotExtended (s : Replication) : Prop where
  sent : ∀ m ∈ s.replicas, (m.packet.ttl.toNat : Int) ≤ left m.record m.time
  record : ∀ m ∈ s.replicas, Bounded s.originals m.record
  held : ∀ i id key value it, find (s.node i) id key value = some it → Bounded s.originals it

/-- The restore of a node renews one of its records. -/
def RestoreRenews (s : Replication) : Replication.Input → Prop
  | .restore i now lookup connect _ => ∃ id key value it,
      find (s.node i) id key value = some it ∧
        Renews i (s.node i).isUseRdp now (lookup id) (connect it) it
  | _ => False

/-- What every event keeps: the names of the nodes, the places of records, and what the
messages are about. -/
structure InPlace (s : Replication) : Prop where
  id : ∀ i, (s.node i).id = i
  filed : ∀ i, Filed (s.node i).stored
  packet : ∀ m ∈ s.replicas, About m.record m.packet

section
variable {originals : List StoredData} {it it' : StoredData}

theorem Bounded.mono {later : List StoredData} (h : Bounded originals it) :
    Bounded (originals ++ later) it := by
  obtain ⟨o, ho, hsame⟩ := h
  exact ⟨o, List.mem_append_left _ ho, hsame⟩

/-- A copy that ends no later is bounded as well. -/
theorem Bounded.copy (h : Bounded originals it) (hid : it'.id = it.id) (hkey : it'.key = it.key)
    (hvalue : it'.value = it.value) (hsrc : it'.src = it.src)
    (hend : it'.storedTime + it'.ttl.toNat ≤ it.storedTime + it.ttl.toNat) :
    Bounded originals it' := by
  obtain ⟨o, ho, hoid, hokey, hovalue, hosrc, hoend⟩ := h
  exact ⟨o, ho, hoid.trans hid.symm, hokey.trans hkey.symm, hovalue.trans hvalue.symm,
    hosrc.trans hsrc.symm, hend.trans hoend⟩

theorem Bounded.same (h : Bounded originals it) (hsame : SameStore it' it) :
    Bounded originals it' := by
  apply h.copy hsame.id hsame.key hsame.value hsame.src
  rw [hsame.storedTime, hsame.ttl]

end

/-- A record that is found lies in the three tables. -/
theorem find_tables {s : Store} {id : Id} {key value : Buf} {it : StoredData} :
    find s id key value = some it ↔ ∃ map set, s.stored.lookup id = some map ∧
      map.lookup key = some set ∧ set.lookup value = some it := by
  unfold find
  cases hmap : s.stored.lookup id with
  | none =>
    rw [row_of_none hmap]
    simp
  | some map =>
    cases hset : map.lookup key with
    | none =>
      rw [row_of_map_none hmap hset]
      simp [hset]
    | some set =>
      rw [row_of_some hmap hset]
      simp [hset]

/-- The messages of a restore are those for the records of the node. -/
theorem mem_restoring {s : Store} {now : Int} {lookup : Id → List Cageaddr}
    {connect : StoredData → Id → Bool} {answer : StoreFunc → List Cageaddr} {m : Replica} :
    m ∈ Replication.restoring s now lookup connect answer ↔ ∃ id key value it,
      find s id key value = some it ∧ lookup id ≠ [] ∧
        ∃ p ∈ Replication.packets s.id answer
          (restoreOne s.id s.isUseRdp now (lookup id) connect it), m = ⟨it, now, p⟩ := by
  unfold Replication.restoring
  rw [List.mem_flatMap]
  constructor
  · rintro ⟨⟨id, map⟩, hmap, hm⟩
    split at hm
    · cases hm
    · rename_i hnodes
      obtain ⟨⟨key, set⟩, hset, hm⟩ := List.mem_flatMap.mp hm
      obtain ⟨⟨value, it⟩, hit, hm⟩ := List.mem_flatMap.mp hm
      obtain ⟨p, hp, rfl⟩ := List.mem_map.mp hm
      exact ⟨id, key, value, it, find_tables.mpr ⟨map, set, AList.mem_lookup_iff.mpr hmap,
        AList.mem_lookup_iff.mpr hset, AList.mem_lookup_iff.mpr hit⟩, hnodes, p, hp, rfl⟩
  · rintro ⟨id, key, value, it, hfind, hnodes, p, hp, rfl⟩
    obtain ⟨map, set, hmap, hset, hit⟩ := find_tables.mp hfind
    refine ⟨⟨id, map⟩, AList.mem_lookup_iff.mp hmap, ?_⟩
    rw [if_neg hnodes]
    refine List.mem_flatMap.mpr ⟨⟨key, set⟩, AList.mem_lookup_iff.mp hset, ?_⟩
    refine List.mem_flatMap.mpr ⟨⟨value, it⟩, AList.mem_lookup_iff.mp hit, ?_⟩
    exact List.mem_map_of_mem hp

section
variable {s s' : Replication}

/-- An event at one node. -/
theorem stepAt_cases {i : Id} {input : Store.Input} (h : s.stepAt i input = .ok s') :
    ∃ t, (s.node i).step input = .ok t ∧ s' = { s with node := Function.update s.node i t } := by
  obtain ⟨t, ht, hs'⟩ := bind_eq_ok h
  exact ⟨t, ht, (Except.ok.inj hs').symm⟩

theorem InPlace.update (h : InPlace s) {i : Id} {input : Store.Input} {t : Store}
    (ht : (s.node i).step input = .ok t) (originals : List StoredData) :
    InPlace ⟨Function.update s.node i t, originals, s.replicas⟩ := by
  constructor
  case id =>
    intro j
    dsimp only
    by_cases hj : j = i
    · subst hj
      rw [Function.update_self, step_id ht]
      exact h.id j
    · rw [Function.update_of_ne hj]
      exact h.id j
  case filed =>
    intro j
    dsimp only
    by_cases hj : j = i
    · subst hj
      rw [Function.update_self]
      exact (h.filed j).step ht
    · rw [Function.update_of_ne hj]
      exact h.filed j
  case packet => exact h.packet

/-- The records of all nodes after an event at one of them. -/
theorem find_update (h : InPlace s) {i : Id} {input : Store.Input} {t : Store}
    (ht : (s.node i).step input = .ok t) {j id : Id} {key value : Buf} {it' : StoredData}
    (hit' : find (Function.update s.node i t j) id key value = some it') :
    (∃ it, find (s.node j) id key value = some it ∧ SameStore it' it) ∨
      ∃ sdata, Replication.brought i input = some sdata ∧ SameStore it' sdata := by
  by_cases hj : j = i
  · subst hj
    rw [Function.update_self] at hit'
    have hsource := find_source (h.filed j) ht hit'
    rw [h.id j] at hsource
    exact hsource
  · rw [Function.update_of_ne hj] at hit'
    exact Or.inl ⟨it', hit', (Kept.refl it').sameStore⟩

/-- What a message that arrives brings is a copy of its record, made at the time of the
message. -/
theorem received_brings {m : Replica} (habout : About m.record m.packet) {uninit : Bool} {i : Id}
    {input : Store.Input} (hreceived : Replication.received m uninit = (i, some input))
    {mId : Id} {sdata : StoredData} (hbrought : Replication.brought mId input = some sdata) :
    sdata.id = m.record.id ∧ sdata.key = m.record.key ∧ sdata.value = m.record.value ∧
      sdata.src = m.record.src ∧ sdata.storedTime = m.time ∧ sdata.ttl = m.packet.ttl := by
  obtain ⟨record, time, packet⟩ := m
  cases packet with
  | udp req =>
    obtain ⟨hid, horigin, hkeylen, hvaluelen, hdata⟩ := habout
    obtain ⟨-, hinput⟩ := Prod.mk.inj hreceived
    rw [← Option.some.inj hinput] at hbrought
    change (if req.Accepted mId then some (req.sdata time uninit) else none) = _ at hbrought
    split at hbrought
    · rw [← Option.some.inj hbrought]
      -- The key and the value are cut out of the data where the sender put them.
      refine ⟨hid, ?_, ?_, horigin, rfl, rfl⟩
      · show Buf.copy req.keylen req.data = record.key
        rw [hkeylen, hdata, copy_len]
      · show Buf.copy req.valuelen (req.data.drop req.keylen.toNat) = record.value
        rw [hkeylen, hvaluelen, hdata, toNat_len, List.drop_left, copy_len_self]
    · cases hbrought
  | rdp dst func =>
    obtain ⟨hid, horigin, hkey, hvalue⟩ := habout
    unfold Replication.received at hreceived
    dsimp only at hreceived
    -- A header with an empty key or value ends the connection before a record is made.
    split at hreceived
    · cases (Prod.mk.inj hreceived).2
    · obtain ⟨-, hinput⟩ := Prod.mk.inj hreceived
      rw [← Option.some.inj hinput] at hbrought
      rw [← Option.some.inj hbrought]
      exact ⟨hid, hkey, hvalue, horigin, rfl, rfl⟩

/-- Anything but a restore at one node. -/
theorem node_step {i : Id} {input : Store.Input} (hs : s.step (.node i input) = .ok s') :
    s' = s ∨ ∃ t, (s.node i).step input = .ok t ∧
      s' = { s with
        node := Function.update s.node i t
        originals := s.originals ++ (Replication.brought i input).toList } := by
  unfold Replication.step at hs
  split at hs
  · exact Or.inl (Except.ok.inj hs).symm
  · rename_i heq
    obtain ⟨rfl, rfl⟩ := Replication.Input.node.inj heq
    obtain ⟨s₁, hs₁, hs'⟩ := bind_eq_ok hs
    obtain ⟨t, ht, rfl⟩ := stepAt_cases hs₁
    exact Or.inr ⟨t, ht, (Except.ok.inj hs').symm⟩
  · rename_i heq
    cases heq
  · rename_i heq
    cases heq

/-- A restore. -/
theorem restore_step {i : Id} {now : Int} {lookup : Id → List Cageaddr}
    {connect : StoredData → Id → Bool} {answer : StoreFunc → List Cageaddr}
    (hs : s.step (.restore i now lookup connect answer) = .ok s') :
    ∃ t, (s.node i).step (.restore now lookup connect) = .ok t ∧
      s' = { s with
        node := Function.update s.node i t
        replicas := s.replicas ++
          Replication.restoring (s.node i) now lookup connect answer } := by
  obtain ⟨s₁, hs₁, hs'⟩ := bind_eq_ok hs
  obtain ⟨t, ht, rfl⟩ := stepAt_cases hs₁
  exact ⟨t, ht, (Except.ok.inj hs').symm⟩

/-- The arrival of a message. -/
theorem arrive_step {n : Nat} {uninit : Bool} (hs : s.step (.arrive n uninit) = .ok s') :
    s' = s ∨ ∃ m ∈ s.replicas, ∃ i input t, Replication.received m uninit = (i, some input) ∧
      (s.node i).step input = .ok t ∧ s' = { s with node := Function.update s.node i t } := by
  dsimp only [Replication.step] at hs
  split at hs
  · exact Or.inl (Except.ok.inj hs).symm
  · rename_i m hm
    split at hs
    · exact Or.inl (Except.ok.inj hs).symm
    · rename_i i input hreceived
      obtain ⟨t, ht, rfl⟩ := stepAt_cases hs
      exact Or.inr ⟨m, List.mem_of_getElem? hm, i, input, t, hreceived, ht, rfl⟩

theorem inPlace_step (h : InPlace s) {i : Replication.Input} (hs : s.step i = .ok s') :
    InPlace s' := by
  cases i with
  | node i input =>
    rcases node_step hs with rfl | ⟨t, ht, rfl⟩
    · exact h
    · exact h.update ht _
  | restore i now lookup connect answer =>
    obtain ⟨t, ht, rfl⟩ := restore_step hs
    have hplace := h.update ht s.originals
    refine ⟨hplace.id, hplace.filed, fun m hm => ?_⟩
    rcases List.mem_append.mp hm with hm | hm
    · exact h.packet m hm
    · obtain ⟨id, key, value, it, -, -, p, hp, rfl⟩ := mem_restoring.mp hm
      exact packets_about hp
  | arrive n uninit =>
    rcases arrive_step hs with rfl | ⟨m, -, i, input, t, -, ht, rfl⟩
    · exact h
    · exact h.update ht s.originals

/-- What an event does to the lifetimes: only a restore that renews a record extends one. -/
theorem notExtended_step (hplace : InPlace s) (h : NotExtended s) {i : Replication.Input}
    (hs : s.step i = .ok s') (hno : ¬ RestoreRenews s i) : NotExtended s' := by
  cases i with
  | node i input =>
    rcases node_step hs with rfl | ⟨t, ht, rfl⟩
    · exact h
    · refine ⟨h.sent, fun m hm => (h.record m hm).mono, ?_⟩
      intro j id key value it' hit'
      rcases find_update hplace ht hit' with ⟨it, hit, hsame⟩ | ⟨sdata, hbrought, hsame⟩
      · exact ((h.held j id key value it hit).same hsame).mono
      · -- The record is an original.
        have hmem : sdata ∈ s.originals ++ (Replication.brought i input).toList := by
          rw [hbrought]
          exact List.mem_append_right _ (List.mem_singleton_self sdata)
        have hself : Bounded _ sdata := ⟨sdata, hmem, rfl, rfl, rfl, rfl, le_rfl⟩
        exact hself.same hsame
  | restore i now lookup connect answer =>
    obtain ⟨t, ht, rfl⟩ := restore_step hs
    -- A message of `restore` has what its record has left, as none is renewed.
    have hnew : ∀ m ∈ Replication.restoring (s.node i) now lookup connect answer,
        (m.packet.ttl.toNat : Int) ≤ left m.record m.time ∧ Bounded s.originals m.record := by
      intro m hm
      obtain ⟨id, key, value, it, hfind, -, p, hp, rfl⟩ := mem_restoring.mp hm
      refine ⟨sent_iff.mpr (fun hrenews => hno ?_) p hp, h.held i id key value it hfind⟩
      rw [hplace.id i] at hrenews
      exact ⟨id, key, value, it, hfind, hrenews⟩
    constructor
    · intro m hm
      rcases List.mem_append.mp hm with hm | hm
      · exact h.sent m hm
      · exact (hnew m hm).1
    · intro m hm
      rcases List.mem_append.mp hm with hm | hm
      · exact h.record m hm
      · exact (hnew m hm).2
    · intro j id key value it' hit'
      rcases find_update hplace ht hit' with ⟨it, hit, hsame⟩ | ⟨sdata, hbrought, -⟩
      · exact (h.held j id key value it hit).same hsame
      · cases hbrought
  | arrive n uninit =>
    rcases arrive_step hs with rfl | ⟨m, hm, i, input, t, hreceived, ht, rfl⟩
    · exact h
    · refine ⟨h.sent, h.record, ?_⟩
      intro j id key value it' hit'
      rcases find_update hplace ht hit' with ⟨it, hit, hsame⟩ | ⟨sdata, hbrought, hsame⟩
      · exact (h.held j id key value it hit).same hsame
      · -- The copy starts when the message was sent, and has what was left then.
        obtain ⟨hid, hkey, hvalue, hsrc, htime, httl⟩ :=
          received_brings (hplace.packet m hm) hreceived hbrought
        have hleft := h.sent m hm
        unfold left at hleft
        have hcopy : Bounded s.originals sdata := by
          apply (h.record m hm).copy hid hkey hvalue hsrc
          rw [htime, httl]
          omega
        exact hcopy.same hsame

/-- A restore that renews a record does so with a message. -/
theorem renews_step (hplace : InPlace s) {i : Replication.Input} (hrenews : RestoreRenews s i) :
    ∃ s', s.step i = .ok s' ∧ ¬ NotExtended s' := by
  cases i with
  | restore i now lookup connect answer =>
    obtain ⟨id, key, value, it, hfind, hrenews⟩ := hrenews
    refine ⟨_, rfl, fun hgood => ?_⟩
    obtain ⟨addr, haddr, -⟩ := hrenews.2.2.2.2
    have hsent : ∀ p ∈ Replication.packets (s.node i).id answer
        (restoreOne (s.node i).id (s.node i).isUseRdp now (lookup id) connect it),
        (p.ttl.toNat : Int) ≤ left it now := by
      intro p hp
      have hm := mem_restoring.mpr ⟨id, key, value, it, hfind, List.ne_nil_of_mem haddr, p, hp, rfl⟩
      exact hgood.sent _ (List.mem_append_right _ hm)
    have hno := sent_iff.mp hsent
    rw [hplace.id i] at hno
    exact hno hrenews
  | _ => cases hrenews

end

/-- In a run of any number of nodes, no message of a restore has more time to live than its
record had left, and no node ever has a copy that ends later than an original of it, exactly
where no restore by RDP sends a record of another node to a node that does not have it, later
than in the second in which it was stored. -/
theorem lifetimes_iff (isUseRdp : Id → Bool) (is : List Replication.Input) :
    Throughout Replication.step NotExtended (Replication.init isUseRdp) is ↔
      Allowed Replication.step (fun s i => ¬ RestoreRenews s i) (Replication.init isUseRdp) is := by
  apply throughout_iff_allowed InPlace
  · intro s i s' hplace hs
    exact inPlace_step hplace hs
  · intro s i s' hplace h hs hno
    exact notExtended_step hplace h hs hno
  · intro s i hplace _ hrenews
    exact renews_step hplace (not_not.mp hrenews)
  · refine ⟨fun i => rfl, fun i => filed_empty, fun m hm => ?_⟩
    cases hm
  · refine ⟨fun m hm => ?_, fun m hm => ?_, fun i id key value it hit => ?_⟩
    · cases hm
    · cases hm
    · cases hit

/-! ### A copy that lives longer -/

/-- Node 1 gets a record for 100 seconds by RDP, and restores it to node 2 after 50. -/
def lateRestore : List Replication.Input :=
  [.node 1 (.store2local 0 ⟨oneByte 1, oneByte 2, 100, 5, 3, false⟩),
    .restore 1 50 (fun _ => [⟨1, .inet 1 1⟩, ⟨2, .inet 1 1⟩]) (fun _ _ => true) (fun _ => []),
    .arrive 0 false]

/-- Node 2 has it for another 100 seconds. -/
theorem restore_renews :
    ¬ ∀ (isUseRdp : Id → Bool) (is : List Replication.Input),
      Throughout Replication.step NotExtended (Replication.init isUseRdp) is := by
  intro h
  have hcopy : (do
      let s ← run Replication.step (Replication.init fun _ => true) lateRestore
      return (s.originals, find (s.node 2) 5 (oneByte 1) (oneByte 2))) =
        (.ok ([⟨oneByte 1, oneByte 2, 5, 3, false, ∅, 0, 0, 100⟩],
          some ⟨oneByte 1, oneByte 2, 5, 3, false, {3}, 50, 0, 100⟩) :
          Except StoreFault (List StoredData × Option StoredData)) := by
    decide +kernel
  obtain ⟨s, hrun, hs⟩ := bind_eq_ok hcopy
  obtain ⟨horiginals, hfind⟩ := Prod.mk.inj (Except.ok.inj hs)
  have hgood := (h (fun _ => true) lateRestore).of_run hrun
  obtain ⟨o, ho, -, -, -, -, hend⟩ := hgood.held 2 5 (oneByte 1) (oneByte 2) _ hfind
  rw [horiginals, List.mem_singleton] at ho
  rw [ho] at hend
  exact absurd hend (by decide)

end Libcage.Proofs.Dht
