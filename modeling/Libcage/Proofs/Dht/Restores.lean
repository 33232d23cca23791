import Mathlib.Algebra.Group.Int.Defs
import Libcage.Proofs.Dht.Transports

/-!
# `Libcage.Proofs.Dht.Restores`: the two transports of a restore

`restore_by_udp` and `restore_by_rdp` are two copies of one decision: whether a record stays,
whether the node publishes it again, and which nodes it is offered to. The copy for UDP looks
at `original` first and returns, so that it never publishes a record again and keeps it after
its time. The other one sends the record with all of its time.

`restoresAgree_iff` says for which records the two do the same.
-/

set_option autoImplicit false

namespace Libcage.Proofs.Dht

open Libcage.Lib
open Libcage.Dht
open Libcage.Rdp (Id Table)

/-- What a restore offers to one node. -/
structure Offer where
  dst : Id
  id : Id
  key : Buf
  value : Buf
  src : Id
  isUnique : Bool
  ttl : BitVec 16

/-- The offer that a message makes, as the receiver reads it. -/
def offerOfMsg (req : MsgDhtStore) : Offer where
  dst := req.dst
  id := req.id
  key := Buf.copy req.keylen req.data
  value := Buf.copy req.valuelen (req.data.drop req.keylen.toNat)
  src := req.origin
  isUnique := req.flags &&& dhtFlagUnique ≠ 0
  ttl := req.ttl

/-- The offer that a connection makes. -/
def offerOfRdp (p : Id × StoreFunc) : Offer where
  dst := p.1
  id := p.2.id
  key := p.2.key
  value := p.2.value
  src := p.2.origin
  isUnique := p.2.isUnique
  ttl := p.2.ttl

/-- All that a restore offers for one record. -/
def offers (r : Restored) : List Offer := r.udp.map offerOfMsg ++ r.rdp.map offerOfRdp

/-- A record that a restore does not keep any more. -/
def RestoreOver (now : Int) (it : StoredData) : Prop := now - it.storedTime ≥ it.ttl.toNat

/-- A record that does not fit into the buffer of a message. -/
def TooLarge (it : StoredData) : Prop :=
  sizeofStoreHead + it.key.1.length + it.value.1.length > sizeofBuf

/-- The nodes that a record has to be offered to. -/
def Due (mId : Id) (nodes : List Cageaddr) (it : StoredData) (dst : Id) : Prop :=
  (∃ addr ∈ nodes, addr.id = dst) ∧ dst ≠ mId ∧ dst ∉ it.recvd

/-- The two transports do the same with a record. -/
structure RestoresAgree (mId : Id) (now : Int) (nodes : List Cageaddr) (connect : Id → Bool)
    (it : StoredData) : Prop where
  kept : (restoreByUdp mId now nodes it).me = (restoreByRdp mId now nodes connect it).me
  finding : (restoreByUdp mId now nodes it).finding =
    (restoreByRdp mId now nodes connect it).finding
  published : it.original > 0 → (restoreByUdp mId now nodes it).me = true →
    (restoreByUdp mId now nodes it).finding = [it.storeFunc (now - it.storedTime)]
  offered : ∀ o, o ∈ offers (restoreByUdp mId now nodes it) ↔
    o ∈ offers (restoreByRdp mId now nodes connect it)
  dropped : (restoreByUdp mId now nodes it).me = false →
    RestoreOver now it ∨ ∀ addr ∈ nodes, addr.id ≠ mId

/-- The record is not one that the node publishes itself. It is over, or it is too large and
there is nothing to do for it, or it goes to every node that does not have it with a rest of
its time that is all of it in 16 bits. -/
def SameRestore (mId : Id) (now : Int) (nodes : List Cageaddr) (connect : Id → Bool)
    (it : StoredData) : Prop :=
  it.original ≤ 0 ∧
    (RestoreOver now it ∨
      (TooLarge it ∧ (∀ addr ∈ nodes, addr.id ≠ mId) ∧
        ∀ dst, Due mId nodes it dst → connect dst = false) ∨
      (¬ TooLarge it ∧ ∀ dst, Due mId nodes it dst →
        connect dst = true ∧ (now - it.storedTime) % 2 ^ 16 = 0))

/-! ### What each transport does -/

/-- The loop over the nodes: whether the own one is there, and the nodes that are sent to. -/
theorem restoreUdpLoop_spec (mId : Id) (nodes : List Cageaddr) (me : Bool) (recvd : Finset Id)
    (sent : List Id) :
    (restoreUdpLoop mId nodes me recvd sent).1 = (me || nodes.any (·.id = mId)) ∧
      ∀ dst, dst ∈ (restoreUdpLoop mId nodes me recvd sent).2.2 ↔
        dst ∈ sent ∨ (∃ addr ∈ nodes, addr.id = dst) ∧ dst ≠ mId ∧ dst ∉ recvd := by
  induction nodes generalizing me recvd sent with
  | nil => simp [restoreUdpLoop]
  | cons addr nodes ih =>
    rw [restoreUdpLoop]
    split
    · rename_i hown
      obtain ⟨hme, hsent⟩ := ih true recvd sent
      refine ⟨by rw [hme]; simp [hown], ?_⟩
      intro dst
      rw [hsent]
      grind
    · rename_i hother
      have hne : ¬ addr.id = mId := fun h => hother h.symm
      split
      · rename_i hrecvd
        obtain ⟨hme, hsent⟩ := ih me recvd sent
        refine ⟨by simp [hme, hne], ?_⟩
        intro dst
        rw [hsent]
        grind
      · rename_i hrecvd
        -- The node is entered in `recvd`, so that it is sent to once.
        obtain ⟨hme, hsent⟩ := ih me (insert addr.id recvd) (sent ++ [addr.id])
        refine ⟨by simp [hme, hne], ?_⟩
        intro dst
        rw [hsent]
        simp only [List.mem_append, Finset.mem_insert, List.mem_cons]
        grind

/-- The offer of a record to a node. -/
def offerTo (it : StoredData) (ttl : BitVec 16) (dst : Id) : Offer :=
  ⟨dst, it.id, it.key, it.value, it.src, it.isUnique, ttl⟩

/-- The flags of a message say whether its record is unique. -/
theorem decide_flags (isUnique : Bool) :
    decide ((if isUnique then dhtFlagUnique else 0) &&& dhtFlagUnique ≠ 0) = isUnique := by
  cases isUnique with
  | false => simp
  | true => simp [dhtFlagUnique]

/-- The message of `restore_by_udp` offers the record. -/
theorem offerOfMsg_record (mId dst : Id) (it : StoredData) (ttl : BitVec 16) :
    offerOfMsg
      { src := mId
        dst := dst
        id := it.id
        origin := it.src
        keylen := it.key.len
        valuelen := it.value.len
        ttl := ttl
        flags := if it.isUnique then dhtFlagUnique else 0
        data := it.key.1 ++ it.value.1 } = offerTo it ttl dst := by
  simp only [offerOfMsg, offerTo, decide_flags, copy_len, toNat_len, List.drop_left, copy_len_self]

section
variable (mId : Id) {now : Int} (nodes : List Cageaddr) (connect : Id → Bool) {it : StoredData}

/-- A record of the node itself stays with UDP, and nothing else is done. -/
theorem restoreByUdp_own (h : it.original > 0) :
    restoreByUdp mId now nodes it = ⟨true, it.recvd, [], [], []⟩ := by
  unfold restoreByUdp
  exact if_pos h

theorem restoreByRdp_own (h : it.original > 0) (hover : ¬ RestoreOver now it) :
    restoreByRdp mId now nodes connect it =
      ⟨true, it.recvd, [], [], [it.storeFunc (now - it.storedTime)]⟩ := by
  unfold restoreByRdp
  unfold RestoreOver at hover
  rw [if_neg hover, if_pos h]

theorem restoreByRdp_over (hover : RestoreOver now it) :
    restoreByRdp mId now nodes connect it = ⟨false, it.recvd, [], [], []⟩ := by
  unfold restoreByRdp
  exact if_pos hover

theorem restoreByUdp_over (h : it.original ≤ 0) (hover : RestoreOver now it) :
    restoreByUdp mId now nodes it = ⟨false, it.recvd, [], [], []⟩ := by
  unfold restoreByUdp
  unfold RestoreOver at hover
  rw [if_neg (by omega), if_pos hover, ite_self]

theorem restoreByUdp_large (now : Int) (h : it.original ≤ 0) (hlarge : TooLarge it) :
    restoreByUdp mId now nodes it = ⟨false, it.recvd, [], [], []⟩ := by
  unfold restoreByUdp
  unfold TooLarge at hlarge
  rw [if_neg (by omega), if_pos hlarge]

/-- A record of another node that fits, with UDP. -/
theorem restoreByUdp_other (h : it.original ≤ 0) (hover : ¬ RestoreOver now it)
    (hlarge : ¬ TooLarge it) :
    (restoreByUdp mId now nodes it).me = nodes.any (·.id = mId) ∧
      (restoreByUdp mId now nodes it).finding = [] ∧
      ∀ o, o ∈ offers (restoreByUdp mId now nodes it) ↔ ∃ dst, Due mId nodes it dst ∧
        o = offerTo it (.ofInt 16 (it.ttl.toNat - (now - it.storedTime))) dst := by
  unfold RestoreOver at hover
  unfold TooLarge at hlarge
  obtain ⟨hme, hsent⟩ := restoreUdpLoop_spec mId nodes false it.recvd []
  unfold restoreByUdp
  rw [if_neg (by omega), if_neg hlarge, if_neg hover]
  refine ⟨by simpa using hme, rfl, ?_⟩
  intro o
  simp only [offers, List.map_map, List.map_nil, List.append_nil, List.mem_map,
    Function.comp_apply, offerOfMsg_record, hsent, List.not_mem_nil, false_or, Due]
  constructor
  · rintro ⟨dst, hdue, ho⟩
    exact ⟨dst, hdue, ho.symm⟩
  · rintro ⟨dst, hdue, ho⟩
    exact ⟨dst, hdue, ho.symm⟩

/-- A record of another node with RDP. -/
theorem restoreByRdp_other (h : it.original ≤ 0) (hover : ¬ RestoreOver now it) :
    (restoreByRdp mId now nodes connect it).me = nodes.any (·.id = mId) ∧
      (restoreByRdp mId now nodes connect it).finding = [] ∧
      ∀ o, o ∈ offers (restoreByRdp mId now nodes connect it) ↔
        ∃ dst, Due mId nodes it dst ∧ connect dst = true ∧ o = offerTo it it.ttl dst := by
  unfold RestoreOver at hover
  unfold restoreByRdp
  rw [if_neg hover, if_neg (by omega)]
  refine ⟨rfl, rfl, ?_⟩
  intro o
  simp only [offers, List.map_nil, List.nil_append, List.map_map, List.mem_map, List.mem_filter,
    Function.comp_apply, decide_eq_true_eq, Due]
  constructor
  · rintro ⟨dst, ⟨hnode, hne, hrecvd, hconnect⟩, rfl⟩
    exact ⟨dst, ⟨hnode, hne, hrecvd⟩, hconnect, rfl⟩
  · rintro ⟨dst, ⟨hnode, hne, hrecvd⟩, hconnect, rfl⟩
    exact ⟨dst, ⟨hnode, hne, hrecvd, hconnect⟩, rfl⟩

end

/-! ### When they agree -/

/-- What is left of a time is all of it in 16 bits exactly after a multiple of 2^16 seconds. -/
theorem ofInt_sub_eq_iff (ttl : BitVec 16) (diff : Int) :
    BitVec.ofInt 16 (ttl.toNat - diff) = ttl ↔ diff % 2 ^ 16 = 0 := by
  rw [← BitVec.toNat_inj, BitVec.toNat_ofInt]
  have hlt := ttl.isLt
  omega

section
variable {mId : Id} {now : Int} {nodes : List Cageaddr} {connect : Id → Bool} {it : StoredData}

theorem any_eq_false_iff : nodes.any (·.id = mId) = false ↔ ∀ addr ∈ nodes, addr.id ≠ mId := by
  simp

/-- A record of the node itself is never treated the same. -/
theorem RestoresAgree.other (h : RestoresAgree mId now nodes connect it) : it.original ≤ 0 := by
  by_contra hown
  have hpos : it.original > 0 := by omega
  by_cases hover : RestoreOver now it
  · have hkept := h.kept
    rw [restoreByUdp_own mId nodes hpos, restoreByRdp_over mId nodes connect hover] at hkept
    cases hkept
  · have hfinding := h.finding
    rw [restoreByUdp_own mId nodes hpos, restoreByRdp_own mId nodes connect hpos hover] at hfinding
    cases hfinding

/-- A record that is too large. -/
theorem restoresAgree_large (hother : it.original ≤ 0) (hover : ¬ RestoreOver now it)
    (hlarge : TooLarge it) :
    RestoresAgree mId now nodes connect it ↔ (∀ addr ∈ nodes, addr.id ≠ mId) ∧
      ∀ dst, Due mId nodes it dst → connect dst = false := by
  have hudp := restoreByUdp_large mId nodes now hother hlarge
  obtain ⟨hme, hfinding, hoffers⟩ :=
    restoreByRdp_other mId nodes connect hother hover
  constructor
  · intro h
    refine ⟨?_, ?_⟩
    · have hkept := h.kept
      rw [hudp, hme] at hkept
      exact any_eq_false_iff.mp hkept.symm
    · intro dst hdue
      by_contra hconnect
      have ho := (hoffers (offerTo it it.ttl dst)).mpr ⟨dst, hdue, by simpa using hconnect, rfl⟩
      have hnone := (h.offered _).mpr ho
      rw [hudp] at hnone
      cases hnone
  · rintro ⟨hnodes, hconnect⟩
    refine ⟨?_, ?_, fun hpos => by omega, ?_, fun _ => Or.inr hnodes⟩
    · rw [hudp, hme]
      exact (any_eq_false_iff.mpr hnodes).symm
    · rw [hudp, hfinding]
    · intro o
      rw [hudp, hoffers]
      constructor
      · intro ho
        cases ho
      · rintro ⟨dst, hdue, htrue, -⟩
        rw [hconnect dst hdue] at htrue
        cases htrue

/-- A record that fits. -/
theorem restoresAgree_fits (hother : it.original ≤ 0) (hover : ¬ RestoreOver now it)
    (hlarge : ¬ TooLarge it) :
    RestoresAgree mId now nodes connect it ↔ ∀ dst, Due mId nodes it dst →
      connect dst = true ∧ (now - it.storedTime) % 2 ^ 16 = 0 := by
  obtain ⟨hmeUdp, hfindingUdp, hoffersUdp⟩ :=
    restoreByUdp_other mId nodes hother hover hlarge
  obtain ⟨hme, hfinding, hoffers⟩ :=
    restoreByRdp_other mId nodes connect hother hover
  constructor
  · intro h dst hdue
    have ho := (h.offered _).mp ((hoffersUdp _).mpr ⟨dst, hdue, rfl⟩)
    obtain ⟨dst', -, hconnect, heq⟩ := (hoffers _).mp ho
    have hdst : dst = dst' := congrArg Offer.dst heq
    have httl := congrArg Offer.ttl heq
    rw [hdst]
    exact ⟨hconnect, (ofInt_sub_eq_iff it.ttl _).mp httl⟩
  · intro h
    refine ⟨by rw [hmeUdp, hme], by rw [hfindingUdp, hfinding], fun hpos => by omega, ?_, ?_⟩
    · intro o
      rw [hoffersUdp, hoffers]
      constructor
      · rintro ⟨dst, hdue, rfl⟩
        obtain ⟨hconnect, hmod⟩ := h dst hdue
        rw [(ofInt_sub_eq_iff it.ttl _).mpr hmod]
        exact ⟨dst, hdue, hconnect, rfl⟩
      · rintro ⟨dst, hdue, -, rfl⟩
        rw [(ofInt_sub_eq_iff it.ttl _).mpr (h dst hdue).2]
        exact ⟨dst, hdue, rfl⟩
    · intro hme
      rw [hmeUdp] at hme
      exact Or.inr (any_eq_false_iff.mp hme)

/-- A record of another node whose time is over is dropped by both. -/
theorem restoresAgree_over (hother : it.original ≤ 0) (hover : RestoreOver now it) :
    RestoresAgree mId now nodes connect it := by
  have hudp := restoreByUdp_over mId nodes hother hover
  have hrdp := restoreByRdp_over mId nodes connect hover
  refine ⟨?_, ?_, fun hpos => by omega, fun o => ?_, fun _ => Or.inl hover⟩
  · rw [hudp, hrdp]
  · rw [hudp, hrdp]
  · rw [hudp, hrdp]

end

/-- The two transports of a restore do the same exactly for these records. -/
theorem restoresAgree_iff (mId : Id) (now : Int) (nodes : List Cageaddr) (connect : Id → Bool)
    (it : StoredData) :
    RestoresAgree mId now nodes connect it ↔ SameRestore mId now nodes connect it := by
  unfold SameRestore
  by_cases hother : it.original ≤ 0
  · by_cases hover : RestoreOver now it
    · simp [hother, hover, restoresAgree_over hother hover]
    · by_cases hlarge : TooLarge it
      · rw [restoresAgree_large hother hover hlarge]
        simp [hother, hover, hlarge]
      · rw [restoresAgree_fits hother hover hlarge]
        simp [hother, hover, hlarge]
  · constructor
    · intro h
      exact absurd h.other hother
    · intro h
      exact absurd h.1 hother

/-- A record that the node has just stored itself. -/
def ownRecord : StoredData := ⟨oneByte 1, oneByte 2, 5, 0, true, ∅, 0, originalPutNum, 100⟩

/-- By RDP the node publishes its record again, and by UDP it does not. -/
theorem restores_differ : ¬ ∀ (mId : Id) (now : Int) (nodes : List Cageaddr)
    (connect : Id → Bool) (it : StoredData), RestoresAgree mId now nodes connect it := by
  intro h
  have hother := (h 0 1 [⟨0, .loopback⟩] (fun _ => true) ownRecord).other
  exact absurd hother (by decide)

end Libcage.Proofs.Dht
