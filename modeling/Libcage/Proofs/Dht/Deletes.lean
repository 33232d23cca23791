import Libcage.Proofs.Dht.StoreSteps

/-!
# `Libcage.Proofs.Dht.Deletes`: a delete takes out one record

A store without a time to live is a delete. `ExactDelete` is what it has to do for every
content of `m_stored`: nothing but the record of its id, key and value may change, that
record goes exactly when its source asks, and no empty bucket stays behind. `erase_sdata`
looks for the record with `find` and reads its source without a test for `end()`. So
`exactDelete_iff` has one condition: where the bucket of the id and the key is there, it
has a record of the value. Another node breaks it with one message, in `deleteOfMissing`.
-/

set_option autoImplicit false

namespace Libcage.Proofs.Dht

open Libcage.Lib
open Libcage.Dht
open Libcage.Rdp (Id Table)

/-- The bucket of an id and a key, where there is one. -/
def bucket (stored : Stored) (id : Id) (key : Buf) : Option SdataSet :=
  (stored.lookup id).bind (·.lookup key)

/-- The bucket that a request names is there, and has no record of its value. -/
def Missing (stored : Stored) (sdata : StoredData) : Prop :=
  ∃ set, bucket stored sdata.id sdata.key = some set ∧ set.lookup sdata.value = none

/-- The record that a request names, where there is one. -/
def named (stored : Stored) (sdata : StoredData) : Option StoredData :=
  (stored.row sdata.id sdata.key).lookup sdata.value

/-- What a delete may do to `m_stored`. -/
structure DeletedExactly (sdata : StoredData) (stored stored' : Stored) : Prop where
  others : ∀ id key value, ¬ (id = sdata.id ∧ key = sdata.key ∧ value = sdata.value) →
    (stored'.row id key).lookup value = (stored.row id key).lookup value
  removed : named stored' sdata = (named stored sdata).filter fun it => it.src ≠ sdata.src
  unchanged : (∀ it, named stored sdata = some it → it.src ≠ sdata.src) → stored' = stored
  emptyId : ∀ id, stored'.lookup id = some ∅ → stored.lookup id = some ∅
  emptyKey : ∀ id key, bucket stored' id key = some ∅ → bucket stored id key = some ∅

/-- The event ends without reading a missing record, and deletes exactly. -/
def ExactDelete (s : Store) (i : Store.Input) (sdata : StoredData) : Prop :=
  ∃ s', s.step i = .ok s' ∧ DeletedExactly sdata s.stored s'.stored

/-! ### `erase_sdata` -/

section
variable {stored stored' : Stored} {sdata : StoredData}

theorem row_eq_bucket (stored : Stored) (id : Id) (key : Buf) :
    stored.row id key = (bucket stored id key).getD ∅ := rfl

/-- Without the bucket there is nothing to erase. -/
theorem eraseSdata_of_none (h : bucket stored sdata.id sdata.key = none) :
    stored.eraseSdata sdata = .ok stored := by
  unfold Stored.eraseSdata
  unfold bucket at h
  cases hmap : stored.lookup sdata.id with
  | none => rfl
  | some map =>
    rw [hmap, Option.bind_some] at h
    simp only [h]

/-- With the bucket there is a map for the id. -/
theorem eraseSdata_of_bucket {set : SdataSet}
    (h : bucket stored sdata.id sdata.key = some set) :
    ∃ map, stored.lookup sdata.id = some map ∧ map.lookup sdata.key = some set ∧
      stored.eraseSdata sdata = match set.lookup sdata.value with
        | none => .error .derefEnd
        | some it =>
            if it.src ≠ sdata.src then .ok stored
            else .ok (stored.prune sdata.id map sdata.key (set.erase sdata.value)) := by
  unfold bucket at h
  cases hmap : stored.lookup sdata.id with
  | none =>
    rw [hmap] at h
    cases h
  | some map =>
    rw [hmap, Option.bind_some] at h
    refine ⟨map, rfl, h, ?_⟩
    cases hrecord : set.lookup sdata.value <;> simp [Stored.eraseSdata, hmap, h, hrecord]

/-- `erase_sdata` goes through `end()` exactly for a missing record. -/
theorem eraseSdata_ok_iff :
    (∃ stored', stored.eraseSdata sdata = .ok stored') ↔ ¬ Missing stored sdata := by
  cases hbucket : bucket stored sdata.id sdata.key with
  | none =>
    rw [eraseSdata_of_none hbucket]
    constructor
    · rintro - ⟨set, hset, -⟩
      rw [hbucket] at hset
      cases hset
    · exact fun _ => ⟨stored, rfl⟩
  | some set =>
    obtain ⟨map, -, -, heq⟩ := eraseSdata_of_bucket hbucket
    rw [heq]
    cases hit : set.lookup sdata.value with
    | none =>
      -- The third `find` is at `end()`, and the record behind it is read.
      constructor
      · rintro ⟨_, h⟩
        cases h
      · exact fun h => absurd ⟨set, hbucket, hit⟩ h
    | some it =>
      constructor
      · rintro - ⟨set', hset', hnone⟩
        rw [hbucket] at hset'
        rw [← Option.some.inj hset', hit] at hnone
        cases hnone
      · intro _
        dsimp only
        split
        · exact ⟨_, rfl⟩
        · exact ⟨_, rfl⟩

theorem nonEmpty_ne_empty {α : Type} (t : Table Buf α) : nonEmpty t ≠ some ∅ := by
  unfold nonEmpty
  split
  · exact nofun
  · rename_i h
    intro hempty
    rw [Option.some.inj hempty] at h
    exact h rfl

theorem deletedExactly_refl (h : ∀ it, named stored sdata = some it → it.src ≠ sdata.src) :
    DeletedExactly sdata stored stored where
  others := fun _ _ _ _ => rfl
  removed := by
    cases hit : named stored sdata with
    | none => rfl
    | some it => simp [Option.filter, h it hit]
  unchanged := fun _ => rfl
  emptyId := fun _ h => h
  emptyKey := fun _ _ h => h

/-- The record is in the bucket and of the same source. -/
theorem deletedExactly_prune {map : Table Buf SdataSet} {set : SdataSet} {it : StoredData}
    (hmap : stored.lookup sdata.id = some map) (hset : map.lookup sdata.key = some set)
    (hit : set.lookup sdata.value = some it) (hsrc : it.src = sdata.src) :
    DeletedExactly sdata stored
      (stored.prune sdata.id map sdata.key (set.erase sdata.value)) where
  others := by
    intro id key value hne
    rw [Index.row_prune _ _ _ _ _ _ hmap]
    split
    · rename_i heq
      have hvalue : value ≠ sdata.value := fun hv => hne ⟨heq.1, heq.2, hv⟩
      rw [AList.lookup_erase_ne hvalue, heq.1, heq.2, row_of_some hmap hset]
    · rfl
  removed := by
    unfold named
    rw [Index.row_prune _ _ _ _ _ _ hmap, if_pos ⟨rfl, rfl⟩, AList.lookup_erase,
      row_of_some hmap hset, hit]
    simp [Option.filter, hsrc]
  unchanged := by
    -- The record that is named has the source of the request, so it goes.
    intro h
    have hnamed : named stored sdata = some it := by
      unfold named
      rw [row_of_some hmap hset, hit]
    exact absurd hsrc (h it hnamed)
  emptyId := by
    intro id hempty
    rw [Index.prune, lookup_insertNonEmpty] at hempty
    split at hempty
    · exact absurd hempty (nonEmpty_ne_empty _)
    · exact hempty
  emptyKey := by
    intro id key hempty
    unfold bucket at hempty ⊢
    rw [Index.prune, lookup_insertNonEmpty] at hempty
    split at hempty
    · -- The map of the id: its other buckets are as they were.
      rename_i hid
      rw [hid, hmap, Option.bind_some]
      have hin : (insertNonEmpty map sdata.key (set.erase sdata.value)).lookup key = some ∅ := by
        revert hempty
        unfold nonEmpty
        split
        · intro h
          cases h
        · exact fun h => h
      rw [lookup_insertNonEmpty] at hin
      split at hin
      · exact absurd hin (nonEmpty_ne_empty _)
      · exact hin
    · exact hempty

/-- Where it returns, `erase_sdata` deletes exactly. -/
theorem eraseSdata_exact (h : stored.eraseSdata sdata = .ok stored') :
    DeletedExactly sdata stored stored' := by
  cases hbucket : bucket stored sdata.id sdata.key with
  | none =>
    rw [eraseSdata_of_none hbucket] at h
    rw [← Except.ok.inj h]
    -- Without a bucket no record is named.
    refine deletedExactly_refl fun it hit => ?_
    rw [named, row_eq_bucket, hbucket] at hit
    cases hit
  | some set =>
    obtain ⟨map, hmap, hset, heq⟩ := eraseSdata_of_bucket hbucket
    rw [heq] at h
    cases hit : set.lookup sdata.value with
    | none =>
      rw [hit] at h
      cases h
    | some it =>
      simp only [hit] at h
      split at h
      · rename_i hsrc
        rw [← Except.ok.inj h]
        -- The record that is named is of another source and stays.
        refine deletedExactly_refl fun it' hit' => ?_
        rw [named, row_of_some hmap hset, hit] at hit'
        rw [← Option.some.inj hit']
        exact hsrc
      · rename_i hsrc
        rw [← Except.ok.inj h]
        exact deletedExactly_prune hmap hset hit (not_not.mp hsrc)

end

/-! ### The three ways a delete arrives -/

/-- A request without a time to live is passed to `erase_sdata`, whichever way it came. -/
theorem step_delete {s : Store} {i : Store.Input} {sdata : StoredData} {isOrigin : Bool}
    (hreq : request s.id i = some (sdata, isOrigin)) (httl : sdata.ttl = 0) :
    (s.step i).map Store.stored = s.stored.eraseSdata sdata := by
  cases i with
  | store now func =>
    obtain rfl : func.sdata now originalPutNum = sdata := congrArg Prod.fst (Option.some.inj hreq)
    have hlocal : func.storeLocal now s.stored =
        s.stored.eraseSdata (func.sdata now originalPutNum) := if_pos httl
    dsimp only [Store.step]
    rw [hlocal]
    cases s.stored.eraseSdata (func.sdata now originalPutNum) with
    | error e => rfl
    | ok stored => rfl
  | recvStore now req uninit =>
    dsimp only [request] at hreq
    split at hreq
    · rename_i hacc
      obtain rfl : req.sdata now uninit = sdata := congrArg Prod.fst (Option.some.inj hreq)
      have hrecv : recvStore s.id now req uninit s.stored =
          s.stored.eraseSdata (req.sdata now uninit) := (if_pos hacc).trans (if_pos httl)
      dsimp only [Store.step]
      rw [hrecv]
      cases s.stored.eraseSdata (req.sdata now uninit) with
      | error e => rfl
      | ok stored => rfl
    · cases hreq
  | store2local now rs =>
    obtain rfl : rs.sdata now = sdata := congrArg Prod.fst (Option.some.inj hreq)
    have hlocal : rs.store2local now s.stored = s.stored.eraseSdata (rs.sdata now) := if_pos httl
    dsimp only [Store.step]
    rw [hlocal]
    cases s.stored.eraseSdata (rs.sdata now) with
    | error e => rfl
    | ok stored => rfl
  -- The other events make no request.
  | _ => cases hreq

/-- Every delete is exact but that of a value which the bucket of its id and key does not
have, and this one reads a missing record. -/
theorem exactDelete_iff (s : Store) (i : Store.Input) (sdata : StoredData) (isOrigin : Bool)
    (hreq : request s.id i = some (sdata, isOrigin)) (httl : sdata.ttl = 0) :
    ExactDelete s i sdata ↔ ¬ Missing s.stored sdata := by
  have hstep := step_delete hreq httl
  rw [← eraseSdata_ok_iff]
  constructor
  · rintro ⟨s', hs', -⟩
    rw [hs'] at hstep
    exact ⟨s'.stored, hstep.symm⟩
  · rintro ⟨stored', h⟩
    rw [h] at hstep
    cases hs' : s.step i with
    | error e =>
      rw [hs'] at hstep
      cases hstep
    | ok s' =>
      rw [hs'] at hstep
      have hstored : s'.stored = stored' := Except.ok.inj hstep
      rw [← hstored] at h
      exact ⟨s', hs', eraseSdata_exact h⟩

/-- A node that stored the values of some messages. -/
def afterStores (reqs : List MsgDhtStore) : Store :=
  { Store.init 0 false with
    stored := reqs.foldl (fun stored req => stored.addSdata (req.sdata 0 false) false) ∅ }

/-- A node stores `[2]` under the id 5 and the key `[1]`. -/
def storeOfOther : MsgDhtStore where
  src := 7
  dst := 0
  id := 5
  origin := 7
  keylen := 1
  valuelen := 1
  ttl := 100
  flags := 0
  data := [1, 2]

/-- The same node deletes it. -/
def ownDelete : MsgDhtStore := { storeOfOther with ttl := 0 }

/-- The record is there, and goes. -/
theorem exactDelete_iff_ownDelete :
    ExactDelete (afterStores [storeOfOther]) (.recvStore 1 ownDelete false)
      (ownDelete.sdata 1 false) :=
  (exactDelete_iff (afterStores [storeOfOther]) (.recvStore 1 ownDelete false) _ false rfl
    rfl).mpr fun ⟨set, hset, hnone⟩ => by
      rw [← Option.some.inj hset] at hnone
      cases hnone

/-- Another node deletes `[3]` under the same id and key. -/
def deleteOfMissing : MsgDhtStore where
  src := 8
  dst := 0
  id := 5
  origin := 8
  keylen := 1
  valuelen := 1
  ttl := 0
  flags := 0
  data := [1, 3]

/-- The delete of a value that is not stored reads through `end()`. -/
theorem deleteOfMissing_not_exact :
    ∃ s, run Store.step (.init 0 false) [.recvStore 0 storeOfOther false] = .ok s ∧
      request s.id (.recvStore 1 deleteOfMissing false) =
        some (deleteOfMissing.sdata 1 false, false) ∧
      (deleteOfMissing.sdata 1 false).ttl = 0 ∧
      ¬ ExactDelete s (.recvStore 1 deleteOfMissing false) (deleteOfMissing.sdata 1 false) := by
  have hrun : (do
      let s ← run Store.step (.init 0 false) [.recvStore 0 storeOfOther false]
      return (s.id, (s.step (.recvStore 1 deleteOfMissing false)).isOk)) =
        (.ok (0, false) : Except StoreFault (Id × Bool)) := by
    decide +kernel
  obtain ⟨s, hs, hend⟩ := bind_eq_ok hrun
  have hid : s.id = 0 := congrArg Prod.fst (Except.ok.inj hend)
  have hfault := congrArg Prod.snd (Except.ok.inj hend)
  refine ⟨s, hs, ?_, rfl, ?_⟩
  · have hacc : deleteOfMissing.Accepted s.id := by
      rw [hid]
      decide
    exact if_pos hacc
  · rintro ⟨s', hs', -⟩
    rw [hs'] at hfault
    cases hfault

end Libcage.Proofs.Dht
