import Libcage.Dht.Store
import Libcage.Lib.Run

/-!
# `Libcage.Proofs.Dht.Store`: what each operation does to a set of records

A set of `m_stored` is a row of the index. Each operation of the source is described by what
it does to the rows: `addSdata_row`, `eraseSdata_row`, `insert2recvdSdata_row`,
`decOriginSdata_row`, and one lemma for each timer. `Written` has the ways in which
`add_sdata` can change a set. The properties of whole runs are proved from these lemmas and
never unfold an operation.
-/

set_option autoImplicit false

namespace Libcage.Proofs.Dht

open Libcage.Lib
open Libcage.Dht
open Libcage.Rdp (Id Table)

/-! ### Sets -/

section
variable {set : SdataSet} {sdata it : StoredData} {value : Buf}

/-- A table with one entry. -/
theorem lookup_of_single (h : set.entries = [⟨value, it⟩]) (v : Buf) :
    set.lookup v = if v = value then some it else none := by
  have hset : set = AList.insert value it ∅ := AList.ext h
  rw [hset]
  split
  · rename_i hv
    rw [hv, AList.lookup_insert]
  · rename_i hv
    rw [AList.lookup_insert_ne hv]
    rfl

/-- All keys of a table are one, so it has one entry. -/
theorem single_of_lookup (hit : set.lookup value = some it)
    (hone : ∀ v x, set.lookup v = some x → v = value) : set.entries = [⟨value, it⟩] := by
  have hkeys : ∀ e ∈ set.entries, e = ⟨value, it⟩ := by
    intro e he
    have hlook : set.lookup e.1 = some e.2 := AList.mem_lookup_iff.mpr he
    have hv := hone e.1 e.2 hlook
    rw [hv, hit] at hlook
    rw [← Sigma.eta e]
    refine Sigma.ext hv ?_
    exact heq_of_eq (Option.some.inj hlook).symm
  have hmem : (⟨value, it⟩ : Sigma fun _ : Buf => StoredData) ∈ set.entries :=
    AList.mem_lookup_iff.mp hit
  have hnodup : set.entries.Nodup := set.nodupKeys.nodup
  match hentries : set.entries with
  | [] =>
    rw [hentries] at hmem
    cases hmem
  | [e] => rw [hkeys e (by rw [hentries]; exact List.mem_singleton_self e)]
  | e :: e' :: l =>
    rw [hentries] at hkeys hnodup
    have he := hkeys e (List.mem_cons_self ..)
    have he' := hkeys e' (List.mem_cons_of_mem _ (List.mem_cons_self ..))
    rw [he, he'] at hnodup
    exact absurd (List.mem_cons_self ..) (List.nodup_cons.mp hnodup).1

theorem add_of_none (h : set.lookup sdata.value = none) :
    SdataSet.add set sdata = set.insert sdata.value sdata := by
  rw [SdataSet.add, h]
  exact if_neg (by simp)

/-- The ways in which `add_sdata` changes a set. -/
inductive Written (sdata : StoredData) (isOrigin : Bool) (set : SdataSet) : SdataSet → Prop where
  | kept : Written sdata isOrigin set set
  | inserted (hnone : set.lookup sdata.value = none) (hunique : sdata.isUnique → set = ∅)
      (hothers : sdata.isUnique = false →
        ¬ (set.entries.length = 1 ∧ set.entries.any (fun it => it.2.isUnique) = true)) :
      Written sdata isOrigin set (set.insert sdata.value sdata)
  | renewed {it : StoredData} (hit : set.lookup sdata.value = some it) (hsrc : it.src = sdata.src)
      (original : Int) (horiginal : original = sdata.original ∨
        original = it.original ∧ sdata.isUnique = false ∧ isOrigin = false) :
      Written sdata isOrigin set (set.insert sdata.value { it with
        ttl := sdata.ttl, storedTime := sdata.storedTime, original := original })
  | replaced {value : Buf} {it : StoredData} (hset : set.entries = [⟨value, it⟩])
      (hsrc : it.src = sdata.src) (hunique : it.isUnique) (hsdata : sdata.isUnique)
      (hne : value ≠ sdata.value) :
      Written sdata isOrigin set ((set.erase value).insert sdata.value sdata)

theorem addSdata_written (set : SdataSet) (sdata : StoredData) (isOrigin : Bool) :
    Written sdata isOrigin set (SdataSet.addSdata set sdata isOrigin) := by
  unfold SdataSet.addSdata
  split
  · rename_i hunique
    split
    · rename_i hempty
      -- A unique record comes to an empty set.
      have hnone : set.lookup sdata.value = none := by
        rw [eq_empty_of_entries hempty]
        rfl
      rw [add_of_none hnone]
      refine Written.inserted hnone (fun _ => eq_empty_of_entries hempty) (fun h => ?_)
      rw [hunique] at h
      cases h
    · rename_i value it hsingle
      -- A unique record comes to one other record, and takes the place of a unique one of its
      -- source.
      split
      · rename_i hit
        split
        · rename_i hvalue
          subst hvalue
          refine Written.renewed ?_ hit.1 sdata.original (Or.inl rfl)
          rw [lookup_of_single hsingle, if_pos rfl]
        · rename_i hne
          have hnone : (set.erase value).lookup sdata.value = none := by
            rw [AList.lookup_erase_ne (Ne.symm hne), lookup_of_single hsingle,
              if_neg (Ne.symm hne)]
          rw [add_of_none hnone]
          exact Written.replaced hsingle hit.1 hit.2 hunique hne
      · exact Written.kept
    · exact Written.kept
  · rename_i hunique
    split
    · exact Written.kept
    · -- A record that is not unique comes to a set without a unique one.
      rename_i hothers
      split
      · rename_i hnone
        rw [add_of_none hnone]
        exact Written.inserted hnone (fun h => absurd h hunique) (fun _ => hothers)
      · rename_i it hit
        split
        · exact Written.kept
        · rename_i hsrc
          refine Written.renewed hit (not_not.mp hsrc) _ ?_
          cases isOrigin with
          | true => exact Or.inl rfl
          | false => exact Or.inr ⟨rfl, eq_false_of_ne_true hunique, rfl⟩

theorem addSdata_empty (sdata : StoredData) (isOrigin : Bool) :
    SdataSet.addSdata ∅ sdata isOrigin = SdataSet.add ∅ sdata := by
  unfold SdataSet.addSdata
  split
  · rfl
  · rw [if_neg (by simp)]
    rfl

end

/-! ### Rows -/

section
variable {stored stored' : Stored}

/-- Where there is no set the row is empty. -/
theorem row_of_none {id : Id} (h : stored.lookup id = none) (key : Buf) :
    stored.row id key = ∅ := by
  rw [Index.row, h, Index.rowIn_none]

theorem row_of_map_none {id : Id} {map : Table Buf SdataSet} {key : Buf}
    (h : stored.lookup id = some map) (hkey : map.lookup key = none) : stored.row id key = ∅ := by
  rw [Index.row_of_lookup stored id key h, Index.rowIn, Option.bind_some, hkey, Option.getD_none]

theorem row_of_some {id : Id} {map : Table Buf SdataSet} {key : Buf} {set : SdataSet}
    (h : stored.lookup id = some map) (hkey : map.lookup key = some set) :
    stored.row id key = set := by
  rw [Index.row_of_lookup stored id key h, Index.rowIn_of_lookup key hkey]

theorem addSdata_row (stored : Stored) (sdata : StoredData) (isOrigin : Bool) (id : Id)
    (key : Buf) : (Stored.addSdata stored sdata isOrigin).row id key =
      if id = sdata.id ∧ key = sdata.key then
        SdataSet.addSdata (stored.row sdata.id sdata.key) sdata isOrigin
      else
        stored.row id key := by
  unfold Stored.addSdata
  split
  · rename_i h
    rw [Index.row_put, row_of_none h, addSdata_empty]
  · rename_i map h
    split
    · rename_i hkey
      rw [Index.row_put, row_of_map_none h hkey, addSdata_empty]
    · rename_i set hkey
      rw [Index.row_put, row_of_some h hkey]

/-- What `erase_sdata` did when it returned. -/
theorem eraseSdata_row {sdata : StoredData} (h : stored.eraseSdata sdata = .ok stored') :
    stored' = stored ∨
      ∃ it, (stored.row sdata.id sdata.key).lookup sdata.value = some it ∧ it.src = sdata.src ∧
        ∀ id key, stored'.row id key = if id = sdata.id ∧ key = sdata.key then
          (stored.row sdata.id sdata.key).erase sdata.value else stored.row id key := by
  unfold Stored.eraseSdata at h
  split at h
  · exact Or.inl (Except.ok.inj h).symm
  · rename_i map hmap
    split at h
    · exact Or.inl (Except.ok.inj h).symm
    · rename_i set hset
      split at h
      · cases h
      · rename_i it hit
        split at h
        · exact Or.inl (Except.ok.inj h).symm
        · rename_i hsrc
          refine Or.inr ⟨it, ?_, not_not.mp hsrc, fun id key => ?_⟩
          · rw [row_of_some hmap hset]
            exact hit
          · rw [← Except.ok.inj h, Index.row_prune _ _ _ _ _ _ hmap, row_of_some hmap hset]

theorem insert2recvdSdata_row (stored : Stored) (sdata : StoredData) (did : Id) :
    stored.insert2recvdSdata sdata did = stored ∨
      ∃ it, (stored.row sdata.id sdata.key).lookup sdata.value = some it ∧
        ∀ id key, (stored.insert2recvdSdata sdata did).row id key =
          if id = sdata.id ∧ key = sdata.key then
            (stored.row sdata.id sdata.key).insert sdata.value
              { it with recvd := insert did it.recvd }
          else stored.row id key := by
  unfold Stored.insert2recvdSdata
  split
  · exact Or.inl rfl
  · rename_i map hmap
    split
    · exact Or.inl rfl
    · rename_i set hset
      split
      · exact Or.inl rfl
      · rename_i it hit
        refine Or.inr ⟨it, ?_, fun id key => ?_⟩
        · rw [row_of_some hmap hset]
          exact hit
        · rw [Index.row_put, row_of_some hmap hset]

/-- What `dec_origin_sdata` leaves of `original`. -/
def decremented (original : Int) : Int := if original > 0 then original - 1 else original

/-- `dec_origin_sdata` inserts a record that is not there and counts one down that is. -/
theorem decOriginSdata_row (stored : Stored) (sdata : StoredData) :
    ((stored.row sdata.id sdata.key).lookup sdata.value = none ∧
        (stored.decOriginSdata sdata).2 = -1 ∧
        ∀ id key, (stored.decOriginSdata sdata).1.row id key =
          if id = sdata.id ∧ key = sdata.key then
            (stored.row sdata.id sdata.key).insert sdata.value sdata
          else stored.row id key) ∨
      ∃ it, (stored.row sdata.id sdata.key).lookup sdata.value = some it ∧
        (stored.decOriginSdata sdata).2 = decremented it.original ∧
        ∀ id key, (stored.decOriginSdata sdata).1.row id key =
          if id = sdata.id ∧ key = sdata.key then
            (stored.row sdata.id sdata.key).insert sdata.value
              { it with original := decremented it.original }
          else stored.row id key := by
  unfold Stored.decOriginSdata
  split
  · -- No map for the id.
    rename_i h
    refine Or.inl ⟨?_, rfl, fun id key => ?_⟩
    · rw [row_of_none h]
      rfl
    · rw [Index.row_put, row_of_none h, add_of_none rfl]
  · rename_i map hmap
    split
    · -- No set for the key.
      rename_i hkey
      refine Or.inl ⟨?_, rfl, fun id key => ?_⟩
      · rw [row_of_map_none hmap hkey]
        rfl
      · rw [Index.row_put, row_of_map_none hmap hkey, add_of_none rfl]
    · rename_i set hset
      split
      · -- No record of the value.
        rename_i hnone
        refine Or.inl ⟨?_, rfl, fun id key => ?_⟩
        · rw [row_of_some hmap hset]
          exact hnone
        · rw [Index.row_put, row_of_some hmap hset, add_of_none hnone]
      · rename_i it hit
        refine Or.inr ⟨it, ?_, rfl, fun id key => ?_⟩
        · rw [row_of_some hmap hset]
          exact hit
        · rw [Index.row_put, row_of_some hmap hset]
          rfl

theorem refresh_row (stored : Stored) (now : Int) (id : Id) (key : Buf) :
    (stored.refresh now).row id key =
      Lib.filterMap (fun _ it => Stored.keepFresh now it) (stored.row id key) := by
  rw [Stored.refresh, Index.row_filterMap]
  cases h : stored.lookup id with
  | none => rw [row_of_none h, Option.bind_none, Index.rowIn_none, filterMap_empty]
  | some map => rw [Option.bind_some, Index.rowIn_sweep, Index.row_of_lookup stored id key h]

theorem readVal_row (stored : Stored) (now : Int) (id : Id) (key : Buf) (id' : Id) (key' : Buf) :
    (stored.readVal now id key).1.row id' key' = if id' = id ∧ key' = key then
      Lib.filterMap (fun _ it => Stored.keepFresh now it) (stored.row id key)
      else stored.row id' key' := by
  unfold Stored.readVal
  split
  · rename_i h
    split
    · rename_i heq
      rw [heq.1, heq.2, row_of_none h, filterMap_empty]
    · rfl
  · rename_i map hmap
    split
    · rename_i hkey
      split
      · rename_i heq
        rw [heq.1, heq.2, row_of_map_none hmap hkey, filterMap_empty]
      · rfl
    · rename_i set hset
      rw [Index.row_prune _ _ _ _ _ _ hmap, row_of_some hmap hset]

/-- The records that `read_val` pushes. -/
theorem mem_readVal (stored : Stored) (now : Int) (id : Id) (key : Buf) (it : StoredData) :
    it ∈ (stored.readVal now id key).2 ↔
      ∃ value, (stored.row id key).lookup value = some it ∧ ¬ Stored.Expired now it := by
  have hempty : ∀ row : SdataSet, row = ∅ → (it ∈ ([] : List StoredData) ↔
      ∃ value, row.lookup value = some it ∧ ¬ Stored.Expired now it) := by
    rintro row rfl
    constructor
    · intro h
      cases h
    · rintro ⟨_, h, -⟩
      cases h
  unfold Stored.readVal
  split
  · rename_i h
    exact hempty _ (row_of_none h key)
  · rename_i map hmap
    split
    · rename_i hkey
      exact hempty _ (row_of_map_none hmap hkey)
    · rename_i set hset
      rw [row_of_some hmap hset, List.mem_map]
      -- The set is swept first.
      have hkept : ∀ value x, (Lib.filterMap (fun _ it => Stored.keepFresh now it) set).lookup value
          = some x ↔ set.lookup value = some x ∧ ¬ Stored.Expired now x := by
        intro value x
        rw [lookup_filterMap]
        cases set.lookup value with
        | none => simp
        | some y =>
          rw [Option.bind_some, Stored.keepFresh]
          split
          · rename_i hexp
            constructor
            · exact fun h => nomatch h
            · rintro ⟨h, hfresh⟩
              rw [← Option.some.inj h] at hfresh
              exact absurd hexp hfresh
          · rename_i hfresh
            constructor
            · intro h
              rw [← Option.some.inj h]
              exact ⟨rfl, hfresh⟩
            · exact fun h => h.1
      constructor
      · rintro ⟨e, he, rfl⟩
        exact ⟨e.1, (hkept e.1 e.2).mp (AList.mem_lookup_iff.mpr he)⟩
      · rintro ⟨value, h⟩
        exact ⟨⟨value, it⟩, AList.mem_lookup_iff.mp ((hkept value it).mpr h), rfl⟩

theorem restore_row (stored : Stored) (mId : Id) (isUseRdp : Bool) (now : Int)
    (lookup : Id → List Cageaddr) (connect : StoredData → Id → Bool) (id : Id) (key : Buf) :
    (stored.restore mId isUseRdp now lookup connect).row id key =
      if lookup id = [] then stored.row id key else Lib.filterMap (fun _ it =>
        (restoreOne mId isUseRdp now (lookup id) connect it).kept it) (stored.row id key) := by
  rw [Stored.restore, Index.row_filterMap]
  cases h : stored.lookup id with
  | none =>
    rw [row_of_none h, Option.bind_none, Index.rowIn_none, filterMap_empty]
    simp
  | some map =>
    rw [Option.bind_some]
    split
    · rw [Index.row_of_lookup stored id key h]
    · rw [Index.rowIn_sweep, Index.row_of_lookup stored id key h]

end

end Libcage.Proofs.Dht
