import Libcage.Proofs.Dht.Unique

/-!
# `Libcage.Proofs.Dht.Requests`: records come from requests

A record comes into `m_stored` with a store, and keeps the time of the last one that was
accepted for it. The number of lookups that still count it down starts where a store sets
it. The callback of a lookup breaks this where it does not find its record, and the results
are about the runs in which that does not happen to the record in question.
-/

set_option autoImplicit false

namespace Libcage.Proofs.Dht

open Libcage.Lib
open Libcage.Dht
open Libcage.Rdp (Id Table)

/-- The record with an id, a key and a value. -/
def find (s : Store) (id : Id) (key value : Buf) : Option StoredData :=
  (s.stored.row id key).lookup value

/-- The event is a store of this record. -/
def Brings (mId : Id) (i : Store.Input) (id : Id) (key value : Buf) (sdata : StoredData) : Prop :=
  ∃ isOrigin, request mId i = some (sdata, isOrigin) ∧ sdata.ttl ≠ 0 ∧ sdata.id = id ∧
    sdata.key = key ∧ sdata.value = value

/-- A lookup of this record finds it still there when it ends. -/
def FindsRecord (id : Id) (key value : Buf) (s : Store) (i : Store.Input) : Prop :=
  ∀ func, completion s i = some func → func.id = id → func.key = key → func.value = value →
    find s id key value ≠ none

instance (id : Id) (key value : Buf) (s : Store) (i : Store.Input) :
    Decidable (FindsRecord id key value s i) :=
  match h : completion s i with
  | none => isTrue fun _ hf => nomatch h.symm.trans hf
  | some func =>
      decidable_of_iff
        (func.id = id → func.key = key → func.value = value → find s id key value ≠ none)
        ⟨fun hfunc _ hf => Option.some.inj (h.symm.trans hf) ▸ hfunc, fun hall => hall func h⟩

/-- A record that is not there comes back only with a store of it. -/
def NoResurrection (mId : Id) (s s' : Store) (inputs : List Store.Input) (id : Id)
    (key value : Buf) : Prop :=
  find s id key value = none → ∀ it, find s' id key value = some it →
    ∃ i ∈ inputs, ∃ sdata, Brings mId i id key value sdata

/-- A record has the time of one store of it, and was counted down from the number of one. -/
structure Sourced (mId : Id) (inputs : List Store.Input) (id : Id) (key value : Buf)
    (it : StoredData) : Prop where
  time : ∃ i ∈ inputs, ∃ sdata, Brings mId i id key value sdata ∧ it.ttl = sdata.ttl ∧
    it.storedTime = sdata.storedTime
  original : ∃ i ∈ inputs, ∃ sdata, Brings mId i id key value sdata ∧
    it.original ≤ sdata.original

/-- All of this is from one store. -/
def CarriedFrom (mId : Id) (inputs : List Store.Input) (id : Id) (key value : Buf)
    (it : StoredData) : Prop :=
  ∃ i ∈ inputs, ∃ sdata, Brings mId i id key value sdata ∧ it.ttl = sdata.ttl ∧
    it.storedTime = sdata.storedTime ∧ it.original = sdata.original

section
variable {mId : Id} {inputs inputs' : List Store.Input} {id : Id} {key value : Buf}
  {it it' : StoredData}

theorem Sourced.mono (h : Sourced mId inputs id key value it)
    (hsub : ∀ i ∈ inputs, i ∈ inputs') : Sourced mId inputs' id key value it := by
  obtain ⟨⟨i, hi, htime⟩, j, hj, horiginal⟩ := h
  exact ⟨⟨i, hsub i hi, htime⟩, j, hsub j hj, horiginal⟩

theorem Sourced.kept (h : Sourced mId inputs id key value it) (hkept : Kept it it') :
    Sourced mId inputs id key value it' := by
  obtain ⟨⟨i, hi, sdata, hbrings, httl, htime⟩, j, hj, sdata', hbrings', horiginal⟩ := h
  refine ⟨⟨i, hi, sdata, hbrings, ?_, ?_⟩, j, hj, sdata', hbrings',
    hkept.original.trans horiginal⟩
  · rw [hkept.same]
    exact httl
  · rw [hkept.same]
    exact htime

end

/-- The event brought the record, or a new time for it. -/
def Brought (mId : Id) (i : Store.Input) (id : Id) (key value : Buf) (before : Option StoredData)
    (it : StoredData) : Prop :=
  ∃ sdata, Brings mId i id key value sdata ∧ it.ttl = sdata.ttl ∧
    it.storedTime = sdata.storedTime ∧ (it.original ≤ sdata.original ∨
      ∃ it₀, before = some it₀ ∧ it.original ≤ it₀.original)

theorem Brought.kept {mId : Id} {i : Store.Input} {id : Id} {key value : Buf}
    {before : Option StoredData} {it it' : StoredData} (h : Brought mId i id key value before it)
    (hkept : Kept it it') : Brought mId i id key value before it' := by
  obtain ⟨sdata, hbrings, httl, htime, horiginal⟩ := h
  refine ⟨sdata, hbrings, ?_, ?_, ?_⟩
  · rw [hkept.same]
    exact httl
  · rw [hkept.same]
    exact htime
  · rcases horiginal with hle | ⟨it₀, hit₀, hle⟩
    · exact Or.inl (hkept.original.trans hle)
    · exact Or.inr ⟨it₀, hit₀, hkept.original.trans hle⟩

/-- Where a record of a set that was written comes from. -/
theorem Written.back {mId : Id} {i : Store.Input} {sdata : StoredData} {isOrigin : Bool}
    {set set' : SdataSet} (h : Written sdata isOrigin set set')
    (hreq : request mId i = some (sdata, isOrigin)) (httl : sdata.ttl ≠ 0) {value : Buf}
    {it : StoredData} (hit : set'.lookup value = some it) :
    set.lookup value = some it ∨
      Brought mId i sdata.id sdata.key value (set.lookup value) it := by
  have hbrings : Brings mId i sdata.id sdata.key sdata.value sdata :=
    ⟨isOrigin, hreq, httl, rfl, rfl, rfl⟩
  cases h with
  | kept => exact Or.inl hit
  | inserted hnone =>
    rcases lookup_insert_eq_some.mp hit with ⟨rfl, rfl⟩ | ⟨-, hit⟩
    · exact Or.inr ⟨it, hbrings, rfl, rfl, Or.inl le_rfl⟩
    · exact Or.inl hit
  | renewed hit₀ hsrc original horiginal =>
    rcases lookup_insert_eq_some.mp hit with ⟨rfl, rfl⟩ | ⟨-, hit⟩
    · -- The time of the old record stays, or the one of the request is taken.
      refine Or.inr ⟨sdata, hbrings, rfl, rfl, ?_⟩
      rcases horiginal with heq | ⟨heq, -⟩
      · exact Or.inl (le_of_eq heq)
      · exact Or.inr ⟨_, hit₀, le_of_eq heq⟩
    · exact Or.inl hit
  | replaced hset hsrc hunique hsdata hne =>
    rcases lookup_insert_eq_some.mp hit with ⟨rfl, rfl⟩ | ⟨-, hit⟩
    · exact Or.inr ⟨it, hbrings, rfl, rfl, Or.inl le_rfl⟩
    · exact Or.inl (lookup_erase_eq_some.mp hit).2

/-- Where a record of the set after an event comes from. -/
theorem RowStep.back {s : Store} {i : Store.Input} {id : Id} {key : Buf} {set set' : SdataSet}
    (h : RowStep s i id key set set') {value : Buf} {it' : StoredData}
    (hit' : set'.lookup value = some it') :
    (∃ it, set.lookup value = some it ∧ Kept it it') ∨
      Brought s.id i id key value (set.lookup value) it' ∨
      ∃ func, completion s i = some func ∧ func.id = id ∧ func.key = key ∧ func.value = value ∧
        set.lookup value = none := by
  rcases h.cases with hs | ⟨sdata, isOrigin, set₁, hreq, httl, rfl, rfl, hw, hn⟩ |
    ⟨func, uninit, hdone, hid, hkey, hnone, rfl⟩
  · exact Or.inl (hs value it' hit')
  · obtain ⟨it₁, hit₁, hkept⟩ := hn.shrinks value it' hit'
    rcases hw.back hreq httl hit₁ with hit | hbrought
    · exact Or.inl ⟨it₁, hit, hkept⟩
    · exact Or.inr (Or.inl (hbrought.kept hkept))
  · by_cases hv : value = func.value
    · exact Or.inr (Or.inr ⟨func, hdone, hid, hkey, hv.symm, hv ▸ hnone⟩)
    · rw [AList.lookup_insert_ne hv] at hit'
      exact Or.inl ⟨it', hit', Kept.refl it'⟩

/-- The id of a node stays. -/
theorem step_id {s s' : Store} {i : Store.Input} (h : s.step i = .ok s') : s'.id = s.id := by
  cases i with
  | store now func =>
    obtain ⟨_, -, hs'⟩ := bind_eq_ok h
    rw [← Except.ok.inj hs']
  | found func nodes uninit =>
    change (if func ∈ s.finding then _ else _) = _ at h
    split at h
    · obtain ⟨_, -, hs'⟩ := bind_eq_ok h
      rw [← Except.ok.inj hs']
    · rw [← Except.ok.inj h]
  | recvStore now req uninit =>
    obtain ⟨_, -, hs'⟩ := bind_eq_ok h
    rw [← Except.ok.inj hs']
  | store2local now rs =>
    obtain ⟨_, -, hs'⟩ := bind_eq_ok h
    rw [← Except.ok.inj hs']
  | _ => rw [← Except.ok.inj h]

section
variable {id : Id} {key value : Buf}

/-- Where a record of the node after an event comes from, when no lookup of it found it
gone. -/
theorem find_back {s s' : Store} {i : Store.Input} (h : s.step i = .ok s')
    (hok : FindsRecord id key value s i) {it' : StoredData}
    (hit' : find s' id key value = some it') :
    (∃ it, find s id key value = some it ∧ Kept it it') ∨
      Brought s.id i id key value (find s id key value) it' := by
  rcases (step_row h id key).back hit' with hkept | hbrings | ⟨func, hdone, hid, hkey, hv, hnone⟩
  · exact Or.inl hkept
  · exact Or.inr hbrings
  · exact absurd hnone (hok func hdone hid hkey hv)

theorem run_noResurrection {s s' : Store} {inputs : List Store.Input}
    (hrun : run Store.step s inputs = .ok s')
    (hok : Allowed Store.step (FindsRecord id key value) s inputs) :
    NoResurrection s.id s s' inputs id key value := by
  induction inputs generalizing s with
  | nil =>
    obtain rfl : s = s' := Except.ok.inj hrun
    intro hnone it hit
    rw [hnone] at hit
    cases hit
  | cons i inputs ih =>
    obtain ⟨t, ht, hrest⟩ := bind_eq_ok hrun
    intro hnone it hit
    cases hfind : find t id key value with
    | none =>
      obtain ⟨j, hj, hbrings⟩ := ih hrest (hok.2 t ht) hfind it hit
      rw [step_id ht] at hbrings
      exact ⟨j, List.mem_cons_of_mem i hj, hbrings⟩
    | some it₁ =>
      rcases find_back ht hok.1 hfind with ⟨it₀, hit₀, -⟩ | ⟨sdata, hbrings, -⟩
      · rw [hnone] at hit₀
        cases hit₀
      · exact ⟨i, List.mem_cons_self .., sdata, hbrings⟩

theorem sourced_step {s s' : Store} {i : Store.Input} (h : s.step i = .ok s')
    (hok : FindsRecord id key value s i) {past : List Store.Input}
    (hpast : ∀ it, find s id key value = some it → Sourced s.id past id key value it)
    {it' : StoredData} (hit' : find s' id key value = some it') :
    Sourced s.id (past ++ [i]) id key value it' := by
  have hmono : ∀ j ∈ past, j ∈ past ++ [i] := fun j hj => List.mem_append_left _ hj
  have hlast : i ∈ past ++ [i] := List.mem_append_right _ (List.mem_singleton_self i)
  rcases find_back h hok hit' with ⟨it, hit, hkept⟩ | ⟨sdata, hbrings, httl, htime, horiginal⟩
  · exact ((hpast it hit).kept hkept).mono hmono
  · refine ⟨⟨i, hlast, sdata, hbrings, httl, htime⟩, ?_⟩
    rcases horiginal with hle | ⟨it, hit, hle⟩
    · exact ⟨i, hlast, sdata, hbrings, hle⟩
    · obtain ⟨j, hj, sdata', hbrings', hle'⟩ := (hpast it hit).original
      exact ⟨j, hmono j hj, sdata', hbrings', hle.trans hle'⟩

theorem run_sourced {s s' : Store} {inputs past : List Store.Input}
    (hrun : run Store.step s inputs = .ok s')
    (hok : Allowed Store.step (FindsRecord id key value) s inputs)
    (hpast : ∀ it, find s id key value = some it → Sourced s.id past id key value it)
    {it : StoredData} (hit : find s' id key value = some it) :
    Sourced s.id (past ++ inputs) id key value it := by
  induction inputs generalizing s past with
  | nil =>
    obtain rfl : s = s' := Except.ok.inj hrun
    rw [List.append_nil]
    exact hpast it hit
  | cons i inputs ih =>
    obtain ⟨t, ht, hrest⟩ := bind_eq_ok hrun
    have hnow : ∀ it₁, find t id key value = some it₁ →
        Sourced t.id (past ++ [i]) id key value it₁ := by
      intro it₁ hit₁
      rw [step_id ht]
      exact sourced_step ht hok.1 hpast hit₁
    have h := ih hrest (hok.2 t ht) hnow
    rw [step_id ht, List.append_assoc] at h
    exact h

end

theorem run_id {s s' : Store} {inputs : List Store.Input}
    (h : run Store.step s inputs = .ok s') : s'.id = s.id :=
  run_inv (fun t => t.id = s.id) (fun _ _ _ hid hstep => (step_id hstep).trans hid) rfl h

/-- In a run in which no lookup of a record finds it gone, the record comes back only with a
store of it, and it has the time of one store and a number from one. -/
theorem records_from_requests (mId : Id) (isUseRdp : Bool) (before after : List Store.Input)
    (id : Id) (key value : Buf) (s s' : Store)
    (hok : Allowed Store.step (FindsRecord id key value) (.init mId isUseRdp) (before ++ after))
    (hs : run Store.step (.init mId isUseRdp) before = .ok s)
    (hs' : run Store.step s after = .ok s') :
    NoResurrection mId s s' after id key value ∧
      ∀ it, find s' id key value = some it →
        Sourced mId (before ++ after) id key value it := by
  have hid : s.id = mId := run_id hs
  obtain ⟨-, hafter⟩ := hok.append hs
  constructor
  · have h := run_noResurrection hs' hafter
    rw [hid] at h
    exact h
  · intro it hit
    have hrun : run Store.step (.init mId isUseRdp) (before ++ after) = .ok s' :=
      (run_append hs).trans hs'
    have hinit : ∀ it, find (.init mId isUseRdp) id key value = some it →
        Sourced mId [] id key value it := fun _ h => nomatch h
    exact run_sourced hrun hok hinit hit

/-- A store of the node itself. -/
def ownStore (ttl : BitVec 16) : StoreFunc := ⟨oneByte 1, oneByte 2, ttl, 5, 0, false⟩

/-- A value that is stored and looked up is deleted and stored again. -/
theorem records_from_requests_storedAgain :
    ∃ s s', NoResurrection 0 s s' [.store 9 (ownStore 50)] 5 (oneByte 1) (oneByte 2) ∧
      ∃ it, find s' 5 (oneByte 1) (oneByte 2) = some it := by
  let before : List Store.Input := [.store 0 (ownStore 100),
    .found (ownStore 100) tenNodes ((ownStore 0).sdata 0 0), .store 7 (ownStore 0)]
  have hrun : (do
      let s ← run Store.step (.init 0 false) before
      let s' ← run Store.step s [.store 9 (ownStore 50)]
      return (find s' 5 (oneByte 1) (oneByte 2)).isSome) = .ok true := by
    decide +kernel
  obtain ⟨s, hs, hrest⟩ := bind_eq_ok hrun
  obtain ⟨s', hs', hend⟩ := bind_eq_ok hrest
  have hok : Allowed Store.step (FindsRecord 5 (oneByte 1) (oneByte 2)) (.init 0 false)
      (before ++ [.store 9 (ownStore 50)]) := by
    decide +kernel
  exact ⟨s, s', (records_from_requests 0 false before _ 5 _ _ s s' hok hs hs').1,
    Option.isSome_iff_exists.mp (Except.ok.inj hend)⟩

/-! ### A deleted record that comes back, and one that is counted down -/

/-- In every run, a record that comes back does so with a store of it. -/
def AllReturnWithStore : Prop :=
  ∀ mId isUseRdp before after id key value s s',
    run Store.step (.init mId isUseRdp) before = .ok s → run Store.step s after = .ok s' →
      NoResurrection mId s s' after id key value

/-- In every run, a record is as one store has made it. -/
def AllCarriedFromStore : Prop :=
  ∀ mId isUseRdp inputs id key value s it, run Store.step (.init mId isUseRdp) inputs = .ok s →
    find s id key value = some it → CarriedFrom mId inputs id key value it

/-- The lookup of a store ends after the record has been deleted, and puts it back. -/
theorem found_after_delete : ¬ AllReturnWithStore := by
  intro h
  have hrun : (do
      let s ← run Store.step (.init 0 false) [.store 0 (ownStore 100), .store 1 (ownStore 0)]
      let s' ← run Store.step s [.found (ownStore 100) tenNodes ((ownStore 0).sdata 0 0)]
      return (find s 5 (oneByte 1) (oneByte 2), (find s' 5 (oneByte 1) (oneByte 2)).isSome)) =
        .ok (none, true) := by
    decide +kernel
  obtain ⟨s, hs, hrest⟩ := bind_eq_ok hrun
  obtain ⟨s', hs', hend⟩ := bind_eq_ok hrest
  obtain ⟨hnone, hsome⟩ := Prod.mk.inj (Except.ok.inj hend)
  obtain ⟨it, hit⟩ := Option.isSome_iff_exists.mp hsome
  obtain ⟨i, hi, sdata, isOrigin, hreq, -⟩ := h 0 false _ _ _ _ _ s s' hs hs' hnone it hit
  rw [List.mem_singleton.mp hi] at hreq
  cases hreq

/-- The lookup of a store counts its record down. -/
theorem found_counts_down : ¬ AllCarriedFromStore := by
  intro h
  have hrun : (do
      let s ← run Store.step (.init 0 false)
        [.store 0 (ownStore 100), .found (ownStore 100) tenNodes ((ownStore 0).sdata 0 0)]
      return (find s 5 (oneByte 1) (oneByte 2)).map StoredData.original) = .ok (some 2) := by
    decide +kernel
  obtain ⟨s, hs, hend⟩ := bind_eq_ok hrun
  obtain ⟨it, hit, htwo⟩ := Option.map_eq_some_iff.mp (Except.ok.inj hend)
  obtain ⟨i, hi, sdata, ⟨isOrigin, hreq, -⟩, -, -, horiginal⟩ := h 0 false _ _ _ _ s it hs hit
  rcases List.mem_cons.mp hi with rfl | hi
  · obtain ⟨rfl, -⟩ := Prod.mk.inj (Option.some.inj hreq)
    rw [htwo] at horiginal
    exact absurd horiginal (by decide)
  · rw [List.mem_singleton.mp hi] at hreq
    cases hreq

theorem not_all_from_requests : ¬ AllReturnWithStore ∧ ¬ AllCarriedFromStore :=
  ⟨found_after_delete, found_counts_down⟩

end Libcage.Proofs.Dht
