import Libcage.Proofs.Dht.Store

/-!
# `Libcage.Proofs.Dht.StoreSteps`: what one event does to a set of records

`RowStep` lists what an event can do to the set of one id and key, and `step_row` says that
it does nothing else. `Input.request` is the record that a store brings with it, and
`Input.completion` the lookup whose callback changes `m_stored`.
-/

set_option autoImplicit false

namespace Libcage.Proofs.Dht

open Libcage.Lib
open Libcage.Dht
open Libcage.Rdp (Id Table)

/-- The record of a store at the node `mId`, and whether the store is its own. -/
def request (mId : Id) : Store.Input → Option (StoredData × Bool)
  | .store now func => some (func.sdata now originalPutNum, true)
  | .recvStore now req uninit =>
      if req.Accepted mId then some (req.sdata now uninit, false) else none
  | .store2local now rs => some (rs.sdata now, false)
  | _ => none

/-- The lookup that found enough nodes for its callback to change `m_stored`. -/
def completion (s : Store) : Store.Input → Option StoreFunc
  | .found func nodes _ =>
      if func ∈ s.finding ∧ nodes.length ≥ numFindNode then some func else none
  | _ => none

/-- The record with which a callback works. -/
def StoreFunc.looked (func : StoreFunc) (uninit : StoredData) : StoredData :=
  { func.sdata uninit.storedTime uninit.original with ttl := uninit.ttl }

/-- A node may be noted in the record that has the value. -/
inductive Noted (value : Buf) (set : SdataSet) : SdataSet → Prop where
  | kept : Noted value set set
  | noted {it : StoredData} (hit : set.lookup value = some it) (recvd : Finset Id) :
      Noted value set (set.insert value { it with recvd })

/-- What an event can do to the set of an id and a key. -/
inductive RowStep (s : Store) (i : Store.Input) (id : Id) (key : Buf) (set : SdataSet) :
    SdataSet → Prop where
  | kept : RowStep s i id key set set
  | written {sdata : StoredData} {isOrigin : Bool} {set₁ set₂ : SdataSet}
      (hreq : request s.id i = some (sdata, isOrigin)) (httl : sdata.ttl ≠ 0) (hid : sdata.id = id)
      (hkey : sdata.key = key) (hwritten : Written sdata isOrigin set set₁)
      (hnoted : Noted sdata.value set₁ set₂) : RowStep s i id key set set₂
  | erased {sdata it : StoredData} {isOrigin : Bool}
    (hreq : request s.id i = some (sdata, isOrigin))
      (hid : sdata.id = id) (hkey : sdata.key = key) (hit : set.lookup sdata.value = some it)
      (hsrc : it.src = sdata.src) : RowStep s i id key set (set.erase sdata.value)
  | counted {func : StoreFunc} {it : StoredData} (hdone : completion s i = some func)
      (hid : func.id = id) (hkey : func.key = key) (hit : set.lookup func.value = some it) :
      RowStep s i id key set
        (set.insert func.value { it with original := decremented it.original })
  | ended {func : StoreFunc} {it : StoredData} (hdone : completion s i = some func)
      (hid : func.id = id) (hkey : func.key = key) (hit : set.lookup func.value = some it)
      (hsrc : it.src = func.origin) :
      RowStep s i id key set
        ((set.insert func.value { it with original := decremented it.original }).erase func.value)
  | revived {func : StoreFunc} (hdone : completion s i = some func) (hid : func.id = id)
      (hkey : func.key = key) (hnone : set.lookup func.value = none) (uninit : StoredData) :
      RowStep s i id key set (set.insert func.value (StoreFunc.looked func uninit))
  | noted {set' : SdataSet} (value : Buf) (hnoted : Noted value set set') :
      RowStep s i id key set set'
  | swept (now : Int)
      (hi : i = .refresh now ∨ ∃ id key, i = .readVal now id key) :
      RowStep s i id key set (Lib.filterMap (fun _ it => Stored.keepFresh now it) set)
  | restored {now : Int} {lookup : Id → List Cageaddr} {connect : StoredData → Id → Bool}
      (hi : i = .restore now lookup connect) :
      RowStep s i id key set (Lib.filterMap (fun _ it =>
        (restoreOne s.id s.isUseRdp now (lookup id) connect it).kept it) set)

theorem noted_of_insert2recvd (stored : Stored) (sdata : StoredData) (did id : Id) (key : Buf) :
    (stored.insert2recvdSdata sdata did).row id key = stored.row id key ∨
      sdata.id = id ∧ sdata.key = key ∧
        Noted sdata.value (stored.row id key)
          ((stored.insert2recvdSdata sdata did).row id key) := by
  rcases insert2recvdSdata_row stored sdata did with heq | ⟨it, hit, hrow⟩
  · exact Or.inl (by rw [heq])
  · rw [hrow]
    split
    · rename_i h
      refine Or.inr ⟨h.1.symm, h.2.symm, ?_⟩
      rw [h.1, h.2]
      exact Noted.noted hit _
    · exact Or.inl rfl

theorem rowStep_eraseSdata {s : Store} {i : Store.Input} {sdata : StoredData} {isOrigin : Bool}
    (hreq : request s.id i = some (sdata, isOrigin)) {stored : Stored}
    (h : s.stored.eraseSdata sdata = .ok stored) (id : Id) (key : Buf) :
    RowStep s i id key (s.stored.row id key) (stored.row id key) := by
  rcases eraseSdata_row h with rfl | ⟨it, hit, hsrc, hrow⟩
  · exact RowStep.kept
  · rw [hrow]
    split
    · rename_i heq
      rw [heq.1, heq.2]
      exact RowStep.erased hreq rfl rfl hit hsrc
    · exact RowStep.kept

/-- A store that was written, and perhaps noted. -/
theorem rowStep_addSdata {s : Store} {i : Store.Input} {sdata : StoredData} {isOrigin : Bool}
    (hreq : request s.id i = some (sdata, isOrigin)) (httl : sdata.ttl ≠ 0) {stored : Stored}
    (id : Id) (key : Buf)
    (hnoted : stored.row id key = (Stored.addSdata s.stored sdata isOrigin).row id key ∨
      sdata.id = id ∧ sdata.key = key ∧ Noted sdata.value
        ((Stored.addSdata s.stored sdata isOrigin).row id key) (stored.row id key)) :
    RowStep s i id key (s.stored.row id key) (stored.row id key) := by
  have hrow := addSdata_row s.stored sdata isOrigin id key
  split at hrow
  · rename_i heq
    have hwritten := addSdata_written (s.stored.row id key) sdata isOrigin
    rw [heq.1, heq.2] at hwritten hnoted hrow ⊢
    rw [hrow] at hnoted
    rcases hnoted with hsame | ⟨-, -, hnoted⟩
    · rw [hsame]
      exact RowStep.written hreq httl rfl rfl hwritten Noted.kept
    · exact RowStep.written hreq httl rfl rfl hwritten hnoted
  · rename_i hne
    rw [hrow] at hnoted
    rcases hnoted with hsame | ⟨hid, hkey, -⟩
    · rw [hsame]
      exact RowStep.kept
    · exact absurd ⟨hid.symm, hkey.symm⟩ hne

theorem rowStep_receive {s : Store} {i : Store.Input} {data : StoredData}
    (hreq : request s.id i = some (data, false)) {sender : Id} {stored : Stored}
    (h : s.stored.receive data sender = .ok stored) (id : Id) (key : Buf) :
    RowStep s i id key (s.stored.row id key) (stored.row id key) := by
  unfold Stored.receive at h
  split at h
  · exact rowStep_eraseSdata hreq h id key
  · rename_i httl
    refine rowStep_addSdata hreq httl id key ?_
    rw [← Except.ok.inj h]
    exact noted_of_insert2recvd _ data sender id key

/-- The callback works with one record, and may delete it when the own node is not among the
nodes. -/
theorem found_eq (func : StoreFunc) (mId : Id) (isUseRdp : Bool) (nodes : List Cageaddr)
    (uninit : StoredData) (stored : Stored) : ∃ me : Bool,
      func.found mId isUseRdp nodes uninit stored =
        if nodes.length ≥ numFindNode then
          if (stored.decOriginSdata (StoreFunc.looked func uninit)).2 = 0 ∧ ¬ me then
            (stored.decOriginSdata (StoreFunc.looked func uninit)).1.eraseSdata
              (StoreFunc.looked func uninit)
          else .ok (stored.decOriginSdata (StoreFunc.looked func uninit)).1
        else .ok stored :=
  ⟨_, rfl⟩

/-- What the callback of a lookup does to the set with its record: the own record is put back,
or it is counted down and may go then. -/
inductive FoundRow (func : StoreFunc) (uninit : StoredData) (set : SdataSet) : SdataSet → Prop where
  | revived (hnone : set.lookup func.value = none) :
      FoundRow func uninit set (set.insert func.value (StoreFunc.looked func uninit))
  | counted {it : StoredData} (hit : set.lookup func.value = some it) :
      FoundRow func uninit set
        (set.insert func.value { it with original := decremented it.original })
  | ended {it : StoredData} (hit : set.lookup func.value = some it) (hsrc : it.src = func.origin) :
      FoundRow func uninit set
        ((set.insert func.value { it with original := decremented it.original }).erase func.value)

theorem found_row {func : StoreFunc} {mId : Id} {isUseRdp : Bool} {nodes : List Cageaddr}
    {uninit : StoredData} {stored stored' : Stored}
    (h : func.found mId isUseRdp nodes uninit stored = .ok stored') :
    stored' = stored ∨ nodes.length ≥ numFindNode ∧
      ∃ set, FoundRow func uninit (stored.row func.id func.key) set ∧ ∀ id key,
        stored'.row id key = if id = func.id ∧ key = func.key then set else stored.row id key := by
  obtain ⟨me, heq⟩ := found_eq func mId isUseRdp nodes uninit stored
  rw [heq] at h
  split at h
  · rename_i hnodes
    right
    refine ⟨hnodes, ?_⟩
    rcases decOriginSdata_row stored (StoreFunc.looked func uninit) with
      ⟨hnone, horigin, hrow⟩ | ⟨it, hit, -, hrow⟩
    · -- A result of -1 erases nothing.
      rw [if_neg fun hc => by rw [horigin] at hc; exact absurd hc.1 (by decide)] at h
      rw [← Except.ok.inj h]
      exact ⟨_, .revived hnone, hrow⟩
    · split at h
      · rcases eraseSdata_row h with hsame | ⟨it', hit', hsrc, hrow'⟩
        · rw [hsame]
          exact ⟨_, .counted hit, hrow⟩
        · -- The record that is erased is the one that was counted down.
          have hself := hrow (StoreFunc.looked func uninit).id (StoreFunc.looked func uninit).key
          rw [if_pos ⟨rfl, rfl⟩] at hself
          rw [hself, AList.lookup_insert] at hit'
          rw [← Option.some.inj hit'] at hsrc
          refine ⟨_, .ended hit hsrc, fun id key => ?_⟩
          rw [hrow', hself]
          split
          · rename_i heq
            exact (if_pos heq).symm
          · rename_i hne
            rw [hrow, if_neg hne]
            exact (if_neg hne).symm
      · rw [← Except.ok.inj h]
        exact ⟨_, .counted hit, hrow⟩
  · exact Or.inl (Except.ok.inj h).symm

/-- The callback of a lookup. -/
theorem rowStep_found {s : Store} {func : StoreFunc} {nodes : List Cageaddr} {uninit : StoredData}
    (hmem : func ∈ s.finding) {stored : Stored}
    (h : func.found s.id s.isUseRdp nodes uninit s.stored = .ok stored) (id : Id) (key : Buf) :
    RowStep s (.found func nodes uninit) id key (s.stored.row id key) (stored.row id key) := by
  rcases found_row h with rfl | ⟨hnodes, set, hset, hrow⟩
  · exact RowStep.kept
  · have hdone : completion s (.found func nodes uninit) = some func := if_pos ⟨hmem, hnodes⟩
    rw [hrow]
    split
    · rename_i heq
      rw [heq.1, heq.2]
      cases hset with
      | revived hnone => exact RowStep.revived hdone rfl rfl hnone uninit
      | counted hit => exact RowStep.counted hdone rfl rfl hit
      | ended hit hsrc => exact RowStep.ended hdone rfl rfl hit hsrc
    · exact RowStep.kept

/-- An event changes a set in one of these ways. -/
theorem step_row {s s' : Store} {i : Store.Input} (h : s.step i = .ok s') (id : Id) (key : Buf) :
    RowStep s i id key (s.stored.row id key) (s'.stored.row id key) := by
  cases i with
  | store now func =>
    obtain ⟨stored, hstored, hs'⟩ := bind_eq_ok h
    rw [← Except.ok.inj hs']
    -- A record of the node itself: without a lifetime it is erased.
    unfold StoreFunc.storeLocal at hstored
    dsimp only at hstored
    split at hstored
    · exact rowStep_eraseSdata rfl hstored id key
    · rename_i httl
      refine rowStep_addSdata rfl httl id key (Or.inl ?_)
      rw [← Except.ok.inj hstored]
  | found func nodes uninit =>
    change (if func ∈ s.finding then _ else _) = _ at h
    split at h
    · rename_i hmem
      obtain ⟨stored, hstored, hs'⟩ := bind_eq_ok h
      rw [← Except.ok.inj hs']
      exact rowStep_found hmem hstored id key
    · rw [← Except.ok.inj h]
      exact RowStep.kept
  | recvStore now req uninit =>
    obtain ⟨stored, hstored, hs'⟩ := bind_eq_ok h
    rw [← Except.ok.inj hs']
    unfold recvStore at hstored
    split at hstored
    · rename_i hacc
      have hreq : request s.id (.recvStore now req uninit) = some (req.sdata now uninit, false) :=
        if_pos hacc
      exact rowStep_receive hreq hstored id key
    · rw [← Except.ok.inj hstored]
      exact RowStep.kept
  | store2local now rs =>
    obtain ⟨stored, hstored, hs'⟩ := bind_eq_ok h
    rw [← Except.ok.inj hs']
    exact rowStep_receive rfl hstored id key
  | storeReset func did uninit =>
    rw [← Except.ok.inj h]
    -- A reset notes the receiver in one row, or changes nothing.
    rcases noted_of_insert2recvd s.stored
      { uninit with key := func.key, value := func.value, id := func.id } did id key with
      hsame | ⟨-, -, hnoted⟩
    · dsimp only
      rw [hsame]
      exact RowStep.kept
    · exact RowStep.noted _ hnoted
  | refresh now =>
    rw [← Except.ok.inj h]
    dsimp only
    rw [refresh_row]
    exact RowStep.swept now (Or.inl rfl)
  | restore now lookup connect =>
    rw [← Except.ok.inj h]
    dsimp only
    rw [restore_row]
    split
    · exact RowStep.kept
    · exact RowStep.restored rfl
  | readVal now id' key' =>
    rw [← Except.ok.inj h]
    dsimp only
    rw [readVal_row]
    split
    · rename_i heq
      rw [heq.1, heq.2]
      exact RowStep.swept now (Or.inr ⟨_, _, rfl⟩)
    · exact RowStep.kept
  | setEnabledRdp flag =>
    rw [← Except.ok.inj h]
    exact RowStep.kept

/-- A callback that does not find its record puts it back. -/
theorem step_revives {s : Store} {i : Store.Input} {func : StoreFunc}
    (hdone : completion s i = some func)
    (hnone : (s.stored.row func.id func.key).lookup func.value = none) :
    ∃ s' uninit, s.step i = .ok s' ∧ s'.stored.row func.id func.key =
      (s.stored.row func.id func.key).insert func.value (StoreFunc.looked func uninit) := by
  cases i with
  | found func' nodes uninit =>
    change (if func' ∈ s.finding ∧ nodes.length ≥ numFindNode then some func' else none) = _
      at hdone
    split at hdone
    · rename_i h
      obtain rfl := Option.some.inj hdone
      -- The record is gone, so the one that was looked up takes its place.
      obtain ⟨me, heq⟩ := found_eq func' s.id s.isUseRdp nodes uninit s.stored
      rcases decOriginSdata_row s.stored (StoreFunc.looked func' uninit) with
        ⟨-, horigin, hrow⟩ | ⟨it, hit, -⟩
      · rw [if_pos h.2, horigin, if_neg (fun hc => absurd hc.1 (by decide))] at heq
        refine ⟨{ s with
          stored := (s.stored.decOriginSdata (StoreFunc.looked func' uninit)).1
          finding := s.finding.erase func' }, uninit, ?_, ?_⟩
        · show (if func' ∈ s.finding then _ else _ : Except StoreFault Store) = _
          rw [if_pos h.1, heq]
          rfl
        · exact (hrow func'.id func'.key).trans (if_pos ⟨rfl, rfl⟩)
      · exact nomatch hnone.symm.trans hit
    · cases hdone
  | _ => cases hdone

/-! ### Records before and after -/

/-- A record that is only counted down or noted. -/
structure Kept (it it' : StoredData) : Prop where
  same : it' = { it with recvd := it'.recvd, original := it'.original }
  original : it'.original ≤ it.original

theorem Kept.refl (it : StoredData) : Kept it it := ⟨rfl, le_rfl⟩

theorem Kept.trans {it it₁ it₂ : StoredData} (h : Kept it it₁) (h' : Kept it₁ it₂) :
    Kept it it₂ := by
  refine ⟨?_, h'.original.trans h.original⟩
  rw [h'.same, h.same]

theorem kept_decremented (it : StoredData) :
    Kept it { it with original := decremented it.original } := by
  refine ⟨rfl, ?_⟩
  show (if it.original > 0 then it.original - 1 else it.original) ≤ it.original
  split
  · exact Int.sub_le_self _ (by decide)
  · exact le_rfl

theorem kept_restoreOne {s : Store} {now : Int} {nodes : List Cageaddr}
    {connect : StoredData → Id → Bool} {it it' : StoredData}
    (h : (restoreOne s.id s.isUseRdp now nodes connect it).kept it = some it') : Kept it it' := by
  unfold Restored.kept at h
  split at h
  · rw [← Option.some.inj h]
    exact ⟨rfl, le_rfl⟩
  · cases h

theorem eq_of_keepFresh {now : Int} {it it' : StoredData}
    (h : Stored.keepFresh now it = some it') : it' = it := by
  unfold Stored.keepFresh at h
  split at h
  · cases h
  · exact (Option.some.inj h).symm

/-- Every record of the second set was in the first one. -/
def Shrinks (set set' : SdataSet) : Prop :=
  ∀ v it', set'.lookup v = some it' → ∃ it, set.lookup v = some it ∧ Kept it it'

section
variable {set set' : SdataSet}

theorem shrinks_refl (set : SdataSet) : Shrinks set set := fun _ it h => ⟨it, h, Kept.refl it⟩

/-- One record is replaced by what is left of it. -/
theorem shrinks_insert {value : Buf} {it it' : StoredData} (hit : set.lookup value = some it)
    (hkept : Kept it it') : Shrinks set (set.insert value it') := by
  intro v x hx
  rcases lookup_insert_eq_some.mp hx with ⟨rfl, rfl⟩ | ⟨-, hx⟩
  · exact ⟨it, hit, hkept⟩
  · exact ⟨x, hx, Kept.refl x⟩

theorem shrinks_erase (set : SdataSet) (value : Buf) : Shrinks set (set.erase value) := by
  intro v x hx
  exact ⟨x, (lookup_erase_eq_some.mp hx).2, Kept.refl x⟩

theorem shrinks_filterMap {f : Buf → StoredData → Option StoredData}
    (hf : ∀ v it it', f v it = some it' → Kept it it') : Shrinks set (Lib.filterMap f set) := by
  intro v x hx
  rw [lookup_filterMap] at hx
  cases hit : set.lookup v with
  | none =>
    rw [hit] at hx
    cases hx
  | some it =>
    rw [hit] at hx
    exact ⟨it, rfl, hf v it x hx⟩

theorem Shrinks.trans {set₁ : SdataSet} (h : Shrinks set set₁) (h' : Shrinks set₁ set') :
    Shrinks set set' := by
  intro v x hx
  obtain ⟨y, hy, hxy⟩ := h' v x hx
  obtain ⟨z, hz, hyz⟩ := h v y hy
  exact ⟨z, hz, hyz.trans hxy⟩

theorem Noted.shrinks {value : Buf} (h : Noted value set set') : Shrinks set set' := by
  cases h with
  | kept => exact shrinks_refl set
  | noted hit recvd => exact shrinks_insert hit ⟨rfl, le_rfl⟩

/-- A set gets a record only from a store, or from the callback of a lookup whose record has
gone. -/
theorem RowStep.cases {s : Store} {i : Store.Input} {id : Id} {key : Buf}
    (h : RowStep s i id key set set') :
    Shrinks set set' ∨
      (∃ sdata isOrigin set₁, request s.id i = some (sdata, isOrigin) ∧ sdata.ttl ≠ 0 ∧
        sdata.id = id ∧ sdata.key = key ∧ Written sdata isOrigin set set₁ ∧
        Noted sdata.value set₁ set') ∨
      ∃ func uninit, completion s i = some func ∧ func.id = id ∧ func.key = key ∧
        set.lookup func.value = none ∧
        set' = set.insert func.value (StoreFunc.looked func uninit) := by
  cases h with
  | kept => exact Or.inl (shrinks_refl set)
  | written hreq httl hid hkey hwritten hnoted =>
    exact Or.inr (Or.inl ⟨_, _, _, hreq, httl, hid, hkey, hwritten, hnoted⟩)
  | erased => exact Or.inl (shrinks_erase set _)
  | counted hdone hid hkey hit => exact Or.inl (shrinks_insert hit (kept_decremented _))
  | ended hdone hid hkey hit hsrc =>
    exact Or.inl ((shrinks_insert hit (kept_decremented _)).trans (shrinks_erase _ _))
  | revived hdone hid hkey hnone uninit =>
    exact Or.inr (Or.inr ⟨_, uninit, hdone, hid, hkey, hnone, rfl⟩)
  | noted value hnoted => exact Or.inl hnoted.shrinks
  | swept now hi =>
    refine Or.inl (shrinks_filterMap fun v it it' h => ?_)
    rw [eq_of_keepFresh h]
    exact Kept.refl it
  | restored hi => exact Or.inl (shrinks_filterMap fun v it it' h => kept_restoreOne h)

end

/-! ### Every record lies in its place -/

/-- A record lies under its own id, key and value. -/
def Filed (stored : Stored) : Prop :=
  ∀ id key value it, (stored.row id key).lookup value = some it →
    it.id = id ∧ it.key = key ∧ it.value = value

theorem filed_empty : Filed ∅ := fun _ _ _ _ h => nomatch h

/-- An event leaves every record in its place. -/
theorem Filed.step {s s' : Store} (h : Filed s.stored) {i : Store.Input}
    (hstep : s.step i = .ok s') : Filed s'.stored := by
  intro id key value it' hit'
  have hsame : ∀ it, (s.stored.row id key).lookup value = some it → Kept it it' →
      it'.id = id ∧ it'.key = key ∧ it'.value = value := by
    intro it hit hkept
    rw [hkept.same]
    exact h id key value it hit
  rcases (step_row hstep id key).cases with
    hs | ⟨sdata, isOrigin, set₁, -, -, rfl, rfl, hw, hn⟩ | ⟨func, uninit, -, rfl, rfl, -, heq⟩
  · obtain ⟨it, hit, hkept⟩ := hs value it' hit'
    exact hsame it hit hkept
  · obtain ⟨it₁, hit₁, hkept⟩ := hn.shrinks value it' hit'
    -- A record of the set that was written is the new one or an old one.
    have hold : ∀ it, (s.stored.row sdata.id sdata.key).lookup value = some it →
        it.id = sdata.id ∧ it.key = sdata.key ∧ it.value = value := h _ _ value
    have hplace : it₁.id = sdata.id ∧ it₁.key = sdata.key ∧ it₁.value = value := by
      cases hw with
      | kept => exact hold it₁ hit₁
      | inserted =>
        rcases lookup_insert_eq_some.mp hit₁ with ⟨rfl, rfl⟩ | ⟨-, hit₁⟩
        · exact ⟨rfl, rfl, rfl⟩
        · exact hold it₁ hit₁
      | @renewed it hit =>
        rcases lookup_insert_eq_some.mp hit₁ with ⟨rfl, rfl⟩ | ⟨-, hit₁⟩
        · have hplace := hold it hit
          exact hplace
        · exact hold it₁ hit₁
      | replaced =>
        rcases lookup_insert_eq_some.mp hit₁ with ⟨rfl, rfl⟩ | ⟨-, hit₁⟩
        · exact ⟨rfl, rfl, rfl⟩
        · exact hold it₁ (lookup_erase_eq_some.mp hit₁).2
    rw [hkept.same]
    exact hplace
  · rw [heq] at hit'
    rcases lookup_insert_eq_some.mp hit' with ⟨rfl, rfl⟩ | ⟨-, hit'⟩
    · exact ⟨rfl, rfl, rfl⟩
    · exact hsame it' hit' (Kept.refl it')

/-- In every state that a node can reach, records lie in their places. -/
theorem filed_of_run {id : Id} {isUseRdp : Bool} {inputs : List Store.Input} {s : Store}
    (h : run Store.step (.init id isUseRdp) inputs = .ok s) : Filed s.stored :=
  run_inv (fun s => Filed s.stored) (fun _ _ _ hs hstep => hs.step hstep) filed_empty h

end Libcage.Proofs.Dht
