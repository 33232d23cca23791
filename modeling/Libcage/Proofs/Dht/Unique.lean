import Libcage.Proofs.Dht.StoreSteps

/-!
# `Libcage.Proofs.Dht.Unique`: unique records are alone

`add_sdata` puts nothing beside a unique record, and a unique record beside nothing. The
callback of a lookup puts its record back when it has gone in the meantime, and looks at no
flag. `uniqueOk_iff` says that this is all that can go wrong.
-/

set_option autoImplicit false

namespace Libcage.Proofs.Dht

open Libcage.Lib
open Libcage.Dht
open Libcage.Rdp (Id Table)

/-- A unique record has no other beside it. -/
def UniqueRow (set : SdataSet) : Prop :=
  ∀ v it, set.lookup v = some it → it.isUnique → ∀ v' it', set.lookup v' = some it' → v' = v

/-- Every set with a unique record has one record. -/
def UniqueOk (s : Store) : Prop := ∀ id key, UniqueRow (s.stored.row id key)

/-- A lookup that found enough nodes finds its record still there, or nothing beside the
place where it puts it back, or there only records that are not unique, as its own is not. -/
def FoundFits (s : Store) (i : Store.Input) : Prop :=
  ∀ func, completion s i = some func →
    (∃ it, (s.stored.row func.id func.key).lookup func.value = some it) ∨
      s.stored.row func.id func.key = ∅ ∨
      func.isUnique = false ∧
        ∀ v it, (s.stored.row func.id func.key).lookup v = some it → it.isUnique = false

section
variable {set set' : SdataSet}

theorem UniqueRow.shrinks (h : UniqueRow set) (hs : Shrinks set set') : UniqueRow set' := by
  intro v it' hit hunique v' x' hx
  obtain ⟨it, hit, hkept⟩ := hs v it' hit
  obtain ⟨x, hx, -⟩ := hs v' x' hx
  refine h v it hit ?_ v' x hx
  rw [hkept.same] at hunique
  exact hunique

theorem uniqueRow_insert_empty (value : Buf) (it : StoredData) :
    UniqueRow (AList.insert value it ∅) := by
  have hone : ∀ v x, (AList.insert value it (∅ : SdataSet)).lookup v = some x → v = value := by
    intro v x hx
    rcases lookup_insert_eq_some.mp hx with ⟨hv, -⟩ | ⟨-, hx⟩
    · exact hv
    · cases hx
  intro v it' hit _ v' x hx
  rw [hone v it' hit, hone v' x hx]

/-- A record that is not unique comes to others that are not. -/
theorem UniqueRow.insert {value : Buf} {it : StoredData} (hit : it.isUnique = false)
    (hothers : ∀ v x, set.lookup v = some x → x.isUnique = false) :
    UniqueRow (set.insert value it) := by
  intro v x hx hunique
  rcases lookup_insert_eq_some.mp hx with ⟨-, rfl⟩ | ⟨-, hx⟩
  · rw [hit] at hunique
    cases hunique
  · rw [hothers v x hx] at hunique
    cases hunique

/-- The flag of a record stays, whatever else changes. -/
theorem UniqueRow.update (h : UniqueRow set) {value : Buf} {it it' : StoredData}
    (hit : set.lookup value = some it) (hunique : it'.isUnique = it.isUnique) :
    UniqueRow (set.insert value it') := by
  have hback : ∀ v x', (set.insert value it').lookup v = some x' →
      ∃ x, set.lookup v = some x ∧ x.isUnique = x'.isUnique := by
    intro v x' hx
    rcases lookup_insert_eq_some.mp hx with ⟨rfl, rfl⟩ | ⟨-, hx⟩
    · exact ⟨it, hit, hunique.symm⟩
    · exact ⟨x', hx, rfl⟩
  intro v x' hx hux v' y' hy
  obtain ⟨x, hx, heq⟩ := hback v x' hx
  obtain ⟨y, hy, -⟩ := hback v' y' hy
  exact h v x hx (heq.trans hux) v' y hy

theorem UniqueRow.written (h : UniqueRow set) {sdata : StoredData} {isOrigin : Bool}
    (hw : Written sdata isOrigin set set') : UniqueRow set' := by
  cases hw with
  | kept => exact h
  | inserted hnone hunique hothers =>
    cases hu : sdata.isUnique with
    | true =>
      rw [hunique hu]
      exact uniqueRow_insert_empty _ _
    | false =>
      refine UniqueRow.insert hu fun v x hx => ?_
      -- A unique record would be the only one, and the source looks for that.
      by_contra hux
      have hux := eq_true_of_ne_false hux
      have hsingle := single_of_lookup hx fun v' y hy => h v x hx hux v' y hy
      refine hothers hu ⟨?_, ?_⟩
      · rw [hsingle]
        rfl
      · rw [hsingle]
        simp [hux]
  | renewed hit hsrc original horiginal => exact h.update hit rfl
  | replaced hset hsrc hunique hsdata hne =>
    rename_i value it
    have herase : set.erase value = ∅ := by
      refine AList.ext ?_
      have hkerase : (set.erase value).entries = List.kerase value set.entries := rfl
      rw [hkerase, hset]
      simp
    rw [herase]
    exact uniqueRow_insert_empty _ _

end

/-- What an event keeps. -/
theorem UniqueOk.step {s s' : Store} (h : UniqueOk s) {i : Store.Input} (hstep : s.step i = .ok s')
    (hfits : FoundFits s i) : UniqueOk s' := by
  intro id key
  rcases (step_row hstep id key).cases with
    hs | ⟨sdata, isOrigin, set₁, -, -, -, -, hw, hn⟩ | ⟨func, uninit, hdone, rfl, rfl, hnone, heq⟩
  · exact (h id key).shrinks hs
  · exact ((h id key).written hw).shrinks hn.shrinks
  · rw [heq]
    rcases hfits func hdone with ⟨it, hit⟩ | hempty | ⟨hunique, hothers⟩
    · rw [hnone] at hit
      cases hit
    · rw [hempty]
      exact uniqueRow_insert_empty _ _
    · exact UniqueRow.insert hunique hothers

/-- A callback that does not find its record puts it beside another one. -/
theorem step_breaks_unique {s : Store} {i : Store.Input} (hfits : ¬ FoundFits s i) :
    ∃ s', s.step i = .ok s' ∧ ¬ UniqueOk s' := by
  unfold FoundFits at hfits
  push Not at hfits
  obtain ⟨func, hdone, hgone, hsome, hunique⟩ := hfits
  have hnone : (s.stored.row func.id func.key).lookup func.value = none :=
    Option.eq_none_iff_forall_ne_some.mpr hgone
  obtain ⟨s', uninit, hstep, hrow⟩ := step_revives hdone hnone
  refine ⟨s', hstep, fun hok => ?_⟩
  have hok := hok func.id func.key
  rw [hrow] at hok
  have hback : ((s.stored.row func.id func.key).insert func.value
      (StoreFunc.looked func uninit)).lookup func.value = some (StoreFunc.looked func uninit) :=
    AList.lookup_insert ..
  have hother : ∀ v it, (s.stored.row func.id func.key).lookup v = some it →
      v ≠ func.value ∧ ((s.stored.row func.id func.key).insert func.value
        (StoreFunc.looked func uninit)).lookup v = some it := by
    intro v it hit
    have hv : v ≠ func.value := by
      rintro rfl
      exact hgone it hit
    exact ⟨hv, by rw [AList.lookup_insert_ne hv, hit]⟩
  -- A unique record comes back to others, or one that is not unique to a unique one.
  cases hu : func.isUnique with
  | true =>
    obtain ⟨v, it, hit⟩ : ∃ v it, (s.stored.row func.id func.key).lookup v = some it := by
      cases hentries : (s.stored.row func.id func.key).entries with
      | nil => exact absurd (eq_empty_of_entries hentries) hsome
      | cons e l =>
        refine ⟨e.1, e.2, AList.mem_lookup_iff.mpr ?_⟩
        rw [hentries]
        exact List.mem_cons_self ..
    exact (hother v it hit).1 (hok _ _ hback hu v it (hother v it hit).2)
  | false =>
    obtain ⟨v, it, hit, hux⟩ := hunique hu
    have hux := eq_true_of_ne_false hux
    exact (hother v it hit).1 (hok v it (hother v it hit).2 hux _ _ hback).symm

theorem uniqueOk_init (id : Id) (isUseRdp : Bool) : UniqueOk (.init id isUseRdp) :=
  fun _ _ _ _ h => nomatch h

/-- The unique records of a node are alone exactly as long as no callback puts a record back
beside another one, where one of the two is unique. -/
theorem uniqueOk_iff (id : Id) (isUseRdp : Bool) (inputs : List Store.Input) :
    Throughout Store.step UniqueOk (.init id isUseRdp) inputs ↔
      Allowed Store.step FoundFits (.init id isUseRdp) inputs :=
  throughout_iff_allowed (fun _ => True) (fun _ _ _ _ _ => trivial)
    (fun _ _ _ _ h hstep hfits => h.step hstep hfits)
    (fun _ _ _ _ hfits => step_breaks_unique hfits) trivial (uniqueOk_init id isUseRdp) inputs

/-! ### A record that comes back -/

/-- A buffer of one byte. -/
def oneByte (b : Byte) : Buf := ⟨[b], by simp⟩

/-- A unique store of the node itself with key 1. -/
def uniqueStore (value : Byte) : StoreFunc := ⟨oneByte 1, oneByte value, 100, 5, 0, true⟩

/-- Ten nodes, the own one among them. -/
def tenNodes : List Cageaddr := (List.range 10).map fun k => ⟨.ofNat 160 k, .loopback⟩

/-- A value is stored and replaced by another one before the first lookup ends. -/
def replacedEarly : List Store.Input :=
  [.store 0 (uniqueStore 1), .store 0 (uniqueStore 2),
    .found (uniqueStore 1) tenNodes ((uniqueStore 1).sdata 0 0)]

/-- Then both values are there. -/
theorem found_after_replace :
    ¬ ∀ id isUseRdp inputs, Throughout Store.step UniqueOk (.init id isUseRdp) inputs := by
  intro h
  have hrun : (do
      let s ← run Store.step (.init 0 false) replacedEarly
      let set : SdataSet := s.stored.row 5 (oneByte 1)
      return ((set.lookup (oneByte 1)).map StoredData.isUnique,
        (set.lookup (oneByte 2)).map StoredData.isUnique)) = .ok (some true, some true) := by
    decide +kernel
  obtain ⟨s, hs, hend⟩ := bind_eq_ok hrun
  obtain ⟨h₁, h₂⟩ := Prod.mk.inj (Except.ok.inj hend)
  obtain ⟨it₁, hit₁, hunique⟩ := Option.map_eq_some_iff.mp h₁
  obtain ⟨it₂, hit₂, -⟩ := Option.map_eq_some_iff.mp h₂
  have hok := (h 0 false replacedEarly).of_run hs 5 (oneByte 1)
  exact absurd (hok _ it₁ hit₁ hunique _ it₂ hit₂) (by decide)

end Libcage.Proofs.Dht
