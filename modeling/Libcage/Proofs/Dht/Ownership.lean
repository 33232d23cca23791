import Libcage.Proofs.Dht.Requests

/-!
# `Libcage.Proofs.Dht.Ownership`: who can change a record

A record names the node it comes from. Only a store that names the same node, or the
callback of its lookup, changes or deletes the record, apart from the three operations that
clean up. `RowStep.forth` says this of one event, and `owner_keeps` of a run.
-/

set_option autoImplicit false

namespace Libcage.Proofs.Dht

open Libcage.Lib
open Libcage.Dht
open Libcage.Rdp (Id Table)

/-- The event is a store for this id and key that names the node `src`, or the callback of
one. -/
def Names (s : Store) (i : Store.Input) (src id : Id) (key : Buf) : Prop :=
  (∃ sdata isOrigin, request s.id i = some (sdata, isOrigin) ∧ sdata.src = src ∧
    sdata.id = id ∧ sdata.key = key) ∨
  ∃ func, completion s i = some func ∧ func.origin = src ∧ func.id = id ∧ func.key = key

/-- The operations that clean up. -/
def CleansUp : Store.Input → Prop
  | .refresh .. | .restore .. | .readVal .. => True
  | _ => False

/-- Nothing is different but the nodes noted and the number of lookups. -/
def Unchanged (it it' : StoredData) : Prop :=
  it'.value = it.value ∧ it'.ttl = it.ttl ∧ it'.storedTime = it.storedTime ∧ it'.src = it.src ∧
    it'.isUnique = it.isUnique

theorem Kept.unchanged {it it' : StoredData} (h : Kept it it') : Unchanged it it' := by
  rw [h.same]
  exact ⟨rfl, rfl, rfl, rfl, rfl⟩

theorem Unchanged.trans {it it₁ it₂ : StoredData} (h : Unchanged it it₁)
    (h' : Unchanged it₁ it₂) : Unchanged it it₂ := by
  obtain ⟨hvalue, httl, htime, hsrc, hunique⟩ := h
  obtain ⟨hvalue', httl', htime', hsrc', hunique'⟩ := h'
  exact ⟨hvalue'.trans hvalue, httl'.trans httl, htime'.trans htime, hsrc'.trans hsrc,
    hunique'.trans hunique⟩

section
variable {set set' : SdataSet} {v value : Buf} {it x : StoredData}

/-- One record was changed, and another one looked up. -/
theorem lookup_insert_kept (hit : set.lookup v = some it)
    (hself : v = value → Kept it x) :
    ∃ it', (set.insert value x).lookup v = some it' ∧ Kept it it' := by
  by_cases hv : v = value
  · rw [hv, AList.lookup_insert]
    exact ⟨x, rfl, hself hv⟩
  · rw [AList.lookup_insert_ne hv]
    exact ⟨it, hit, Kept.refl it⟩

theorem Noted.forth (h : Noted value set set') (hit : set.lookup v = some it) :
    ∃ it', set'.lookup v = some it' ∧ Kept it it' := by
  cases h with
  | kept => exact ⟨it, hit, Kept.refl it⟩
  | noted hit₀ recvd =>
    refine lookup_insert_kept hit fun hv => ?_
    rw [hv, hit₀] at hit
    rw [← Option.some.inj hit]
    exact ⟨rfl, le_rfl⟩

/-- A store changes the records of its own node. -/
theorem Written.forth {sdata : StoredData} {isOrigin : Bool}
    (h : Written sdata isOrigin set set') (hit : set.lookup v = some it) :
    set'.lookup v = some it ∨ it.src = sdata.src := by
  cases h with
  | kept => exact Or.inl hit
  | inserted hnone =>
    have hv : v ≠ sdata.value := by
      rintro rfl
      rw [hnone] at hit
      cases hit
    rw [AList.lookup_insert_ne hv]
    exact Or.inl hit
  | renewed hit₀ hsrc =>
    by_cases hv : v = sdata.value
    · rw [hv, hit₀] at hit
      rw [← Option.some.inj hit]
      exact Or.inr hsrc
    · rw [AList.lookup_insert_ne hv]
      exact Or.inl hit
  | replaced hset hsrc =>
    rw [lookup_of_single hset] at hit
    split at hit
    · rw [← Option.some.inj hit]
      exact Or.inr hsrc
    · cases hit

/-- What becomes of a record in an event. -/
theorem RowStep.forth {s : Store} {i : Store.Input} {id : Id} {key : Buf}
    (h : RowStep s i id key set set') (hit : set.lookup v = some it) :
    (∃ it', set'.lookup v = some it' ∧ Kept it it') ∨ Names s i it.src id key ∨
      CleansUp i ∧ set'.lookup v = none := by
  -- By the ways in which an event changes a row. A record goes for a request of its source, the end
  -- of its lookup, or a sweep.
  cases h with
  | kept => exact Or.inl ⟨it, hit, Kept.refl it⟩
  | written hreq httl hid hkey hwritten hnoted =>
    rcases hwritten.forth hit with hit₁ | hsrc
    · exact Or.inl (hnoted.forth hit₁)
    · exact Or.inr (Or.inl (Or.inl ⟨_, _, hreq, hsrc.symm, hid, hkey⟩))
  | @erased sdata it₀ isOrigin hreq hid hkey hit₀ hsrc =>
    by_cases hv : v = sdata.value
    · rw [hv, hit₀] at hit
      rw [← Option.some.inj hit]
      exact Or.inr (Or.inl (Or.inl ⟨_, _, hreq, hsrc.symm, hid, hkey⟩))
    · rw [AList.lookup_erase_ne hv]
      exact Or.inl ⟨it, hit, Kept.refl it⟩
  | counted hdone hid hkey hit₀ =>
    refine Or.inl (lookup_insert_kept hit fun hv => ?_)
    rw [hv, hit₀] at hit
    rw [← Option.some.inj hit]
    exact kept_decremented _
  | @ended func it₀ hdone hid hkey hit₀ hsrc =>
    by_cases hv : v = func.value
    · rw [hv, hit₀] at hit
      rw [← Option.some.inj hit]
      exact Or.inr (Or.inl (Or.inr ⟨func, hdone, hsrc.symm, hid, hkey⟩))
    · rw [AList.lookup_erase_ne hv, AList.lookup_insert_ne hv]
      exact Or.inl ⟨it, hit, Kept.refl it⟩
  | revived hdone hid hkey hnone uninit =>
    -- The lookup puts back a record that was not there.
    refine Or.inl (lookup_insert_kept hit fun hv => ?_)
    rw [hv, hnone] at hit
    cases hit
  | noted value hnoted => exact Or.inl (hnoted.forth hit)
  | swept now hi =>
    rw [lookup_filterMap, hit, Option.bind_some]
    cases hkeep : Stored.keepFresh now it with
    | none =>
      refine Or.inr (Or.inr ⟨?_, rfl⟩)
      rcases hi with rfl | ⟨_, _, rfl⟩
      · trivial
      · trivial
    | some it' =>
      rw [eq_of_keepFresh hkeep]
      exact Or.inl ⟨it, rfl, Kept.refl it⟩
  | restored hi =>
    rw [lookup_filterMap, hit, Option.bind_some, hi]
    cases hkeep : (restoreOne s.id s.isUseRdp _ _ _ it).kept it with
    | none => exact Or.inr (Or.inr ⟨trivial, rfl⟩)
    | some it' => exact Or.inl ⟨it', rfl, kept_restoreOne hkeep⟩

end

/-- Some event on the way named the node of the record or cleaned the record up, and found
it unchanged. -/
def Touched (s : Store) (inputs : List Store.Input) (id : Id) (key value : Buf)
    (it : StoredData) : Prop :=
  ∃ pre i post t t', inputs = pre ++ i :: post ∧ run Store.step s pre = .ok t ∧
    t.step i = .ok t' ∧ (∃ it₁, find t id key value = some it₁ ∧ Unchanged it it₁) ∧
    (Names t i it.src id key ∨ CleansUp i ∧ find t' id key value = none)

/-- In every run, a record stays as it is until a store or a callback that names its node is
processed, or it is cleaned up. -/
theorem owner_keeps {s s' : Store} {inputs : List Store.Input}
    (hrun : run Store.step s inputs = .ok s') {id : Id} {key value : Buf} {it : StoredData}
    (hit : find s id key value = some it) :
    (∃ it', find s' id key value = some it' ∧ Unchanged it it') ∨
      Touched s inputs id key value it := by
  induction inputs generalizing s it with
  | nil =>
    obtain rfl : s = s' := Except.ok.inj hrun
    exact Or.inl ⟨it, hit, (Kept.refl it).unchanged⟩
  | cons i inputs ih =>
    obtain ⟨t, ht, hrest⟩ := bind_eq_ok hrun
    rcases (step_row ht id key).forth hit with ⟨it₁, hit₁, hkept⟩ | hnow
    · have hunch := hkept.unchanged
      rcases ih hrest hit₁ with ⟨it', hit', hsame⟩ |
        ⟨pre, j, post, u, u', rfl, hpre, hu, ⟨it₂, hit₂, hsame⟩, hnow⟩
      · exact Or.inl ⟨it', hit', hunch.trans hsame⟩
      · refine Or.inr ⟨i :: pre, j, post, u, u', rfl, ?_, hu,
          ⟨it₂, hit₂, hunch.trans hsame⟩, ?_⟩
        · rw [run, ht, ok_bind]
          exact hpre
        · rw [← hunch.2.2.2.1]
          exact hnow
    · exact Or.inr ⟨[], i, inputs, s, t, rfl, rfl, ht, ⟨it, hit, (Kept.refl it).unchanged⟩, hnow⟩

/-- Another node tries to delete a record of this node. -/
def foreignDelete : MsgDhtStore where
  src := 7
  dst := 0
  id := 5
  origin := 7
  keylen := 1
  valuelen := 1
  ttl := 0
  flags := 1
  data := [1, 2]

theorem owner_keeps_foreignDelete :
    ∃ s s' it, run Store.step s [.recvStore 3 foreignDelete true] = .ok s' ∧
      ((∃ it', find s' 5 (oneByte 1) (oneByte 2) = some it' ∧ Unchanged it it') ∨
        Touched s [.recvStore 3 foreignDelete true] 5 (oneByte 1) (oneByte 2) it) := by
  have hrun : (do
      let s ← run Store.step (.init 0 false) [.store 0 (ownStore 100)]
      let _ ← run Store.step s [.recvStore 3 foreignDelete true]
      return (find s 5 (oneByte 1) (oneByte 2)).isSome) = .ok true := by
    decide +kernel
  obtain ⟨s, -, hrest⟩ := bind_eq_ok hrun
  obtain ⟨s', hs', hend⟩ := bind_eq_ok hrest
  obtain ⟨it, hit⟩ := Option.isSome_iff_exists.mp (Except.ok.inj hend)
  exact ⟨s, s', it, hs', owner_keeps hs' hit⟩

end Libcage.Proofs.Dht
