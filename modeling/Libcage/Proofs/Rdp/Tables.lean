import Libcage.Proofs.Rdp.Runs

/-!
# `Libcage.Proofs.Rdp.Tables`: the tables of `rdp` over runs

`TablesOk` says that the tables agree. `rdp::close` on a listening descriptor takes the
port away and leaves the descriptor and its callback, so `TablesOk` holds throughout
the runs that never do that and no others (`tablesOk_iff`).
-/

set_option autoImplicit false

namespace Libcage.Proofs.Rdp

open Libcage.Lib
open Libcage.Rdp

/-! ### The tables -/

/-- The tables agree. -/
structure TablesOk (r : Members) : Prop where
  descSet : ∀ desc, desc ∈ r.descSet ↔
    (r.listeningRight desc).isSome = true ∨ (r.desc2conn.lookup desc).isSome = true
  byDesc : ∀ desc ptr, r.desc2conn.lookup desc = some ptr →
    (r.con ptr).desc = desc ∧ r.addr2conn.lookup (r.con ptr).addr = some ptr
  byAddr : ∀ addr ptr, r.addr2conn.lookup addr = some ptr →
    (r.con ptr).addr = addr ∧ r.desc2conn.lookup (r.con ptr).desc = some ptr
  events : ∀ desc, (r.desc2event.lookup desc).isSome = true → desc ∈ r.descSet

/-- A descriptor without a listening port and without a record is in no table. -/
theorem TablesOk.released {r : Members} (h : TablesOk r) {desc : Int}
    (hlisten : r.listeningRight desc = none) (hcon : r.desc2conn.lookup desc = none) :
    desc ∉ r.descSet ∧ r.desc2event.lookup desc = none ∧
      ∀ addr ptr, r.addr2conn.lookup addr = some ptr → (r.con ptr).desc ≠ desc := by
  have hfree : desc ∉ r.descSet := by
    rw [h.descSet, hlisten, hcon]
    simp
  refine ⟨hfree, ?_, fun addr ptr hlook heq => ?_⟩
  · cases hevent : r.desc2event.lookup desc with
    | none => rfl
    | some func => exact absurd (h.events desc (by rw [hevent]; rfl)) hfree
  · have hlook' := (h.byAddr addr ptr hlook).2
    rw [heq, hcon] at hlook'
    cases hlook'

/-- Every descriptor that is taken is in use. -/
def Owned (r : Members) : Prop :=
  ∀ desc ∈ r.descSet,
    (r.listeningRight desc).isSome = true ∨ (r.desc2conn.lookup desc).isSome = true

/-- A descriptor is taken and not in use. -/
def Leaked (desc : Int) (r : Members) : Prop :=
  desc ∈ r.descSet ∧ r.listeningRight desc = none ∧ r.desc2conn.lookup desc = none

/-- What the tables lack, given what they always have. -/
theorem tablesOk_iff_owned {r : Members} (h : Indexed r) : TablesOk r ↔ Owned r := by
  constructor
  · exact fun hok desc hmem => (hok.descSet desc).mp hmem
  · intro howned
    refine ⟨fun desc => ⟨howned desc, ?_⟩, fun _ _ hl => ⟨h.con_desc hl, h.con_addr hl⟩,
      fun _ _ hl => ⟨h.addr_addr hl, h.addr_desc hl⟩, fun _ => h.event_mem⟩
    rintro (hlisten | hcon)
    · exact h.listening_mem hlisten
    · obtain ⟨ptr, hl⟩ := Option.isSome_iff_exists.mp hcon
      exact h.con_mem hl

theorem Leaked.not_tablesOk {desc : Int} {r : Members} (h : Leaked desc r) : ¬ TablesOk r := by
  intro hok
  rcases (hok.descSet desc).mp h.1 with hl | hl
  · rw [h.2.1] at hl
    cases hl
  · rw [h.2.2] at hl
    cases hl

section
variable {r : Members}

/-- A descriptor that is not the one a step takes or releases. -/
theorem Owned.erase (h : Owned r) (desc : Int) (addr : RdpAddr) : Owned (r.eraseCon desc addr) := by
  intro d hd
  obtain ⟨hne, hmem⟩ := Finset.mem_erase.mp hd
  refine (h d hmem).imp_right fun hl => ?_
  show ((r.desc2conn.erase desc).lookup d).isSome = true
  rw [AList.lookup_erase_ne hne]
  exact hl

theorem Owned.withCon (h : Owned r) (desc : Int) (c : RdpCon) : Owned (withCon r desc c) := by
  intro d hd
  by_cases hne : d = desc
  · refine Or.inr ?_
    show ((r.desc2conn.insert desc r.nextPtr).lookup d).isSome = true
    rw [hne, AList.lookup_insert]
    rfl
  · refine (h d (Finset.mem_of_mem_insert_of_ne hd hne)).imp_right fun hl => ?_
    show ((r.desc2conn.insert desc r.nextPtr).lookup d).isSome = true
    rw [AList.lookup_insert_ne hne]
    exact hl

theorem withListening_same (sport : BitVec 16) (desc : Int) :
    (withListening r sport desc).descSet = insert desc r.descSet ∧
      (withListening r sport desc).desc2conn = r.desc2conn := by
  unfold withListening Members.insertListening
  split <;> exact ⟨rfl, rfl⟩

theorem Owned.withListening (h : Owned r) (hindex : Indexed r) {sport : BitVec 16} {desc : Int}
    (hport : r.listeningLeft sport = none) (hdesc : desc ∉ r.descSet) :
    Owned (withListening r sport desc) := by
  intro d hd
  rw [(withListening_same sport desc).1] at hd
  by_cases hne : d = desc
  · subst hne
    refine Or.inl (listeningRight_listening_self r d sport hport ?_)
    cases hl : r.listeningRight d with
    | none => rfl
    | some s => exact absurd (hindex.listening_mem (by rw [hl]; rfl)) hdesc
  · rw [listeningRight_listening_ne r desc d sport hne, (withListening_same sport desc).2]
    exact h d (Finset.mem_of_mem_insert_of_ne hd hne)

theorem Leaked.erase {d : Int} (h : Leaked d r) {desc : Int} {ptr : ConPtr}
    (hlook : r.desc2conn.lookup desc = some ptr) (addr : RdpAddr) :
    Leaked d (r.eraseCon desc addr) := by
  have hne : d ≠ desc := by
    rintro rfl
    rw [h.2.2] at hlook
    cases hlook
  refine ⟨Finset.mem_erase.mpr ⟨hne, h.1⟩, h.2.1, ?_⟩
  show (r.desc2conn.erase desc).lookup d = none
  rw [AList.lookup_erase_ne hne]
  exact h.2.2

theorem Leaked.withCon {d : Int} (h : Leaked d r) {desc : Int} (hdesc : desc ∉ r.descSet)
    (c : RdpCon) : Leaked d (withCon r desc c) := by
  have hne : d ≠ desc := by
    rintro rfl
    exact hdesc h.1
  refine ⟨Finset.mem_insert_of_mem h.1, h.2.1, ?_⟩
  show (r.desc2conn.insert desc r.nextPtr).lookup d = none
  rw [AList.lookup_insert_ne hne]
  exact h.2.2

theorem Leaked.withListening {d : Int} (h : Leaked d r) {desc : Int} (hdesc : desc ∉ r.descSet)
    (sport : BitVec 16) : Leaked d (withListening r sport desc) := by
  have hne : d ≠ desc := by
    rintro rfl
    exact hdesc h.1
  refine ⟨?_, ?_, ?_⟩
  · rw [(withListening_same sport desc).1]
    exact Finset.mem_insert_of_mem h.1
  · rw [listeningRight_listening_ne r desc d sport hne]
    exact h.2.1
  · rw [(withListening_same sport desc).2]
    exact h.2.2

/-- A listening descriptor that is closed is leaked. -/
theorem leaked_eraseListening (h : Indexed r) {desc : Int}
    (hlisten : (r.listeningRight desc).isSome = true) : Leaked desc (r.eraseListening desc) :=
  ⟨h.listening_mem hlisten, listeningRight_eraseListening_self r desc, h.listening_free hlisten⟩

end

/-- The tables during an input: they agree until a listening descriptor is closed, and
from then on one is leaked. -/
def TablesTrace (w : World) : Prop :=
  if w.closedListening = [] then Owned w.rdp else ∃ desc, Leaked desc w.rdp

/-- A step that closes no listening descriptor keeps what it finds. -/
theorem TablesTrace.of_step {w w' : World} (h : TablesTrace w)
    (hclosed : w'.closedListening = w.closedListening) (howned : Owned w.rdp → Owned w'.rdp)
    (hleaked : ∀ desc, Leaked desc w.rdp → Leaked desc w'.rdp) : TablesTrace w' := by
  unfold TablesTrace at h ⊢
  rw [hclosed]
  split at h
  · rw [if_pos ‹_›]
    exact howned h
  · rw [if_neg ‹_›]
    exact h.imp hleaked

theorem TablesTrace.quiet {w w' : World} (h : TablesTrace w) (hquiet : Quiet w w') :
    TablesTrace w' := by
  refine h.of_step hquiet.closedListening (fun howned => ?_) fun desc hleaked => ?_
  · rw [hquiet.rdp]
    exact howned
  · rw [hquiet.rdp]
    exact hleaked

theorem TablesTrace.callStep {w w' : World} (hindex : Indexed w.rdp) (h : TablesTrace w)
    (hstep : CallStep w w') : TablesTrace w' := by
  cases hstep with
  | quiet hquiet => exact h.quiet hquiet
  | con => exact h.of_step rfl id fun _ => id
  | erase hlook => exact h.of_step rfl (fun howned => howned.erase _ _) fun _ hl => hl.erase hlook _
  | event => exact h.of_step rfl id fun _ => id
  | listen hport hdesc =>
    exact h.of_step rfl (fun howned => howned.withListening hindex hport hdesc) fun _ hl =>
      hl.withListening hdesc _
  | @unlisten desc hlisten =>
    have hne : w.closedListening ++ [desc] ≠ [] := by simp
    rw [TablesTrace, if_neg hne]
    exact ⟨desc, leaked_eraseListening hindex hlisten⟩
  | connect hdesc =>
    exact h.of_step rfl (fun howned => howned.withCon _ _) fun _ hl => hl.withCon hdesc _

theorem TablesTrace.eventStep {w w' : World} (hindex : Indexed w.rdp) (h : TablesTrace w)
    (hstep : EventStep w w') : TablesTrace w' := by
  cases hstep with
  | call hcall => exact h.callStep hindex hcall
  | mark hquiet => exact h.quiet hquiet

theorem TablesTrace.micro {r : Members} {i : Input} {w w' : World} (hindex : Indexed w.rdp)
    (h : TablesTrace w) (hstep : Micro r i w w') : TablesTrace w' := by
  cases hstep with
  | call hcall => exact h.callStep hindex hcall
  | event hevent =>
    refine (chain_inv (fun w => Indexed w.rdp ∧ TablesTrace w) (fun _ _ h hstep => ?_)
      ⟨hindex, h⟩ hevent).2
    exact ⟨h.1.eventStep hstep, h.2.eventStep h.1 hstep⟩
  | say => exact h
  | con => exact h.of_step rfl id fun _ => id
  | arrive => exact h.of_step rfl id fun _ => id
  | erase hlook => exact h.of_step rfl (fun howned => howned.erase _ _) fun _ hl => hl.erase hlook _
  | accept _ _ _ hdesc =>
    exact h.of_step rfl (fun howned => howned.withCon _ _) fun _ hl => hl.withCon hdesc _

/-- No listening descriptor is closed while the input is handled, by the user or by a
callback. -/
def KeepsListening (r : Members) (input : Env × Input) : Prop :=
  ∀ w, (handle input.2).run (.start r input.1) = .ok ((), w) → w.closedListening = []

/-- The tables agree in every state of a run exactly if no listening descriptor is closed
in it. -/
theorem tablesOk_iff (con : ConPtr → RdpCon) (inputs : List (Env × Input)) :
    Throughout machine TablesOk (.init con) inputs
      ↔ Allowed machine KeepsListening (.init con) inputs := by
  -- While no listening socket is closed the tables stay right, and afterwards one is leaked.
  have hwhole : ∀ {r : Members} {input : Env × Input} {w : World}, Started r → TablesOk r →
      (handle input.2).run (.start r input.1) = .ok ((), w) → Started w.rdp ∧ TablesTrace w := by
    intro r input w hr hok hrun
    refine step_inv hr TablesTrace (fun _ _ hindex h => h.micro hindex) ?_ hrun
    have hempty : (World.start r input.1).closedListening = [] := rfl
    rw [TablesTrace, if_pos hempty]
    exact (tablesOk_iff_owned hr.indexed).mp hok
  refine throughout_iff_allowed Started (fun _ _ _ h hstep => h.machine hstep) ?_ ?_
    (started_init con) ?_ inputs
  · intro r input r' hr hok hstep hkeeps
    obtain ⟨w, hrun, rfl⟩ := machine_eq_ok hstep
    obtain ⟨hstarted, htrace⟩ := hwhole hr hok hrun
    rw [TablesTrace, if_pos (hkeeps w hrun)] at htrace
    exact (tablesOk_iff_owned hstarted.indexed).mpr htrace
  · intro r input hr hok hnot
    unfold KeepsListening at hnot
    push Not at hnot
    obtain ⟨w, hrun, hclosed⟩ := hnot
    obtain ⟨-, htrace⟩ := hwhole hr hok hrun
    rw [TablesTrace, if_neg hclosed] at htrace
    obtain ⟨desc, hleaked⟩ := htrace
    exact ⟨w.rdp, machine_of_run hrun, hleaked.not_tablesOk⟩
  · rw [tablesOk_iff_owned (indexed_init con)]
    exact fun desc hmem => absurd hmem (Finset.notMem_empty desc)

/-- Listen on port 100, under descriptor 7, and close the descriptor. -/
def listenAndClose : List (Env × Input) :=
  [(oneNumber 7, .call (.listen 100 0)), (oneNumber 0, .call (.close 7))]

/-- The descriptor is still taken after that, and it still has its callback. -/
theorem listenAndClose_leaks :
    ∃ r, run machine (.init fun _ => default) listenAndClose = .ok r ∧ ¬ TablesOk r ∧
      Leaked 7 r ∧ r.desc2event.lookup 7 = some 0 := by
  have hrun : ∃ r, run machine (.init fun _ => default) listenAndClose = .ok r ∧
      Leaked 7 r ∧ r.desc2event.lookup 7 = some 0 := by
    refine ⟨_, rfl, ⟨?_, rfl, rfl⟩, rfl⟩
    exact Finset.mem_insert_self ..
  obtain ⟨r, hrun, hleaked, hevent⟩ := hrun
  exact ⟨r, hrun, hleaked.not_tablesOk, hleaked, hevent⟩

end Libcage.Proofs.Rdp
