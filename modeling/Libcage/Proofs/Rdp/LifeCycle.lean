import Libcage.Proofs.Rdp.Runs

/-!
# `Libcage.Proofs.Rdp.LifeCycle`: the life of a record of `rdp`

`Transition` are the changes of the state of a record. `Later` says what is left of a record
after any steps, and `Outlives` says it of all the records of a state, with what the tables
still have of them.

A record goes from SYN_SENT or SYN_RCVD over OPEN and one of the two CLOSE_WAIT to CLOSED,
and may leave out stages. No segment, no call and no timer takes it back.
-/

set_option autoImplicit false

namespace Libcage.Proofs.Rdp

open Libcage.Lib
open Libcage.Rdp
open Relation (ReflTransGen)

/-! ### States -/

/-- The changes of the state of a record. -/
inductive Transition : RdpState → RdpState → Prop
  | takeSyn : Transition .synSent .synRcvd
  | takeSynAck : Transition .synSent .opened
  | takeAck : Transition .synRcvd .opened
  | closeActive : Transition .opened .closeWaitActive
  | closePasv : Transition .opened .closeWaitPasv
  | fail (s : RdpState) : Transition s .closed

/-- How far a state is in the life of a record. -/
def stage : RdpState → Nat
  | .listen | .synSent => 0
  | .synRcvd => 1
  | .opened => 2
  | .closeWaitPasv | .closeWaitActive => 3
  | .closed => 4

section
variable {s t : RdpState}

theorem Transition.eq_or_lt (h : Transition s t) : t = s ∨ stage s < stage t := by
  cases h with
  | fail => cases s <;> decide
  | _ => exact Or.inr (by decide)

/-- A record is in the state it was in, or has come further. -/
theorem eq_or_stage_lt (h : ReflTransGen Transition s t) : t = s ∨ stage s < stage t := by
  induction h with
  | refl => exact Or.inl rfl
  | tail _ hlast ih =>
    -- Only a closed record that is closed again stays where it is.
    rcases hlast.eq_or_lt with rfl | hlt
    · exact ih
    · rcases ih with rfl | hlt'
      · exact Or.inr hlt
      · exact Or.inr (hlt'.trans hlt)

/-- A state that a record has left, it does not come back to. -/
theorem eq_of_return (h : ReflTransGen Transition s t) (hback : ReflTransGen Transition t s) :
    t = s := by
  rcases eq_or_stage_lt h with heq | hlt
  · exact heq
  · rcases eq_or_stage_lt hback with heq | hlt'
    · exact heq.symm
    · exact absurd hlt' hlt.not_gt

theorem Transition.ne_synSent (h : Transition s t) : t ≠ .synSent := by
  cases h <;> decide

theorem ne_synSent_of_reached (h : ReflTransGen Transition s t) (hs : s ≠ .synSent) :
    t ≠ .synSent := by
  cases h with
  | refl => exact hs
  | tail _ hlast => exact hlast.ne_synSent

end

/-! ### Records -/

/-- What is left of a record after any steps. The number of the peer comes with its SYN. -/
structure Later (c c' : RdpCon) : Prop where
  addr : c'.addr = c.addr
  desc : c'.desc = c.desc
  sndIss : c'.sndIss = c.sndIss
  rcvIrs : c.state ≠ .synSent → c'.rcvIrs = c.rcvIrs
  states : ReflTransGen Transition c.state c'.state

namespace Later
variable {c c₁ c' : RdpCon} {out : List Emitted}

theorem refl (c : RdpCon) : Later c c := ⟨rfl, rfl, rfl, fun _ => rfl, .refl⟩

theorem trans (h : Later c c₁) (h' : Later c₁ c') : Later c c' where
  addr := h'.addr.trans h.addr
  desc := h'.desc.trans h.desc
  sndIss := h'.sndIss.trans h.sndIss
  rcvIrs hsent := (h'.rcvIrs (ne_synSent_of_reached h.states hsent)).trans (h.rcvIrs hsent)
  states := h.states.trans h'.states

theorem of_kept (h : Kept c c') (hstates : ReflTransGen Transition c.state c'.state) : Later c c' :=
  ⟨h.addr, h.desc, h.sndIss, fun _ => h.rcvIrs, hstates⟩

theorem callCon (h : CallCon c c' out) : Later c c' := by
  cases h with
  | work hwork =>
    refine of_kept hwork.kept ?_
    rw [hwork.state]
  | closeActive hkept hfrom hto =>
    refine of_kept hkept ?_
    rw [hfrom, hto]
    exact .single .closeActive
  | drop hkept _ hto =>
    refine of_kept hkept ?_
    rw [hto]
    exact .single (.fail _)
  | part => exact refl c
  | syn => exact refl c

theorem conStep (h : ConStep c c' out) : Later c c' := by
  cases h with
  | call hcall => exact callCon hcall
  | closePasv hkept hfrom hto =>
    refine of_kept hkept ?_
    rw [hfrom, hto]
    exact .single .closePasv
  | fail hkept hto =>
    refine of_kept hkept ?_
    rw [hto]
    exact .single (.fail _)
  | synAck => exact refl c

theorem arriveStep {pbuf : Packetbuf} (h : ArriveStep pbuf c c' out) : Later c c' := by
  cases h with
  | again => exact refl c
  -- A SYN to an open record closes it.
  | echo => exact ⟨rfl, rfl, rfl, fun _ => rfl, .single (.fail _)⟩
  | takeSyn hsyn =>
    -- The number of the peer is new, but only a record in SYN_SENT takes a SYN.
    have hsent : c.state = .synSent := hsyn.1
    refine ⟨rfl, rfl, rfl, fun hne => absurd hsent hne, ?_⟩
    rw [hsent]
    exact .single .takeSyn
  | takeSynAck hsyn =>
    have hsent : c.state = .synSent := hsyn.1
    refine ⟨rfl, rfl, rfl, fun hne => absurd hsent hne, ?_⟩
    rw [hsent]
    exact .single .takeSynAck
  | takeAck hfrom =>
    refine ⟨rfl, rfl, rfl, fun _ => rfl, ?_⟩
    rw [hfrom]
    exact .single .takeAck

end Later

/-! ### The tables -/

/-- The records of `r` in a later state `r'`. What is out of the tables stays out. -/
structure Outlives (r r' : Members) : Prop where
  room : r.nextPtr ≤ r'.nextPtr
  later : ∀ ptr < r.nextPtr, Later (r.con ptr) (r'.con ptr)
  gone : ∀ ptr < r.nextPtr, ∀ desc, r'.desc2conn.lookup desc = some ptr →
    r.desc2conn.lookup desc = some ptr

namespace Outlives
variable {r r₁ r' : Members}

theorem refl (r : Members) : Outlives r r := ⟨le_rfl, fun _ _ => .refl _, fun _ _ _ => id⟩

theorem trans (h : Outlives r r₁) (h' : Outlives r₁ r') : Outlives r r' where
  room := h.room.trans h'.room
  later ptr hptr := (h.later ptr hptr).trans (h'.later ptr (hptr.trans_le h.room))
  gone ptr hptr desc hl := h.gone ptr hptr desc (h'.gone ptr (hptr.trans_le h.room) desc hl)

/-- The records stay as they are, and the tables have no more of them. -/
theorem of_same (hcon : r'.con = r.con) (hnext : r'.nextPtr = r.nextPtr)
    (hgone : ∀ desc ptr, r'.desc2conn.lookup desc = some ptr →
      r.desc2conn.lookup desc = some ptr) : Outlives r r' where
  room := hnext.ge
  later ptr _ := by
    rw [hcon]
    exact .refl _
  gone ptr _ desc := hgone desc ptr

theorem conStep {w : World} {ptr : ConPtr} {c : RdpCon} (h : Later (w.rdp.con ptr) c)
    (out : List Emitted) : Outlives w.rdp (conStep w ptr c out).rdp := by
  refine ⟨le_rfl, fun p _ => ?_, fun _ _ _ => id⟩
  show Later _ (Function.update w.rdp.con ptr c p)
  by_cases hp : p = ptr
  · rw [hp, Function.update_self]
    exact h
  · rw [Function.update_of_ne hp]
    exact .refl _

theorem eraseCon (r : Members) (desc : Int) (addr : RdpAddr) :
    Outlives r (r.eraseCon desc addr) :=
  of_same rfl rfl fun _ _ hl => (lookup_erase_eq_some.mp hl).2

/-- A new record takes no place of another. -/
theorem withCon (r : Members) (desc : Int) (c : RdpCon) : Outlives r (withCon r desc c) := by
  refine ⟨Nat.le_succ _, fun ptr hptr => ?_, fun ptr hptr d hl => ?_⟩
  · show Later _ (Function.update r.con r.nextPtr _ ptr)
    rw [Function.update_of_ne (Nat.ne_of_lt hptr)]
    exact .refl _
  · have hl' : (r.desc2conn.insert desc r.nextPtr).lookup d = some ptr := hl
    rcases lookup_insert_eq_some.mp hl' with ⟨-, rfl⟩ | ⟨-, hold⟩
    · exact absurd hptr (Nat.lt_irrefl _)
    · exact hold

theorem quiet {w w' : World} (h : Quiet w w') : Outlives w.rdp w'.rdp := by
  rw [h.rdp]
  exact of_same rfl rfl fun _ _ => id

theorem callStep {w w' : World} (h : CallStep w w') : Outlives w.rdp w'.rdp := by
  cases h with
  | quiet hquiet => exact quiet hquiet
  | con _ hcon => exact conStep (.callCon hcon) _
  | erase => exact eraseCon ..
  | event => exact of_same rfl rfl fun _ _ => id
  | listen =>
    unfold withListening Members.insertListening
    split <;> exact of_same rfl rfl fun _ _ => id
  | unlisten => exact of_same rfl rfl fun _ _ => id
  | connect => exact withCon ..

theorem eventStep {w w' : World} (h : EventStep w w') : Outlives w.rdp w'.rdp := by
  cases h with
  | call hcall => exact callStep hcall
  | mark hquiet => exact quiet hquiet

theorem micro {r : Members} {i : Input} {w w' : World} (h : Micro r i w w') :
    Outlives w.rdp w'.rdp := by
  cases h with
  | call hcall => exact callStep hcall
  | event hevent =>
    -- A callback may call the user functions any number of times.
    exact chain_inv (fun w' => Outlives w.rdp w'.rdp)
      (fun _ _ hw hstep => hw.trans (eventStep hstep)) (.refl _) hevent
  | say => exact .refl _
  | con _ hcon => exact conStep (.conStep hcon) _
  | arrive _ _ _ harrive => exact conStep (.arriveStep harrive) _
  | erase => exact eraseCon ..
  | accept => exact withCon ..

/-- One input. -/
theorem machine {input : Env × Input} (hr : Started r) (hstep : machine r input = .ok r') :
    Outlives r r' := by
  obtain ⟨w, hrun, rfl⟩ := machine_eq_ok hstep
  exact (step_inv hr (fun w => Outlives r w.rdp) (fun _ _ _ hw hmicro => hw.trans (micro hmicro))
    (.refl r) hrun).2

/-- A run. -/
theorem run {inputs : List (Env × Input)} (hr : Started r)
    (hrun : run Rdp.machine r inputs = .ok r') : Started r' ∧ Outlives r r' :=
  run_inv (fun r' => Started r' ∧ Outlives r r')
    (fun _ _ _ h hstep => ⟨h.1.machine hstep, h.2.trans (machine h.1 hstep)⟩) ⟨hr, .refl r⟩ hrun

end Outlives

/-! ### Runs -/

/-- The state of a record is one that a record comes to. -/
def Lived (c : RdpCon) : Prop := ReflTransGen Transition .synSent c.state

theorem lived_micro {r : Members} {i : Input} {w w' : World} (h : AllCons Lived w.rdp)
    (hstep : Micro r i w w') : AllCons Lived w'.rdp := by
  refine h.micro (fun _ _ _ hc hcall => hc.trans (Later.callCon hcall).states)
    (fun _ _ _ _ _ => .refl) (fun _ _ _ hc hcon => hc.trans (Later.conStep hcon).states)
    (fun _ _ _ _ _ hc harrive => hc.trans (Later.arriveStep harrive).states) ?_ hstep
  -- An accepted record starts in SYN_RCVD.
  intro _ _ _ _ _ _ _ _
  exact .single .takeSyn

theorem lived_of_run {con : ConPtr → RdpCon} {inputs : List (Env × Input)} {r : Members}
    (hrun : run Rdp.machine (.init con) inputs = .ok r) : AllCons Lived r := by
  refine (run_inv (fun r => Started r ∧ AllCons Lived r) ?_ ⟨started_init con, ?_⟩ hrun).2
  · intro r input r' h hstep
    obtain ⟨w, hw, rfl⟩ := machine_eq_ok hstep
    exact step_inv h.1 (fun w => AllCons Lived w.rdp) (fun _ _ _ => lived_micro) h.2 hw
  · exact fun ptr hptr => absurd hptr (Nat.not_lt_zero ptr)

/-- The life of a record over a run, looked at three times. -/
theorem record_life {con : ConPtr → RdpCon} {before middle after : List (Env × Input)}
    {r r₁ r₂ : Members} (hbefore : run Rdp.machine (.init con) before = .ok r)
    (hmiddle : run Rdp.machine r middle = .ok r₁) (hafter : run Rdp.machine r₁ after = .ok r₂)
    {ptr : ConPtr} (hptr : ptr < r.nextPtr) :
    ReflTransGen Transition .synSent (r.con ptr).state ∧ Later (r.con ptr) (r₁.con ptr) ∧
      ((r₁.con ptr).state ≠ (r.con ptr).state → (r₂.con ptr).state ≠ (r.con ptr).state) ∧
      ∀ desc, r₂.desc2conn.lookup desc = some ptr →
        r₁.desc2conn.lookup desc = some ptr ∧ r.desc2conn.lookup desc = some ptr := by
  obtain ⟨hstarted, hfirst⟩ := Outlives.run (started_of_run hbefore) hmiddle
  have hsecond := (Outlives.run hstarted hafter).2
  have hptr₁ : ptr < r₁.nextPtr := hptr.trans_le hfirst.room
  refine ⟨lived_of_run hbefore ptr hptr, hfirst.later ptr hptr, ?_, ?_⟩
  · intro hleft hback
    -- A state that comes back makes a circle of transitions.
    have hstates := (hsecond.later ptr hptr₁).states
    rw [hback] at hstates
    exact hleft (eq_of_return (hfirst.later ptr hptr).states hstates)
  · intro desc hl
    have hl₁ := hsecond.gone ptr hptr₁ desc hl
    exact ⟨hl₁, hfirst.gone ptr hptr desc hl₁⟩

/-- A record that is accepted, opened and closed by the user. -/
theorem record_life_accepted :
    ∃ r r₁ r₂, run Rdp.machine (.init fun _ => default) (acceptSynRun 1) = .ok r ∧
      run Rdp.machine r [(oneNumber 0, .arrive 1 plainAck)] = .ok r₁ ∧
      run Rdp.machine r₁ [(oneNumber 0, .call (.close 8))] = .ok r₂ ∧
      (r.con 0).state = .synRcvd ∧ (r₁.con 0).state = .opened ∧
      (r₂.con 0).state = .closeWaitActive ∧ Later (r.con 0) (r₁.con 0) := by
  have h : (do
      let r ← run Rdp.machine (.init fun _ => default) (acceptSynRun 1)
      let r₁ ← run Rdp.machine r [(oneNumber 0, .arrive 1 plainAck)]
      let r₂ ← run Rdp.machine r₁ [(oneNumber 0, .call (.close 8))]
      return (r.nextPtr, (r.con 0).state, (r₁.con 0).state, (r₂.con 0).state))
      = (.ok (1, .synRcvd, .opened, .closeWaitActive) : Except Fault _) := by decide +kernel
  obtain ⟨r, hbefore, hrest⟩ := bind_eq_ok h
  obtain ⟨r₁, hmiddle, hrest⟩ := bind_eq_ok hrest
  obtain ⟨r₂, hafter, hends⟩ := bind_eq_ok hrest
  simp only [pure, Except.pure, Except.ok.injEq, Prod.mk.injEq] at hends
  obtain ⟨hnext, hrcvd, hopened, hclosed⟩ := hends
  have hptr : 0 < r.nextPtr := by
    rw [hnext]
    exact Nat.one_pos
  exact ⟨r, r₁, r₂, hbefore, hmiddle, hafter, hrcvd, hopened, hclosed,
    (record_life hbefore hmiddle hafter hptr).2.1⟩

end Libcage.Proofs.Rdp
