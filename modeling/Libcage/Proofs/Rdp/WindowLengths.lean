import Mathlib.Tactic.FinCases
import Libcage.Proofs.Rdp.Runs

/-!
# `Libcage.Proofs.Rdp.WindowLengths`: divisions by the length of a window

The length of the send window comes from the peer: it is four times the `out_segs_max` of
the SYN that LISTEN or SYN_SENT takes, and nothing checks that field. `WindowOk` says
that the windows of a living record have a length. It holds as long as no SYN that is
taken has `out_segs_max` zero, and then no remainder is computed modulo zero
(`noDivision_of_syns`).
-/

set_option autoImplicit false

namespace Libcage.Proofs.Rdp

open Libcage.Lib
open Libcage.Rdp

/-- The windows of a record that lives have a length. A record that waits for the SYN of
its peer still has the `rcv_max` it started with. -/
structure WindowOk (c : RdpCon) : Prop where
  lengths : synced c.state = true → 0 < c.swndLen ∧ 0 < c.rwndLen
  rcvMax : c.state = .synSent → c.rcvMax = rcvMaxDefault

/-- The input is a SYN that a listening port or a record in state SYN_SENT takes. -/
def TakesSyn (r : Members) (src : Id) (pbuf : Packetbuf) : Prop :=
  SynInListen r src pbuf ∨
    ∃ ptr, r.addr2conn.lookup (addrOf src pbuf) = some ptr ∧ SynInSynSent (r.con ptr) pbuf

/-- Where the input is a SYN that is taken, it offers a window. -/
def OffersWindow (r : Members) (input : Env × Input) : Prop :=
  ∀ src pbuf, input.2 = .arrive src pbuf → TakesSyn r src pbuf →
    (RdpSyn.decode pbuf.data).outSegsMax ≠ 0

/-! ### Records -/

/-- The windows of `acceptSyn` have the lengths of the two limits. -/
theorem acceptSyn_lengths (uninit : Uninit) (clock : Int) (c : RdpCon) (syn : RdpSyn)
    (hmax : c.rcvMax = rcvMaxDefault) (hsyn : syn.outSegsMax ≠ 0) :
    0 < (c.acceptSyn uninit clock syn).swndLen ∧ 0 < (c.acceptSyn uninit clock syn).rwndLen := by
  constructor
  · show 0 < (syn.outSegsMax.setWidth 32 * 4).toNat
    have hpos : syn.outSegsMax.toNat ≠ 0 := fun h => hsyn (BitVec.eq_of_toNat_eq h)
    have := syn.outSegsMax.isLt
    rw [BitVec.toNat_mul, BitVec.toNat_setWidth]
    show 0 < syn.outSegsMax.toNat % 2 ^ 32 * 4 % 2 ^ 32
    omega
  · show 0 < (c.rcvMax * 2).toNat
    rw [hmax]
    decide

theorem WindowOk.kept {c c' : RdpCon} (h : WindowOk c) (hkept : Kept c c')
    (hstate : synced c'.state = true → synced c.state = true)
    (hsent : c'.state = .synSent → c.state = .synSent) : WindowOk c' := by
  refine ⟨fun hs => ?_, fun hs => ?_⟩
  · rw [hkept.swndLen, hkept.rwndLen]
    exact h.lengths (hstate hs)
  · rw [hkept.rcvMax]
    exact h.rcvMax (hsent hs)

theorem WindowOk.work {c c' : RdpCon} {out : List Emitted} (h : WindowOk c)
    (hwork : Work c c' out) :
    WindowOk c' := by
  refine h.kept hwork.kept ?_ ?_ <;> rw [hwork.state] <;> exact id

/-- A change into a state of a record that has its SYN or is gone. -/
theorem WindowOk.goes {c c' : RdpCon} (h : WindowOk c) (hkept : Kept c c')
    (hto : c'.state ≠ .synSent) (hstate : synced c'.state = true → synced c.state = true) :
    WindowOk c' :=
  h.kept hkept hstate fun hs => absurd hs hto

theorem WindowOk.callCon {c c' : RdpCon} {out : List Emitted} (h : WindowOk c)
    (hstep : CallCon c c' out) : WindowOk c' := by
  cases hstep with
  | work hwork => exact h.work hwork
  | closeActive hkept hfrom hto =>
    refine h.goes hkept (by rw [hto]; decide) fun _ => ?_
    rw [hfrom]
    rfl
  | drop hkept _ hto =>
    exact h.goes hkept (by rw [hto]; decide) (by rw [hto]; exact fun hs => nomatch hs)
  | part => exact h
  | syn => exact h

theorem WindowOk.conStep {c c' : RdpCon} {out : List Emitted} (h : WindowOk c)
    (hstep : ConStep c c' out) : WindowOk c' := by
  cases hstep with
  | call hcall => exact h.callCon hcall
  | closePasv hkept hfrom hto =>
    refine h.goes hkept (by rw [hto]; decide) fun _ => ?_
    rw [hfrom]
    rfl
  | fail hkept hto =>
    exact h.goes hkept (by rw [hto]; decide) (by rw [hto]; exact fun hs => nomatch hs)
  | synAck => exact h

theorem WindowOk.arriveStep {pbuf : Packetbuf} {c c' : RdpCon} {out : List Emitted}
    (h : WindowOk c) (hstep : ArriveStep pbuf c c' out)
    (hoffer : SynInSynSent c pbuf → (RdpSyn.decode pbuf.data).outSegsMax ≠ 0) : WindowOk c' := by
  cases hstep with
  | again => exact h
  | echo => exact ⟨fun hs => (nomatch hs), fun hs => (nomatch hs)⟩
  | takeSyn hsyn _ uninit clock =>
    exact ⟨fun _ => acceptSyn_lengths uninit clock c _ (h.rcvMax hsyn.1) (hoffer hsyn),
      fun hs => nomatch hs⟩
  | takeSynAck hsyn _ uninit clock =>
    exact ⟨fun _ => acceptSyn_lengths uninit clock c _ (h.rcvMax hsyn.1) (hoffer hsyn),
      fun hs => nomatch hs⟩
  | takeAck hfrom =>
    refine ⟨fun _ => h.lengths ?_, fun hs => nomatch hs⟩
    rw [hfrom]
    rfl

theorem WindowOk.start (uninit : Uninit) (addr : RdpAddr) (iss : BitVec 32) (clock desc : Int) :
    WindowOk { (RdpCon.new uninit).start addr false .synSent iss clock with desc := desc } :=
  ⟨fun hs => (nomatch hs), fun _ => rfl⟩

/-- A record that a listening port makes. -/
theorem WindowOk.accept (uninit : Uninit) (addr : RdpAddr) (iss : BitVec 32) (clock desc : Int)
    {syn : RdpSyn} (hsyn : syn.outSegsMax ≠ 0) :
    WindowOk { ((RdpCon.new uninit).start addr true .synRcvd iss clock).acceptSyn uninit clock syn
      with desc := desc } := by
  generalize hc : ((RdpCon.new uninit).start addr true .synRcvd iss clock).acceptSyn uninit clock
    syn = c
  have hlen : 0 < c.swndLen ∧ 0 < c.rwndLen := by
    rw [← hc]
    exact acceptSyn_lengths uninit clock _ _ rfl hsyn
  have hstate : c.state = .synRcvd := by
    rw [← hc]
    rfl
  refine ⟨fun _ => hlen, fun hs => ?_⟩
  have hsent : c.state = .synSent := hs
  rw [hstate] at hsent
  cases hsent

/-! ### Runs -/

/-- One step: the windows keep a length, and no division by zero comes up. -/
theorem windowOk_step {r : Members} {input : Env × Input} (hr : Started r)
    (h : AllCons WindowOk r) (hoffer : OffersWindow r input) :
    Ends (fun r' => Started r' ∧ AllCons WindowOk r') (· ≠ .divByZero) (machine r input) := by
  have hcall : ∀ c c' out, WindowOk c → CallCon c c' out → WindowOk c' :=
    fun _ _ _ h => h.callCon
  have hmicro : ∀ w w', AllCons WindowOk w.rdp → Micro r input.2 w w' →
      AllCons WindowOk w'.rdp := by
    intro w w' h hstep
    refine h.micro hcall WindowOk.start (fun _ _ _ h => h.conStep) ?_ ?_ hstep
    · intro ptr pbuf c' out hfor hc hstep
      obtain ⟨src, hi, -, -, hlook⟩ := hfor
      exact hc.arriveStep hstep fun hsyn => hoffer src pbuf hi (Or.inr ⟨ptr, hlook, hsyn⟩)
    · intro src pbuf uninit iss clock desc hi hsyn
      exact WindowOk.accept uninit _ iss clock desc (hoffer src pbuf hi (Or.inl hsyn))
  cases hrun : machine r input with
  | ok r' =>
    obtain ⟨w, hw, rfl⟩ := machine_eq_ok hrun
    exact Ends.ok (step_inv hr (fun w => AllCons WindowOk w.rdp) (fun _ _ _ => hmicro _ _) h hw)
  | error e =>
    refine Ends.error fun hdiv => ?_
    have hfault : (handle input.2).run (.start r input.1) = .error e := machine_eq_error hrun
    -- The fault is a division by the length of a window, which the invariant says is positive.
    obtain ⟨w, hok, w', hevent, hF⟩ := (handle_traces (.start r input.1) hr.indexed input.2).fault
      (fun w => AllCons WindowOk w.rdp) hmicro h hfault
    obtain ⟨ptr, hptr, hlive, hlen⟩ := hF hdiv
    have hpos := ((hok.eventSteps hcall WindowOk.start hevent) ptr hptr).lengths hlive
    omega

/-- In a run in which every SYN that is taken offers a window, no remainder is computed
modulo the length zero. -/
theorem noDivision_of_syns (con : ConPtr → RdpCon) (inputs : List (Env × Input))
    (h : Allowed machine OffersWindow (.init con) inputs) :
    run machine (.init con) inputs ≠ .error .divByZero := by
  have hinit : AllCons WindowOk (Members.init con) := fun ptr hptr =>
    absurd hptr (Nat.not_lt_zero ptr)
  have hends := ends_of_allowed (F := (· ≠ Fault.divByZero))
    (fun r => Started r ∧ AllCons WindowOk r)
    (fun r input hr hoffer => windowOk_step hr.1 hr.2 hoffer) ⟨started_init con, hinit⟩ h
  exact fun hrun => hends.of_error hrun rfl

/-! ### A SYN without a window -/

/-- Listen, take the SYN under the initial number 1000, and take two
acknowledgements. -/
def acceptRun (outSegsMax : BitVec 16) : List (Env × Input) :=
  acceptSynRun outSegsMax ++ [(oneNumber 0, .arrive 1 plainAck),
    (oneNumber 0, .arrive 1 plainAck)]

/-- Only the SYN of this run can be taken. -/
theorem noDivision_of_syns_oneSegment :
    run machine (.init fun _ => default) (acceptRun 1) ≠ .error .divByZero := by
  refine noDivision_of_syns _ _ (allowed_of_all fun input hmem r src pbuf hi htakes => ?_)
  have hsyn : (RdpHead.decode pbuf.data).has flagSyn = true := by
    rcases htakes with h | ⟨_, _, h⟩
    · exact h.2.2.2.1
    · exact h.2.2.1
  fin_cases hmem
  · cases hi
  · obtain ⟨rfl, rfl⟩ := Input.arrive.inj hi
    decide
  · obtain ⟨rfl, rfl⟩ := Input.arrive.inj hi
    exact absurd hsyn (by decide)
  · obtain ⟨rfl, rfl⟩ := Input.arrive.inj hi
    exact absurd hsyn (by decide)

/-- Without a window the second acknowledgement computes a remainder modulo zero. -/
theorem noWindow_divides :
    run machine (.init fun _ => default) (acceptRun 0) = .error .divByZero := by
  have h : (match run machine (.init fun _ => default) (acceptRun 0) with
      | .ok _ => none
      | .error e => some e) = some Fault.divByZero := by decide +kernel
  revert h
  cases run machine (.init fun _ => default) (acceptRun 0) with
  | ok r => exact fun h => nomatch h
  | error e => exact fun h => congrArg _ (Option.some.inj h)

end Libcage.Proofs.Rdp
