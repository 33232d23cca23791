import Libcage.Lib.Run
import Libcage.Proofs.Rdp.HandlerSteps

/-!
# `Libcage.Proofs.Rdp.Runs`: runs of `rdp`

A run starts with `rdp::rdp` and takes inputs one after the other.

* `step_inv` brings an invariant of the small steps to the steps of a run, and
  `started_of_run` is the one that all runs have.
* `AllCons.micro`: an invariant of each record by itself is one of the heap.
-/

set_option autoImplicit false

namespace Libcage.Proofs.Rdp

open Libcage.Lib
open Libcage.Rdp

/-! ### Runs -/

/-- What every state between two inputs has. -/
structure Started (r : Members) : Prop where
  indexed : Indexed r
  atRest : AtRest r

theorem indexed_init (con : ConPtr → RdpCon) : Indexed (Members.init con) := by
  have hnone : ∀ {desc : Int}, ¬ ((Members.init con).listeningRight desc).isSome = true := by
    intro desc h
    cases h
  constructor
  case listening_mem => exact fun h => absurd h hnone
  case listening_free => exact fun h => absurd h hnone
  all_goals intros; rename_i h; cases h

theorem started_init (con : ConPtr → RdpCon) : Started (Members.init con) :=
  ⟨indexed_init con, rfl, rfl⟩

/-- What the steps of an input keep holds after it. -/
theorem step_inv {r : Members} (hr : Started r) (P : World → Prop) {i : Input}
    (hP : ∀ w w', Indexed w.rdp → P w → Micro r i w w' → P w') {env : Env}
    (hstart : P (.start r env)) {w : World} {a : Unit}
    (hrun : (handle i).run (.start r env) = .ok (a, w)) : Started w.rdp ∧ P w := by
  have h := (handle_traces (.start r env) hr.indexed i).inv
    (fun w => Indexed w.rdp ∧ AtRest w.rdp ∧ P w)
    (fun _ _ h hstep => ⟨h.1.micro hstep, h.2.1.micro hstep, hP _ _ h.1 h.2.2 hstep⟩)
    ⟨hr.indexed, hr.atRest, hstart⟩ hrun
  exact ⟨⟨h.1, h.2.1⟩, h.2.2⟩

/-- A step of a run is a run of the handler. -/
theorem machine_eq_ok {r r' : Members} {input : Env × Input} (h : machine r input = .ok r') :
    ∃ w, (handle input.2).run (.start r input.1) = .ok ((), w) ∧ w.rdp = r' := by
  obtain ⟨⟨r₁, out⟩, hstep, hr⟩ := bind_eq_ok h
  obtain rfl : r₁ = r' := Except.ok.inj hr
  obtain ⟨⟨⟨⟩, w⟩, hrun, hw⟩ := bind_eq_ok hstep
  exact ⟨w, hrun, congrArg Prod.fst (Except.ok.inj hw)⟩

theorem machine_eq_error {r : Members} {input : Env × Input} {e : Fault}
    (h : machine r input = .error e) : (handle input.2).run (.start r input.1) = .error e := by
  rcases bind_eq_error h with hstep | ⟨r', -, hr⟩
  · rcases bind_eq_error hstep with hrun | ⟨w, -, hw⟩
    · exact hrun
    · cases hw
  · cases hr

theorem machine_of_run {r : Members} {input : Env × Input} {w : World}
    (h : (handle input.2).run (.start r input.1) = .ok ((), w)) : machine r input = .ok w.rdp := by
  rw [machine, step, h]
  rfl

theorem Started.machine {r r' : Members} {input : Env × Input} (h : Started r)
    (hstep : machine r input = .ok r') : Started r' := by
  obtain ⟨w, hrun, rfl⟩ := machine_eq_ok hstep
  exact (step_inv h (fun _ => True) (fun _ _ _ _ _ => trivial) trivial hrun).1

theorem started_of_run {con : ConPtr → RdpCon} {inputs : List (Env × Input)} {r : Members}
    (hrun : run Rdp.machine (.init con) inputs = .ok r) : Started r :=
  run_inv Started (fun _ _ _ h hstep => h.machine hstep) (started_init con) hrun

/-! ### Inputs of small runs -/

/-- What a call gets here: one random number. -/
def oneNumber (rnd : BitVec 32) : Env := { (default : Env) with rnd := [rnd] }

/-- A segment as it comes in. -/
def incoming (seg : List Byte) (h : pbufDefaultOffset + seg.length ≤ pbufSize) : Packetbuf :=
  ⟨pbufDefaultOffset, seg, [], h⟩

/-- A SYN from port 200 to port 100, with number 5. -/
def synTo100 (outSegsMax : BitVec 16) : Packetbuf :=
  incoming ({ head :=
      { flags := flagSyn ||| flagVer, hlen := 12, sport := 200, dport := 100, seqnum := 5 }
              outSegsMax := outSegsMax, segSizeMax := 884 } : RdpSyn).encode
    (by rw [RdpSyn.length_encode]; decide)

/-- An acknowledgement of number 1000 from port 200 to port 100, with number 6. -/
def plainAck : Packetbuf :=
  incoming ({ flags := flagAck ||| flagVer, hlen := 10, sport := 200, dport := 100, seqnum := 6,
              acknum := 1000 } : RdpHead).encode (by decide)

/-- Listen on port 100 and take the SYN, under the initial number 1000. -/
def acceptSynRun (outSegsMax : BitVec 16) : List (Env × Input) :=
  [(oneNumber 7, .call (.listen 100 0)),
   ({ (default : Env) with rnd := [1000, 8] }, .arrive 1 (synTo100 outSegsMax))]

/-! ### Records -/

/-- Every record that was ever made satisfies `Q`. -/
def AllCons (Q : RdpCon → Prop) (r : Members) : Prop := ∀ ptr < r.nextPtr, Q (r.con ptr)

namespace AllCons
variable {Q : RdpCon → Prop} {w : World}

theorem conStep (h : AllCons Q w.rdp) {ptr : ConPtr} {c : RdpCon} (hc : Q c)
    (out : List Emitted) : AllCons Q (conStep w ptr c out).rdp := by
  intro p hp
  show Q (Function.update w.rdp.con ptr c p)
  by_cases heq : p = ptr
  · rw [heq, Function.update_self]
    exact hc
  · rw [Function.update_of_ne heq]
    exact h p hp

theorem withCon {r : Members} (h : AllCons Q r) {desc : Int} {c : RdpCon}
    (hc : Q { c with desc := desc }) : AllCons Q (withCon r desc c) := by
  intro p hp
  show Q (Function.update r.con r.nextPtr { c with desc := desc } p)
  by_cases heq : p = r.nextPtr
  · rw [heq, Function.update_self]
    exact hc
  · rw [Function.update_of_ne heq]
    exact h p (Nat.lt_of_le_of_ne (Nat.le_of_lt_succ hp) heq)

theorem quiet {w' : World} (h : AllCons Q w.rdp) (hquiet : Quiet w w') : AllCons Q w'.rdp := by
  rw [hquiet.rdp]
  exact h

section
variable (hcall : ∀ c c' out, Q c → CallCon c c' out → Q c')
  (hnew : ∀ uninit addr iss clock desc,
    Q { (RdpCon.new uninit).start addr false .synSent iss clock with desc := desc })
include hcall hnew

theorem callStep {w w' : World} (h : AllCons Q w.rdp) (hstep : CallStep w w') :
    AllCons Q w'.rdp := by
  cases hstep with
  | quiet hquiet => exact h.quiet hquiet
  | con hptr hcon => exact h.conStep (hcall _ _ _ (h _ hptr) hcon) _
  | erase => exact h
  | event => exact h
  | listen =>
    unfold withListening Members.insertListening
    split <;> exact h
  | unlisten => exact h
  | connect => exact h.withCon (hnew ..)

theorem eventStep {w w' : World} (h : AllCons Q w.rdp) (hstep : EventStep w w') :
    AllCons Q w'.rdp := by
  cases hstep with
  | call hstep => exact h.callStep hcall hnew hstep
  | mark hquiet => exact h.quiet hquiet

theorem eventSteps {w w' : World} (h : AllCons Q w.rdp)
    (hchain : Relation.ReflTransGen EventStep w w') : AllCons Q w'.rdp :=
  chain_inv (fun w => AllCons Q w.rdp) (fun _ _ h => h.eventStep hcall hnew) h hchain

/-- An invariant of each record by itself, over the steps of an input. -/
theorem micro {r : Members} {i : Input} (hcon : ∀ c c' out, Q c → ConStep c c' out → Q c')
    (harrive : ∀ ptr pbuf c' out, ForCon r i ptr pbuf → Q (r.con ptr) →
      ArriveStep pbuf (r.con ptr) c' out → Q c')
    (haccept : ∀ src pbuf uninit iss clock desc, i = .arrive src pbuf → SynInListen r src pbuf →
      Q { ((RdpCon.new uninit).start (addrOf src pbuf) true .synRcvd iss clock).acceptSyn uninit
        clock (RdpSyn.decode pbuf.data) with desc := desc })
    {w w' : World} (h : AllCons Q w.rdp) (hstep : Micro r i w w') : AllCons Q w'.rdp := by
  cases hstep with
  | call hstep => exact h.callStep hcall hnew hstep
  | event hevent => exact h.eventSteps hcall hnew hevent
  | say => exact h
  | con hptr hstep => exact h.conStep (hcon _ _ _ (h _ hptr) hstep) _
  | arrive hptr hsame hfor hstep =>
    have hc := h _ hptr
    rw [hsame] at hc hstep
    exact h.conStep (harrive _ _ _ _ hfor hc hstep) _
  | erase => exact h
  | accept _ hi hsyn => exact h.withCon (haccept _ _ _ _ _ _ hi hsyn)

end

end AllCons

end Libcage.Proofs.Rdp
