import Libcage.Proofs.Rdp.Steps

/-!
# `Libcage.Proofs.Rdp.HandlerSteps`: the handlers are chains of these steps

`runCall_traces` for the calls of the user and of callbacks, `handle_traces` for every
input. The lemmas go handler by handler, in the order of `Libcage.Rdp.Machine` and
`Libcage.Rdp.Handlers`.
-/

set_option autoImplicit false

namespace Libcage.Proofs.Rdp

open Libcage.Lib
open Libcage.Rdp
open Relation (ReflTransGen)

/-! ### One record -/

@[simp] theorem conStep_con_self (w : World) (ptr : ConPtr) (c : RdpCon) (out : List Emitted) :
    (conStep w ptr c out).rdp.con ptr = c := Function.update_self ..

/-- Two steps of one record are one. -/
theorem conStep_conStep {w : World} {ptr : ConPtr} {c : RdpCon}
    (haddr : c.addr = (w.rdp.con ptr).addr) (c' : RdpCon) (out out' : List Emitted) :
    conStep (conStep w ptr c out) ptr c' out' = conStep w ptr c' (out ++ out') := by
  simp only [conStep, Function.update_self, haddr, Function.update_idem, List.map_append,
    List.append_assoc]

theorem setCon_run (ptr : ConPtr) (c : RdpCon) (w : World) :
    setCon ptr c w = .ok ((), conStep w ptr c []) := by
  rw [conStep, List.map_nil, List.append_nil]
  rfl

theorem outputCon_run {ptr : ConPtr} {did : Id} (seg : List Byte) {w : World}
    (hdid : did = (w.rdp.con ptr).addr.did) :
    outputCon ptr did seg w
      = .ok ((), conStep w ptr (w.rdp.con ptr) [(w.rdp.con ptr).emit seg]) := by
  rw [conStep, Function.update_eq_self, ← hdid]
  rfl

theorem onCon_run {α : Type} (ptr : ConPtr)
    (f : Int → RdpCon → Except Fault (α × RdpCon × List Emitted)) (w : World) :
    onCon ptr f w = (f w.env.clock (w.rdp.con ptr) >>= fun r =>
      .ok (r.1, conStep w ptr r.2.1 r.2.2)) := by
  show ((f w.env.clock (w.rdp.con ptr) >>= fun r => Except.ok (r, w)) >>= _) = _
  cases f w.env.clock (w.rdp.con ptr) with
  | ok r => rfl
  | error e => rfl

/-- The event of `in_state_open`, where there is one. -/
def raise (desc : Int) : Option RdpEvent → M Unit
  | some event => invokeEvent desc 0 event
  | none => return

theorem inStateOpen_raise (ptr : ConPtr) (addr : RdpAddr) (pbuf : Packetbuf) :
    inStateOpen ptr addr pbuf = (do
      let c ← getCon ptr
      let event ← onCon ptr fun clock c => do
        let r ← c.inStateOpen clock addr pbuf
        return (r.2.2, r.1, r.2.1)
      raise c.desc event) := rfl

theorem inStateOpen_run (ptr : ConPtr) (addr : RdpAddr) (pbuf : Packetbuf) (w : World) :
    inStateOpen ptr addr pbuf w = ((do
        let r ← (w.rdp.con ptr).inStateOpen w.env.clock addr pbuf
        return (r.2.2, r.1, r.2.1)) >>= fun r =>
      raise (w.rdp.con ptr).desc r.1 (conStep w ptr r.2.1 r.2.2)) := by
  rw [inStateOpen_raise]
  show (onCon ptr _ w >>= fun r => raise (w.rdp.con ptr).desc r.1 r.2) = _
  rw [onCon_run, bind_assoc]
  rfl

/-- A change of a record and a segment of it are one step. -/
theorem setCon_output_run {ptr : ConPtr} {c : RdpCon} {w : World}
    (haddr : c.addr = (w.rdp.con ptr).addr) (seg : List Byte) :
    (do
      setCon ptr c
      outputCon ptr (w.rdp.con ptr).addr.did seg : M Unit) w
      = .ok ((), conStep w ptr c [c.emit seg]) := by
  show (setCon ptr c w >>= fun r => outputCon ptr (w.rdp.con ptr).addr.did seg r.2) = _
  rw [setCon_run, ok_bind, outputCon_run seg (by rw [conStep_con_self, haddr]), conStep_con_self,
    conStep_conStep haddr, List.nil_append]

section
variable {R : World → World → Prop} {F : World → Fault → Prop} {w : World} {α β : Type}

/-- The program reads a record. -/
theorem getCon_bind {ptr : ConPtr} {g : RdpCon → M β} (hg : Traces R F (g (w.rdp.con ptr)) w) :
    Traces R F (getCon ptr >>= g) w := hg

/-- A call on a record, and the rest from where it leads. -/
theorem onCon_bind {ptr : ConPtr} {f : Int → RdpCon → Except Fault (α × RdpCon × List Emitted)}
    {g : α → M β}
    (h : Ends (fun r => ReflTransGen R w (conStep w ptr r.2.1 r.2.2) ∧
      Traces R F (g r.1) (conStep w ptr r.2.1 r.2.2)) (F w) (f w.env.clock (w.rdp.con ptr))) :
    Traces R F (onCon ptr f >>= g) w := by
  cases hf : f w.env.clock (w.rdp.con ptr) with
  | ok r =>
    have hrun : onCon ptr f w = .ok (r.1, conStep w ptr r.2.1 r.2.2) := by
      rw [onCon_run, hf, ok_bind]
    exact .bind_of_run hrun (h.of_ok hf).1 (h.of_ok hf).2
  | error e =>
    have hrun : onCon ptr f w = .error e := by rw [onCon_run, hf, error_bind]
    exact .bind_of_error hrun (h.of_error hf)

theorem onCon_traces {ptr : ConPtr} {f : Int → RdpCon → Except Fault (α × RdpCon × List Emitted)}
    (h : Ends (fun r => ReflTransGen R w (conStep w ptr r.2.1 r.2.2)) (F w)
      (f w.env.clock (w.rdp.con ptr))) : Traces R F (onCon ptr f) w := by
  have hbind := onCon_bind (g := fun a => (pure a : M α))
    (h.mono (fun _ hr => ⟨hr, Traces.pure (F := F) _⟩) fun _ => id)
  rwa [bind_pure] at hbind

/-- A change of a record, and the rest. -/
theorem setCon_bind {ptr : ConPtr} {c : RdpCon} {g : Unit → M β} (hstep : R w (conStep w ptr c []))
    (hg : Traces R F (g ()) (conStep w ptr c [])) : Traces R F (setCon ptr c >>= g) w :=
  .bind_of_run (setCon_run ptr c w) (.single hstep) hg

theorem setCon_traces {ptr : ConPtr} {c : RdpCon} (hstep : R w (conStep w ptr c [])) :
    Traces R F (setCon ptr c) w :=
  .of_run (setCon_run ptr c w) (.single hstep)

/-- A segment of a record, and the rest. -/
theorem outputCon_bind {ptr : ConPtr} {did : Id} {seg : List Byte} {g : Unit → M β}
    (hdid : did = (w.rdp.con ptr).addr.did)
    (hstep : R w (conStep w ptr (w.rdp.con ptr) [(w.rdp.con ptr).emit seg]))
    (hg : Traces R F (g ()) (conStep w ptr (w.rdp.con ptr) [(w.rdp.con ptr).emit seg])) :
    Traces R F (outputCon ptr did seg >>= g) w :=
  .bind_of_run (outputCon_run seg hdid) (.single hstep) hg

theorem outputCon_traces {ptr : ConPtr} {did : Id} {seg : List Byte}
    (hdid : did = (w.rdp.con ptr).addr.did)
    (hstep : R w (conStep w ptr (w.rdp.con ptr) [(w.rdp.con ptr).emit seg])) :
    Traces R F (outputCon ptr did seg) w :=
  .of_run (outputCon_run seg hdid) (.single hstep)

/-! ### Random numbers -/

/-- The world with other random numbers to come. -/
def withRnd (w : World) (rest : List (BitVec 32)) : World :=
  { w with env := { w.env with rnd := rest } }

theorem rnd_run_nil (hrnd : w.env.rnd = []) : rnd w = .error .unfinished := by
  rw [rnd, run_get_bind, hrnd]
  rfl

theorem rnd_run_cons {r : BitVec 32} {rest : List (BitVec 32)} (hrnd : w.env.rnd = r :: rest) :
    rnd w = .ok (r, withRnd w rest) := by
  rw [rnd, run_get_bind, hrnd]
  rfl

theorem rnd_bind {g : BitVec 32 → M β} (hR : ∀ rest, R w (withRnd w rest)) (hF : F w .unfinished)
    (hg : ∀ r rest, Traces R F (g r) (withRnd w rest)) : Traces R F (rnd >>= g) w := by
  cases hrnd : w.env.rnd with
  | nil => exact .bind_of_error (rnd_run_nil hrnd) hF
  | cons r rest => exact .bind_of_run (rnd_run_cons hrnd) (.single (hR rest)) (hg r rest)

theorem rnd_eq_ok {w' : World} {x : BitVec 32} (h : rnd w = .ok (x, w')) :
    ∃ rest, w' = withRnd w rest := by
  cases hrnd : w.env.rnd with
  | nil =>
    rw [rnd_run_nil hrnd] at h
    cases h
  | cons r rest =>
    rw [rnd_run_cons hrnd] at h
    exact ⟨rest, (Prod.mk.inj (Except.ok.inj h)).2.symm⟩

theorem pickDesc_ends (descSet : Finset Int) (rnds : List (BitVec 32)) :
    Ends (fun r => r.1 ∉ descSet ∧ 0 < r.1) (· = .unfinished) (pickDesc descSet rnds) := by
  induction rnds with
  | nil => exact Ends.error rfl
  | cons r rest ih =>
    rw [pickDesc]
    split
    · exact ih
    · have h : ¬ (r.toInt ∈ descSet ∨ r.toInt ≤ 0) := ‹_›
      exact Ends.ok ⟨fun hmem => h (Or.inl hmem), not_le.mp fun hle => h (Or.inr hle)⟩

/-- `generate_desc` draws a descriptor and leaves the other numbers. -/
theorem generateDesc_run (w : World) : generateDesc w =
    (pickDesc w.rdp.descSet w.env.rnd >>= fun r => .ok (r.1, withRnd w r.2)) := by
  show ((pickDesc w.rdp.descSet w.env.rnd >>= fun r => Except.ok (r, w)) >>= _) = _
  cases pickDesc w.rdp.descSet w.env.rnd <;> rfl

theorem generateDesc_bind {g : Int → M β} (hR : ∀ rest, R w (withRnd w rest))
    (hF : F w .unfinished)
    (hg : ∀ desc rest, desc ∉ w.rdp.descSet → 0 < desc → Traces R F (g desc) (withRnd w rest)) :
    Traces R F (generateDesc >>= g) w := by
  have hends := pickDesc_ends w.rdp.descSet w.env.rnd
  have hrun := generateDesc_run w
  cases hpick : pickDesc w.rdp.descSet w.env.rnd with
  | ok r =>
    rw [hpick, ok_bind] at hrun
    obtain ⟨hfree, hpos⟩ := hends.of_ok hpick
    exact .bind_of_run hrun (.single (hR r.2)) (hg r.1 r.2 hfree hpos)
  | error e =>
    rw [hpick, error_bind, hends.of_error hpick] at hrun
    exact .bind_of_error hrun hF

/-- The descriptor is a new one. -/
theorem generateDesc_eq_ok {w' : World} {desc : Int} (h : generateDesc w = .ok (desc, w')) :
    desc ∉ w.rdp.descSet ∧ ∃ rest, w' = withRnd w rest := by
  rw [generateDesc_run] at h
  obtain ⟨⟨desc', rest⟩, hpick, h⟩ := bind_eq_ok h
  obtain ⟨rfl, rfl⟩ := Prod.mk.inj (Except.ok.inj h)
  exact ⟨((pickDesc_ends w.rdp.descSet w.env.rnd).of_ok hpick).1, rest, rfl⟩

theorem pickPort_ends (addr2conn : Table RdpAddr ConPtr) (did : Id) (dport : BitVec 16)
    (rnds : List (BitVec 32)) :
    Ends (fun r => addr2conn.lookup r.1 = none) (· = .unfinished)
      (pickPort addr2conn did dport rnds) := by
  induction rnds with
  | nil => exact Ends.error rfl
  | cons r rest ih =>
    rw [pickPort]
    split
    · exact ih
    · exact Ends.ok (Option.not_isSome_iff_eq_none.mp ‹_›)

end

/-! ### Calls -/

/-- A reset, or the answer to one. -/
theorem parting_rstHead {addr : RdpAddr} {flags : Byte} {seq : BitVec 32}
    (hsyn : (flags &&& flagSyn != 0) = false)
    (hflags : (flags &&& flagRst != 0) = true ∨ (flags &&& flagAck != 0) = false) :
    Parting (rstHead addr flags seq).encode := by
  rw [Parting, RdpHead.decode_encode_nil]
  exact ⟨hsyn, hflags⟩

/-- A fault that is none. -/
theorem divFault_of_ne {w : World} {e : Fault} (h : e ≠ .divByZero) : DivFault w e :=
  fun hdiv => absurd hdiv h

/-- A fault of a call on a living record. -/
theorem divFault_of_noLen {w : World} {ptr : ConPtr} {e : Fault} (hptr : ptr < w.rdp.nextPtr)
    (hstate : synced (w.rdp.con ptr).state = true) (h : NoLen (w.rdp.con ptr) e) : DivFault w e :=
  fun hdiv => ⟨ptr, hptr, hstate, h hdiv⟩

theorem withRnd_step (w : World) (rest : List (BitVec 32)) : CallStep w (withRnd w rest) :=
  .quiet ⟨rfl, rfl, rfl⟩ rfl id rfl

theorem listen_traces (w : World) (sport : BitVec 16) (func : Callback) :
    Traces CallStep DivFault (listen sport func) w := by
  refine Traces.get_bind (Traces.ite (fun hport => ?_) fun _ => Traces.pure _)
  have hport' : w.rdp.listeningLeft sport = none := Option.isNone_iff_eq_none.mp hport
  refine generateDesc_bind (withRnd_step w) (divFault_of_ne (by decide)) fun desc rest hdesc _ => ?_
  -- The port first, then its callback.
  have hlisten : CallStep (withRnd w rest)
      { withRnd w rest with rdp := withListening w.rdp sport desc } := .listen hport' hdesc
  have hmem : desc ∈ (withListening w.rdp sport desc).descSet := by
    unfold withListening Members.insertListening
    split <;> exact Finset.mem_insert_self ..
  exact .bind_of_run rfl (.tail (.single hlisten) (.event func hmem)) (Traces.pure _)

theorem openCon_run (desc : Int) (c : RdpCon) (w : World) :
    openCon desc c w = .ok (w.rdp.nextPtr, { w with rdp := withCon w.rdp desc c }) := rfl

@[simp] theorem withCon_con_self (r : Members) (desc : Int) (c : RdpCon) :
    (withCon r desc c).con r.nextPtr = { c with desc := desc } := Function.update_self ..

theorem connectTo_traces (w : World) {addr : RdpAddr} (haddr : w.rdp.addr2conn.lookup addr = none)
    (func : Callback) : Traces CallStep DivFault (connectTo addr func) w := by
  refine Traces.get_bind (rnd_bind (withRnd_step w) (divFault_of_ne (by decide)) fun iss rest => ?_)
  refine generateDesc_bind (withRnd_step _) (divFault_of_ne (by decide))
    fun desc rest' hdesc _ => ?_
  generalize hw : withRnd (withRnd w rest) rest' = w₁
  have hrdp : w₁.rdp = w.rdp := by rw [← hw]; rfl
  rw [← hrdp] at haddr ⊢
  have hdesc' : desc ∉ w₁.rdp.descSet := by rw [hrdp]; exact hdesc
  generalize w.env.uninit w₁.rdp.nextPtr = uninit
  refine .bind_of_run (openCon_run ..) (.single (.connect hdesc' haddr uninit iss w.env.clock)) ?_
  refine .bind_of_run rfl (.single (.event func (Finset.mem_insert_self ..))) ?_
  -- The SYN is that of the new record.
  generalize hc : (RdpCon.new uninit).start addr false .synSent iss w.env.clock = c
  have hcon : (withEvent (withCon w₁.rdp desc c) desc func).con w₁.rdp.nextPtr
      = { c with desc := desc } := withCon_con_self ..
  refine outputCon_bind ?_ ?_ (Traces.pure _)
  · show addr.did = ((withEvent (withCon w₁.rdp desc c) desc func).con w₁.rdp.nextPtr).addr.did
    rw [hcon, ← hc]
    rfl
  · refine .con (Nat.lt_succ_self _) ?_
    show CallCon ((withEvent (withCon w₁.rdp desc c) desc func).con w₁.rdp.nextPtr)
      ((withEvent (withCon w₁.rdp desc c) desc func).con w₁.rdp.nextPtr)
      [((withEvent (withCon w₁.rdp desc c) desc func).con w₁.rdp.nextPtr).emit _]
    rw [hcon, ← hc]
    exact .syn rfl

theorem connect_traces (w : World) (sport : BitVec 16) (did : Id) (dport : BitVec 16)
    (func : Callback) : Traces CallStep DivFault (connect sport did dport func) w := by
  refine Traces.get_bind (Traces.ite (fun _ => ?_) fun _ => ?_)
  · refine Traces.ite (fun _ => Traces.pure _) fun hfree => ?_
    exact connectTo_traces w (Option.not_isSome_iff_eq_none.mp hfree) func
  · have hends := pickPort_ends w.rdp.addr2conn did dport w.env.rnd
    refine Traces.lift_bind (fun e he => ?_) fun r hr => ?_
    · rw [hends.of_error he]
      exact divFault_of_ne (by decide)
    · exact Traces.set_bind (withRnd_step w r.2)
        (connectTo_traces (withRnd w r.2) (hends.of_ok hr) func)

theorem delayedAckCon_bind {R : World → World → Prop} {F : World → Fault → Prop} {β : Type}
    {w : World} {ptr : ConPtr} {g : Unit → M β} (hptr : ptr < w.rdp.nextPtr)
    (hstate : synced (w.rdp.con ptr).state = true) (hR : ∀ w', CallStep w w' → R w w')
    (hF : ∀ e, DivFault w e → F w e)
    (hg : ∀ c' out, Work (w.rdp.con ptr) c' out → Traces R F (g ()) (conStep w ptr c' out)) :
    Traces R F (delayedAckCon ptr >>= g) w := by
  refine onCon_bind ?_
  refine ((delayedAck_ends w.env.clock (w.rdp.con ptr)).mono (fun _ => id) fun e he =>
    hF e (divFault_of_noLen hptr hstate he)).bind fun r hwork => ?_
  exact Ends.ok ⟨.single (hR _ (.con hptr (.work hwork (Or.inr hstate)))), hg _ _ hwork⟩

/-- The record of a closed connection leaves the tables, now or after the callback. -/
theorem closeClosed_traces (w : World) {desc : Int} {ptr : ConPtr} {c : RdpCon}
    (hlook : w.rdp.desc2conn.lookup desc = some ptr) (hclosed : (w.rdp.con ptr).state = .closed)
    (haddr : (w.rdp.con ptr).addr = c.addr) :
    Traces CallStep DivFault (closeClosed desc c) w := by
  refine Traces.get_bind (Traces.ite (fun _ => ?_) fun hinvoke => ?_)
  · have hstep := CallStep.erase hlook hclosed
    rw [haddr] at hstep
    exact Traces.modify hstep
  · refine Traces.modify (.quiet ⟨rfl, rfl, rfl⟩ rfl (fun hrest => ?_) rfl)
    exact absurd (fun htrue => Bool.false_ne_true (hrest.1.symm.trans htrue)) hinvoke

theorem closeCon_traces (w : World) {desc : Int} {ptr : ConPtr} (hptr : ptr < w.rdp.nextPtr)
    (hlook : w.rdp.desc2conn.lookup desc = some ptr) :
    Traces CallStep DivFault (closeCon desc ptr) w := by
  refine Traces.get_bind (getCon_bind ?_)
  -- The record goes to state CLOSED and emits a reset.
  have hdrop : (w.rdp.con ptr).state = .synSent ∨ (w.rdp.con ptr).state = .synRcvd →
      Traces CallStep DivFault (do
        setCon ptr { w.rdp.con ptr with state := .closed }
        outputCon ptr (w.rdp.con ptr).addr.did
          (rstHead (w.rdp.con ptr).addr (flagRst ||| flagVer) (w.rdp.con ptr).sndNxt).encode
        closeClosed desc (w.rdp.con ptr)) w := by
    intro hfrom
    refine setCon_bind (.con hptr (.drop ⟨rfl, rfl, rfl, rfl, rfl, rfl, rfl, rfl, id⟩ hfrom rfl)) ?_
    refine outputCon_bind (by rw [conStep_con_self])
      (.con hptr (.part (parting_rstHead (by decide) (by decide)))) ?_
    exact closeClosed_traces _ hlook (by simp) (by simp)
  split
  · -- OPEN: what is left to acknowledge goes out first.
    rename_i hopen
    have hstate : synced (w.rdp.con ptr).state = true := by rw [hopen]; rfl
    refine delayedAckCon_bind hptr hstate (fun _ => id) (fun _ => id) fun c' out hwork => ?_
    refine getCon_bind ?_
    rw [conStep_con_self]
    have hopen' : c'.state = .opened := hwork.state.trans hopen
    refine setCon_bind (.con hptr (.closeActive ?_ ?_ rfl)) ?_
    · rw [conStep_con_self]
      exact ⟨rfl, rfl, rfl, rfl, rfl, rfl, rfl, rfl, id⟩
    · rw [conStep_con_self]
      exact hopen'
    · exact outputCon_traces (by rw [conStep_con_self])
        (.con hptr (.part (parting_rstHead (by decide) (by decide))))
  · exact setCon_traces (.con hptr (.work
      (.of_kept ⟨rfl, rfl, rfl, rfl, rfl, rfl, rfl, rfl, id⟩ rfl) (Or.inl rfl)))
  · exact closeClosed_traces w hlook ‹_› rfl
  · exact hdrop (Or.inl ‹_›)
  · exact hdrop (Or.inr ‹_›)
  · exact Traces.pure _
  · exact Traces.pure _

theorem close_traces (w : World) (h : Indexed w.rdp) (desc : Int) :
    Traces CallStep DivFault (close desc) w := by
  refine Traces.get_bind (Traces.ite (fun hlisten => ?_) fun _ => ?_)
  · exact .of_run rfl (.single (.unlisten hlisten))
  · split
    · exact Traces.pure _
    · exact closeCon_traces w (h.con_lt ‹_›) ‹_›

theorem send_traces (w : World) (h : Indexed w.rdp) (desc : Int) (buf : List Byte) :
    Traces CallStep DivFault (send desc buf) w := by
  refine Traces.get_bind ?_
  split
  · exact Traces.pure _
  · rename_i ptr hlook
    have hptr := h.con_lt hlook
    refine onCon_traces ((send_ends w.env.clock (w.rdp.con ptr) buf).mono ?_ ?_)
    · intro r hr
      refine .single (.con hptr (.work hr.1 (hr.2.imp_right fun hopen => ?_)))
      rw [hopen]
      rfl
    · intro e he
      refine divFault_of_noLen hptr ?_ he.2
      rw [he.1]
      rfl

theorem receive_traces (w : World) (h : Indexed w.rdp) (desc : Int) (len : Int) :
    Traces CallStep DivFault (receive desc len) w := by
  refine Traces.get_bind ?_
  split
  · exact Traces.pure _
  · refine onCon_traces (Ends.ok (.single (.con (h.con_lt ‹_›) (.work ?_ (Or.inl rfl)))))
    exact receive_work _ len

theorem setCallbackRdpEvent_traces (w : World) (desc : Int) (func : Callback) :
    Traces CallStep DivFault (setCallbackRdpEvent desc func) w :=
  Traces.get_bind
    (Traces.ite (fun hdesc => Traces.modify (.event func hdesc)) fun _ => Traces.pure _)

theorem runCall_traces (w : World) (h : Indexed w.rdp) (call : Call) :
    Traces CallStep DivFault (runCall call) w := by
  cases call with
  | listen sport func => exact (listen_traces w sport func).bind_any fun _ _ => Traces.pure _
  | connect sport did dport func =>
    exact (connect_traces w sport did dport func).bind_any fun _ _ => Traces.pure _
  | close desc => exact close_traces w h desc
  | send desc buf => exact (send_traces w h desc buf).bind_any fun _ _ => Traces.pure _
  | receive desc len => exact (receive_traces w h desc len).bind_any fun _ _ => Traces.pure _
  | setMaxRetrans sec => exact Traces.modify (.quiet ⟨rfl, rfl, rfl⟩ rfl id rfl)
  | setCallbackRdpEvent desc func => exact setCallbackRdpEvent_traces w desc func

/-- The indices after some calls. -/
theorem Indexed.calls {α : Type} {m : M α} {w w' : World} {a : α} (h : Indexed w.rdp)
    (hm : Traces CallStep DivFault m w) (hrun : m w = .ok (a, w')) : Indexed w'.rdp :=
  hm.inv (fun w => Indexed w.rdp) (fun _ _ h => h.callStep) h hrun

theorem runCalls_traces (calls : List Call) :
    ∀ w : World, Indexed w.rdp → Traces CallStep DivFault (runCalls calls) w := by
  induction calls with
  | nil => exact fun _ _ => Traces.pure _
  | cons call calls ih =>
    intro w h
    refine (runCall_traces w h call).bind fun _ w' hrun => ih w' ?_
    exact h.calls (runCall_traces w h call) hrun

theorem runCallback_traces (w : World) (h : Indexed w.rdp) :
    Traces CallStep DivFault runCallback w :=
  Traces.get_bind (Traces.set_bind (.quiet ⟨rfl, rfl, rfl⟩ rfl id rfl) (runCalls_traces _ _ h))

theorem closeAll_traces (descs : List Int) :
    ∀ w : World, Indexed w.rdp → Traces CallStep DivFault (closeAll descs) w := by
  induction descs with
  | nil => exact fun _ _ => Traces.pure _
  | cons desc descs ih =>
    intro w h
    refine (close_traces w h desc).bind fun _ w' hrun => ih w' ?_
    exact h.calls (close_traces w h desc) hrun

/-! ### Events -/

/-- The record lives and is in the tables under a descriptor. Calls of the user keep it
there: they release closed records only. -/
def Held (desc : Int) (ptr : ConPtr) (w : World) : Prop :=
  Indexed w.rdp ∧ w.rdp.desc2conn.lookup desc = some ptr ∧
    ((w.rdp.con ptr).state = .opened ∨ (w.rdp.con ptr).state = .closeWaitActive)

theorem CallCon.held {c c' : RdpCon} {out : List Emitted} (h : CallCon c c' out)
    (hc : c.state = .opened ∨ c.state = .closeWaitActive) :
    c'.state = .opened ∨ c'.state = .closeWaitActive := by
  cases h with
  | work h =>
    rw [h.state]
    exact hc
  | closeActive _ _ hto => exact Or.inr hto
  | drop _ hfrom => rcases hc with hc | hc <;> rw [hc] at hfrom <;> simp at hfrom
  | part => exact hc
  | syn hfrom => exact hc

theorem Held.quiet {desc : Int} {ptr : ConPtr} {w w' : World} (h : Held desc ptr w)
    (hquiet : Quiet w w') : Held desc ptr w' := by
  refine ⟨h.1.quiet hquiet, ?_⟩
  rw [hquiet.rdp]
  exact h.2

theorem Held.callStep {desc : Int} {ptr : ConPtr} {w w' : World} (h : Held desc ptr w)
    (hstep : CallStep w w') : Held desc ptr w' := by
  obtain ⟨hindex, hlook, hstate⟩ := h
  refine ⟨hindex.callStep hstep, ?_⟩
  have hlt := hindex.con_lt hlook
  cases hstep with
  | quiet hquiet => exact (Held.quiet ⟨hindex, hlook, hstate⟩ hquiet).2
  | @con p c out _ hcon =>
    refine ⟨hlook, ?_⟩
    show (Function.update w.rdp.con p c ptr).state = _ ∨
      (Function.update w.rdp.con p c ptr).state = _
    -- A step of the record itself keeps its state among the two.
    by_cases hp : ptr = p
    · subst hp
      rw [Function.update_self]
      exact hcon.held hstate
    · rw [Function.update_of_ne hp]
      exact hstate
  | @erase d p hlook' hclosed =>
    refine ⟨?_, hstate⟩
    -- Only a closed record is erased, and this one is not closed.
    have hne : desc ≠ d := by
      rintro rfl
      obtain rfl := Option.some.inj (hlook.symm.trans hlook')
      rw [hclosed] at hstate
      simp at hstate
    show (w.rdp.desc2conn.erase d).lookup desc = some ptr
    rw [AList.lookup_erase_ne hne]
    exact hlook
  | event => exact ⟨hlook, hstate⟩
  | @listen sport d _ hdesc =>
    show (withListening w.rdp sport d).desc2conn.lookup desc = some ptr ∧
      (((withListening w.rdp sport d).con ptr).state = _ ∨ _)
    unfold withListening Members.insertListening
    split <;> exact ⟨hlook, hstate⟩
  | unlisten => exact ⟨hlook, hstate⟩
  | @connect d addr hdesc haddr uninit iss clock =>
    -- A new connection gets a descriptor that is not in use.
    have hne : desc ≠ d := by
      rintro rfl
      exact hdesc (hindex.con_mem hlook)
    refine ⟨?_, ?_⟩
    · show (w.rdp.desc2conn.insert d w.rdp.nextPtr).lookup desc = some ptr
      rw [AList.lookup_insert_ne hne]
      exact hlook
    · show (Function.update w.rdp.con w.rdp.nextPtr _ ptr).state = _ ∨
        (Function.update w.rdp.con w.rdp.nextPtr _ ptr).state = _
      rw [Function.update_of_ne (Nat.ne_of_lt hlt)]
      exact hstate

theorem Held.eventStep {desc : Int} {ptr : ConPtr} {w w' : World} (h : Held desc ptr w)
    (hstep : EventStep w w') : Held desc ptr w' := by
  cases hstep with
  | call hcall => exact h.callStep hcall
  | mark hquiet => exact h.quiet hquiet

/-- Calls are steps of an event. -/
theorem ofCalls {α : Type} {m : M α} {w : World} (h : Traces CallStep DivFault m w) :
    Traces EventStep DivFault m w :=
  h.mono (fun _ _ => .call) fun _ _ => id

theorem invokeAccepted_traces (w : World) {desc2 : Int} {ptr : ConPtr} (h : Held desc2 ptr w)
    (desc1 : Int) (event : RdpEvent) :
    Traces CallStep DivFault (invokeAccepted desc1 desc2 event) w := by
  have hcallback := runCallback_traces w h.1
  refine hcallback.bind fun _ w' hrun => ?_
  -- The callback has not released the record.
  have hheld : Held desc2 ptr w' :=
    hcallback.inv (Held desc2 ptr) (fun _ _ h => h.callStep) h hrun
  refine Traces.get_bind (Traces.ite (fun _ => ?_) fun _ => Traces.pure _)
  split
  · exact Traces.throw (divFault_of_ne (by decide))
  · exact Traces.modify (.event _ (hheld.1.con_mem hheld.2.1))

/-- The callback runs with `m_is_invoke` set, and what it closed goes away after it. -/
theorem invokeOther_run {w w' : World} (h : Indexed w.rdp) (hrun : invokeOther w = .ok ((), w')) :
    AtRest w'.rdp := by
  obtain ⟨⟨⟨⟩, w₂⟩, hcallback, hrest⟩ := bind_eq_ok hrun
  have h₁ : Indexed { w.rdp with isInvoke := true } := { h with }
  have h₂ : Indexed w₂.rdp := h₁.calls (runCallback_traces _ h₁) hcallback
  obtain ⟨⟨⟨⟩, w₄⟩, hclose, hend⟩ := bind_eq_ok hrest
  have h₃ : Indexed { w₂.rdp with isInvoke := false } := { h₂ with }
  have hinvoke : w₄.rdp.isInvoke = false :=
    (closeAll_traces _ _ h₃).inv (fun w => w.rdp.isInvoke = false)
      (fun _ _ h hstep => hstep.callback.2.1.trans h) rfl hclose
  obtain ⟨-, rfl⟩ := Prod.mk.inj (Except.ok.inj hend)
  exact ⟨hinvoke, rfl⟩

theorem invokeOther_traces (w : World) (h : Indexed w.rdp) :
    Traces EventStep DivFault invokeOther w := by
  refine Traces.modify_bind (.mark ⟨rfl, rfl, rfl⟩) ?_
  have h₁ : Indexed { w.rdp with isInvoke := true } := { h with }
  refine (ofCalls (runCallback_traces _ h₁)).bind fun _ w₂ hrun => ?_
  have h₂ : Indexed w₂.rdp := h₁.calls (runCallback_traces _ h₁) hrun
  refine Traces.modify_bind (.mark ⟨rfl, rfl, rfl⟩) (Traces.get_bind ?_)
  have h₃ : Indexed { w₂.rdp with isInvoke := false } := { h₂ with }
  exact (ofCalls (closeAll_traces _ _ h₃)).bind_any fun _ _ =>
    Traces.modify (.mark ⟨rfl, rfl, rfl⟩)

/-- A second descriptor of an event is that of a record that lives. -/
def Accepted (desc2 : Int) (w : World) : Prop := 0 < desc2 → ∃ ptr, Held desc2 ptr w

theorem invokeEvent_traces (w : World) (h : Indexed w.rdp) (desc1 : Int) {desc2 : Int}
    (hheld : Accepted desc2 w) (event : RdpEvent) :
    Traces EventStep DivFault (invokeEvent desc1 desc2 event) w := by
  refine Traces.get_bind (Traces.ite (fun _ => Traces.pure _) fun _ => ?_)
  refine Traces.modify_bind (.mark ⟨rfl, rfl, rfl⟩) (Traces.ite (fun hpos => ?_) fun _ => ?_)
  · obtain ⟨ptr, hptr⟩ := hheld hpos
    have haccepted := invokeAccepted_traces { w with inCallback := true } hptr desc1 event
    refine (ofCalls haccepted).bind_any ?_
    exact fun _ _ => Traces.modify (.mark ⟨rfl, rfl, rfl⟩)
  · refine (invokeOther_traces { w with inCallback := true } h).bind_any ?_
    exact fun _ _ => Traces.modify (.mark ⟨rfl, rfl, rfl⟩)

/-- A descriptor without a callback gets no event. -/
theorem invokeEvent_none {w : World} {desc1 : Int}
    (hnone : (w.rdp.desc2event.lookup desc1).isNone = true) (desc2 : Int) (event : RdpEvent) :
    invokeEvent desc1 desc2 event w = .ok ((), w) := by
  show (if _ then _ else _ : M Unit) w = _
  rw [if_pos hnone]
  rfl

/-- The callback of a listener gets the new descriptor, any other one its own. -/
theorem invokeEvent_some {w : World} {desc1 : Int}
    (hsome : ¬ (w.rdp.desc2event.lookup desc1).isNone = true) (desc2 : Int) (event : RdpEvent) :
    invokeEvent desc1 desc2 event w = (if desc2 > 0 then do
        invokeAccepted desc1 desc2 event
        modify fun w => { w with inCallback := false }
      else do
        invokeOther
        modify fun w => { w with inCallback := false } : M Unit) { w with inCallback := true } := by
  show (if _ then _ else _ : M Unit) w = _
  rw [if_neg hsome]
  rfl

/-- An event whose callback makes no call changes nothing. -/
theorem invokeEvent_silent {w : World} (hrest : AtRest w.rdp) (hreact : w.env.reactions = [])
    (desc : Int) (event : RdpEvent) :
    ∃ w', invokeEvent desc 0 event w = .ok ((), w') ∧ w'.rdp = w.rdp ∧ w'.out = w.out := by
  by_cases hnone : (w.rdp.desc2event.lookup desc).isNone = true
  · exact ⟨w, invokeEvent_none hnone 0 event, rfl, rfl⟩
  · rw [invokeEvent_some hnone 0 event, if_neg (Int.lt_irrefl 0)]
    -- No call is made, and no close waits.
    obtain ⟨⟨_, _, _, _, _, _, invoke, closed, _, _⟩, ⟨_, _, _, reactions⟩, _, _, _⟩ := w
    obtain ⟨hinvoke, hclosed⟩ := hrest
    dsimp only at hinvoke hclosed hreact
    subst hinvoke hclosed hreact
    exact ⟨_, rfl, rfl, rfl⟩

/-- After an event no closing waits. -/
theorem invokeEvent_atRest {w w' : World} (h : Indexed w.rdp) {desc1 desc2 : Int}
    (hheld : Accepted desc2 w) {event : RdpEvent} (hrest : AtRest w.rdp)
    (hrun : invokeEvent desc1 desc2 event w = .ok ((), w')) : AtRest w'.rdp := by
  by_cases hnone : (w.rdp.desc2event.lookup desc1).isNone = true
  · rw [invokeEvent_none hnone desc2 event] at hrun
    obtain ⟨-, rfl⟩ := Prod.mk.inj (Except.ok.inj hrun)
    exact hrest
  · rw [invokeEvent_some hnone desc2 event] at hrun
    by_cases hpos : desc2 > 0
    · obtain ⟨ptr, hptr⟩ := hheld hpos
      rw [if_pos hpos] at hrun
      obtain ⟨⟨⟨⟩, w₁⟩, haccepted, hend⟩ := bind_eq_ok hrun
      obtain ⟨-, rfl⟩ := Prod.mk.inj (Except.ok.inj hend)
      exact (invokeAccepted_traces { w with inCallback := true } hptr desc1 event).inv
        (fun w => AtRest w.rdp) (fun _ _ h hstep => h.callStep hstep) hrest haccepted
    · rw [if_neg hpos] at hrun
      obtain ⟨⟨⟨⟩, w₁⟩, hother, hend⟩ := bind_eq_ok hrun
      obtain ⟨-, rfl⟩ := Prod.mk.inj (Except.ok.inj hend)
      have h' : Indexed ({ w with inCallback := true } : World).rdp := h
      have hrest' : AtRest w₁.rdp := invokeOther_run h' hother
      exact hrest'

/-! ### Segments -/

section
variable {r : Members} {i : Input}

/-- The calls of the user are part of an input. -/
theorem ofCall {α : Type} {m : M α} {w : World} (h : Traces CallStep DivFault m w) :
    Traces (Micro r i) StepFault m w :=
  h.mono (fun _ _ => .call) fun w _ hfault => ⟨w, .refl, hfault⟩

/-- An event is one step. -/
theorem event_traces (w : World) (h : Indexed w.rdp) (desc1 : Int) {desc2 : Int}
    (hheld : Accepted desc2 w) (event : RdpEvent) :
    Traces (Micro r i) StepFault (invokeEvent desc1 desc2 event) w := by
  have htraces := invokeEvent_traces w h desc1 hheld event
  refine ⟨fun a w' hrun => ?_, fun e hrun => ⟨w, .refl, htraces.2 e hrun⟩⟩
  exact .single (.event (htraces.1 a w' hrun) fun hrest => invokeEvent_atRest h hheld hrest hrun)

/-- The events that name one descriptor. -/
theorem eventOne_traces (w : World) (h : Indexed w.rdp) (desc : Int) (event : RdpEvent) :
    Traces (Micro r i) StepFault (invokeEvent desc 0 event) w :=
  event_traces w h desc (fun hpos => absurd hpos (lt_irrefl 0)) event

theorem stepFault_of_ne {w : World} {e : Fault} (h : e ≠ .divByZero) : StepFault w e :=
  ⟨w, .refl, divFault_of_ne h⟩

theorem stepFault_of_noLen {w : World} {ptr : ConPtr} {e : Fault} (hptr : ptr < w.rdp.nextPtr)
    (hstate : synced (w.rdp.con ptr).state = true) (h : NoLen (w.rdp.con ptr) e) : StepFault w e :=
  ⟨w, .refl, divFault_of_noLen hptr hstate h⟩

/-- A record keeps its address, and its place in the heap. -/
def HasAddr (ptr : ConPtr) (addr : RdpAddr) (w : World) : Prop :=
  ptr < w.rdp.nextPtr ∧ (w.rdp.con ptr).addr = addr

theorem HasAddr.conStep {ptr p : ConPtr} {addr : RdpAddr} {w : World} {c : RdpCon}
    {out : List Emitted} (h : HasAddr ptr addr w) (hc : c.addr = (w.rdp.con p).addr) :
    HasAddr ptr addr (conStep w p c out) := by
  refine ⟨h.1, ?_⟩
  show (Function.update w.rdp.con p c ptr).addr = addr
  by_cases hp : ptr = p
  · subst hp
    rw [Function.update_self, hc]
    exact h.2
  · rw [Function.update_of_ne hp]
    exact h.2

theorem HasAddr.withCon {ptr : ConPtr} {addr : RdpAddr} {w : World} {desc : Int} {c : RdpCon}
    (h : HasAddr ptr addr w) : HasAddr ptr addr { w with rdp := withCon w.rdp desc c } := by
  refine ⟨Nat.lt_succ_of_lt h.1, ?_⟩
  show (Function.update w.rdp.con w.rdp.nextPtr _ ptr).addr = addr
  rw [Function.update_of_ne (Nat.ne_of_lt h.1)]
  exact h.2

theorem HasAddr.quiet {ptr : ConPtr} {addr : RdpAddr} {w w' : World} (h : HasAddr ptr addr w)
    (hquiet : Quiet w w') : HasAddr ptr addr w' := by
  rw [HasAddr, hquiet.rdp]
  exact h

theorem HasAddr.callStep {ptr : ConPtr} {addr : RdpAddr} {w w' : World} (h : HasAddr ptr addr w)
    (hstep : CallStep w w') : HasAddr ptr addr w' := by
  cases hstep with
  | quiet hquiet => exact h.quiet hquiet
  | con _ hcon => exact h.conStep hcon.same.1
  | erase => exact h
  | event => exact h
  | listen =>
    unfold HasAddr withListening Members.insertListening
    split <;> exact h
  | unlisten => exact h
  | connect => exact h.withCon

theorem HasAddr.micro {ptr : ConPtr} {addr : RdpAddr} {w w' : World} (h : HasAddr ptr addr w)
    (hstep : Micro r i w w') : HasAddr ptr addr w' := by
  cases hstep with
  | call hcall => exact h.callStep hcall
  | event hevent =>
    refine chain_inv (HasAddr ptr addr) (fun _ _ h hevent => ?_) h hevent
    cases hevent with
    | call hcall => exact h.callStep hcall
    | mark hquiet => exact h.quiet hquiet
  | say => exact h
  | con _ hcon => exact h.conStep hcon.same.1
  | arrive _ _ _ hcon => exact h.conStep hcon.same.1
  | erase => exact h
  | accept => exact h.withCon

/-- A change of the record that keeps its state. -/
theorem conStep_kept {w : World} {ptr : ConPtr} {c : RdpCon} (hptr : ptr < w.rdp.nextPtr)
    (h : Kept (w.rdp.con ptr) c) (hstate : c.state = (w.rdp.con ptr).state) :
    Micro r i w (conStep w ptr c []) :=
  .con hptr (.call (.work (.of_kept h hstate) (Or.inl rfl)))

/-- The end of a connection, or a word on it. -/
theorem conStep_part {w : World} {ptr : ConPtr} {seg : List Byte} (hptr : ptr < w.rdp.nextPtr)
    (h : Parting seg) :
    Micro r i w (conStep w ptr (w.rdp.con ptr) [(w.rdp.con ptr).emit seg]) :=
  .con hptr (.call (.part h))

/-- The order of a change and of a segment does not matter where the change keeps
`rcv_cur`. -/
theorem setCon_output_traces {w : World} {ptr : ConPtr} (hptr : ptr < w.rdp.nextPtr) {c : RdpCon}
    {seg : List Byte} (hkept : Kept (w.rdp.con ptr) c) (hstate : c.state = (w.rdp.con ptr).state)
    (hcur : c.rcvCur = (w.rdp.con ptr).rcvCur)
    (hstep : Micro r i w (conStep w ptr (w.rdp.con ptr) [(w.rdp.con ptr).emit seg])) :
    Traces (Micro r i) StepFault (do
      setCon ptr c
      outputCon ptr (w.rdp.con ptr).addr.did seg) w := by
  refine .of_run (setCon_output_run hkept.addr seg) ?_
  have hemit : c.emit seg = (w.rdp.con ptr).emit seg := by rw [RdpCon.emit, RdpCon.emit, hcur]
  rw [hemit]
  refine .tail (.single hstep) ?_
  generalize hw : conStep w ptr (w.rdp.con ptr) [(w.rdp.con ptr).emit seg] = w₁
  have hcon : w₁.rdp.con ptr = w.rdp.con ptr := by rw [← hw, conStep_con_self]
  have hlast : conStep w ptr c [(w.rdp.con ptr).emit seg] = conStep w₁ ptr c [] := by
    rw [← hw, conStep_conStep rfl, List.append_nil]
  have hptr₁ : ptr < w₁.rdp.nextPtr := by
    rw [← hw]
    exact hptr
  rw [hlast]
  refine conStep_kept hptr₁ ?_ ?_
  · rw [hcon]
    exact hkept
  · rw [hcon]
    exact hstate

theorem inStateCloseWaitActive_traces (w : World) {ptr : ConPtr} (hptr : ptr < w.rdp.nextPtr)
    (pbuf : Packetbuf) :
    Traces (Micro r i) StepFault (inStateCloseWaitActive ptr (w.rdp.con ptr).addr pbuf) w := by
  refine Traces.get_bind (getCon_bind (Traces.ite (fun _ => ?_) fun _ =>
    Traces.ite (fun _ => ?_) fun _ => Traces.pure _))
  all_goals
    refine setCon_bind (conStep_kept hptr ⟨rfl, rfl, rfl, rfl, rfl, rfl, rfl, rfl, id⟩ rfl) ?_
    refine outputCon_traces (by rw [conStep_con_self]) (conStep_part hptr ?_)
    exact parting_rstHead (by decide) (by decide)

theorem inStateCloseWaitPasv_traces (w : World) {ptr : ConPtr} (hptr : ptr < w.rdp.nextPtr)
    (pbuf : Packetbuf) :
    Traces (Micro r i) StepFault (inStateCloseWaitPasv ptr (w.rdp.con ptr).addr pbuf) w := by
  refine Traces.get_bind (getCon_bind (Traces.ite (fun _ => ?_) fun _ =>
    Traces.ite (fun _ => ?_) fun _ => Traces.pure _))
  · exact setCon_traces (conStep_kept hptr ⟨rfl, rfl, rfl, rfl, rfl, rfl, rfl, rfl, id⟩ rfl)
  · refine setCon_bind (conStep_kept hptr ⟨rfl, rfl, rfl, rfl, rfl, rfl, rfl, rfl, id⟩ rfl) ?_
    refine outputCon_traces (by rw [conStep_con_self]) (conStep_part hptr ?_)
    exact parting_rstHead (by decide) (by decide)

theorem inStateClosed_traces (w : World) (addr : RdpAddr) (pbuf : Packetbuf) :
    Traces (Micro r i) StepFault (inStateClosed addr pbuf) w := by
  refine Traces.ite (fun _ => Traces.pure _) fun _ => Traces.ite (fun _ => ?_) fun _ => ?_
  · exact Traces.modify (.say (parting_rstHead (by decide) (by decide)))
  · refine Traces.modify (.say ?_)
    rw [Parting, RdpHead.decode_encode_nil]
    have hflags : (rstHead addr (flagRst ||| flagAck ||| flagVer) 0).flags
        = flagRst ||| flagAck ||| flagVer := rfl
    exact ⟨RdpHead.has_of_flags hflags (by decide),
      Or.inl (RdpHead.has_of_flags hflags (by decide))⟩

theorem inStateListen_traces (w : World) {src : Id} {pbuf : Packetbuf}
    (hi : i = .arrive src pbuf) (hfree : w.rdp.addr2conn.lookup (addrOf src pbuf) = none)
    (hport : (w.rdp.listeningLeft (addrOf src pbuf).sport).isSome = true) :
    Traces (Micro w.rdp i) StepFault (inStateListen (addrOf src pbuf) pbuf) w := by
  refine Traces.ite (fun _ => Traces.pure _) fun hrst => Traces.ite (fun _ => ?_) fun hack =>
    Traces.ite (fun hsyn => ?_) fun _ => Traces.pure _
  · exact Traces.modify (.say (parting_rstHead (by decide) (by decide)))
  · have hlisten : SynInListen w.rdp src pbuf :=
      ⟨hfree, hport, not_lt.mp hsyn.2, hsyn.1, Bool.not_eq_true _ ▸ hrst,
        Bool.not_eq_true _ ▸ fun h => hack (Or.inl h),
        Bool.not_eq_true _ ▸ fun h => hack (Or.inr h)⟩
    refine Traces.get_bind ?_
    have hquiet : ∀ (w₁ : World) (rest : List (BitVec 32)),
        Micro w.rdp i w₁ (withRnd w₁ rest) := fun w₁ rest =>
      .call (withRnd_step w₁ rest)
    -- The draws of numbers change nothing that the step says.
    refine rnd_bind (hquiet w) (stepFault_of_ne (by decide)) fun iss rest => ?_
    refine generateDesc_bind (hquiet _) (stepFault_of_ne (by decide)) fun desc rest' hdesc _ => ?_
    generalize hw : withRnd (withRnd w rest) rest' = w₁
    have hrdp : w₁.rdp = w.rdp := by rw [← hw]; rfl
    have hdesc' : desc ∉ w₁.rdp.descSet := by rw [hrdp]; exact hdesc
    generalize w.env.uninit w.rdp.nextPtr = uninit
    refine .bind_of_run (openCon_run ..)
      (.single (.accept hrdp hi hlisten hdesc' uninit iss w.env.clock)) ?_
    generalize hc : ((RdpCon.new uninit).start (addrOf src pbuf) true .synRcvd iss
      w.env.clock).acceptSyn uninit w.env.clock (RdpSyn.decode pbuf.data) = c
    have hcon : (withCon w₁.rdp desc c).con w₁.rdp.nextPtr = { c with desc := desc } :=
      withCon_con_self ..
    -- The record is made, and its SYN goes out with an acknowledgement.
    refine outputCon_traces ?_ (.con (Nat.lt_succ_self _) ?_)
    · show (addrOf src pbuf).did = ((withCon w₁.rdp desc c).con w₁.rdp.nextPtr).addr.did
      rw [hcon, ← hc]
      rfl
    · show ConStep ((withCon w₁.rdp desc c).con w₁.rdp.nextPtr)
        ((withCon w₁.rdp desc c).con w₁.rdp.nextPtr)
        [((withCon w₁.rdp desc c).con w₁.rdp.nextPtr).emit _]
      rw [hcon, ← hc]
      exact .synAck rfl

/-- A segment for a record finds it in the tables. -/
theorem ForCon.lt {w : World} (h : Indexed w.rdp) {ptr : ConPtr} {pbuf : Packetbuf}
    (hfor : ForCon w.rdp i ptr pbuf) : ptr < w.rdp.nextPtr := by
  obtain ⟨_, _, _, _, hlook⟩ := hfor
  exact h.con_lt (h.addr_desc hlook)

theorem ForCon.desc {w : World} (h : Indexed w.rdp) {ptr : ConPtr} {pbuf : Packetbuf}
    (hfor : ForCon w.rdp i ptr pbuf) :
    w.rdp.desc2conn.lookup (w.rdp.con ptr).desc = some ptr := by
  obtain ⟨_, _, _, _, hlook⟩ := hfor
  exact h.addr_desc hlook

theorem takeSyn_traces (w : World) (h : Indexed w.rdp) {ptr : ConPtr} {pbuf : Packetbuf}
    (hfor : ForCon w.rdp i ptr pbuf) (hsyn : SynInSynSent (w.rdp.con ptr) pbuf) :
    Traces (Micro w.rdp i) StepFault (takeSyn ptr (w.rdp.con ptr).addr pbuf) w := by
  have hptr := hfor.lt h
  refine Traces.get_bind (getCon_bind (Traces.ite (fun hack => ?_) fun hack => ?_))
  · refine setCon_bind (.arrive hptr rfl hfor (.takeSynAck hsyn hack ..)) ?_
    have hmid : Indexed (conStep w ptr { (w.rdp.con ptr).acceptSyn (w.env.uninit ptr) w.env.clock
        (RdpSyn.decode pbuf.data) with
          sndUna := (RdpSyn.decode pbuf.data).head.acknum, state := .opened } []).rdp :=
      h.setCon rfl rfl
    refine outputCon_bind (by rw [conStep_con_self]; rfl) (.con hptr (.call (.work ?_ ?_))) ?_
    · refine Work.emit (.refl _) rfl fun _ => ?_
      rw [conStep_con_self]
      exact plain_ackHead _ _
    · rw [conStep_con_self]
      exact Or.inr rfl
    · refine eventOne_traces _ ?_ _ _
      exact hmid.setCon rfl rfl
  · have hack' : (RdpHead.decode pbuf.data).has flagAck = false := Bool.not_eq_true _ ▸ hack
    refine setCon_bind (.arrive hptr rfl hfor (.takeSyn hsyn hack' ..)) ?_
    refine outputCon_traces (by rw [conStep_con_self]; rfl) (.con hptr ?_)
    rw [conStep_con_self]
    exact .synAck rfl

theorem inStateSynSent_traces (w : World) (h : Indexed w.rdp) {ptr : ConPtr} {pbuf : Packetbuf}
    (hfor : ForCon w.rdp i ptr pbuf) (hstate : (w.rdp.con ptr).state = .synSent) :
    Traces (Micro w.rdp i) StepFault (inStateSynSent ptr (w.rdp.con ptr).addr pbuf) w := by
  have hptr := hfor.lt h
  refine getCon_bind (Traces.ite (fun _ => ?_) fun hnum => Traces.ite (fun _ =>
    Traces.ite (fun _ => ?_) fun _ => Traces.pure _) fun hrst =>
    Traces.ite (fun hsyn => ?_) fun _ => Traces.pure _)
  · exact outputCon_traces rfl (conStep_part hptr (parting_rstHead (by decide) (by decide)))
  · refine setCon_bind (.con hptr (.fail ⟨rfl, rfl, rfl, rfl, rfl, rfl, rfl, rfl, id⟩ rfl)) ?_
    refine eventOne_traces _ ?_ _ _
    exact h.setCon rfl rfl
  · refine takeSyn_traces w h hfor ⟨hstate, not_lt.mp hsyn.2, hsyn.1, Bool.not_eq_true _ ▸ hrst, ?_⟩
    intro hack
    by_contra hne
    exact hnum ⟨hack, hrst, hne⟩

theorem takeFirstData_traces (w : World) (h : Indexed w.rdp) {ptr : ConPtr}
    (hptr : ptr < w.rdp.nextPtr) (hstate : synced (w.rdp.con ptr).state = true)
    (pbuf : Packetbuf) : Traces (Micro r i) StepFault (takeFirstData ptr pbuf) w := by
  refine Traces.ite (fun _ => Traces.ite (fun _ => Traces.pure _) fun _ => ?_)
    fun _ => Traces.pure _
  refine onCon_bind ?_
  refine ((rwndRecvData_ends ..).mono (fun _ => id) fun _ => stepFault_of_noLen hptr hstate).bind
    fun c hwork => ?_
  refine Ends.ok ⟨.single (.con hptr (.call (.work hwork (Or.inr hstate)))), getCon_bind ?_⟩
  refine Traces.ite (fun _ => eventOne_traces _ ?_ _ _) fun _ => Traces.pure _
  exact h.setCon hwork.kept.addr hwork.kept.desc

theorem takeAck_traces (w : World) (h : Indexed w.rdp) {ptr : ConPtr} {pbuf : Packetbuf}
    (hfor : ForCon w.rdp i ptr pbuf) (hstate : (w.rdp.con ptr).state = .synRcvd)
    (hack : (RdpHead.decode pbuf.data).has flagAck = true)
    (hrst : (RdpHead.decode pbuf.data).has flagRst = false)
    (hnum : (RdpHead.decode pbuf.data).acknum = (w.rdp.con ptr).sndIss) (addr : RdpAddr) :
    Traces (Micro w.rdp i) StepFault (takeAck ptr addr pbuf) w := by
  have hptr := hfor.lt h
  refine getCon_bind (setCon_bind (.arrive hptr rfl hfor (.takeAck hstate hack hrst hnum)) ?_)
  generalize hw : conStep w ptr { w.rdp.con ptr with state := .opened } [] = w₁
  have hcon : w₁.rdp.con ptr = { w.rdp.con ptr with state := .opened } := by
    rw [← hw, conStep_con_self]
  have h₁ : Indexed w₁.rdp := by
    rw [← hw]
    exact h.setCon rfl rfl
  have hptr₁ : ptr < w₁.rdp.nextPtr := by
    rw [← hw]
    exact hptr
  have hopen : synced (w₁.rdp.con ptr).state = true := by rw [hcon]; rfl
  refine Traces.ite (fun _ => Traces.get_bind ?_) fun _ =>
    takeFirstData_traces w₁ h₁ hptr₁ hopen pbuf
  -- A passive record: its port must still listen.
  have hheld : Held (w.rdp.con ptr).desc ptr w₁ := by
    refine ⟨h₁, ?_, Or.inl (by rw [hcon])⟩
    rw [← hw]
    exact hfor.desc h
  split
  · have haccepted : Accepted (w.rdp.con ptr).desc w₁ := fun _ => ⟨ptr, hheld⟩
    have hevent := invokeEvent_traces w₁ h₁ ‹Int› haccepted .accepted
    refine (event_traces w₁ h₁ _ haccepted _).bind fun _ w₂ hrun => ?_
    obtain ⟨h₂, hlook, hstate₂⟩ : Held (w.rdp.con ptr).desc ptr w₂ :=
      hevent.inv (Held _ ptr) (fun _ _ h => h.eventStep) hheld hrun
    refine takeFirstData_traces w₂ h₂ (h₂.con_lt hlook) ?_ pbuf
    rcases hstate₂ with hstate₂ | hstate₂ <;> rw [hstate₂] <;> rfl
  · exact ofCall (close_traces w₁ h₁ _)

theorem refuse_traces (w : World) (h : Indexed w.rdp) {ptr : ConPtr} {pbuf : Packetbuf}
    (hfor : ForCon w.rdp i ptr pbuf) (event : RdpEvent) :
    Traces (Micro w.rdp i) StepFault (refuse ptr event) w := by
  have hptr := hfor.lt h
  refine getCon_bind (Traces.ite (fun _ => ?_) fun _ => ?_)
  · exact Traces.modify (.erase (hfor.desc h))
  · refine setCon_bind (.con hptr (.fail ⟨rfl, rfl, rfl, rfl, rfl, rfl, rfl, rfl, id⟩ rfl)) ?_
    refine eventOne_traces _ ?_ _ _
    exact h.setCon rfl rfl

theorem inStateSynRcvd_traces (w : World) (h : Indexed w.rdp) {ptr : ConPtr} {pbuf : Packetbuf}
    (hfor : ForCon w.rdp i ptr pbuf) (hstate : (w.rdp.con ptr).state = .synRcvd) :
    Traces (Micro w.rdp i) StepFault (inStateSynRcvd ptr (w.rdp.con ptr).addr pbuf) w := by
  have hptr := hfor.lt h
  have hpart : ∀ seq : BitVec 32, Traces (Micro w.rdp i) StepFault
      (outputCon ptr (w.rdp.con ptr).addr.did
        (rstHead (w.rdp.con ptr).addr (flagRst ||| flagVer) seq).encode) w := fun seq =>
    outputCon_traces rfl (conStep_part hptr (parting_rstHead (by decide) (by decide)))
  -- The branches in the order of the source.
  refine Traces.get_bind (getCon_bind (Traces.ite (fun hagain => ?_) fun _ =>
    Traces.ite (fun _ => ?_) fun _ => Traces.ite (fun _ => refuse_traces w h hfor _) fun hrst =>
    Traces.ite (fun _ => ?_) fun _ => Traces.ite (fun _ => hpart _) fun _ =>
    Traces.ite (fun hack => Traces.ite (fun hnum => ?_) fun _ => hpart _) fun _ => Traces.pure _))
  · refine setCon_output_traces hptr ?_ ?_ ?_ ?_
    · exact ⟨rfl, rfl, rfl, rfl, rfl, rfl, rfl, rfl, id⟩
    · rfl
    · rfl
    · exact .arrive hptr rfl hfor (.again ⟨hstate, hagain.1, hagain.2⟩)
  · refine setCon_bind (conStep_kept hptr ⟨rfl, rfl, rfl, rfl, rfl, rfl, rfl, rfl, id⟩ rfl) ?_
    refine outputCon_traces (by rw [conStep_con_self]) (.con hptr (.call (.work ?_ ?_)))
    · refine Work.emit (.refl _) rfl fun _ => ?_
      rw [conStep_con_self]
      exact plain_ackHead (w.rdp.con ptr) _
    · rw [conStep_con_self]
      refine Or.inr ?_
      show synced (w.rdp.con ptr).state = true
      rw [hstate]
      rfl
  · refine (refuse_traces w h hfor .reset).bind fun _ w₁ hrun => ?_
    -- The callback may have closed the connection, but the address stays with the record.
    have haddr : HasAddr ptr (w.rdp.con ptr).addr w₁ :=
      (refuse_traces w h hfor .reset).inv (HasAddr ptr _) (fun _ _ h => h.micro) ⟨hptr, rfl⟩ hrun
    refine outputCon_traces (by rw [haddr.2]) (conStep_part haddr.1 ?_)
    exact parting_rstHead (by decide) (by decide)
  · exact takeAck_traces w h hfor hstate hack (Bool.not_eq_true _ ▸ hrst) hnum _

/-- What a segment in state OPEN does: work, the answer to a reset, or the answer to a
SYN. -/
inductive OpenResult (c : RdpCon) (pbuf : Packetbuf) :
    RdpCon × List Emitted × Option RdpEvent → Prop
  | work {c' : RdpCon} {out : List Emitted} {event : Option RdpEvent} (h : Work c c' out) :
      OpenResult c pbuf (c', out, event)
  | close {c₁ c' : RdpCon} {out : List Emitted} {seg : List Byte} {event : Option RdpEvent}
      (h : Work c c₁ out) (hseg : Parting seg) (hkept : Kept c₁ c')
      (hto : c'.state = .closeWaitPasv) :
      OpenResult c pbuf (c', out ++ [c₁.emit seg], event)
  | echo {event : Option RdpEvent} (h : SynInOpen c pbuf) :
      OpenResult c pbuf ({ c with state := .closed },
        [c.emit (pbuf.data ++ (openRst c.addr pbuf).encode)], event)

/-- The last part of `in_state_open`: the data. -/
theorem takeData_ends (clock : Int) {c c₂ : RdpCon} {out : List Emitted} (pbuf : Packetbuf)
    (hwork : Work c c₂ out) :
    let head := RdpHead.decode pbuf.data
    let hlen := head.hlen.toNat * 2
    Ends (OpenResult c pbuf) (NoLen c)
      (if head.dlen.toNat > 0 ∧ head.dlen.toNat + hlen = pbuf.getLen then do
        let (c₃, out₃) ← c₂.rwndRecvData clock (pbuf.rmHead hlen) head.seqnum
        return (c₃, out ++ out₃, if c₃.rqueue ≠ [] then some .ready2read else none)
      else
        return (c₂, out, none)) := by
  dsimp only
  split
  · refine ((rwndRecvData_ends ..).mono (fun _ hr => hwork.trans hr)
      fun _ => hwork.kept.noLen).bind fun r hr => ?_
    exact Ends.ok (.work hr)
  · exact Ends.ok (.work hwork)

/-- The last parts of `in_state_open`: the selective acknowledgements and the data. -/
theorem takeEacks_ends (clock : Int) {c c₁ : RdpCon} {out : List Emitted} (pbuf : Packetbuf)
    (hwork : Work c c₁ out) :
    let head := RdpHead.decode pbuf.data
    let hlen := head.hlen.toNat * 2
    Ends (OpenResult c pbuf) (NoLen c) (do
      let c₂ ← if head.has flagEak then RdpCon.eackLoop pbuf.view (RdpCon.eackCount head.hlen) 0 c₁
        else pure c₁
      if head.dlen.toNat > 0 ∧ head.dlen.toNat + hlen = pbuf.getLen then
        let (c₃, out₃) ← c₂.rwndRecvData clock (pbuf.rmHead hlen) head.seqnum
        return (c₃, out ++ out₃, if c₃.rqueue ≠ [] then some .ready2read else none)
      else
        return (c₂, out, none)) := by
  dsimp only
  split
  · refine ((eackLoop_ends ..).mono (fun _ hr => hwork.trans hr)
      fun _ => hwork.kept.noLen).bind fun c₂ hr => ?_
    rw [List.append_nil] at hr
    exact takeData_ends clock pbuf hr
  · exact takeData_ends clock pbuf hwork

theorem inStateOpen_ends (clock : Int) (c : RdpCon) (hopen : c.state = .opened) (pbuf : Packetbuf) :
    Ends (OpenResult c pbuf) (NoLen c) (c.inStateOpen clock c.addr pbuf) := by
  unfold RdpCon.inStateOpen
  dsimp only
  split
  · -- The number is outside the window.
    refine Ends.ok (.work (Work.emit ?_ ?_ fun _ => plain_ackHead c c.addr))
    · exact ⟨rfl, rfl, rfl, rfl, rfl, rfl, rfl, rfl, id⟩
    · rfl
  · rename_i hin
    split
    · refine (delayedAck_ends clock c).bind fun r hwork => Ends.ok (.close hwork ?_ ?_ rfl)
      · exact parting_rstHead (by decide) (by decide)
      · exact ⟨rfl, rfl, rfl, rfl, rfl, rfl, rfl, rfl, id⟩
    · rename_i hrst
      split
      · split
        · exact Ends.ok (.work (.refl c))
        · exact (rwndRecvData_ends ..).bind fun r hwork => Ends.ok (.work hwork)
      · rename_i hnul
        split
        · rename_i hsyn
          refine (deref_ends c _).bind fun pbuf' happend => ?_
          have hdata := (Packetbuf.append_eq_some happend).2
          have hecho : OpenResult c pbuf ({ c with state := .closed }, [c.emit pbuf'.data],
              some .reset) := by
            rw [hdata]
            exact .echo ⟨hopen, hin, Bool.not_eq_true _ ▸ hrst, Bool.not_eq_true _ ▸ hnul, hsyn⟩
          exact Ends.ok hecho
        · -- Acknowledgements first, then selective ones, then the data.
          split
          · refine (recvAck_ends ..).bind fun r hwork => ?_
            exact takeEacks_ends clock pbuf hwork
          · exact takeEacks_ends clock pbuf (.refl c)

theorem inStateOpen_traces (w : World) (h : Indexed w.rdp) {ptr : ConPtr} {pbuf : Packetbuf}
    (hfor : ForCon w.rdp i ptr pbuf) (hopen : (w.rdp.con ptr).state = .opened) :
    Traces (Micro w.rdp i) StepFault (inStateOpen ptr (w.rdp.con ptr).addr pbuf) w := by
  have hptr := hfor.lt h
  have hstate : synced (w.rdp.con ptr).state = true := by rw [hopen]; rfl
  -- The event comes last.
  have hevent : ∀ (c' : RdpCon) (out : List Emitted) (event : Option RdpEvent),
      Kept (w.rdp.con ptr) c' →
      Traces (Micro w.rdp i) StepFault (raise (w.rdp.con ptr).desc event)
        (conStep w ptr c' out) := by
    intro c' out event hkept
    cases event with
    | none => exact Traces.pure _
    | some event =>
      refine eventOne_traces _ ?_ _ _
      exact h.setCon hkept.addr hkept.desc
  rw [inStateOpen_raise]
  refine getCon_bind (onCon_bind ?_)
  refine ((inStateOpen_ends w.env.clock _ hopen pbuf).mono (fun _ => id) fun _ =>
    stepFault_of_noLen hptr hstate).bind fun r hr => ?_
  cases hr with
  | work hwork =>
    exact Ends.ok ⟨.single (.con hptr (.call (.work hwork (Or.inr hstate)))),
      hevent _ _ _ hwork.kept⟩
  | @close c₁ c' out seg event hwork hseg hkept hto =>
    refine Ends.ok ⟨?_, hevent _ _ _ (hwork.kept.trans hkept)⟩
    -- The acknowledgement, then the reset, then the change of state.
    have h₁ : Micro w.rdp i w (conStep w ptr c₁ out) :=
      .con hptr (.call (.work hwork (Or.inr hstate)))
    have h₂ : Micro w.rdp i (conStep w ptr c₁ out) (conStep w ptr c₁ (out ++ [c₁.emit seg])) := by
      have hptr₁ : ptr < (conStep w ptr c₁ out).rdp.nextPtr := hptr
      have hpart : Micro w.rdp i (conStep w ptr c₁ out) _ := conStep_part hptr₁ hseg
      rwa [conStep_con_self, conStep_conStep hwork.kept.addr] at hpart
    have h₃ : Micro w.rdp i (conStep w ptr c₁ (out ++ [c₁.emit seg]))
        (conStep w ptr c' (out ++ [c₁.emit seg])) := by
      have hclose : Micro w.rdp i (conStep w ptr c₁ (out ++ [c₁.emit seg]))
          (conStep (conStep w ptr c₁ (out ++ [c₁.emit seg])) ptr c' []) := by
        refine .con hptr (.closePasv ?_ ?_ hto)
        · rwa [conStep_con_self]
        · rw [conStep_con_self]
          exact hwork.state.trans hopen
      rwa [conStep_conStep hwork.kept.addr, List.append_nil] at hclose
    exact ((ReflTransGen.single h₁).tail h₂).tail h₃
  | echo hsyn =>
    exact Ends.ok ⟨.single (.arrive hptr rfl hfor (.echo hsyn)), hevent _ _ _
      ⟨rfl, rfl, rfl, rfl, rfl, rfl, rfl, rfl, id⟩⟩

/-- The handler of a state. -/
def inState : RdpState → ConPtr → RdpAddr → Packetbuf → M Unit
  | .closeWaitPasv, ptr, addr, pbuf => inStateCloseWaitPasv ptr addr pbuf
  | .closeWaitActive, ptr, addr, pbuf => inStateCloseWaitActive ptr addr pbuf
  | .synSent, ptr, addr, pbuf => inStateSynSent ptr addr pbuf
  | .synRcvd, ptr, addr, pbuf => inStateSynRcvd ptr addr pbuf
  | .opened, ptr, addr, pbuf => inStateOpen ptr addr pbuf
  | .closed, _, addr, pbuf => inStateClosed addr pbuf
  | .listen, _, _, _ => return

section
variable {w : World} {src : Id} {pbuf : Packetbuf}

/-- A segment of a connection goes to the handler of its state. -/
theorem inputDgram_con (hlen : sizeofHead ≤ pbuf.getLen) {ptr : ConPtr}
    (hlook : w.rdp.addr2conn.lookup (addrOf src pbuf) = some ptr) :
    inputDgram src pbuf w = inState (w.rdp.con ptr).state ptr (addrOf src pbuf) pbuf w := by
  unfold addrOf at hlook ⊢
  simp only [inputDgram, if_neg (Nat.not_lt.mpr hlen), run_get_bind, hlook]
  cases (w.rdp.con ptr).state <;> rfl

theorem inputDgram_none (hlen : sizeofHead ≤ pbuf.getLen)
    (hlook : w.rdp.addr2conn.lookup (addrOf src pbuf) = none) :
    inputDgram src pbuf w =
      (if (w.rdp.listeningLeft (addrOf src pbuf).sport).isSome = true then
        inStateListen (addrOf src pbuf) pbuf
      else
        inStateClosed (addrOf src pbuf) pbuf : M Unit) w := by
  unfold addrOf at hlook ⊢
  simp only [inputDgram, if_neg (Nat.not_lt.mpr hlen), run_get_bind, hlook]

end

theorem inputDgram_traces (w : World) (h : Indexed w.rdp) (src : Id) (pbuf : Packetbuf) :
    Traces (Micro w.rdp (.arrive src pbuf)) StepFault (inputDgram src pbuf) w := by
  by_cases hshort : pbuf.getLen < sizeofHead
  · unfold inputDgram
    rw [if_pos hshort]
    exact Traces.pure _
  have hlen : sizeofHead ≤ pbuf.getLen := Nat.not_lt.mp hshort
  cases hlook : w.rdp.addr2conn.lookup (addrOf src pbuf) with
  | none =>
    refine .of_eq (inputDgram_none hlen hlook) ?_
    exact Traces.ite (fun hport => inStateListen_traces w rfl hlook hport) fun _ =>
      inStateClosed_traces w _ pbuf
  | some ptr =>
    -- The segment belongs to a connection, whose state says what is called.
    have haddr := h.addr_addr hlook
    have hfor : ForCon w.rdp (.arrive src pbuf) ptr pbuf := ⟨src, rfl, hlen, haddr, hlook⟩
    have hptr := hfor.lt h
    refine .of_eq (inputDgram_con hlen hlook) ?_
    rw [← haddr]
    cases hstate : (w.rdp.con ptr).state with
    | closeWaitPasv => exact inStateCloseWaitPasv_traces w hptr pbuf
    | closeWaitActive => exact inStateCloseWaitActive_traces w hptr pbuf
    | synSent => exact inStateSynSent_traces w h hfor hstate
    | synRcvd => exact inStateSynRcvd_traces w h hfor hstate
    | opened => exact inStateOpen_traces w h hfor hstate
    | closed => exact inStateClosed_traces w _ pbuf
    | listen => exact Traces.pure _

/-! ### The timer -/

theorem tickSyn_traces (w : World) (h : Indexed w.rdp) {desc : Int} {ptr : ConPtr}
    (hlook : w.rdp.desc2conn.lookup desc = some ptr)
    (hstate : (w.rdp.con ptr).state = .synSent ∨ (w.rdp.con ptr).state = .synRcvd) :
    Traces (Micro r i) StepFault (tickSyn desc ptr) w := by
  have hptr := h.con_lt hlook
  refine Traces.get_bind (getCon_bind (Traces.ite (fun _ => Traces.ite (fun _ => ?_) fun _ => ?_)
    fun _ => Traces.ite (fun _ => ?_) fun _ => Traces.pure _))
  · exact Traces.modify_bind (.erase hlook) (Traces.pure _)
  · refine setCon_bind (.con hptr (.fail ⟨rfl, rfl, rfl, rfl, rfl, rfl, rfl, rfl, id⟩ rfl)) ?_
    refine Traces.bind_any (eventOne_traces _ ?_ _ _) fun _ _ => Traces.pure _
    exact h.setCon rfl rfl
  · refine outputCon_bind rfl ?_ (setCon_bind (conStep_kept hptr ?_ ?_) (Traces.pure _))
    · cases hstate with
      | inl hsent =>
        have hne : ¬ (w.rdp.con ptr).state = .synRcvd := by rw [hsent]; decide
        rw [if_neg hne, if_neg hne]
        exact .con hptr (.call (.syn hsent))
      | inr hrcvd =>
        rw [if_pos hrcvd, if_pos hrcvd]
        exact .con hptr (.synAck hrcvd)
    · rw [conStep_con_self]
      exact ⟨rfl, rfl, rfl, rfl, rfl, rfl, rfl, rfl, id⟩
    · rw [conStep_con_self]

theorem tickRst_traces (w : World) (h : Indexed w.rdp) {desc : Int} {ptr : ConPtr}
    (hlook : w.rdp.desc2conn.lookup desc = some ptr) :
    Traces (Micro r i) StepFault (tickRst desc ptr) w := by
  have hptr := h.con_lt hlook
  refine Traces.get_bind (getCon_bind (Traces.ite (fun _ => Traces.ite (fun _ => ?_) fun _ => ?_)
    fun _ => Traces.ite (fun _ => ?_) fun _ => Traces.pure _))
  · exact Traces.modify_bind (.erase hlook) (Traces.pure _)
  · exact setCon_bind (.con hptr (.fail ⟨rfl, rfl, rfl, rfl, rfl, rfl, rfl, rfl, id⟩ rfl))
      (Traces.pure _)
  · refine setCon_bind (conStep_kept hptr ⟨rfl, rfl, rfl, rfl, rfl, rfl, rfl, rfl, id⟩ rfl) ?_
    refine Traces.ite (fun _ => ?_) fun _ => Traces.pure _
    refine outputCon_bind (by rw [conStep_con_self]) (conStep_part hptr ?_) (Traces.pure _)
    split <;> exact parting_rstHead (by decide) (by decide)

theorem tickOpen_traces (w : World) (h : Indexed w.rdp) {desc : Int} {ptr : ConPtr}
    (hlook : w.rdp.desc2conn.lookup desc = some ptr) (hopen : (w.rdp.con ptr).state = .opened) :
    Traces (Micro r i) StepFault (tickOpen desc ptr) w := by
  have hptr := h.con_lt hlook
  have hstate : synced (w.rdp.con ptr).state = true := by rw [hopen]; rfl
  refine Traces.get_bind (getCon_bind (onCon_bind ?_))
  refine (retransmit_ends w.env.clock w.rdp.maxRetrans (w.rdp.con ptr)).mono ?_
    fun _ => stepFault_of_noLen hptr hstate
  rintro ⟨alive, c', out⟩ ⟨c₁, more, rfl, hwork, hc⟩
  have hwork' : Micro r i w (conStep w ptr c₁ out) :=
    .con hptr (.call (.work hwork (Or.inr hstate)))
  cases alive with
  | true =>
    obtain rfl : c' = c₁ := hc
    refine ⟨.single hwork', getCon_bind ?_⟩
    refine Traces.ite (fun _ => ?_) fun _ => Traces.pure _
    refine delayedAckCon_bind hptr ?_ (fun _ => .call) (fun _ hdiv => ⟨_, .refl, hdiv⟩)
      fun _ _ _ => Traces.pure _
    rw [conStep_con_self, hwork.state]
    exact hstate
  | false =>
    obtain rfl : c' = { c₁ with state := .closed } := hc
    -- The pipe broke: the record is closed after what it still sent.
    have hfail : Micro r i (conStep w ptr c₁ out) (conStep (conStep w ptr c₁ out) ptr
        { c₁ with state := .closed } []) := by
      refine .con hptr (.fail ?_ rfl)
      rw [conStep_con_self]
      exact ⟨rfl, rfl, rfl, rfl, rfl, rfl, rfl, rfl, id⟩
    rw [conStep_conStep hwork.kept.addr, List.append_nil] at hfail
    refine ⟨(ReflTransGen.single hwork').tail hfail, ?_⟩
    refine Traces.bind_any (eventOne_traces _ ?_ _ _) fun _ _ => Traces.pure _
    exact h.setCon hwork.kept.addr hwork.kept.desc

theorem tickEntry_traces (w : World) (h : Indexed w.rdp) (desc : Int) (ptr : ConPtr) :
    Traces (Micro r i) StepFault (tickEntry desc ptr) w := by
  refine Traces.get_bind (Traces.ite (fun _ => Traces.throw (stepFault_of_ne (by decide)))
    fun hlook => ?_)
  have hlook' : w.rdp.desc2conn.lookup desc = some ptr := not_not.mp hlook
  split
  · exact tickSyn_traces w h hlook' (Or.inl ‹_›)
  · exact tickSyn_traces w h hlook' (Or.inr ‹_›)
  · exact tickRst_traces w h hlook'
  · exact tickRst_traces w h hlook'
  · exact tickOpen_traces w h hlook' ‹_›
  · exact Traces.pure _
  · exact Traces.pure _

theorem tickLoop_traces (fuel : Nat) :
    ∀ (w : World) (next : Option (Int × ConPtr)), Indexed w.rdp →
      Traces (Micro r i) StepFault (tickLoop fuel next) w := by
  induction fuel with
  | zero =>
    intro w next _
    cases next with
    | none => exact Traces.pure _
    | some e => exact Traces.throw (stepFault_of_ne (by decide))
  | succ fuel ih =>
    intro w next h
    cases next with
    | none => exact Traces.pure _
    | some e =>
      obtain ⟨desc, ptr⟩ := e
      refine (tickEntry_traces w h desc ptr).bind fun next' w' hrun => ih w' next' ?_
      exact (tickEntry_traces (r := r) (i := i) w h desc ptr).inv (fun w => Indexed w.rdp)
        (fun _ _ h => h.micro) h hrun

end

/-! ### Inputs -/

/-- Every input is a chain of its steps. -/
theorem handle_traces (w : World) (h : Indexed w.rdp) (i : Input) :
    Traces (Micro w.rdp i) StepFault (handle i) w := by
  cases i with
  | call call => exact ofCall (runCall_traces w h call)
  | arrive src pbuf => exact inputDgram_traces w h src pbuf
  | tick => exact Traces.get_bind (tickLoop_traces _ w _ h)

end Libcage.Proofs.Rdp
