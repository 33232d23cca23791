import Libcage.Proofs.Rdp.Dispatch

/-!
# `Libcage.Proofs.Rdp.Acknowledgements`: what a segment with `ACK` acknowledges

`Honest` says that a segment of a record with `ACK` and without `RST` carries the
`rcv_cur` the record had when it went out. Every place that builds such a segment does
so but two. The reply to a repeated SYN in state SYN_RCVD leaves the field zero, and the
reply to an acceptable SYN in state OPEN starts with the received segment, which it
sends back. `honest_iff` says that a step is honest exactly if it takes neither of
them with another number there.
-/

set_option autoImplicit false

namespace Libcage.Proofs.Rdp

open Libcage.Lib
open Libcage.Rdp
open Relation (ReflTransGen)

/-- The segment acknowledges, if it does, the given number. -/
def HonestSeg (seg : List Byte) (rcvCur : BitVec 32) : Prop :=
  let head := RdpHead.decode seg
  head.has flagAck = true → head.has flagRst = false → head.acknum = rcvCur

/-- A segment that went out acknowledges what its record had received. -/
def Honest (s : Sent) : Prop := ∀ ptr rcvCur, s.record = some (ptr, rcvCur) → HonestSeg s.seg rcvCur

/-- The input makes the record it is for send another number. -/
def Misleads (r : Members) (i : Input) : Prop :=
  ∃ ptr pbuf, ForCon r i ptr pbuf ∧
    (RepeatsSyn (r.con ptr) pbuf ∧ (r.con ptr).rcvCur ≠ 0 ∨
      SynInOpen (r.con ptr) pbuf ∧ (RdpHead.decode pbuf.data).has flagAck = true ∧
        (RdpHead.decode pbuf.data).acknum ≠ (r.con ptr).rcvCur)

/-! ### Segments -/

theorem Plain.honest {addr : RdpAddr} {e : Emitted} (h : Plain addr e) :
    HonestSeg e.seg e.rcvCur := by
  obtain ⟨head, rest, hseg, hhead⟩ := h
  rw [HonestSeg, hseg, RdpHead.decode_encode]
  exact fun _ _ => hhead.acknum

theorem Parting.honest {seg : List Byte} (h : Parting seg) (rcvCur : BitVec 32) :
    HonestSeg seg rcvCur := by
  intro hack hrst
  rcases h.2 with h | h
  · rw [hrst] at h
    cases h
  · rw [hack] at h
    cases h

/-- The flags and the number of a SYN. -/
theorem head_synSegment (c : RdpCon) (addr : RdpAddr) (flags : Byte) (ack : BitVec 32) :
    (RdpHead.decode (c.synSegment addr flags ack)).flags = flags ∧
      (RdpHead.decode (c.synSegment addr flags ack)).acknum = ack := by
  rw [RdpCon.synSegment, RdpSyn.headDecode_encode]
  exact ⟨rfl, rfl⟩

/-- A SYN without `ACK`, or one with the right number. -/
theorem honest_synSegment (c : RdpCon) (addr : RdpAddr) {flags : Byte} {ack rcvCur : BitVec 32}
    (h : (flags &&& flagAck != 0) = false ∨ ack = rcvCur) :
    HonestSeg (c.synSegment addr flags ack) rcvCur := by
  obtain ⟨hflags, hack⟩ := head_synSegment c addr flags ack
  intro hhas _
  rw [hack]
  rcases h with h | h
  · rw [RdpHead.has_of_flags hflags h] at hhas
    cases hhas
  · exact h

/-- The segment that goes back with a reset behind it. -/
theorem head_echo {pbuf : Packetbuf} (hlen : sizeofHead ≤ pbuf.getLen) (rest : List Byte) :
    RdpHead.decode (pbuf.data ++ rest) = RdpHead.decode pbuf.data := RdpHead.decode_append rest hlen

/-! ### Steps of a record -/

section
variable {c c' : RdpCon} {out : List Emitted}

theorem CallCon.slots (h : CallCon c c' out) (hslots : SlotsOk c) : SlotsOk c' := by
  cases h with
  | work h => exact h.kept.slots hslots
  | closeActive h => exact h.slots hslots
  | drop h => exact h.slots hslots
  | part => exact hslots
  | syn => exact hslots

theorem ConStep.slots (h : ConStep c c' out) (hslots : SlotsOk c) : SlotsOk c' := by
  cases h with
  | call h => exact h.slots hslots
  | closePasv h => exact h.slots hslots
  | fail h => exact h.slots hslots
  | synAck => exact hslots

/-- Fresh windows hold nothing. -/
theorem slotsOk_acceptSyn (uninit : Uninit) (clock : Int) (c : RdpCon) (syn : RdpSyn) :
    SlotsOk (c.acceptSyn uninit clock syn) := by
  intro w hw _ pbuf hpbuf
  obtain ⟨j, -, rfl⟩ := List.mem_map.mp hw
  cases hpbuf

theorem SlotsOk.withDesc (h : SlotsOk c) (desc : Int) : SlotsOk { c with desc := desc } := h

theorem ArriveStep.slots {pbuf : Packetbuf} (h : ArriveStep pbuf c c' out) (hslots : SlotsOk c) :
    SlotsOk c' := by
  cases h with
  | again => exact hslots
  | echo => exact hslots
  | takeSyn _ _ uninit clock => exact slotsOk_acceptSyn uninit clock c _
  | takeSynAck _ _ uninit clock => exact slotsOk_acceptSyn uninit clock c _
  | takeAck => exact hslots

theorem CallCon.honest (h : CallCon c c' out) (hslots : SlotsOk c) :
    ∀ e ∈ out, HonestSeg e.seg e.rcvCur := by
  intro e he
  cases h with
  | work h => exact (h.plain hslots e he).honest
  | closeActive => cases he
  | drop => cases he
  | part hpart =>
    rw [List.mem_singleton.mp he]
    exact hpart.honest _
  | syn =>
    rw [List.mem_singleton.mp he]
    exact honest_synSegment c c.addr (Or.inl (by decide))

theorem ConStep.honest (h : ConStep c c' out) (hslots : SlotsOk c) :
    ∀ e ∈ out, HonestSeg e.seg e.rcvCur := by
  intro e he
  cases h with
  | call h => exact h.honest hslots e he
  | closePasv => cases he
  | fail => cases he
  | synAck =>
    rw [List.mem_singleton.mp he]
    exact honest_synSegment c c.addr (Or.inr rfl)

/-- The two replies are honest unless they mislead. -/
theorem ArriveStep.honest {pbuf : Packetbuf} (h : ArriveStep pbuf c c' out)
    (hlen : sizeofHead ≤ pbuf.getLen) (hagain : RepeatsSyn c pbuf → c.rcvCur = 0)
    (hecho : SynInOpen c pbuf → (RdpHead.decode pbuf.data).has flagAck = true →
      (RdpHead.decode pbuf.data).acknum = c.rcvCur) :
    ∀ e ∈ out, HonestSeg e.seg e.rcvCur := by
  intro e he
  cases h with
  | again h =>
    rw [List.mem_singleton.mp he]
    exact honest_synSegment c c.addr (Or.inr (hagain h).symm)
  | echo h =>
    rw [List.mem_singleton.mp he]
    show HonestSeg (pbuf.data ++ _) c.rcvCur
    rw [HonestSeg, head_echo hlen]
    exact fun hack _ => hecho h hack
  | takeSyn => cases he
  | takeSynAck => cases he
  | takeAck => cases he

end

/-! ### Steps of an input -/

/-- Records hold nothing wrong, and what went out is honest. -/
def HonestWorld (w : World) : Prop := AllCons SlotsOk w.rdp ∧ ∀ s ∈ w.out, Honest s

/-- What a record emits honestly goes out honestly. -/
theorem HonestWorld.conStep {w : World} (h : HonestWorld w) {ptr : ConPtr} {c : RdpCon}
    {out : List Emitted} (hslots : SlotsOk c) (hout : ∀ e ∈ out, HonestSeg e.seg e.rcvCur) :
    HonestWorld (conStep w ptr c out) := by
  refine ⟨h.1.conStep hslots out, fun s hs => ?_⟩
  rcases List.mem_append.mp hs with hs | hs
  · exact h.2 s hs
  · obtain ⟨e, he, rfl⟩ := List.mem_map.mp hs
    intro p cur hrecord
    obtain ⟨-, rfl⟩ := Prod.mk.inj (Option.some.inj hrecord)
    exact hout e he

/-- A step that emits nothing. -/
theorem HonestWorld.silent {w w' : World} (h : HonestWorld w) (hslots : AllCons SlotsOk w'.rdp)
    (hout : w'.out = w.out) : HonestWorld w' := by
  refine ⟨hslots, ?_⟩
  rw [hout]
  exact h.2

theorem slotsOk_start (uninit : Uninit) (addr : RdpAddr) (iss : BitVec 32) (clock desc : Int) :
    SlotsOk { (RdpCon.new uninit).start addr false .synSent iss clock with desc := desc } :=
  fun _ hw => nomatch hw

theorem allSlots_callStep {w w' : World} (h : AllCons SlotsOk w.rdp) (hstep : CallStep w w') :
    AllCons SlotsOk w'.rdp :=
  h.callStep (fun _ _ _ hslots hcon => hcon.slots hslots) slotsOk_start hstep

theorem HonestWorld.callStep {w w' : World} (h : HonestWorld w) (hstep : CallStep w w') :
    HonestWorld w' := by
  have hslots := allSlots_callStep h.1 hstep
  cases hstep with
  | quiet hquiet => exact h.silent hslots hquiet.out
  | con hptr hcon =>
    have hc := h.1 _ hptr
    exact h.conStep (hcon.slots hc) (hcon.honest hc)
  | erase => exact h.silent hslots rfl
  | event => exact h.silent hslots rfl
  | listen => exact h.silent hslots rfl
  | unlisten => exact h.silent hslots rfl
  | connect => exact h.silent hslots rfl

theorem HonestWorld.eventStep {w w' : World} (h : HonestWorld w) (hstep : EventStep w w') :
    HonestWorld w' := by
  cases hstep with
  | call hcall => exact h.callStep hcall
  | mark hquiet => exact h.silent (h.1.quiet hquiet) hquiet.out

theorem allSlots_micro {r : Members} {i : Input} {w w' : World} (h : AllCons SlotsOk w.rdp)
    (hstep : Micro r i w w') : AllCons SlotsOk w'.rdp :=
  h.micro (fun _ _ _ hslots hcon => hcon.slots hslots) slotsOk_start
    (fun _ _ _ hslots hcon => hcon.slots hslots)
    (fun _ _ _ _ _ hslots hcon => hcon.slots hslots)
    (fun _ _ uninit _ clock desc _ _ => (slotsOk_acceptSyn uninit clock _ _).withDesc desc) hstep

/-- The steps of an input that does not mislead. -/
theorem HonestWorld.micro {r : Members} {i : Input} (hi : ¬ Misleads r i) {w w' : World}
    (h : HonestWorld w) (hstep : Micro r i w w') : HonestWorld w' := by
  have hslots := allSlots_micro h.1 hstep
  -- By the small step. Only a segment that arrives can make a record say what is not true.
  cases hstep with
  | call hcall => exact h.callStep hcall
  | event hevent => exact chain_inv HonestWorld (fun _ _ h => h.eventStep) h hevent
  | say =>
    refine ⟨h.1, fun s hs => ?_⟩
    rcases List.mem_append.mp hs with hs | hs
    · exact h.2 s hs
    · rw [List.mem_singleton.mp hs]
      intro p cur hrecord
      cases hrecord
  | con hptr hcon =>
    have hc := h.1 _ hptr
    exact h.conStep (hcon.slots hc) (hcon.honest hc)
  | @arrive ptr pbuf c out hptr hsame hfor hcon =>
    have hc := h.1 _ hptr
    refine h.conStep (hcon.slots hc) (hcon.honest ?_ ?_ ?_)
    · obtain ⟨_, _, hlen, _, _⟩ := hfor
      exact hlen
    · rw [hsame]
      intro hagain
      by_contra hne
      exact hi ⟨ptr, pbuf, hfor, Or.inl ⟨hagain, hne⟩⟩
    · rw [hsame]
      intro hsyn hack
      by_contra hne
      exact hi ⟨ptr, pbuf, hfor, Or.inr ⟨hsyn, hack, hne⟩⟩
  | erase => exact h.silent hslots rfl
  | accept => exact h.silent hslots rfl

/-! ### Inputs that mislead -/

/-- What went out stays. -/
theorem CallStep.out_prefix {w w' : World} (h : CallStep w w') : w.out <+: w'.out := by
  cases h with
  | quiet hquiet => rw [hquiet.out]
  | con => exact List.prefix_append ..
  | erase => exact List.prefix_refl _
  | event => exact List.prefix_refl _
  | listen => exact List.prefix_refl _
  | unlisten => exact List.prefix_refl _
  | connect => exact List.prefix_refl _

theorem EventStep.out_prefix {w w' : World} (h : EventStep w w') : w.out <+: w'.out := by
  cases h with
  | call hcall => exact hcall.out_prefix
  | mark hquiet => rw [hquiet.out]

/-- What went out before an event is there after it. -/
theorem out_prefix_of_event {w w' : World} (h : Indexed w.rdp) {desc : Int} {event : RdpEvent}
    (hrun : invokeEvent desc 0 event w = .ok ((), w')) : w.out <+: w'.out := by
  have htraces := invokeEvent_traces w h desc (fun hpos => absurd hpos (lt_irrefl 0)) event
  refine chain_inv (fun w' => w.out <+: w'.out) (fun _ _ hprefix hstep => ?_)
    (List.prefix_refl w.out) (htraces.1 _ _ hrun)
  exact hprefix.trans hstep.out_prefix

/-- The two replies are not honest where they mislead. -/
theorem misleads_dishonest {r : Members} (hr : Started r) {i : Input} (hi : Misleads r i)
    {env : Env} {w : World} (hrun : (handle i).run (.start r env) = .ok ((), w)) :
    ∃ s ∈ w.out, ¬ Honest s := by
  obtain ⟨ptr, pbuf, ⟨src, rfl, hlen, haddr, hlook⟩, hcase⟩ := hi
  -- The segment is for the connection, so the event is its state function.
  have hdispatch : inState (r.con ptr).state ptr (r.con ptr).addr pbuf (.start r env)
      = .ok ((), w) := by
    have hinput := inputDgram_con (w := .start r env) hlen hlook
    rw [haddr, ← hrun]
    exact hinput.symm
  rcases hcase with ⟨hagain, hcur⟩ | ⟨hsyn, hack, hnum⟩
  · -- The reply without a number.
    rw [hagain.1] at hdispatch
    have hreply := inStateSynRcvd_again (w := .start r env) hagain
    obtain ⟨-, rfl⟩ := Prod.mk.inj (Except.ok.inj (hreply.symm.trans hdispatch))
    refine ⟨_, List.mem_append_right _ (List.mem_map.mpr ⟨_, List.mem_singleton_self _, rfl⟩), ?_⟩
    intro hhonest
    obtain ⟨hflags, hzero⟩ := head_synSegment (r.con ptr) (r.con ptr).addr
      (flagAck ||| flagSyn ||| flagVer) 0
    have hhonest' := hhonest ptr _ rfl (RdpHead.has_of_flags hflags (by decide))
      (RdpHead.has_of_flags hflags (by decide))
    exact hcur (hhonest'.symm.trans hzero)
  · -- The segment that goes back.
    rw [hsyn.1] at hdispatch
    have hevent := inStateOpen_echo (w := .start r env) hsyn hdispatch
    have hindex : Indexed (conStep (.start r env) ptr { r.con ptr with state := .closed }
        [(r.con ptr).emit (pbuf.data ++ (openRst (r.con ptr).addr pbuf).encode)]).rdp :=
      hr.indexed.setCon rfl rfl
    have hprefix := out_prefix_of_event hindex hevent
    refine ⟨_, hprefix.subset (List.mem_append_right _
      (List.mem_map.mpr ⟨_, List.mem_singleton_self _, rfl⟩)), ?_⟩
    intro hhonest
    have hhonest' := hhonest ptr _ rfl
    rw [HonestSeg] at hhonest'
    dsimp only [RdpCon.emit] at hhonest'
    rw [head_echo hlen] at hhonest'
    exact hnum (hhonest' hack hsyn.2.2.1)

/-! ### Runs -/

theorem slots_of_run {con : ConPtr → RdpCon} {inputs : List (Env × Input)} {r : Members}
    (hrun : run machine (.init con) inputs = .ok r) : Started r ∧ AllCons SlotsOk r := by
  refine run_inv (fun r => Started r ∧ AllCons SlotsOk r) ?_ ⟨started_init con, ?_⟩ hrun
  · intro r input r' hr hstep
    obtain ⟨w, hrun, rfl⟩ := machine_eq_ok hstep
    exact step_inv hr.1 (fun w => AllCons SlotsOk w.rdp) (fun _ _ _ => allSlots_micro) hr.2 hrun
  · exact fun ptr hptr => absurd hptr (Nat.not_lt_zero ptr)

/-- In every state a run reaches, and for every input: what the records send acknowledges
what they have received, exactly if the input does not mislead. -/
theorem honest_iff {con : ConPtr → RdpCon} {inputs : List (Env × Input)} {r r' : Members}
    (hrun : run machine (.init con) inputs = .ok r) {env : Env} {i : Input} {out : List Sent}
    (hstep : step r env i = .ok (r', out)) : (∀ s ∈ out, Honest s) ↔ ¬ Misleads r i := by
  obtain ⟨hr, hslots⟩ := slots_of_run hrun
  obtain ⟨⟨⟨⟩, w⟩, hw, hend⟩ := bind_eq_ok hstep
  obtain ⟨rfl, rfl⟩ := Prod.mk.inj (Except.ok.inj hend)
  constructor
  · intro hhonest hi
    obtain ⟨s, hs, hbad⟩ := misleads_dishonest hr hi hw
    exact hbad (hhonest s hs)
  · intro hi
    have hstart : HonestWorld (.start r env) := ⟨hslots, fun s hs => nomatch hs⟩
    exact (step_inv hr HonestWorld (fun _ _ _ h => h.micro hi) hstart hw).2.2

/-- The acknowledgement of a SYN is honest, and it does not mislead. -/
theorem honest_iff_ack :
    ∃ r r' out, run machine (.init fun _ => default) (acceptSynRun 1) = .ok r ∧
      step r (oneNumber 0) (.arrive 1 plainAck) = .ok (r', out) ∧
      ((∀ s ∈ out, Honest s) ↔ ¬ Misleads r (.arrive 1 plainAck)) := by
  have h : (do
      let r ← run machine (.init fun _ => default) (acceptSynRun 1)
      let p ← step r (oneNumber 0) (.arrive 1 plainAck)
      return p.2.length) = (.ok 0 : Except Fault Nat) := by decide +kernel
  obtain ⟨r, hrun, hrest⟩ := bind_eq_ok h
  obtain ⟨⟨r', out⟩, hstep, -⟩ := bind_eq_ok hrest
  exact ⟨r, r', out, hrun, hstep, honest_iff hrun hstep⟩

instance (seg : List Byte) (rcvCur : BitVec 32) : Decidable (HonestSeg seg rcvCur) :=
  inferInstanceAs (Decidable (_ → _ → _))

/-- The same SYN twice: the second reply acknowledges number 0, and the record has
received number 5. -/
theorem repeatedSyn_misleads :
    ∃ r r' out, run machine (.init fun _ => default) (acceptSynRun 1) = .ok r ∧
      step r (oneNumber 0) (.arrive 1 (synTo100 1)) = .ok (r', out) ∧ ∃ s ∈ out, ¬ Honest s := by
  have h : (do
      let r ← run machine (.init fun _ => default) (acceptSynRun 1)
      let p ← step r (oneNumber 0) (.arrive 1 (synTo100 1))
      return p.2.map fun s => (s.record, decide (HonestSeg s.seg 5)))
      = (.ok [(some (0, 5), false)] : Except Fault _) := by decide +kernel
  obtain ⟨r, hrun, hrest⟩ := bind_eq_ok h
  obtain ⟨⟨r', out⟩, hstep, hout⟩ := bind_eq_ok hrest
  obtain ⟨s, hs, heq⟩ :
      ∃ s ∈ out, (s.record, decide (HonestSeg s.seg 5)) = (some (0, 5), false) := by
    rw [← List.mem_map, Except.ok.inj hout]
    exact List.mem_singleton_self _
  obtain ⟨hrecord, hbad⟩ := Prod.mk.inj heq
  exact ⟨r, r', out, hrun, hstep, s, hs, fun hhonest =>
    of_decide_eq_false hbad (hhonest 0 5 hrecord)⟩

end Libcage.Proofs.Rdp
