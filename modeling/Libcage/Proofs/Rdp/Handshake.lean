import Libcage.Proofs.Rdp.Acknowledgements
import Libcage.Rdp.Network

/-!
# `Libcage.Proofs.Rdp.Handshake`: two nodes agree on their first numbers

Two nodes with at most one record each for a pair of ports. `handshake_agrees`: where one
is in state OPEN, the other has taken its SYN, and each has the first number of the other.

The invariant is `Certified`. It says, for one node and for the pair of ports: a record
that has taken a SYN took that of the other node, and an open one was taken by it. A
segment with `ACK` and without `RST` was sent by a node that has taken a SYN. A SYN has
the number of the record that sent it, unless it is one that state OPEN sends back, and
then nobody will take it any more. The number that a segment acknowledges does not enter:
with one record at each end any acknowledgement certifies the SYN.
-/

set_option autoImplicit false

namespace Libcage.Proofs.Rdp

open Libcage.Lib
open Libcage.Rdp
open Relation (ReflTransGen)

/-! ### Records for a pair of ports -/

/-- The record has taken a SYN: it has its windows. -/
def Synced (c : RdpCon) : Prop := c.rwnd ≠ []

/-- The address of a record with this peer, for two ports. Either may be the local one. -/
def Between (peer : Id) (p q : BitVec 16) (addr : RdpAddr) : Prop :=
  addr.did = peer ∧ (addr.sport = p ∧ addr.dport = q ∨ addr.sport = q ∧ addr.dport = p)

/-- At most one record with this peer was ever made for two ports. -/
def OneRecord (peer : Id) (p q : BitVec 16) (r : Members) : Prop :=
  ∀ ptr < r.nextPtr, ∀ ptr' < r.nextPtr, Between peer p q (r.con ptr).addr →
    Between peer p q (r.con ptr').addr → ptr = ptr'

/-- The address of the same connection at the peer of `me`. -/
def mirror (me : Id) (addr : RdpAddr) : RdpAddr := ⟨me, addr.sport, addr.dport⟩

/-- The address of the record that a segment of `me` is for. -/
def sentTo (me : Id) (seg : List Byte) : RdpAddr :=
  ⟨me, (RdpHead.decode seg).sport, (RdpHead.decode seg).dport⟩

theorem addrOf_eq_sentTo (src : Id) (pbuf : Packetbuf) : addrOf src pbuf = sentTo src pbuf.data :=
  rfl

theorem mirror_mirror {me peer : Id} {addr : RdpAddr} (h : addr.did = me) :
    mirror me (mirror peer addr) = addr := by
  cases addr
  simp only at h
  rw [h]
  rfl

theorem Between.mirror {me peer : Id} {p q : BitVec 16} {addr : RdpAddr}
    (h : Between peer p q addr) :
    Between me p q (mirror me addr) :=
  ⟨rfl, h.2.symm.imp And.symm And.symm⟩

/-- What the state of a record says about its windows. -/
structure StateOk (c : RdpCon) : Prop where
  rcvMax : c.rcvMax = rcvMaxDefault
  taken : synced c.state = true → Synced c
  fresh : c.state = .synSent → ¬ Synced c
  slots : SlotsOk c

/-- A record keeps its address and its first number, and from its SYN on that of its
peer. -/
structure Extends (c c' : RdpCon) : Prop where
  addr : c'.addr = c.addr
  sndIss : c'.sndIss = c.sndIss
  synced : Synced c → Synced c' ∧ c'.rcvIrs = c.rcvIrs

namespace Extends

theorem refl (c : RdpCon) : Extends c c := ⟨rfl, rfl, fun h => ⟨h, rfl⟩⟩

theorem trans {c c₁ c₂ : RdpCon} (h : Extends c c₁) (h' : Extends c₁ c₂) : Extends c c₂ where
  addr := h'.addr.trans h.addr
  sndIss := h'.sndIss.trans h.sndIss
  synced := fun hc =>
    ⟨(h'.synced (h.synced hc).1).1, (h'.synced (h.synced hc).1).2.trans (h.synced hc).2⟩

end Extends

theorem Kept.synced_iff {c c' : RdpCon} (h : Kept c c') : Synced c' ↔ Synced c := by
  rw [Synced, Synced, ← List.length_pos_iff_ne_nil, ← List.length_pos_iff_ne_nil, h.length]

theorem Kept.extends {c c' : RdpCon} (h : Kept c c') : Extends c c' :=
  ⟨h.addr, h.sndIss, fun hc => ⟨h.synced_iff.mpr hc, h.rcvIrs⟩⟩

/-! ### Steps of a record -/

theorem StateOk.kept {c c' : RdpCon} (h : StateOk c) (hkept : Kept c c')
    (htaken : synced c'.state = true → synced c.state = true)
    (hfresh : c'.state = .synSent → c.state = .synSent) : StateOk c' where
  rcvMax := hkept.rcvMax.trans h.rcvMax
  taken := fun hs => hkept.synced_iff.mpr (h.taken (htaken hs))
  fresh := fun hs hc => h.fresh (hfresh hs) (hkept.synced_iff.mp hc)
  slots := hkept.slots h.slots

/-- A change to another state than SYN_SENT, from one with a SYN or to CLOSED. -/
theorem StateOk.goes {c c' : RdpCon} (h : StateOk c) (hkept : Kept c c')
    (hto : c'.state = .closed ∨ synced c.state = true ∧ c'.state ≠ .synSent) : StateOk c' := by
  refine h.kept hkept (fun hs => ?_) fun hs => ?_
  · rcases hto with hto | hto
    · rw [hto] at hs
      cases hs
    · exact hto.1
  · rcases hto with hto | hto
    · rw [hto] at hs
      cases hs
    · exact absurd hs hto.2

theorem StateOk.callCon {c c' : RdpCon} {out : List Emitted} (h : StateOk c)
    (hstep : CallCon c c' out) : StateOk c' := by
  cases hstep with
  | work hwork =>
    exact h.kept hwork.kept (fun hs => hwork.state ▸ hs) fun hs => hwork.state ▸ hs
  | closeActive hkept hfrom hto =>
    exact h.goes hkept (Or.inr ⟨by rw [hfrom]; rfl, by rw [hto]; decide⟩)
  | drop hkept _ hto => exact h.goes hkept (Or.inl hto)
  | part => exact h
  | syn => exact h

theorem StateOk.conStep {c c' : RdpCon} {out : List Emitted} (h : StateOk c)
    (hstep : ConStep c c' out) : StateOk c' := by
  cases hstep with
  | call hcall => exact h.callCon hcall
  | closePasv hkept hfrom hto =>
    exact h.goes hkept (Or.inr ⟨by rw [hfrom]; rfl, by rw [hto]; decide⟩)
  | fail hkept hto => exact h.goes hkept (Or.inl hto)
  | synAck => exact h

/-- `init_rwnd` makes the windows. -/
theorem synced_acceptSyn {c : RdpCon} (h : c.rcvMax = rcvMaxDefault) (uninit : Uninit) (clock : Int)
    (syn : RdpSyn) : Synced (c.acceptSyn uninit clock syn) := by
  have hlen : (c.acceptSyn uninit clock syn).rwnd.length = (c.rcvMax * 2).toNat := by
    show ((List.range (c.rcvMax * 2).toNat).map _).length = _
    rw [List.length_map, List.length_range]
  rw [Synced, ← List.length_pos_iff_ne_nil, hlen, h]
  decide

theorem StateOk.arriveStep {pbuf : Packetbuf} {c c' : RdpCon} {out : List Emitted} (h : StateOk c)
    (hstep : ArriveStep pbuf c c' out) : StateOk c' := by
  have hslots := hstep.slots h.slots
  cases hstep with
  | again => exact h
  | echo => exact ⟨h.rcvMax, fun hs => (nomatch hs), fun hs => (nomatch hs), hslots⟩
  | takeSyn _ _ uninit clock =>
    exact ⟨h.rcvMax, fun _ => synced_acceptSyn h.rcvMax uninit clock _, fun hs => (nomatch hs),
      hslots⟩
  | takeSynAck _ _ uninit clock =>
    exact ⟨h.rcvMax, fun _ => synced_acceptSyn h.rcvMax uninit clock _, fun hs => (nomatch hs),
      hslots⟩
  | takeAck hfrom =>
    refine ⟨h.rcvMax, fun _ => h.taken ?_, fun hs => (nomatch hs), hslots⟩
    rw [hfrom]
    rfl

theorem StateOk.start (uninit : Uninit) (addr : RdpAddr) (iss : BitVec 32) (clock desc : Int) :
    StateOk { (RdpCon.new uninit).start addr false .synSent iss clock with desc := desc } :=
  ⟨rfl, fun hs => (nomatch hs), fun _ hs => hs rfl, slotsOk_start uninit addr iss clock desc⟩

theorem StateOk.accept (uninit : Uninit) (addr : RdpAddr) (iss : BitVec 32) (clock desc : Int)
    (syn : RdpSyn) :
    StateOk { ((RdpCon.new uninit).start addr true .synRcvd iss clock).acceptSyn uninit clock syn
      with desc := desc } := by
  generalize hc₀ : (RdpCon.new uninit).start addr true .synRcvd iss clock = c₀
  have hmax₀ : c₀.rcvMax = rcvMaxDefault := by rw [← hc₀]; rfl
  have hstate₀ : c₀.state = .synRcvd := by rw [← hc₀]; rfl
  have hsynced := synced_acceptSyn hmax₀ uninit clock syn
  have hslots := slotsOk_acceptSyn uninit clock c₀ syn
  have hmax : (c₀.acceptSyn uninit clock syn).rcvMax = rcvMaxDefault := hmax₀
  have hstate : (c₀.acceptSyn uninit clock syn).state = .synRcvd := hstate₀
  generalize c₀.acceptSyn uninit clock syn = c at hsynced hslots hmax hstate
  refine ⟨hmax, fun _ => hsynced, fun hs => ?_, hslots⟩
  have hsent : c.state = .synSent := hs
  rw [hstate] at hsent
  cases hsent

theorem stateOk_callStep {w w' : World} (h : AllCons StateOk w.rdp) (hstep : CallStep w w') :
    AllCons StateOk w'.rdp :=
  h.callStep (fun _ _ _ hc hstep => hc.callCon hstep) StateOk.start hstep

theorem stateOk_micro {r : Members} {i : Input} {w w' : World} (h : AllCons StateOk w.rdp)
    (hstep : Micro r i w w') : AllCons StateOk w'.rdp :=
  h.micro (fun _ _ _ hc hstep => hc.callCon hstep) StateOk.start
    (fun _ _ _ hc hstep => hc.conStep hstep) (fun _ _ _ _ _ hc hstep => hc.arriveStep hstep)
    (fun _ _ uninit iss clock desc _ _ => StateOk.accept uninit _ iss clock desc _) hstep

/-! ### The heap grows -/

/-- Records stay, and keep what `Extends` says. -/
structure Grows (r r' : Members) : Prop where
  next : r.nextPtr ≤ r'.nextPtr
  con : ∀ ptr < r.nextPtr, Extends (r.con ptr) (r'.con ptr)

namespace Grows
variable {r r' : Members}

theorem refl (r : Members) : Grows r r := ⟨le_rfl, fun _ _ => .refl _⟩

theorem trans {r₁ : Members} (h : Grows r r₁) (h' : Grows r₁ r') : Grows r r' where
  next := h.next.trans h'.next
  con := fun ptr hptr => (h.con ptr hptr).trans (h'.con ptr (Nat.lt_of_lt_of_le hptr h.next))

/-- The records are the same. -/
theorem of_same (hcon : r'.con = r.con) (hnext : r'.nextPtr = r.nextPtr) : Grows r r' := by
  refine ⟨hnext.ge, fun ptr _ => ?_⟩
  rw [hcon]
  exact .refl _

theorem conStep {w : World} {ptr : ConPtr} {c : RdpCon} (h : Extends (w.rdp.con ptr) c)
    (out : List Emitted) : Grows w.rdp (conStep w ptr c out).rdp := by
  refine ⟨le_rfl, fun p _ => ?_⟩
  show Extends _ (Function.update w.rdp.con ptr c p)
  by_cases hp : p = ptr
  · rw [hp, Function.update_self]
    exact h
  · rw [Function.update_of_ne hp]
    exact .refl _

theorem withCon (r : Members) (desc : Int) (c : RdpCon) : Grows r (withCon r desc c) := by
  refine ⟨Nat.le_succ _, fun p hp => ?_⟩
  show Extends _ (Function.update r.con r.nextPtr { c with desc := desc } p)
  rw [Function.update_of_ne (Nat.ne_of_lt hp)]
  exact .refl _

/-- With more records there were not two for the ports before. -/
theorem oneRecord (h : Grows r r') {peer : Id} {p q : BitVec 16} (hone : OneRecord peer p q r') :
    OneRecord peer p q r := by
  intro ptr hptr ptr' hptr' hb hb'
  refine hone ptr (Nat.lt_of_lt_of_le hptr h.next) ptr' (Nat.lt_of_lt_of_le hptr' h.next) ?_ ?_
  · rw [(h.con ptr hptr).addr]
    exact hb
  · rw [(h.con ptr' hptr').addr]
    exact hb'

end Grows

theorem CallCon.extends {c c' : RdpCon} {out : List Emitted} (h : CallCon c c' out) :
    Extends c c' := by
  cases h with
  | work h => exact h.kept.extends
  | closeActive h => exact h.extends
  | drop h => exact h.extends
  | part => exact .refl c
  | syn => exact .refl c

theorem ConStep.extends {c c' : RdpCon} {out : List Emitted} (h : ConStep c c' out) :
    Extends c c' := by
  cases h with
  | call h => exact h.extends
  | closePasv h => exact h.extends
  | fail h => exact h.extends
  | synAck => exact .refl c

/-- Only a segment from the peer brings a SYN, or opens a record. -/
theorem CallCon.takes_nothing {c c' : RdpCon} {out : List Emitted} (h : CallCon c c' out) :
    (Synced c' → Synced c) ∧ (c'.state = .opened → c.state = .opened) := by
  cases h with
  | work hwork => exact ⟨hwork.kept.synced_iff.mp, fun hopen => hwork.state ▸ hopen⟩
  | closeActive hkept _ hto =>
    exact ⟨hkept.synced_iff.mp, fun hopen => nomatch hto.symm.trans hopen⟩
  | drop hkept _ hto => exact ⟨hkept.synced_iff.mp, fun hopen => nomatch hto.symm.trans hopen⟩
  | part => exact ⟨id, id⟩
  | syn => exact ⟨id, id⟩

theorem ConStep.takes_nothing {c c' : RdpCon} {out : List Emitted} (h : ConStep c c' out) :
    (Synced c' → Synced c) ∧ (c'.state = .opened → c.state = .opened) := by
  cases h with
  | call hcall => exact hcall.takes_nothing
  | closePasv hkept _ hto => exact ⟨hkept.synced_iff.mp, fun hopen => nomatch hto.symm.trans hopen⟩
  | fail hkept hto => exact ⟨hkept.synced_iff.mp, fun hopen => nomatch hto.symm.trans hopen⟩
  | synAck => exact ⟨id, id⟩

/-- A SYN is only taken by a record that has none. -/
theorem ArriveStep.extends {pbuf : Packetbuf} {c c' : RdpCon} {out : List Emitted} (hc : StateOk c)
    (h : ArriveStep pbuf c c' out) : Extends c c' := by
  cases h with
  | again => exact .refl c
  | echo => exact ⟨rfl, rfl, fun h => ⟨h, rfl⟩⟩
  | takeSyn hsyn => exact ⟨rfl, rfl, fun h => absurd h (hc.fresh hsyn.1)⟩
  | takeSynAck hsyn => exact ⟨rfl, rfl, fun h => absurd h (hc.fresh hsyn.1)⟩
  | takeAck => exact ⟨rfl, rfl, fun h => ⟨h, rfl⟩⟩

theorem Grows.quiet {w w' : World} (h : Quiet w w') : Grows w.rdp w'.rdp := by
  rw [h.rdp]
  exact .of_same rfl rfl

theorem Grows.callStep {w w' : World} (hstep : CallStep w w') : Grows w.rdp w'.rdp := by
  cases hstep with
  | quiet hquiet => exact .quiet hquiet
  | con _ hcon => exact .conStep hcon.extends _
  | erase => exact .of_same rfl rfl
  | event => exact .of_same rfl rfl
  | listen =>
    unfold withListening Members.insertListening
    split <;> exact .of_same rfl rfl
  | unlisten => exact .of_same rfl rfl
  | connect => exact .withCon ..

theorem Grows.eventStep {w w' : World} (hstep : EventStep w w') : Grows w.rdp w'.rdp := by
  cases hstep with
  | call hcall => exact .callStep hcall
  | mark hquiet => exact .quiet hquiet

theorem Grows.eventSteps {w w' : World} (hchain : ReflTransGen EventStep w w') :
    Grows w.rdp w'.rdp :=
  chain_inv (fun w' => Grows w.rdp w'.rdp) (fun _ _ h hstep => h.trans (.eventStep hstep)) (.refl _)
    hchain

theorem Grows.micro {r : Members} {i : Input} {w w' : World} (h : AllCons StateOk w.rdp)
    (hstep : Micro r i w w') : Grows w.rdp w'.rdp := by
  cases hstep with
  | call hcall => exact .callStep hcall
  | event hevent => exact .eventSteps hevent
  | say => exact .refl _
  | con _ hcon => exact .conStep hcon.extends _
  | arrive hptr _ _ hcon => exact .conStep (hcon.extends (h _ hptr)) _
  | erase => exact .of_same rfl rfl
  | accept => exact .withCon ..

/-! ### Segments -/

/-- What a segment of a record that is not sent back says about the record. -/
structure Says (c : RdpCon) (seg : List Byte) : Prop where
  ack : (RdpHead.decode seg).has flagAck = true → (RdpHead.decode seg).has flagRst = false →
    synced c.state = true ∧ ∀ me, sentTo me seg = mirror me c.addr
  syn : (RdpHead.decode seg).has flagSyn = true →
    (RdpHead.decode seg).seqnum = c.sndIss ∧ ∀ me, sentTo me seg = mirror me c.addr

theorem Plain.tells {c : RdpCon} {e : Emitted} (h : Plain c.addr e)
    (hstate : synced c.state = true) :
    Says c e.seg := by
  obtain ⟨head, rest, hseg, hhead⟩ := h
  have hdecode : RdpHead.decode e.seg = head := by rw [hseg, RdpHead.decode_encode]
  have hto : ∀ me, sentTo me e.seg = mirror me c.addr := by
    intro me
    rw [sentTo, hdecode, hhead.sport, hhead.dport]
    rfl
  refine ⟨fun _ _ => ⟨hstate, hto⟩, fun hsyn => ?_⟩
  rw [hdecode, hhead.noSyn] at hsyn
  cases hsyn

theorem Parting.tells {c : RdpCon} {seg : List Byte} (h : Parting seg) : Says c seg := by
  obtain ⟨hsyn, hlast⟩ := h
  refine ⟨fun hack hrst => ?_, fun hsyn' => ?_⟩
  · rcases hlast with hlast | hlast
    · rw [hrst] at hlast
      cases hlast
    · rw [hack] at hlast
      cases hlast
  · rw [hsyn] at hsyn'
    cases hsyn'

/-- A SYN of a record, with `ACK` once it has that of its peer. -/
theorem tells_synSegment {c : RdpCon} {flags : Byte} {ack : BitVec 32}
    (h : (flags &&& flagAck != 0) = true → synced c.state = true) :
    Says c (c.synSegment c.addr flags ack) := by
  have hdecode : RdpHead.decode (c.synSegment c.addr flags ack)
      = { flags := flags, hlen := 12, sport := c.addr.sport, dport := c.addr.dport,
          seqnum := c.sndIss, acknum := ack } := by
    rw [RdpCon.synSegment, RdpSyn.headDecode_encode]
  have hto : ∀ me, sentTo me (c.synSegment c.addr flags ack) = mirror me c.addr := by
    intro me
    rw [sentTo, hdecode]
    rfl
  refine ⟨fun hack _ => ⟨h ?_, hto⟩, fun _ => ⟨?_, hto⟩⟩
  · rw [hdecode] at hack
    exact hack
  · rw [hdecode]

theorem CallCon.tells {c c' : RdpCon} {out : List Emitted} (h : CallCon c c' out) (hc : StateOk c) :
    ∀ e ∈ out, Says c e.seg := by
  intro e he
  cases h with
  | work hwork hout =>
    rcases hout with rfl | hstate
    · cases he
    · exact (hwork.plain hc.slots e he).tells hstate
  | closeActive => cases he
  | drop => cases he
  | part hpart =>
    rw [List.mem_singleton.mp he]
    exact hpart.tells
  | syn =>
    rw [List.mem_singleton.mp he]
    exact tells_synSegment fun hack => absurd hack (by decide)

theorem ConStep.tells {c c' : RdpCon} {out : List Emitted} (h : ConStep c c' out) (hc : StateOk c) :
    ∀ e ∈ out, Says c e.seg := by
  intro e he
  cases h with
  | call hcall => exact hcall.tells hc e he
  | closePasv => cases he
  | fail => cases he
  | synAck hfrom =>
    rw [List.mem_singleton.mp he]
    exact tells_synSegment fun _ => by rw [hfrom]; rfl

/-! ### The invariant -/

section
variable {me peer : Id} {p q : BitVec 16}

/-- A record of `me` has the number of a record at its peer. -/
def TookSyn (me : Id) (c : RdpCon) (r' : Members) : Prop :=
  ∃ ptr' < r'.nextPtr, (r'.con ptr').addr = mirror me c.addr ∧ c.rcvIrs = (r'.con ptr').sndIss

/-- A record at the peer has the number of a record of `me`. -/
def TakenBy (me : Id) (c : RdpCon) (r' : Members) : Prop :=
  ∃ ptr' < r'.nextPtr, (r'.con ptr').addr = mirror me c.addr ∧ Synced (r'.con ptr') ∧
    (r'.con ptr').rcvIrs = c.sndIss

/-- What a segment that `me` sent to its peer says, if it is for one of the two ports. -/
def Vouches (me peer : Id) (p q : BitVec 16) (r r' : Members) (s : Sent) : Prop :=
  let head := RdpHead.decode s.seg
  s.did = peer → Between me p q (sentTo me s.seg) →
    (head.has flagAck = true → head.has flagRst = false →
      ∃ ptr < r.nextPtr, Between peer p q (r.con ptr).addr ∧ Synced (r.con ptr)) ∧
    (head.has flagSyn = true →
      (∃ ptr < r.nextPtr, Between peer p q (r.con ptr).addr ∧
        sentTo me s.seg = mirror me (r.con ptr).addr ∧ head.seqnum = (r.con ptr).sndIss) ∨
      ∃ ptr' < r'.nextPtr, Between me p q (r'.con ptr').addr ∧ Synced (r'.con ptr'))

/-- What holds of the records of `me` and of all it sent, towards the records `r'` of its
peer. -/
structure Certified (me peer : Id) (p q : BitVec 16) (r : Members) (sent : List Sent)
    (r' : Members) : Prop where
  took : ∀ ptr < r.nextPtr, Between peer p q (r.con ptr).addr → Synced (r.con ptr) →
    TookSyn me (r.con ptr) r'
  opened : ∀ ptr < r.nextPtr, Between peer p q (r.con ptr).addr → (r.con ptr).state = .opened →
    TakenBy me (r.con ptr) r'
  vouches : ∀ s ∈ sent, Vouches me peer p q r r' s

theorem TookSyn.grows {c : RdpCon} {r r' : Members} (h : TookSyn me c r) (hgrows : Grows r r') :
    TookSyn me c r' := by
  obtain ⟨ptr, hptr, haddr, hnum⟩ := h
  have hext := hgrows.con ptr hptr
  exact ⟨ptr, Nat.lt_of_lt_of_le hptr hgrows.next, hext.addr.trans haddr,
    hnum.trans hext.sndIss.symm⟩

theorem TakenBy.grows {c : RdpCon} {r r' : Members} (h : TakenBy me c r) (hgrows : Grows r r') :
    TakenBy me c r' := by
  obtain ⟨ptr, hptr, haddr, hsynced, hnum⟩ := h
  have hext := hgrows.con ptr hptr
  exact ⟨ptr, Nat.lt_of_lt_of_le hptr hgrows.next, hext.addr.trans haddr, (hext.synced hsynced).1,
    (hext.synced hsynced).2.trans hnum⟩

/-- A record with its SYN stays one. -/
theorem Grows.between_synced {r r' : Members} (hgrows : Grows r r')
    (h : ∃ ptr < r.nextPtr, Between peer p q (r.con ptr).addr ∧ Synced (r.con ptr)) :
    ∃ ptr < r'.nextPtr, Between peer p q (r'.con ptr).addr ∧ Synced (r'.con ptr) := by
  obtain ⟨ptr, hptr, hbetween, hsynced⟩ := h
  have hext := hgrows.con ptr hptr
  refine ⟨ptr, Nat.lt_of_lt_of_le hptr hgrows.next, ?_, (hext.synced hsynced).1⟩
  rw [hext.addr]
  exact hbetween

theorem Vouches.grows {r r₁ r' r₁' : Members} {s : Sent} (h : Vouches me peer p q r r' s)
    (hgrows : Grows r r₁) (hgrows' : Grows r' r₁') : Vouches me peer p q r₁ r₁' s := by
  intro hdid hto
  obtain ⟨hack, hsyn⟩ := h hdid hto
  refine ⟨fun hhas hrst => hgrows.between_synced (hack hhas hrst), fun hhas => ?_⟩
  rcases hsyn hhas with ⟨ptr, hptr, hbetween, haddr, hnum⟩ | hpeer
  · have hext := hgrows.con ptr hptr
    refine Or.inl ⟨ptr, Nat.lt_of_lt_of_le hptr hgrows.next, ?_, ?_, ?_⟩
    · rw [hext.addr]
      exact hbetween
    · rw [hext.addr]
      exact haddr
    · rw [hext.sndIss]
      exact hnum
  · exact Or.inr (hgrows'.between_synced hpeer)

/-- The peer takes its steps. -/
theorem Certified.grows {r r' r₁' : Members} {sent : List Sent}
    (h : Certified me peer p q r sent r')
    (hgrows : Grows r' r₁') : Certified me peer p q r sent r₁' where
  took := fun ptr hptr hb hs => (h.took ptr hptr hb hs).grows hgrows
  opened := fun ptr hptr hb hs => (h.opened ptr hptr hb hs).grows hgrows
  vouches := fun s hs => (h.vouches s hs).grows (.refl r) hgrows

/-- What a record says vouches for it. -/
theorem Says.vouches {w : World} {ptr : ConPtr} {e : Emitted} (h : Says (w.rdp.con ptr) e.seg)
    (hc : StateOk (w.rdp.con ptr)) (hptr : ptr < w.rdp.nextPtr) (r' : Members) :
    Vouches me peer p q w.rdp r'
      ⟨(w.rdp.con ptr).addr.did, e.seg, some (ptr, e.rcvCur), w.inCallback⟩ := by
  intro hdid hto
  have hdid' : (w.rdp.con ptr).addr.did = peer := hdid
  -- The ports of the segment are those of the record.
  have hbetween : sentTo me e.seg = mirror me (w.rdp.con ptr).addr →
      Between peer p q (w.rdp.con ptr).addr := by
    intro haddr
    have hto' : Between me p q (mirror me (w.rdp.con ptr).addr) := haddr ▸ hto
    have hback : Between peer p q (mirror peer (mirror me (w.rdp.con ptr).addr)) := hto'.mirror
    rwa [mirror_mirror hdid'] at hback
  refine ⟨fun hack hrst => ?_, fun hsyn => Or.inl ?_⟩
  · obtain ⟨hstate, haddr⟩ := h.ack hack hrst
    exact ⟨ptr, hptr, hbetween (haddr me), hc.taken hstate⟩
  · obtain ⟨hnum, haddr⟩ := h.syn hsyn
    exact ⟨ptr, hptr, hbetween (haddr me), haddr me, hnum⟩

/-! ### Steps of one node -/

variable {sent : List Sent} {r' : Members}

/-- Neither the records nor what went out changes. -/
theorem Certified.same {w w' : World} (h : Certified me peer p q w.rdp (sent ++ w.out) r')
    (hcon : w'.rdp.con = w.rdp.con) (hnext : w'.rdp.nextPtr = w.rdp.nextPtr)
    (hout : w'.out = w.out) : Certified me peer p q w'.rdp (sent ++ w'.out) r' := by
  rw [hout]
  constructor
  case took =>
    rw [hcon, hnext]
    exact h.took
  case opened =>
    rw [hcon, hnext]
    exact h.opened
  case vouches => exact fun s hs => (h.vouches s hs).grows (.of_same hcon hnext) (.refl r')

/-- A record changes and emits. -/
theorem Certified.conStep {w : World} (h : Certified me peer p q w.rdp (sent ++ w.out) r')
    {ptr : ConPtr} {c : RdpCon} {out : List Emitted} (hext : Extends (w.rdp.con ptr) c)
    (htook : Between peer p q c.addr → Synced c → TookSyn me c r')
    (hopened : Between peer p q c.addr → c.state = .opened → TakenBy me c r')
    (hout : ∀ e ∈ out, Vouches me peer p q w.rdp r'
      ⟨(w.rdp.con ptr).addr.did, e.seg, some (ptr, e.rcvCur), w.inCallback⟩) :
    Certified me peer p q (Rdp.conStep w ptr c out).rdp (sent ++ (Rdp.conStep w ptr c out).out)
      r' := by
  have hcon : ∀ ptr', (Rdp.conStep w ptr c out).rdp.con ptr'
      = if ptr' = ptr then c else w.rdp.con ptr' := fun ptr' => Function.update_apply ..
  refine ⟨fun ptr' hptr' hb hs => ?_, fun ptr' hptr' hb hs => ?_, fun s hs => ?_⟩
  · rw [hcon] at hb hs ⊢
    split at hb
    · rw [if_pos ‹_›] at hs ⊢
      exact htook hb hs
    · rw [if_neg ‹_›] at hs ⊢
      exact h.took ptr' hptr' hb hs
  · rw [hcon] at hb hs ⊢
    split at hb
    · rw [if_pos ‹_›] at hs ⊢
      exact hopened hb hs
    · rw [if_neg ‹_›] at hs ⊢
      exact h.opened ptr' hptr' hb hs
  · -- What was sent before is vouched for as before, and `hout` has the rest.
    have hgrows : Grows w.rdp (Rdp.conStep w ptr c out).rdp := .conStep hext out
    refine Vouches.grows ?_ hgrows (.refl r')
    have hs' : s ∈ sent ++ (w.out ++ out.map fun e =>
        ⟨(w.rdp.con ptr).addr.did, e.seg, some (ptr, e.rcvCur), w.inCallback⟩) := hs
    rw [← List.append_assoc] at hs'
    rcases List.mem_append.mp hs' with hold | hnew
    · exact h.vouches s hold
    · obtain ⟨e, he, rfl⟩ := List.mem_map.mp hnew
      exact hout e he

/-- A step that changes neither of the two numbers, and opens nothing. -/
theorem Certified.conStep_of_tells {w : World} (h : Certified me peer p q w.rdp (sent ++ w.out) r')
    {ptr : ConPtr} (hptr : ptr < w.rdp.nextPtr) (hc : StateOk (w.rdp.con ptr)) {c : RdpCon}
    {out : List Emitted} (hext : Extends (w.rdp.con ptr) c)
    (hback : Synced c → Synced (w.rdp.con ptr))
    (hopen : c.state = .opened → (w.rdp.con ptr).state = .opened)
    (htells : ∀ e ∈ out, Says (w.rdp.con ptr) e.seg) :
    Certified me peer p q (Rdp.conStep w ptr c out).rdp (sent ++ (Rdp.conStep w ptr c out).out)
      r' := by
  refine h.conStep hext (fun hb hs => ?_) (fun hb hs => ?_) fun e he =>
    (htells e he).vouches hc hptr r'
  · rw [hext.addr] at hb
    obtain ⟨ptr', hptr', haddr, hnum⟩ := h.took ptr hptr hb (hback hs)
    refine ⟨ptr', hptr', ?_, (hext.synced (hback hs)).2.trans hnum⟩
    rw [hext.addr]
    exact haddr
  · rw [hext.addr] at hb
    obtain ⟨ptr', hptr', haddr, hsynced, hnum⟩ := h.opened ptr hptr hb (hopen hs)
    refine ⟨ptr', hptr', ?_, hsynced, hnum.trans hext.sndIss.symm⟩
    rw [hext.addr]
    exact haddr

/-- A new record. -/
theorem Certified.withCon {w : World} (h : Certified me peer p q w.rdp (sent ++ w.out) r')
    {desc : Int} {c : RdpCon} (htook : Between peer p q c.addr → Synced c → TookSyn me c r')
    (hopened : c.state ≠ .opened) :
    Certified me peer p q (Rdp.withCon w.rdp desc c) (sent ++ w.out) r' := by
  have hold : ∀ ptr < w.rdp.nextPtr, (Rdp.withCon w.rdp desc c).con ptr = w.rdp.con ptr :=
    fun ptr hptr => Function.update_of_ne (Nat.ne_of_lt hptr) ..
  have hnew : (Rdp.withCon w.rdp desc c).con w.rdp.nextPtr = { c with desc := desc } :=
    withCon_con_self ..
  refine ⟨fun ptr hptr hb hs => ?_, fun ptr hptr hb hs => ?_, fun s hs => ?_⟩
  · rcases Nat.lt_succ_iff_lt_or_eq.mp hptr with hlt | rfl
    · rw [hold ptr hlt] at hb hs ⊢
      exact h.took ptr hlt hb hs
    · rw [hnew] at hb hs ⊢
      exact htook hb hs
  · rcases Nat.lt_succ_iff_lt_or_eq.mp hptr with hlt | rfl
    · rw [hold ptr hlt] at hb hs ⊢
      exact h.opened ptr hlt hb hs
    · rw [hnew] at hs
      exact absurd hs hopened
  · exact (h.vouches s hs).grows (.withCon ..) (.refl r')

theorem Certified.callStep {w w' : World} (h : Certified me peer p q w.rdp (sent ++ w.out) r')
    (hok : AllCons StateOk w.rdp) (hstep : CallStep w w') :
    Certified me peer p q w'.rdp (sent ++ w'.out) r' := by
  cases hstep with
  | quiet hquiet => exact h.same (by rw [hquiet.rdp]) (by rw [hquiet.rdp]) hquiet.out
  | @con ptr c out hptr hcon =>
    have hfew := hcon.takes_nothing
    exact h.conStep_of_tells hptr (hok _ hptr) hcon.extends hfew.1 hfew.2 (hcon.tells (hok _ hptr))
  | erase => exact h.same rfl rfl rfl
  | event => exact h.same rfl rfl rfl
  | @listen sport desc =>
    have hsame : (withListening w.rdp sport desc).con = w.rdp.con ∧
        (withListening w.rdp sport desc).nextPtr = w.rdp.nextPtr := by
      unfold withListening Members.insertListening
      split <;> exact ⟨rfl, rfl⟩
    exact h.same hsame.1 hsame.2 rfl
  | unlisten => exact h.same rfl rfl rfl
  | connect => exact h.withCon (fun _ hs => absurd rfl hs) (fun hs => nomatch hs)

/-! ### Segments from the peer -/

section
variable {sent' : List Sent} {r : Members} {src : Id} {pbuf : Packetbuf}

/-- An acknowledgement from the peer: it has taken the SYN of the only record here. -/
theorem takenBy_of_ack (hpeer : Certified peer me p q r' sent' r) (hone : OneRecord peer p q r)
    {ptr : ConPtr} (hptr : ptr < r.nextPtr) (hbetween : Between peer p q (r.con ptr).addr)
    (haddr : (r.con ptr).addr = sentTo peer pbuf.data)
    (hfrom : ∃ s ∈ sent', s.did = me ∧ pbuf.data = s.seg)
    (hack : (RdpHead.decode pbuf.data).has flagAck = true)
    (hrst : (RdpHead.decode pbuf.data).has flagRst = false) : TakenBy me (r.con ptr) r' := by
  obtain ⟨s, hs, hdid, hseg⟩ := hfrom
  rw [hseg] at haddr hack hrst
  rw [haddr] at hbetween
  obtain ⟨ptr', hptr', hbetween', hsynced⟩ := (hpeer.vouches s hs hdid hbetween).1 hack hrst
  -- The SYN it has taken is that of a record here, so of this one.
  obtain ⟨ptr₁, hptr₁, haddr₁, hnum⟩ := hpeer.took ptr' hptr' hbetween' hsynced
  have hsame : ptr₁ = ptr := by
    refine hone ptr₁ hptr₁ ptr hptr ?_ ?_
    · rw [haddr₁]
      exact hbetween'.mirror
    · rw [haddr]
      exact hbetween
  subst hsame
  refine ⟨ptr', hptr', ?_, hsynced, hnum⟩
  rw [haddr₁, mirror_mirror hbetween'.1]

/-- A SYN from the peer while no record here has one: it has the number of a record
there. -/
theorem number_of_syn (hpeer : Certified peer me p q r' sent' r)
    (hnone : ∀ ptr < r.nextPtr, Between peer p q (r.con ptr).addr → ¬ Synced (r.con ptr))
    (hbetween : Between peer p q (sentTo peer pbuf.data))
    (hfrom : ∃ s ∈ sent', s.did = me ∧ pbuf.data = s.seg)
    (hsyn : (RdpHead.decode pbuf.data).has flagSyn = true) :
    ∃ ptr' < r'.nextPtr, (r'.con ptr').addr = mirror me (sentTo peer pbuf.data) ∧
      (RdpHead.decode pbuf.data).seqnum = (r'.con ptr').sndIss := by
  obtain ⟨s, hs, hdid, hseg⟩ := hfrom
  rw [hseg] at hbetween hsyn ⊢
  rcases (hpeer.vouches s hs hdid hbetween).2 hsyn with
    ⟨ptr', hptr', hbetween', haddr, hnum⟩ | ⟨ptr, hptr, hb, hsynced⟩
  · refine ⟨ptr', hptr', ?_, hnum⟩
    rw [haddr, mirror_mirror hbetween'.1]
  · exact absurd hsynced (hnone ptr hptr hb)

end

/-- Where one record is without a SYN, so are all for these ports. -/
theorem OneRecord.none_synced {r : Members} (hone : OneRecord peer p q r) {ptr : ConPtr}
    (hptr : ptr < r.nextPtr) (hbetween : Between peer p q (r.con ptr).addr)
    (hfresh : ¬ Synced (r.con ptr)) :
    ∀ ptr' < r.nextPtr, Between peer p q (r.con ptr').addr → ¬ Synced (r.con ptr') := by
  intro ptr' hptr' hbetween'
  rwa [hone ptr' hptr' ptr hptr hbetween' hbetween]

/-- A record without a SYN takes the number of a record of `me` from a SYN of the peer. -/
theorem Certified.number {sent' : List Sent} {r : Members}
    (hpeer : Certified peer me p q r' sent' r) (hone : OneRecord peer p q r) {ptr : ConPtr}
    (hptr : ptr < r.nextPtr) (hbetween : Between peer p q (r.con ptr).addr)
    (hfresh : ¬ Synced (r.con ptr)) {pbuf : Packetbuf}
    (haddr : (r.con ptr).addr = sentTo peer pbuf.data)
    (hfrom : ∃ s ∈ sent', s.did = me ∧ pbuf.data = s.seg)
    (hsyn : (RdpHead.decode pbuf.data).has flagSyn = true) :
    ∃ ptr' < r'.nextPtr, (r'.con ptr').addr = mirror me (r.con ptr).addr ∧
      (RdpHead.decode pbuf.data).seqnum = (r'.con ptr').sndIss := by
  rw [haddr]
  exact number_of_syn hpeer (hone.none_synced hptr hbetween hfresh) (haddr ▸ hbetween) hfrom hsyn

/-- A segment does to its record what its kind says. -/
theorem Certified.arriveStep {w : World} {sent' : List Sent} {i : Input} {r : Members}
    (h : Certified me peer p q w.rdp (sent ++ w.out) r')
    (hpeer : Certified peer me p q r' sent' w.rdp) (hone : OneRecord peer p q w.rdp)
    (hfrom : ∀ pbuf, i = .arrive peer pbuf → ∃ s ∈ sent', s.did = me ∧ pbuf.data = s.seg)
    {ptr : ConPtr} (hptr : ptr < w.rdp.nextPtr) (hc : StateOk (w.rdp.con ptr)) {pbuf : Packetbuf}
    (hsame : w.rdp.con ptr = r.con ptr) (hfor : ForCon r i ptr pbuf) {c : RdpCon}
    {out : List Emitted} (hstep : ArriveStep pbuf (w.rdp.con ptr) c out) :
    Certified me peer p q (Rdp.conStep w ptr c out).rdp (sent ++ (Rdp.conStep w ptr c out).out)
      r' := by
  obtain ⟨src, hi, hlen, haddr, -⟩ := hfor
  rw [← hsame, addrOf_eq_sentTo] at haddr
  -- A record for these ports gets its segments from the peer.
  have hsrc : Between peer p q (w.rdp.con ptr).addr →
      (w.rdp.con ptr).addr = sentTo peer pbuf.data ∧
        ∃ s ∈ sent', s.did = me ∧ pbuf.data = s.seg := by
    intro hb
    have hdid : src = peer := by
      rw [haddr] at hb
      exact hb.1
    subst hdid
    exact ⟨haddr, hfrom pbuf hi⟩
  have hext := hstep.extends hc
  cases hstep with
  | again hagain =>
    refine h.conStep_of_tells hptr hc hext id id fun e he => ?_
    rw [List.mem_singleton.mp he]
    exact tells_synSegment fun _ => by rw [hagain.1]; rfl
  | echo hsyn =>
    have hsynced : Synced (w.rdp.con ptr) := hc.taken (by rw [hsyn.1]; rfl)
    refine h.conStep hext (fun hb _ => h.took ptr hptr hb hsynced) (fun _ hs => nomatch hs) ?_
    intro e he hdid hto
    rw [List.mem_singleton.mp he] at hto ⊢
    -- The segment that goes back is for the same two ports.
    have hhead := head_echo hlen (openRst (w.rdp.con ptr).addr pbuf).encode
    have hbetween : Between peer p q (w.rdp.con ptr).addr := by
      have hports : Between me p q (sentTo me pbuf.data) := by
        rw [sentTo, ← hhead]
        exact hto
      refine ⟨hdid, ?_⟩
      rw [haddr]
      exact hports.2
    refine ⟨fun _ _ => ⟨ptr, hptr, hbetween, hsynced⟩, fun _ => Or.inr ?_⟩
    obtain ⟨ptr', hptr', haddr', hsynced', -⟩ := h.opened ptr hptr hbetween hsyn.1
    refine ⟨ptr', hptr', ?_, hsynced'⟩
    rw [haddr']
    exact hbetween.mirror
  | takeSyn hsyn =>
    refine h.conStep hext (fun hb _ => ?_) (fun _ hs => nomatch hs) (fun _ he => nomatch he)
    obtain ⟨haddr', hsent⟩ := hsrc hb
    exact hpeer.number hone hptr hb (hc.fresh hsyn.1) haddr' hsent hsyn.2.2.1
  | takeSynAck hsyn hack =>
    refine h.conStep hext (fun hb _ => ?_) (fun hb _ => ?_) (fun _ he => nomatch he)
    · obtain ⟨haddr', hsent⟩ := hsrc hb
      exact hpeer.number hone hptr hb (hc.fresh hsyn.1) haddr' hsent hsyn.2.2.1
    · obtain ⟨haddr', hsent⟩ := hsrc hb
      exact takenBy_of_ack hpeer hone hptr hb haddr' hsent hack hsyn.2.2.2.1
  | takeAck hstate hack hrst =>
    have hsynced : Synced (w.rdp.con ptr) := hc.taken (by rw [hstate]; rfl)
    refine h.conStep hext (fun hb _ => h.took ptr hptr hb hsynced) (fun hb _ => ?_)
      (fun _ he => nomatch he)
    obtain ⟨haddr', hsent⟩ := hsrc hb
    exact takenBy_of_ack hpeer hone hptr hb haddr' hsent hack hrst

/-- The steps of an input that the network delivers. -/
theorem Certified.micro {w w' : World} {sent' : List Sent} {i : Input} {r : Members}
    (h : Certified me peer p q w.rdp (sent ++ w.out) r')
    (hpeer : Certified peer me p q r' sent' w.rdp) (hone : OneRecord peer p q w'.rdp)
    (hfrom : ∀ pbuf, i = .arrive peer pbuf → ∃ s ∈ sent', s.did = me ∧ pbuf.data = s.seg)
    (hok : AllCons StateOk w.rdp) (hstep : Micro r i w w') :
    Certified me peer p q w'.rdp (sent ++ w'.out) r' := by
  have hone₀ : OneRecord peer p q w.rdp := (Grows.micro hok hstep).oneRecord hone
  cases hstep with
  | call hcall => exact h.callStep hok hcall
  | event hevent =>
    refine (chain_inv (fun w => AllCons StateOk w.rdp ∧
      Certified me peer p q w.rdp (sent ++ w.out) r') ?_ ⟨hok, h⟩ hevent).2
    rintro w₁ w₂ ⟨hok₁, h₁⟩ (hcall | hquiet)
    · exact ⟨stateOk_callStep hok₁ hcall, h₁.callStep hok₁ hcall⟩
    · refine ⟨hok₁.quiet hquiet, h₁.same ?_ ?_ hquiet.out⟩ <;> rw [hquiet.rdp]
  | say hpart =>
    refine ⟨h.took, h.opened, fun s hs => ?_⟩
    rw [← List.append_assoc] at hs
    rcases List.mem_append.mp hs with hs | hs
    · exact h.vouches s hs
    · rw [List.mem_singleton.mp hs]
      have htells := hpart.tells (c := default)
      exact fun _ _ => ⟨fun hack hrst => absurd (htells.ack hack hrst).1 (by decide),
        fun hsyn => nomatch hpart.1.symm.trans hsyn⟩
  | @con ptr c out hptr hcon =>
    have hfew := hcon.takes_nothing
    exact h.conStep_of_tells hptr (hok _ hptr) hcon.extends hfew.1 hfew.2 (hcon.tells (hok _ hptr))
  | arrive hptr hsame hfor hcon =>
    exact h.arriveStep hpeer hone₀ hfrom hptr (hok _ hptr) hsame hfor hcon
  | erase => exact h.same rfl rfl rfl
  | @accept src pbuf desc hsame hi hsyn hdesc uninit iss clock =>
    refine h.withCon (fun hb _ => ?_) (fun hs => nomatch hs)
    have hb' : Between peer p q (sentTo src pbuf.data) := hb
    have hsrc : src = peer := hb'.1
    subst hsrc
    -- The new record is the only one.
    have hnone : ∀ ptr < w.rdp.nextPtr, Between src p q (w.rdp.con ptr).addr →
        ¬ Synced (w.rdp.con ptr) := by
      intro ptr hptr hbetween _
      refine absurd (hone ptr (Nat.lt_succ_of_lt hptr) w.rdp.nextPtr (Nat.lt_succ_self _) ?_ ?_)
        (Nat.ne_of_lt hptr)
      · rwa [((Grows.withCon ..).con ptr hptr).addr]
      · rw [withCon_con_self]
        exact hb
    obtain ⟨ptr', hptr', hmirror, hnum⟩ :=
      number_of_syn hpeer hnone hb' (hfrom pbuf hi) hsyn.2.2.2.1
    exact ⟨ptr', hptr', hmirror, hnum⟩

end

/-- One input of a node whose peer stays as it is. -/
theorem Certified.step {me peer : Id} {p q : BitVec 16} {r r' : Members} {sent sent' : List Sent}
    (hr : Started r) (hok : AllCons StateOk r) {i : Input}
    (hfrom : ∀ pbuf, i = .arrive peer pbuf → ∃ s ∈ sent', s.did = me ∧ pbuf.data = s.seg)
    {env : Env}
    {w : World} (hrun : (handle i).run (.start r env) = .ok ((), w)) :
    Started w.rdp ∧ AllCons StateOk w.rdp ∧ Grows r w.rdp ∧
      (Certified me peer p q r sent r' → Certified peer me p q r' sent' r →
        OneRecord peer p q w.rdp → Certified me peer p q w.rdp (sent ++ w.out) r') := by
  refine step_inv hr (fun w => AllCons StateOk w.rdp ∧ Grows r w.rdp ∧
    (Certified me peer p q r sent r' → Certified peer me p q r' sent' r →
      OneRecord peer p q w.rdp → Certified me peer p q w.rdp (sent ++ w.out) r')) ?_ ?_ hrun
  · rintro w₁ w₂ - ⟨hok₁, hgrows, hcert⟩ hmicro
    have hgrows' := Grows.micro hok₁ hmicro
    refine ⟨stateOk_micro hok₁ hmicro, hgrows.trans hgrows', fun hme hpeer hone => ?_⟩
    exact (hcert hme hpeer (hgrows'.oneRecord hone)).micro
      (hpeer.grows hgrows) hone hfrom hok₁ hmicro
  · refine ⟨hok, .refl r, fun hme _ _ => ?_⟩
    show Certified me peer p q r (sent ++ []) r'
    rwa [List.append_nil]

/-! ### Runs of both nodes -/

/-- What holds of both nodes after a run. -/
structure NetworkOk (id : Side → Id) (p q : BitVec 16) (n : Network) : Prop where
  started : ∀ side, Started (n side).rdp
  stateOk : ∀ side, AllCons StateOk (n side).rdp
  certified : (∀ side : Side, OneRecord (id side.other) p q (n side).rdp) →
    ∀ side : Side, Certified (id side) (id side.other) p q (n side).rdp (n side).sent
      (n side.other).rdp

section
variable {id : Side → Id} {p q : BitVec 16}

theorem networkOk_init (con : Side → ConPtr → RdpCon) : NetworkOk id p q (.init con) where
  started := fun side => started_init (con side)
  stateOk := fun _ ptr hptr => absurd hptr (Nat.not_lt_zero ptr)
  certified := fun _ _ =>
    { took := fun ptr hptr => absurd hptr (Nat.not_lt_zero ptr)
      opened := fun ptr hptr => absurd hptr (Nat.not_lt_zero ptr)
      vouches := fun _ hs => nomatch hs }

theorem NetworkOk.step {n n' : Network} {input : Side × Env × Input} (h : NetworkOk id p q n)
    (hdelivers : Network.Delivers id n input) (hstep : n.step input = .ok n') :
    NetworkOk id p q n' := by
  obtain ⟨side, env, i⟩ := input
  obtain ⟨⟨r, out⟩, hone, hn⟩ := bind_eq_ok hstep
  obtain rfl := Except.ok.inj hn
  obtain ⟨⟨⟨⟩, w⟩, hrun, hend⟩ := bind_eq_ok hone
  obtain ⟨rfl, rfl⟩ := Prod.mk.inj (Except.ok.inj hend)
  have hfrom : ∀ pbuf, i = .arrive (id side.other) pbuf →
      ∃ s ∈ (n side.other).sent, s.did = id side ∧ pbuf.data = s.seg := by
    rintro pbuf rfl
    exact hdelivers rfl
  obtain ⟨hstarted, hok, hgrows, hcert⟩ := Certified.step (p := p) (q := q) (h.started side)
    (h.stateOk side) hfrom hrun
  have hself : (Function.update n side ⟨w.rdp, (n side).sent ++ w.out⟩) side
      = ⟨w.rdp, (n side).sent ++ w.out⟩ := Function.update_self ..
  have hother : (Function.update n side ⟨w.rdp, (n side).sent ++ w.out⟩) side.other
      = n side.other := Function.update_of_ne side.other_ne ..
  have hsides : ∀ s : Side, s = side ∨ s = side.other := by
    intro s
    cases s <;> cases side <;> decide
  refine ⟨fun s => ?_, fun s => ?_, fun hboth => ?_⟩
  · rcases hsides s with rfl | rfl
    · rw [hself]
      exact hstarted
    · rw [hother]
      exact h.started _
  · rcases hsides s with rfl | rfl
    · rw [hself]
      exact hok
    · rw [hother]
      exact h.stateOk _
  · have hme := hboth side
    have hpeer := hboth side.other
    rw [hself] at hme
    rw [hother, Side.other_other] at hpeer
    -- There were not two records before, so both nodes were certified.
    have hbefore := h.certified fun s => by
      rcases hsides s with rfl | rfl
      · exact hgrows.oneRecord hme
      · rw [Side.other_other]
        exact hpeer
    have hpeer₀ := hbefore side.other
    rw [Side.other_other] at hpeer₀
    intro s
    rcases hsides s with rfl | rfl
    · rw [hself, hother]
      exact hcert (hbefore _) hpeer₀ hme
    · rw [Side.other_other, hself, hother]
      exact hpeer₀.grows hgrows

/-- In every run of two nodes and the network between them, with at most one record each for
two ports: where a record is in state OPEN, a record of the other node has taken its SYN, and
each has the first number of the other. -/
theorem handshake_agrees {con : Side → ConPtr → RdpCon} {inputs : List (Side × Env × Input)}
    {n : Network} (hdelivers : Allowed Network.step (Network.Delivers id) (.init con) inputs)
    (hrun : run Network.step (.init con) inputs = .ok n)
    (hone : ∀ side : Side, OneRecord (id side.other) p q (n side).rdp) {side : Side} {ptr : ConPtr}
    (hptr : ptr < (n side).rdp.nextPtr)
    (haddr : ((n side).rdp.con ptr).addr = ⟨id side.other, q, p⟩)
    (hopen : ((n side).rdp.con ptr).state = .opened) :
    ∃ ptr' < (n side.other).rdp.nextPtr,
      let x := (n side).rdp.con ptr
      let y := (n side.other).rdp.con ptr'
      y.addr = ⟨id side, p, q⟩ ∧ Synced y ∧ y.rcvIrs = x.sndIss ∧ x.rcvIrs = y.sndIss := by
  have hok : NetworkOk id p q n :=
    inv_of_run (fun _ _ _ h hdelivers hstep => h.step hdelivers hstep)
      (networkOk_init con) hdelivers hrun
  have hcert := hok.certified hone side
  have hbetween : Between (id side.other) p q ((n side).rdp.con ptr).addr := by
    rw [haddr]
    exact ⟨rfl, Or.inl ⟨rfl, rfl⟩⟩
  have hsynced := (hok.stateOk side ptr hptr).taken (by rw [hopen]; rfl)
  obtain ⟨ptr', hptr', haddr', htaken, hnum⟩ := hcert.opened ptr hptr hbetween hopen
  obtain ⟨ptr₁, hptr₁, haddr₁, hnum₁⟩ := hcert.took ptr hptr hbetween hsynced
  -- The record that took the SYN is the one whose SYN was taken.
  have hone' := hone side.other
  rw [Side.other_other] at hone'
  have hsame : ptr₁ = ptr' := by
    refine hone' ptr₁ hptr₁ ptr' hptr' ?_ ?_
    · rw [haddr₁]
      exact hbetween.mirror
    · rw [haddr']
      exact hbetween.mirror
  subst hsame
  refine ⟨ptr₁, hptr₁, ?_, htaken, hnum, hnum₁⟩
  show ((n side.other).rdp.con ptr₁).addr = _
  rw [haddr', haddr]
  rfl

end

/-! ### A small run -/

/-- The ids of two nodes. -/
def twoIds : Side → Id
  | .left => 1
  | .right => 2

/-- The SYN of a node. -/
def sentSyn (flags : Byte) (sport dport : BitVec 16) (seq ack : BitVec 32) : Packetbuf :=
  incoming ({ head :=
      { flags := flags, hlen := 12, sport := sport, dport := dport, seqnum := seq, acknum := ack }
              outSegsMax := 1024, segSizeMax := 884 } : RdpSyn).encode
    (by rw [RdpSyn.length_encode]; decide)

/-- One node listens on port 100, and the other connects to it from port 200. -/
def openRun : List (Side × Env × Input) :=
  [(.right, oneNumber 7, .call (.listen 100 0)),
   (.left, { (default : Env) with rnd := [1000, 8] }, .call (.connect 200 2 100 0)),
   (.right, { (default : Env) with rnd := [500, 9] },
     .arrive 1 (sentSyn (flagSyn ||| flagVer) 200 100 1000 0)),
   (.left, default, .arrive 2 (sentSyn (flagSyn ||| flagAck ||| flagVer) 100 200 500 1000))]

/-- The node that connects is in state OPEN after the SYN of the other has come. -/
theorem handshake_agrees_activeOpen :
    ∃ n : Network, run Network.step (.init fun _ _ => default) openRun = .ok n ∧
      ((n .left).rdp.con 0).state = .opened ∧
      ∃ ptr' < (n .right).rdp.nextPtr,
        let x := (n .left).rdp.con 0
        let y := (n .right).rdp.con ptr'
        y.addr = ⟨1, 200, 100⟩ ∧ Synced y ∧ y.rcvIrs = x.sndIss ∧ x.rcvIrs = y.sndIss := by
  have hdelivers : Allowed Network.step (Network.Delivers twoIds) (.init fun _ _ => default)
      openRun := by decide +kernel
  have h : (do
      let n ← run Network.step (.init fun _ _ => default) openRun
      return (((n .left).rdp.nextPtr, (n .right).rdp.nextPtr),
        ((n .left).rdp.con 0).addr, ((n .left).rdp.con 0).state))
      = (.ok ((1, 1), ⟨2, 100, 200⟩, .opened) : Except Fault _) := by decide +kernel
  obtain ⟨n, hrun, hend⟩ := bind_eq_ok h
  have hend' := Except.ok.inj hend
  simp only [Prod.mk.injEq] at hend'
  obtain ⟨⟨hleft, hright⟩, haddr, hopen⟩ := hend'
  have hone : ∀ side : Side, OneRecord (twoIds side.other) 200 100 (n side).rdp := by
    intro side ptr hptr ptr' hptr' _ _
    have hnext : (n side).rdp.nextPtr = 1 := by cases side <;> assumption
    rw [hnext] at hptr hptr'
    exact (Nat.lt_one_iff.mp hptr).trans (Nat.lt_one_iff.mp hptr').symm
  have hptr : 0 < (n .left).rdp.nextPtr := by
    rw [hleft]
    exact Nat.one_pos
  have haddr' : ((n .left).rdp.con 0).addr = ⟨twoIds Side.left.other, 100, 200⟩ := haddr
  exact ⟨n, hrun, hopen, handshake_agrees hdelivers hrun hone hptr haddr' hopen⟩

end Libcage.Proofs.Rdp
