import Libcage.Proofs.Rdp.Dispatch
import Libcage.Proofs.Rdp.Runs
import Libcage.Rdp.Flight

/-!
# `Libcage.Proofs.Rdp.SimultaneousOpen`: two nodes connect to each other

Both SYNs are in flight. The exchange has two ways to go on from there, and the second
delivery decides between them (`completes_iff`).

* The SYN|ACK of the first node comes before its SYN does. It opens the second node, whose
  acknowledgement opens the first one.
* The SYNs cross. Both nodes are in state SYN_RCVD then. That state looks at the SYN of a
  segment before its ACK and answers each SYN|ACK with another one, so nothing else is
  ever in flight and neither connection opens.

`Opening` is the exchange without numbers: the states of both ends and the kinds of the
segments in flight. `Refines.deliver` says that each delivery is one of its moves, and
the rest is about `Opening`.
-/

set_option autoImplicit false

namespace Libcage.Proofs.Rdp

open Libcage.Lib
open Libcage.Rdp

/-! ### Segments -/

/-- What a segment of the exchange is. `again` is what state SYN_RCVD answers a SYN with. -/
inductive Kind where
  | syn | synAck | again | ack
deriving DecidableEq

namespace Kind

/-- The flags of the segment. -/
def flags : Kind → Byte
  | .syn => flagSyn ||| flagVer
  | .synAck => flagSyn ||| flagAck ||| flagVer
  | .again => flagAck ||| flagSyn ||| flagVer
  | .ack => flagAck ||| flagVer

/-- The header of the segment, from a record with the initial numbers `iss` and `irs`. -/
def head (addr : RdpAddr) (iss irs : BitVec 32) (kind : Kind) : RdpHead where
  flags := kind.flags
  hlen := if kind = .ack then 10 else 12
  sport := addr.sport
  dport := addr.dport
  seqnum := if kind = .ack then iss + 1 else iss
  acknum := if kind = .synAck ∨ kind = .ack then irs else 0

/-- The bytes of the segment. -/
def encode (addr : RdpAddr) (iss irs : BitVec 32) (kind : Kind) : List Byte :=
  match kind with
  | .ack => (kind.head addr iss irs).encode
  | _ =>
      ({ head := kind.head addr iss irs
         outSegsMax := rcvMaxDefault.setWidth 16
         segSizeMax := rbufMaxDefault.setWidth 16 } : RdpSyn).encode

variable {addr : RdpAddr} {iss irs : BitVec 32}

@[simp] theorem decode_encode (kind : Kind) :
    RdpHead.decode (kind.encode addr iss irs) = kind.head addr iss irs := by
  cases kind <;> simp [encode]

theorem sizeofHead_le (kind : Kind) : sizeofHead ≤ (kind.encode addr iss irs).length := by
  cases kind <;> simp [encode, sizeofHead, sizeofSyn]

theorem has_head {kind : Kind} {flag : Byte} {b : Bool} (h : (kind.flags &&& flag != 0) = b) :
    (kind.head addr iss irs).has flag = b := h

theorem lacks_head {kind : Kind} {flag : Byte} (h : (kind.flags &&& flag != 0) = false) :
    ¬ (kind.head addr iss irs).has flag = true := ne_true_of_eq_false h

theorem length_le (kind : Kind) : (kind.encode addr iss irs).length ≤ sizeofSyn := by
  cases kind <;> simp [encode, sizeofHead, sizeofSyn]

/-- Everything but the last acknowledgement is a SYN. -/
theorem isSyn_of_ne_ack (addr : RdpAddr) (iss irs : BitVec 32) {kind : Kind} (h : kind ≠ .ack) :
    (kind.encode addr iss irs).length = sizeofSyn ∧
      (kind.head addr iss irs).has flagSyn = true ∧ (kind.head addr iss irs).seqnum = iss := by
  cases kind
  case ack => exact absurd rfl h
  all_goals exact ⟨rfl, has_head (by decide), rfl⟩

/-- No segment is a reset. -/
theorem not_rst (kind : Kind) : (kind.head addr iss irs).has flagRst = false := by
  cases kind <;> exact has_head (by decide)

end Kind

/-! ### Records -/

/-- A record of the exchange: its address, its initial numbers and its state. From the
SYN on it has the numbers of the other end and empty windows. -/
structure Ready (addr : RdpAddr) (iss irs : BitVec 32) (state : RdpState) (c : RdpCon) : Prop where
  addr_eq : c.addr = addr
  state_eq : c.state = state
  isPasv : c.isPasv = false
  sndIss : c.sndIss = iss
  sndNxt : c.sndNxt = iss + 1
  sndUna : c.sndUna = iss
  rcvMax : c.rcvMax = rcvMaxDefault
  rbufMax : c.rbufMax = rbufMaxDefault
  numbers : state ≠ .synSent → c.rcvCur = irs ∧ c.rcvIrs = irs
  window : state ≠ .synSent →
    c.swndLen ≠ 0 ∧ c.swndHead = 0 ∧ c.swndUsed = 0 ∧ c.swndOstand = 0

namespace Ready

variable {addr : RdpAddr} {iss irs : BitVec 32} {state : RdpState} {c : RdpCon}

/-- The SYN of a record. -/
theorem synSegment (h : Ready addr iss irs state c) (kind : Kind) (hkind : kind ≠ .ack) :
    c.synSegment addr kind.flags (kind.head addr iss irs).acknum = kind.encode addr iss irs := by
  rw [RdpCon.synSegment, h.sndIss, h.rcvMax, h.rbufMax]
  cases kind
  case ack => exact absurd rfl hkind
  all_goals rfl

/-- The acknowledgement of a record. -/
theorem ackHead (h : Ready addr iss irs state c) (hstate : state ≠ .synSent) :
    (c.ackHead addr).encode = Kind.encode addr iss irs .ack := by
  rw [RdpCon.ackHead, h.sndNxt, (h.numbers hstate).1]
  rfl

/-- What the record takes from a SYN. -/
theorem acceptSyn (h : Ready addr iss irs .synSent c) (uninit : Uninit) (clock : Int) (syn : RdpSyn)
    (hseq : syn.head.seqnum = irs) (hmax : syn.outSegsMax = rcvMaxDefault.setWidth 16)
    {sndUna : BitVec 32} (huna : sndUna = iss) (state' : RdpState) (synTime synTout : Int) :
    Ready addr iss irs state' { c.acceptSyn uninit clock syn with
      sndUna := sndUna, state := state', synTime := synTime, synTout := synTout } := by
  refine ⟨h.addr_eq, rfl, h.isPasv, h.sndIss, h.sndNxt, huna, h.rcvMax, h.rbufMax,
    fun _ => ⟨hseq, hseq⟩, fun _ => ⟨?_, rfl, rfl, rfl⟩⟩
  show (syn.outSegsMax.setWidth 32 * 4).toNat ≠ 0
  rw [hmax]
  decide

end Ready

/-! ### What a record does with a segment -/

/-- What an end does with a segment: its state after it, and what it answers. -/
def answer : RdpState → Kind → Option (RdpState × List Kind)
  | .synSent, .syn => some (.synRcvd, [.synAck])
  | .synSent, .synAck => some (.opened, [.ack])
  -- The SYN of a segment comes before its ACK.
  | .synRcvd, .ack => some (.opened, [])
  | .synRcvd, _ => some (.synRcvd, [.again])
  | .opened, .ack => some (.opened, [])
  | .opened, _ => some (.opened, [.ack])
  | _, _ => none

/-- The program changes one record, and what that emits are segments of the given kinds. -/
def Answers (addr : RdpAddr) (iss irs : BitVec 32) (ptr : ConPtr) (state : RdpState)
    (kinds : List Kind) (m : M Unit) (w : World) : Prop :=
  ∃ w' c ems, m w = .ok ((), w') ∧ w'.rdp = (conStep w ptr c ems).rdp ∧
    w'.out = (conStep w ptr c ems).out ∧ Ready addr iss irs state c ∧
    ems.map Emitted.seg = kinds.map (Kind.encode addr iss irs)

section
variable {addr : RdpAddr} {iss irs : BitVec 32} {w : World} {ptr : ConPtr} {pbuf : Packetbuf}

theorem Answers.of_run {state : RdpState} {kinds : List Kind} {m : M Unit} {c : RdpCon}
    (ems : List Emitted) (hready : Ready addr iss irs state c)
    (hems : ems.map Emitted.seg = kinds.map (Kind.encode addr iss irs))
    (hrun : m w = .ok ((), conStep w ptr c ems)) : Answers addr iss irs ptr state kinds m w :=
  ⟨_, c, ems, hrun, rfl, rfl, hready, hems⟩

/-- The record changes, and one segment of it goes out. -/
theorem Answers.of_output {state₀ state : RdpState} {kind : Kind} {m : M Unit} {c : RdpCon}
    (h : Ready addr iss irs state₀ (w.rdp.con ptr)) (hready : Ready addr iss irs state c)
    (hrun : m w = (do
      setCon ptr c
      outputCon ptr addr.did (kind.encode addr iss irs) : M Unit) w) :
    Answers addr iss irs ptr state [kind] m w := by
  refine .of_run [c.emit (kind.encode addr iss irs)] hready rfl ?_
  rw [hrun, ← h.addr_eq]
  exact setCon_output_run (by rw [hready.addr_eq, h.addr_eq]) _

/-- An event comes after it, and its callback makes no call. -/
theorem Answers.of_event {state₀ state : RdpState} {kind : Kind} {m : M Unit} {c : RdpCon}
    (desc : Int) (event : RdpEvent) (h : Ready addr iss irs state₀ (w.rdp.con ptr))
    (hready : Ready addr iss irs state c) (hrest : AtRest w.rdp) (hreact : w.env.reactions = [])
    (hrun : m w = (do
      setCon ptr c
      outputCon ptr addr.did (kind.encode addr iss irs)
      invokeEvent desc 0 event : M Unit) w) :
    Answers addr iss irs ptr state [kind] m w := by
  have hsend : (do
      setCon ptr c
      outputCon ptr addr.did (kind.encode addr iss irs) : M Unit) w
        = .ok ((), conStep w ptr c [c.emit (kind.encode addr iss irs)]) := by
    rw [← h.addr_eq]
    exact setCon_output_run (by rw [hready.addr_eq, h.addr_eq]) _
  obtain ⟨w', hevent, hrdp, hout⟩ := invokeEvent_silent
    (w := conStep w ptr c [c.emit (kind.encode addr iss irs)]) hrest hreact desc event
  refine ⟨w', c, _, ?_, hrdp, hout, hready, rfl⟩
  have hsplit : (do
      setCon ptr c
      outputCon ptr addr.did (kind.encode addr iss irs)
      invokeEvent desc 0 event : M Unit) w = ((do
      setCon ptr c
      outputCon ptr addr.did (kind.encode addr iss irs) : M Unit) w >>= fun r =>
        invokeEvent desc 0 event r.2) := rfl
  rw [hrun, hsplit, hsend, ok_bind, hevent]

/-- A segment of the peer. -/
theorem head_of_data {peer : RdpAddr} {kind : Kind} (hdata : pbuf.data = kind.encode peer irs iss) :
    RdpHead.decode pbuf.data = kind.head peer irs iss := by
  rw [hdata, Kind.decode_encode]

theorem lacks_of_data {peer : RdpAddr} {kind : Kind} (hdata : pbuf.data = kind.encode peer irs iss)
    {flag : Byte} (hflag : (kind.flags &&& flag != 0) = false) :
    ¬ (RdpHead.decode pbuf.data).has flag = true := by
  rw [head_of_data hdata]
  exact Kind.lacks_head hflag

/-- The SYN in a segment of the peer, as `takeSyn` reads it. -/
theorem synDecode_of_data {peer : RdpAddr} {kind : Kind} (hkind : kind ≠ .ack)
    (hdata : pbuf.data = kind.encode peer irs iss) :
    RdpSyn.decode pbuf.data = { head := kind.head peer irs iss
                                outSegsMax := rcvMaxDefault.setWidth 16
                                segSizeMax := rbufMaxDefault.setWidth 16 } := by
  rw [hdata]
  cases kind
  case ack => exact absurd rfl hkind
  all_goals exact RdpSyn.decode_encode _

/-- A SYN or SYN|ACK in state SYN_SENT goes on to `takeSyn`. -/
theorem synSent_takes {peer : RdpAddr} {kind : Kind} (hkind : kind = .syn ∨ kind = .synAck)
    (h : Ready addr iss irs .synSent (w.rdp.con ptr))
    (hdata : pbuf.data = kind.encode peer irs iss) :
    inStateSynSent ptr addr pbuf w = takeSyn ptr addr pbuf w := by
  have hhead := head_of_data hdata
  have hne : kind ≠ .ack := by rcases hkind with rfl | rfl <;> decide
  obtain ⟨hlen, hsyn, -⟩ := Kind.isSyn_of_ne_ack peer irs iss hne
  have hrst : ¬ (RdpHead.decode pbuf.data).has flagRst = true := by
    rw [hhead]
    exact ne_true_of_eq_false kind.not_rst
  show (if _ then _ else if _ then _ else if _ then _ else _ : M Unit) w = _
  rw [if_neg, if_neg hrst, if_pos]
  · refine ⟨by rw [hhead]; exact hsyn, ?_⟩
    rw [Packetbuf.getLen, hdata, hlen]
    exact Nat.lt_irrefl _
  · -- A SYN|ACK has the right acknowledgement number.
    rintro ⟨hack, -, hnum⟩
    rw [hhead] at hack hnum
    rcases hkind with rfl | rfl
    · rw [Kind.has_head (b := false) (by decide)] at hack
      cases hack
    · exact hnum h.sndIss.symm

/-- A SYN in state SYN_SENT. -/
theorem synSent_syn {peer : RdpAddr} (h : Ready addr iss irs .synSent (w.rdp.con ptr))
    (hdata : pbuf.data = Kind.encode peer irs iss .syn) :
    Answers addr iss irs ptr .synRcvd [.synAck] (inStateSynSent ptr addr pbuf) w := by
  have hsyn := synDecode_of_data (by decide) hdata
  have hready := h.acceptSyn (w.env.uninit ptr) w.env.clock (RdpSyn.decode pbuf.data)
    (by rw [hsyn]; rfl) (by rw [hsyn]) h.sndUna .synRcvd (timeNull w.env.clock) 1
  refine .of_output h hready ?_
  rw [synSent_takes (.inl rfl) h hdata, ← hready.synSegment _ (by decide)]
  show (if _ then _ else _ : M Unit) w = _
  rw [if_neg (by rw [hsyn]; exact Kind.lacks_head (by decide))]
  have hcur : (Kind.head addr iss irs .synAck).acknum = (RdpSyn.decode pbuf.data).head.seqnum := by
    rw [hsyn]
    rfl
  rw [hcur]
  rfl

/-- A SYN|ACK in state SYN_SENT. -/
theorem synSent_synAck {peer : RdpAddr} (h : Ready addr iss irs .synSent (w.rdp.con ptr))
    (hrest : AtRest w.rdp) (hreact : w.env.reactions = [])
    (hdata : pbuf.data = Kind.encode peer irs iss .synAck) :
    Answers addr iss irs ptr .opened [.ack] (inStateSynSent ptr addr pbuf) w := by
  have hsyn := synDecode_of_data (by decide) hdata
  have hack : (RdpSyn.decode pbuf.data).head.acknum = iss := by
    rw [hsyn]
    rfl
  have hready := h.acceptSyn (w.env.uninit ptr) w.env.clock (RdpSyn.decode pbuf.data)
    (by rw [hsyn]; rfl) (by rw [hsyn]) hack .opened (w.rdp.con ptr).synTime (w.rdp.con ptr).synTout
  refine .of_event (w.rdp.con ptr).desc .connected h hready hrest hreact ?_
  rw [synSent_takes (.inr rfl) h hdata, ← hready.ackHead (by decide)]
  show (if _ then _ else _ : M Unit) w = _
  rw [if_pos (by rw [hsyn]; exact Kind.has_head (by decide))]
  rfl

/-- A SYN in state SYN_RCVD, with or without `ACK`. -/
theorem synRcvd_syn {peer : RdpAddr} {kind : Kind} (hkind : kind ≠ .ack)
    (h : Ready addr iss irs .synRcvd (w.rdp.con ptr))
    (hdata : pbuf.data = kind.encode peer irs iss) :
    Answers addr iss irs ptr .synRcvd [.again] (inStateSynRcvd ptr addr pbuf) w := by
  have hhead := head_of_data hdata
  obtain ⟨hlen, hsyn, hseq⟩ := Kind.isSyn_of_ne_ack peer irs iss hkind
  have hagain : RepeatsSyn (w.rdp.con ptr) pbuf := by
    refine ⟨h.state_eq, by rw [hhead]; exact hsyn, ?_⟩
    rw [hhead, hseq, (h.numbers (by decide)).1]
  have hready : Ready addr iss irs .synRcvd
      { w.rdp.con ptr with synTime := timeNull w.env.clock } :=
    ⟨h.addr_eq, h.state_eq, h.isPasv, h.sndIss, h.sndNxt, h.sndUna, h.rcvMax, h.rbufMax, h.numbers,
      h.window⟩
  have hrun := inStateSynRcvd_again hagain
  rw [h.addr_eq] at hrun
  refine .of_run _ hready ?_ hrun
  rw [List.map_singleton, List.map_singleton, ← h.synSegment _ (by decide)]
  rfl

/-- The acknowledgement in state SYN_RCVD. -/
theorem synRcvd_ack {peer : RdpAddr} (h : Ready addr iss irs .synRcvd (w.rdp.con ptr))
    (hdata : pbuf.data = Kind.encode peer irs iss .ack) :
    Answers addr iss irs ptr .opened [] (inStateSynRcvd ptr addr pbuf) w := by
  have hhead := head_of_data hdata
  obtain ⟨hcur, hirs⟩ := h.numbers (by decide)
  have hready : Ready addr iss irs .opened { w.rdp.con ptr with state := .opened } :=
    ⟨h.addr_eq, rfl, h.isPasv, h.sndIss, h.sndNxt, h.sndUna, h.rcvMax, h.rbufMax,
      fun _ => ⟨hcur, hirs⟩, fun _ => h.window (by decide)⟩
  refine .of_run [] hready rfl ?_
  have hflag : ∀ flag, (Kind.ack.flags &&& flag != 0) = false →
      ¬ (RdpHead.decode pbuf.data).has flag = true := fun _ => lacks_of_data hdata
  show (if _ then _ else if _ then _ else if _ then _ else if _ then _ else if _ then _ else
    if _ then _ else _ : M Unit) w = _
  -- Past the repeated SYN, the window check and RST, SYN and EAK to the acknowledgement.
  rw [if_neg, if_neg, if_neg (hflag _ (by decide)), if_neg (hflag _ (by decide)),
    if_neg (hflag _ (by decide)), if_pos, if_pos]
  · -- An active open raises no event here, and there is no data.
    have hpasv := ne_true_of_eq_false h.isPasv
    have hdata' : ¬ (pbuf.getLen > sizeofHead ∨ (RdpHead.decode pbuf.data).has flagNul = true) := by
      rintro (hlen | hnul)
      · rw [Packetbuf.getLen, hdata] at hlen
        exact Nat.lt_irrefl _ hlen
      · exact hflag _ (by decide) hnul
    show (setCon ptr { w.rdp.con ptr with state := .opened } w >>= fun r =>
      (if (w.rdp.con ptr).isPasv = true then _ else takeFirstData ptr pbuf : M Unit) r.2) = _
    rw [setCon_run, ok_bind, if_neg hpasv]
    show (if _ then _ else _ : M Unit) _ = _
    rw [if_neg hdata']
    rfl
  · rw [hhead]
    exact h.sndIss.symm
  · rw [hhead]
    exact Kind.has_head (by decide)
  · have hseq : (RdpHead.decode pbuf.data).seqnum = irs + 1 := by
      rw [hhead]
      rfl
    rw [not_not, hseq, hcur, hirs, h.rcvMax]
    have hone : irs + 1 - irs = 1 := by grind
    have htwo : irs + rcvMaxDefault * 2 - irs = rcvMaxDefault * 2 := by grind
    rw [hone, htwo]
    decide
  · rintro ⟨hsyn, -⟩
    exact hflag _ (by decide) hsyn

/-- What state OPEN does, where it raises no event. -/
theorem inStateOpen_quiet {c : RdpCon} {ems : List Emitted}
    (h : (w.rdp.con ptr).inStateOpen w.env.clock addr pbuf = .ok (c, ems, none)) :
    inStateOpen ptr addr pbuf w = .ok ((), conStep w ptr c ems) := by
  rw [inStateOpen_run, h]
  rfl

/-- A SYN in state OPEN is out of the window, as its number was received before. -/
theorem opened_syn {peer : RdpAddr} {kind : Kind} (hkind : kind ≠ .ack)
    (h : Ready addr iss irs .opened (w.rdp.con ptr))
    (hdata : pbuf.data = kind.encode peer irs iss) :
    Answers addr iss irs ptr .opened [.ack] (inStateOpen ptr addr pbuf) w := by
  obtain ⟨hcur, hirs⟩ := h.numbers (by decide)
  obtain ⟨-, -, hseq⟩ := Kind.isSyn_of_ne_ack peer irs iss hkind
  have hready : Ready addr iss irs .opened
      { w.rdp.con ptr with rcvAck := (w.rdp.con ptr).rcvCur, ackedTime := w.env.clock } :=
    ⟨h.addr_eq, h.state_eq, h.isPasv, h.sndIss, h.sndNxt, h.sndUna, h.rcvMax, h.rbufMax, h.numbers,
      h.window⟩
  have hopen : (w.rdp.con ptr).inStateOpen w.env.clock addr pbuf = .ok
      ({ w.rdp.con ptr with rcvAck := (w.rdp.con ptr).rcvCur, ackedTime := w.env.clock },
        [(w.rdp.con ptr).emit ((w.rdp.con ptr).ackHead addr).encode], none) := by
    rw [RdpCon.inStateOpen]
    refine if_pos ?_
    have hlast : irs - irs - 1 = 0xFFFFFFFF := by grind
    rw [head_of_data hdata, hseq, hcur, h.rcvMax, hlast]
    decide
  refine .of_run _ hready ?_ (inStateOpen_quiet hopen)
  rw [List.map_singleton, List.map_singleton, ← h.ackHead (by decide)]
  rfl

/-- A record with nothing to send sends nothing. -/
theorem sendOstandSwnd_idle {c : RdpCon} (hlen : c.swndLen ≠ 0) (hhead : c.swndHead = 0)
    (hused : c.swndUsed = 0) (hostand : c.swndOstand = 0) (clock : Int) :
    c.sendOstandSwnd clock = .ok ({ c with swndOstand := 0 }, []) := by
  have hstop : modLen (c.swndHead + c.swndUsed) c.swndLen = .ok 0 := by
    rw [hhead, hused, modLen, if_neg hlen, Nat.zero_mod]
  unfold RdpCon.sendOstandSwnd
  rw [hstop, ok_bind, RdpCon.sendOstandLoop, hostand, if_pos rfl]

/-- Nothing waits for the acknowledgement of the SYN. -/
theorem recvAck_idle {c : RdpCon} (h : Ready addr iss irs .opened c) (clock : Int) :
    c.recvAck clock iss = .ok ({ c with swndHead := 0, sndUna := iss, swndOstand := 0 }, []) := by
  obtain ⟨hlen, hhead, hused, hostand⟩ := h.window (by decide)
  have hlt : iss - c.sndUna < c.sndNxt - c.sndUna := by
    have hzero : iss - iss = 0 := by grind
    have hone : iss + 1 - iss = 1 := by grind
    rw [h.sndUna, h.sndNxt, hzero, hone]
    decide
  have hloop : RdpCon.recvAckLoop iss (c.swndLen + 1) c c.swndHead = .ok (c, 0) := by
    rw [hhead, RdpCon.recvAckLoop, hostand, if_pos rfl]
  rw [RdpCon.recvAck, if_pos hlt, hloop, ok_bind]
  exact sendOstandSwnd_idle (c := { c with swndHead := 0, sndUna := iss }) hlen rfl hused hostand
    clock

/-- The acknowledgement in state OPEN. -/
theorem opened_ack {peer : RdpAddr} (h : Ready addr iss irs .opened (w.rdp.con ptr))
    (hdata : pbuf.data = Kind.encode peer irs iss .ack) :
    Answers addr iss irs ptr .opened [] (inStateOpen ptr addr pbuf) w := by
  obtain ⟨hcur, hirs⟩ := h.numbers (by decide)
  have hhead := head_of_data hdata
  have hready : Ready addr iss irs .opened
      { w.rdp.con ptr with swndHead := 0, sndUna := iss, swndOstand := 0 } :=
    ⟨h.addr_eq, h.state_eq, h.isPasv, h.sndIss, h.sndNxt, rfl, h.rcvMax, h.rbufMax, h.numbers,
      fun hstate => ⟨(h.window hstate).1, rfl, (h.window hstate).2.2.1, rfl⟩⟩
  have hopen : (w.rdp.con ptr).inStateOpen w.env.clock addr pbuf = .ok
      ({ w.rdp.con ptr with swndHead := 0, sndUna := iss, swndOstand := 0 }, [], none) := by
    have hflag : ∀ flag, (Kind.ack.flags &&& flag != 0) = false →
        ¬ (RdpHead.decode pbuf.data).has flag = true := fun _ => lacks_of_data hdata
    -- The number after the SYN is the next one of the receive window.
    have hin : ¬ (RdpHead.decode pbuf.data).seqnum - (w.rdp.con ptr).rcvCur - 1
        ≥ (w.rdp.con ptr).rcvMax * 2 := by
      have hseq : (RdpHead.decode pbuf.data).seqnum = irs + 1 := by
        rw [hhead]
        rfl
      have hzero : irs + 1 - irs - 1 = 0 := by grind
      rw [hseq, hcur, h.rcvMax, hzero]
      decide
    have hack : (RdpHead.decode pbuf.data).has flagAck = true := by
      rw [hhead]
      exact Kind.has_head (by decide)
    -- The number acknowledged is that of the SYN, and no payload was sent.
    have hnum : (RdpHead.decode pbuf.data).acknum = iss := by
      rw [hhead]
      rfl
    have hdlen : ¬ ((RdpHead.decode pbuf.data).dlen.toNat > 0 ∧
        (RdpHead.decode pbuf.data).dlen.toNat + (RdpHead.decode pbuf.data).hlen.toNat * 2
          = pbuf.getLen) := by
      rw [hhead]
      exact fun hpos => Nat.lt_irrefl _ hpos.1
    rw [RdpCon.inStateOpen]
    dsimp only
    rw [if_neg hin, if_neg (hflag _ (by decide)), if_neg (hflag _ (by decide)),
      if_neg (hflag _ (by decide)), if_pos hack, hnum, recvAck_idle h, ok_bind,
      if_neg (hflag _ (by decide))]
    show (if _ then _ else _) = _
    rw [if_neg hdlen]
    rfl
  exact .of_run _ hready rfl (inStateOpen_quiet hopen)

/-- Each handler does what `answer` says. -/
theorem answers {peer : RdpAddr} {state state' : RdpState} {kind : Kind} {kinds : List Kind}
    (h : Ready addr iss irs state (w.rdp.con ptr)) (hrest : AtRest w.rdp)
    (hreact : w.env.reactions = []) (hdata : pbuf.data = kind.encode peer irs iss)
    (hanswer : answer state kind = some (state', kinds)) :
    Answers addr iss irs ptr state' kinds (inState state ptr addr pbuf) w := by
  cases state
  case synSent =>
    cases kind <;> cases hanswer
    · exact synSent_syn h hdata
    · exact synSent_synAck h hrest hreact hdata
  case synRcvd =>
    cases kind <;> cases hanswer
    case ack => exact synRcvd_ack h hdata
    all_goals exact synRcvd_syn (by decide) h hdata
  case opened =>
    cases kind <;> cases hanswer
    case ack => exact opened_ack h hdata
    all_goals exact opened_syn (by decide) h hdata
  all_goals cases kind <;> cases hanswer

end

/-! ### Nodes -/

/-- A node with a record of the exchange, between two inputs. -/
structure Party (addr : RdpAddr) (desc : Int) (iss irs : BitVec 32) (state : RdpState)
    (r : Members) :
    Prop where
  atRest : AtRest r
  record : ∃ ptr, r.addr2conn.lookup addr = some ptr ∧ r.desc2conn.lookup desc = some ptr ∧
    Ready addr iss irs state (r.con ptr)

namespace Party

variable {addr : RdpAddr} {desc : Int} {iss irs : BitVec 32} {state : RdpState} {r : Members}

/-- An open record is open under its descriptor. -/
theorem isOpen (h : Party addr desc iss irs .opened r) : Flight.IsOpen desc r := by
  obtain ⟨ptr, -, hdesc, hready⟩ := h.record
  exact ⟨ptr, hdesc, hready.state_eq⟩

/-- One arrival. -/
theorem arrive (h : Party addr desc iss irs state r) {env : Env} (hreact : env.reactions = [])
    {src : Id} {peer : RdpAddr} (haddr : addr = ⟨src, peer.sport, peer.dport⟩) {pbuf : Packetbuf}
    {kind : Kind} (hdata : pbuf.data = kind.encode peer irs iss) {state' : RdpState}
    {kinds : List Kind} (hanswer : answer state kind = some (state', kinds)) :
    ∃ r' out, step r env (.arrive src pbuf) = .ok (r', out) ∧ Party addr desc iss irs state' r' ∧
      (∀ s ∈ out, s.did = src) ∧ out.map Sent.seg = kinds.map (Kind.encode addr iss irs) := by
  obtain ⟨ptr, hlook, hdesc, hready⟩ := h.record
  have haddr' : addrOf src pbuf = addr := by
    rw [haddr, addrOf, head_of_data hdata]
    rfl
  obtain ⟨w, c, ems, hrun, hrdp, hout, hready', hems⟩ :=
    answers (w := .start r env) hready h.atRest hreact hdata hanswer
  have hlen : sizeofHead ≤ pbuf.getLen := by
    rw [Packetbuf.getLen, hdata]
    exact kind.sizeofHead_le
  have hdgram : inputDgram src pbuf (.start r env) = .ok ((), w) := by
    rw [inputDgram_con hlen (by rw [haddr']; exact hlook), haddr', ← hrun]
    show inState (r.con ptr).state ptr addr pbuf (.start r env) = _
    rw [hready.state_eq]
  refine ⟨w.rdp, w.out, ?_, ?_, ?_, ?_⟩
  · show (inputDgram src pbuf (.start r env) >>= fun a => _) = _
    rw [hdgram]
    rfl
  · rw [hrdp]
    exact ⟨h.atRest, ptr, hlook, hdesc, by rw [conStep_con_self]; exact hready'⟩
  · rw [hout]
    intro s hs
    obtain ⟨e, -, rfl⟩ := List.mem_map.mp hs
    show (r.con ptr).addr.did = src
    rw [hready.addr_eq, haddr]
  · rw [hout, ← hems]
    simp [conStep, World.start, Function.comp_def]

end Party

/-! ### The exchange without numbers -/

/-- The states of both ends, and what is in flight to whom. -/
structure Opening where
  left : RdpState
  right : RdpState
  inFlight : List (Side × Kind)
deriving DecidableEq

namespace Opening

/-- The state of one end. -/
def state (o : Opening) : Side → RdpState
  | .left => o.left
  | .right => o.right

/-- One delivery. -/
def move (o : Opening) (index : Nat) : Option Opening :=
  match o.inFlight[index]? with
  | none => none
  | some (side, kind) =>
      (answer (o.state side) kind).map fun (state, kinds) =>
        let inFlight := o.inFlight.eraseIdx index ++ kinds.map fun kind => (side.other, kind)
        match side with
        | .left => ⟨state, o.right, inFlight⟩
        | .right => ⟨o.left, state, inFlight⟩

/-- A move is the answer of the end that the segment goes to. -/
theorem move_eq_some {o o' : Opening} {index : Nat} (h : o.move index = some o') :
    ∃ side kind state kinds, o.inFlight[index]? = some (side, kind) ∧
      answer (o.state side) kind = some (state, kinds) ∧
      o'.state = Function.update o.state side state ∧
      o'.inFlight = o.inFlight.eraseIdx index ++ kinds.map fun kind => (side.other, kind) := by
  unfold move at h
  split at h
  · cases h
  · rename_i side kind hget
    obtain ⟨⟨state, kinds⟩, hanswer, rfl⟩ := Option.map_eq_some_iff.mp h
    refine ⟨side, kind, state, kinds, hget, hanswer, funext fun other => ?_, ?_⟩
    · cases side <;> cases other <;> rfl
    · cases side <;> rfl

/-- Both SYNs are sent. -/
def start : Opening := ⟨.synSent, .synSent, [(.right, .syn), (.left, .syn)]⟩

/-- One end took the SYN of the other, which waits for an answer. -/
def half : Side → Opening
  | .left => ⟨.synRcvd, .synSent, [(.right, .syn), (.right, .synAck)]⟩
  | .right => ⟨.synSent, .synRcvd, [(.left, .syn), (.left, .synAck)]⟩

/-- What is still to come after the SYN|ACK, by the number of deliveries. -/
def closing : Nat → List Opening
  | 0 => [⟨.opened, .opened, []⟩]
  | 1 => [⟨.opened, .opened, [(.left, .ack)]⟩, ⟨.opened, .opened, [(.right, .ack)]⟩]
  | 2 =>
      [⟨.opened, .synRcvd, [(.right, .ack), (.right, .ack)]⟩, ⟨.opened, .opened, [(.left, .syn)]⟩,
       ⟨.synRcvd, .opened, [(.left, .ack), (.left, .ack)]⟩, ⟨.opened, .opened, [(.right, .syn)]⟩]
  | 3 =>
      [⟨.opened, .synRcvd, [(.left, .syn), (.right, .ack)]⟩,
       ⟨.synRcvd, .opened, [(.right, .syn), (.left, .ack)]⟩]
  | _ => []

/-- The SYNs crossed: both ends have one, and only SYNs are in flight. -/
structure Crossed (o : Opening) : Prop where
  left : o.left = .synRcvd
  right : o.right = .synRcvd
  busy : o.inFlight ≠ []
  syns : ∀ v ∈ o.inFlight, v.2 ≠ .ack

theorem move_start {index : Nat} {v : Side × Kind} (h : start.inFlight[index]? = some v) :
    ∃ side, start.move index = some (half side) := by
  match index with
  | 0 => exact ⟨.right, rfl⟩
  | 1 => exact ⟨.left, rfl⟩
  | _ + 2 => cases h

/-- The second delivery decides. -/
theorem move_half {side : Side} {index : Nat} {v : Side × Kind}
    (h : (half side).inFlight[index]? = some v) : ∃ o, (half side).move index = some o ∧
      (v.2 = .syn ∧ Crossed o ∨ v.2 = .synAck ∧ o ∈ closing 3) := by
  match index with
  | 0 =>
    refine ⟨⟨.synRcvd, .synRcvd, [(side.other, .synAck), (side, .synAck)]⟩, ?_, .inl ⟨?_, ?_⟩⟩
    · cases side <;> rfl
    · cases side <;> cases h <;> rfl
    · exact ⟨rfl, rfl, by simp, by simp⟩
  | 1 =>
    cases side <;> cases h
    · exact ⟨_, rfl, .inr ⟨rfl, by decide⟩⟩
    · exact ⟨_, rfl, .inr ⟨rfl, by decide⟩⟩
  | _ + 2 => cases side <;> cases h

/-- Something is in flight until the end. -/
theorem busy_of_closing {n : Nat} {o : Opening} (ho : o ∈ closing (n + 1)) : o.inFlight ≠ [] := by
  have hall : ∀ n < 3, ∀ o ∈ closing (n + 1), o.inFlight ≠ [] := by decide
  match n with
  | 0 | 1 | 2 => exact hall _ (by decide) o ho
  | _ + 3 => cases ho

/-- Each delivery is one less. -/
theorem move_closing {n : Nat} {o : Opening} (ho : o ∈ closing (n + 1)) {index : Nat}
    (hindex : index < o.inFlight.length) : ∃ o' ∈ closing n, o.move index = some o' := by
  have hall : ∀ n < 3, ∀ o ∈ closing (n + 1), ∀ index < o.inFlight.length,
      ∃ o' ∈ closing n, o.move index = some o' := by decide
  match n with
  | 0 | 1 | 2 => exact hall _ (by decide) o ho index hindex
  | _ + 3 => cases ho

/-- State SYN_RCVD answers every SYN. -/
theorem answer_synRcvd {kind : Kind} (h : kind ≠ .ack) :
    answer .synRcvd kind = some (.synRcvd, [.again]) := by
  cases kind
  case ack => exact absurd rfl h
  all_goals rfl

/-- Nothing but SYNs comes of SYNs. -/
theorem Crossed.move {o : Opening} (h : Crossed o) {index : Nat}
    (hindex : index < o.inFlight.length) : ∃ o', o.move index = some o' ∧ Crossed o' := by
  obtain ⟨⟨side, kind⟩, hget⟩ : ∃ v, o.inFlight[index]? = some v :=
    ⟨_, List.getElem?_eq_getElem hindex⟩
  have hstate : o.state side = .synRcvd := by
    cases side
    · exact h.left
    · exact h.right
  have hkind := h.syns _ (List.mem_of_getElem? hget)
  refine ⟨⟨.synRcvd, .synRcvd, o.inFlight.eraseIdx index ++ [(side.other, .again)]⟩, ?_, rfl, rfl,
    by simp, ?_⟩
  · rw [Opening.move, hget]
    dsimp only
    rw [hstate, answer_synRcvd hkind, Option.map_some]
    cases side
    · rw [h.right]
      rfl
    · rw [h.left]
      rfl
  · intro v hv
    rcases List.mem_append.mp hv with hv | hv
    · exact h.syns v (List.mem_of_mem_eraseIdx hv)
    · rw [List.mem_singleton.mp hv]
      exact (by decide : Kind.again ≠ .ack)

end Opening

/-! ### Each delivery is a move -/

/-- What the calls of both nodes settle: the address and the descriptor of each record, and
the initial numbers. -/
structure Numbers (id : Side → Id) where
  addr : Side → RdpAddr
  desc : Side → Int
  iss : Side → BitVec 32
  mirrored : ∀ side, addr side = ⟨id side.other, (addr side.other).sport, (addr side.other).dport⟩

section
variable {id : Side → Id}

/-- A segment with its bytes. -/
def Numbers.segment (p : Numbers id) (v : Side × Kind) : InFlight :=
  ⟨v.1, v.2.encode (p.addr v.1.other) (p.iss v.1.other) (p.iss v.1)⟩

/-- Both nodes and the segments in flight are those of the exchange. -/
structure Refines (p : Numbers id) (f : Flight) (o : Opening) : Prop where
  party : ∀ side, Party (p.addr side) (p.desc side) (p.iss side) (p.iss side.other) (o.state side)
    (f.rdp side)
  inFlight : f.inFlight = o.inFlight.map p.segment

/-- What a node answers goes to the other one. -/
theorem launched_answer (p : Numbers id) {side : Side} {out : List Sent} {kinds : List Kind}
    (hdid : ∀ s ∈ out, s.did = id side.other)
    (hseg : out.map Sent.seg
      = kinds.map (Kind.encode (p.addr side) (p.iss side) (p.iss side.other))) :
    launched id side out = (kinds.map fun kind => (side.other, kind)).map p.segment := by
  have hall : out.filter (fun s => s.did = id side.other) = out :=
    List.filter_eq_self.mpr fun s hs => decide_eq_true (hdid s hs)
  rw [launched, hall, List.map_map]
  have hsplit : (out.map fun s => (⟨side.other, s.seg⟩ : InFlight))
      = (out.map Sent.seg).map fun seg => ⟨side.other, seg⟩ := by
    rw [List.map_map]
    rfl
  rw [hsplit, hseg, List.map_map]
  refine List.map_congr_left fun kind _ => ?_
  show (⟨side.other, _⟩ : InFlight) = ⟨side.other, _⟩
  rw [Side.other_other]

/-- A delivery is a move. -/
theorem Refines.deliver {p : Numbers id} {f : Flight} {o o' : Opening} (h : Refines p f o)
    {d : Delivery} (hcarries : f.Carries d) (hmove : o.move d.index = some o') :
    ∃ f', f.deliver id d = .ok f' ∧ Refines p f' o' := by
  obtain ⟨side, kind, state, kinds, hget, hanswer, hstate, hflight⟩ := Opening.move_eq_some hmove
  have hget' : f.inFlight[d.index]? = some (p.segment (side, kind)) := by
    rw [h.inFlight, List.getElem?_map, hget]
    rfl
  have hdata : d.pbuf.data
      = kind.encode (p.addr side.other) (p.iss side.other) (p.iss side) := by
    have hbusy : f.inFlight ≠ [] := List.ne_nil_of_mem (List.mem_of_getElem? hget')
    obtain ⟨dest, hdest⟩ := hcarries.1 hbusy
    exact (congrArg InFlight.seg (Option.some.inj (hget'.symm.trans hdest))).symm
  obtain ⟨r, out, hstep, hparty, hdid, hseg⟩ :=
    (h.party side).arrive hcarries.2 (p.mirrored side) hdata hanswer
  -- The other node stays as it is.
  refine ⟨{ rdp := Function.update f.rdp side r
            inFlight := f.inFlight.eraseIdx d.index ++ launched id side out }, ?_, ?_, ?_⟩
  · rw [Flight.deliver, hget']
    show (Rdp.step (f.rdp side) d.env (.arrive (id side.other) d.pbuf) >>= fun a => _) = _
    rw [hstep]
    rfl
  · intro side'
    show Party _ _ _ _ _ (Function.update f.rdp side r side')
    rw [hstate]
    by_cases hside : side' = side
    · subst hside
      rw [Function.update_self, Function.update_self]
      exact hparty
    · rw [Function.update_of_ne hside, Function.update_of_ne hside]
      exact h.party side'
  · show f.inFlight.eraseIdx d.index ++ launched id side out = o'.inFlight.map p.segment
    rw [hflight, List.map_append, ← launched_answer p hdid hseg, h.inFlight, List.eraseIdx_map]

/-! ### All orders of delivery -/

variable {p : Numbers id} {f : Flight} {order : Stream' Delivery}

theorem Refines.busy {o : Opening} (h : Refines p f o) (hbusy : o.inFlight ≠ []) :
    f.inFlight ≠ [] := by
  rw [h.inFlight]
  exact fun hnil => hbusy (List.map_eq_nil_iff.mp hnil)

/-- While something is in flight, a delivery takes some of it. -/
theorem Refines.carried {o : Opening} (h : Refines p f o) (hbusy : o.inFlight ≠ []) {d : Delivery}
    (hcarries : f.Carries d) :
    ∃ v, o.inFlight[d.index]? = some v ∧ d.pbuf.data = (p.segment v).seg := by
  obtain ⟨dest, hdest⟩ := hcarries.1 (h.busy hbusy)
  rw [h.inFlight, List.getElem?_map] at hdest
  obtain ⟨v, hv, hseg⟩ := Option.map_eq_some_iff.mp hdest
  exact ⟨v, hv, by rw [hseg]⟩

/-- The second segment that is delivered carries an acknowledgement: it is the answer to
the SYN delivered first, and not the other SYN. -/
def SecondAnswers (order : Stream' Delivery) : Prop :=
  (RdpHead.decode (order.get 1).pbuf.data).has flagAck = true

/-- What the first two deliveries lead to. -/
theorem Refines.two (h : Refines p f .start) (horder : f.Order id order) :
    ∃ f₁ f₂ o, f.deliver id order.head = .ok f₁ ∧ f₁.deliver id order.tail.head = .ok f₂ ∧
      f₁.inFlight ≠ [] ∧ Refines p f₂ o ∧
      (¬ SecondAnswers order ∧ o.Crossed ∨ SecondAnswers order ∧ o ∈ Opening.closing 3) := by
  obtain ⟨hfirst, hrest⟩ := horder 2
  obtain ⟨v, hv, -⟩ := h.carried (by decide) hfirst
  obtain ⟨side, hmove⟩ := Opening.move_start hv
  obtain ⟨f₁, hf₁, h₁⟩ := h.deliver hfirst hmove
  have hbusy : (Opening.half side).inFlight ≠ [] := by cases side <;> decide
  have hsecond := (hrest f₁ hf₁).1
  obtain ⟨v', hv', hdata⟩ := h₁.carried hbusy hsecond
  obtain ⟨o, hmove', hcase⟩ := Opening.move_half hv'
  obtain ⟨f₂, hf₂, h₂⟩ := h₁.deliver hsecond hmove'
  -- Whether the second segment answers can be seen from its flags.
  have hhead : RdpHead.decode (order.get 1).pbuf.data
      = v'.2.head (p.addr v'.1.other) (p.iss v'.1.other) (p.iss v'.1) := by
    rw [← Kind.decode_encode]
    exact congrArg RdpHead.decode hdata
  refine ⟨f₁, f₂, o, hf₁, hf₂, h₁.busy hbusy, h₂, ?_⟩
  rw [SecondAnswers, hhead]
  rcases hcase with ⟨hkind, hcrossed⟩ | ⟨hkind, hclosing⟩
  · refine .inl ⟨?_, hcrossed⟩
    rw [hkind]
    exact Kind.lacks_head (by decide)
  · refine .inr ⟨?_, hclosing⟩
    rw [hkind]
    exact Kind.has_head (by decide)

/-- After the SYN|ACK there are three deliveries to come, whatever their order. -/
theorem Refines.closes {o : Opening} (h : Refines p f o) (ho : o ∈ Opening.closing 3)
    {ds : List Delivery} (hlen : ds.length = 3)
    (hallowed : Allowed (Flight.deliver id) Flight.Carries f ds) :
    ∃ f', run (Flight.deliver id) f ds = .ok f' ∧ Refines p f' ⟨.opened, .opened, []⟩ := by
  have hmove : ∀ n f d, (∃ o ∈ Opening.closing (n + 1), Refines p f o) → f.Carries d →
      ∃ f', f.deliver id d = .ok f' ∧ ∃ o ∈ Opening.closing n, Refines p f' o := by
    rintro n f d ⟨o, ho, h⟩ hcarries
    obtain ⟨v, hv, -⟩ := h.carried (Opening.busy_of_closing ho) hcarries
    obtain ⟨o', ho', hmove⟩ := Opening.move_closing ho (List.getElem?_eq_some_iff.mp hv).1
    obtain ⟨f', hf', h'⟩ := h.deliver hcarries hmove
    exact ⟨f', hf', o', ho', h'⟩
  obtain ⟨f', hrun, o', ho', h'⟩ := run_of_countdown
    (fun n f => ∃ o ∈ Opening.closing n, Refines p f o) hmove ⟨o, hlen ▸ ho, h⟩ hallowed
  rw [List.mem_singleton.mp ho'] at h'
  exact ⟨f', hrun, h'⟩

/-- The SYNs crossed, and the nodes are where that leads. -/
def Stuck (p : Numbers id) (f : Flight) : Prop := ∃ o, Refines p f o ∧ o.Crossed

theorem Stuck.busy (h : Stuck p f) : f.inFlight ≠ [] := by
  obtain ⟨o, h, ho⟩ := h
  exact h.busy ho.busy

theorem Stuck.deliver (h : Stuck p f) {d : Delivery} (hcarries : f.Carries d) :
    ∃ f', f.deliver id d = .ok f' ∧ Stuck p f' := by
  obtain ⟨o, h, ho⟩ := h
  obtain ⟨v, hv, -⟩ := h.carried ho.busy hcarries
  obtain ⟨o', hmove, ho'⟩ := ho.move (List.getElem?_eq_some_iff.mp hv).1
  obtain ⟨f', hf', h'⟩ := h.deliver hcarries hmove
  exact ⟨f', hf', o', h', ho'⟩

/-- After the SYNs crossed something is in flight forever. -/
theorem Stuck.run (h : Stuck p f) {ds : List Delivery}
    (hallowed : Allowed (Flight.deliver id) Flight.Carries f ds) {f' : Flight}
    (hrun : Lib.run (Flight.deliver id) f ds = .ok f') : Stuck p f' := by
  have hstep : ∀ f d f', Stuck p f → f.Carries d → f.deliver id d = .ok f' → Stuck p f' := by
    intro f d f' h hcarries hdeliver
    obtain ⟨f₁, hf₁, h₁⟩ := h.deliver hcarries
    obtain rfl : f₁ = f' := Except.ok.inj (hf₁.symm.trans hdeliver)
    exact h₁
  exact inv_of_run hstep h hallowed hrun

/-! ### Every choice makes an order -/

/-- The exchange is somewhere on its way. -/
def Underway (p : Numbers id) (f : Flight) : Prop :=
  ∃ o, Refines p f o ∧
    (o = .start ∨ (∃ side, o = .half side) ∨ o.Crossed ∨ ∃ n, o ∈ Opening.closing n)

theorem Underway.deliver (h : Underway p f) {d : Delivery} (hcarries : f.Carries d) :
    ∃ f', f.deliver id d = .ok f' ∧ Underway p f' := by
  obtain ⟨o, h, hcase⟩ := h
  by_cases hbusy : o.inFlight = []
  · -- Nothing is left to deliver.
    refine ⟨f, ?_, o, h, hcase⟩
    rw [Flight.deliver, h.inFlight, hbusy]
    rfl
  · obtain ⟨v, hv, -⟩ := h.carried hbusy hcarries
    have hindex := (List.getElem?_eq_some_iff.mp hv).1
    obtain ⟨o', hmove, hcase'⟩ : ∃ o', o.move d.index = some o' ∧
        (o' = .start ∨ (∃ side, o' = .half side) ∨ o'.Crossed ∨ ∃ n, o' ∈ Opening.closing n) := by
      rcases hcase with rfl | ⟨side, rfl⟩ | hcrossed | ⟨n, hclosing⟩
      · obtain ⟨side, hmove⟩ := Opening.move_start hv
        exact ⟨_, hmove, .inr (.inl ⟨side, rfl⟩)⟩
      · obtain ⟨o', hmove, ⟨-, hcrossed⟩ | ⟨-, hclosing⟩⟩ := Opening.move_half hv
        · exact ⟨o', hmove, .inr (.inr (.inl hcrossed))⟩
        · exact ⟨o', hmove, .inr (.inr (.inr ⟨3, hclosing⟩))⟩
      · obtain ⟨o', hmove, hcrossed'⟩ := hcrossed.move hindex
        exact ⟨o', hmove, .inr (.inr (.inl hcrossed'))⟩
      · cases n with
        | zero =>
          rw [List.mem_singleton.mp hclosing] at hbusy
          exact absurd rfl hbusy
        | succ n =>
          obtain ⟨o', hclosing', hmove⟩ := Opening.move_closing hclosing hindex
          exact ⟨o', hmove, .inr (.inr (.inr ⟨n, hclosing'⟩))⟩
    obtain ⟨f', hf', h'⟩ := h.deliver hcarries hmove
    exact ⟨f', hf', o', h', hcase'⟩

/-- Deliver the segment that is chosen by the number of those in flight. -/
def pick (choose : Nat → Nat) (f : Flight) : Delivery where
  index := choose f.inFlight.length
  pbuf := ((f.inFlight[choose f.inFlight.length]?).bind fun s =>
    Packetbuf.construct.append s.seg).getD .construct
  env := default

theorem Underway.carries (h : Underway p f) {choose : Nat → Nat} (hchoose : ∀ n > 0, choose n < n) :
    f.Carries (pick choose f) := by
  obtain ⟨o, h, -⟩ := h
  refine ⟨fun hbusy => ?_, rfl⟩
  have hindex := hchoose _ (List.length_pos_of_ne_nil hbusy)
  obtain ⟨s, hget⟩ : ∃ s, f.inFlight[choose f.inFlight.length]? = some s :=
    ⟨_, List.getElem?_eq_getElem hindex⟩
  have hlen : s.seg.length ≤ 896 := by
    have hmem := List.mem_of_getElem? hget
    rw [h.inFlight] at hmem
    obtain ⟨v, -, rfl⟩ := List.mem_map.mp hmem
    exact v.2.length_le.trans (by decide)
  obtain ⟨pbuf, hpbuf⟩ := Packetbuf.construct_append hlen
  have hdata : (pick choose f).pbuf = pbuf := by
    rw [pick, hget, Option.bind_some, hpbuf, Option.getD_some]
  refine ⟨s.dest, ?_⟩
  rw [hdata, (Packetbuf.append_eq_some hpbuf).2]
  exact hget

/-- There is an order for every choice. -/
theorem Refines.order_follow (h : Refines p f .start) (choose : Nat → Nat)
    (hchoose : ∀ n > 0, choose n < n) :
    f.Order id (follow (Flight.deliver id) (pick choose) f) :=
  allowed_follow (Underway p)
    (fun _ hf => ⟨hf.carries hchoose, hf.deliver (hf.carries hchoose)⟩) ⟨_, h, .inl rfl⟩

/-- The exchange ends, with both ends open, exactly if the second delivery is the SYN|ACK. -/
theorem Refines.completes_iff (h : Refines p f .start) (horder : f.Order id order) :
    f.Completes id p.desc order ↔ SecondAnswers order := by
  obtain ⟨f₁, f₂, o, hf₁, hf₂, hbusy, h₂, hcase⟩ := h.two horder
  have hrun : ∀ n, run (Flight.deliver id) f (order.take (n + 2))
      = run (Flight.deliver id) f₂ (order.tail.tail.take n) := by
    intro n
    show (f.deliver id order.head >>= fun f₁ => f₁.deliver id order.tail.head >>= fun f₂ => _) = _
    rw [hf₁, ok_bind, hf₂, ok_bind]
  have hallowed : ∀ n, Allowed (Flight.deliver id) Flight.Carries f₂ (order.tail.tail.take n) :=
    fun n => ((horder (n + 2)).2 f₁ hf₁).2 f₂ hf₂
  -- The second delivery decides: either the SYNs cross, or three deliveries are left.
  rcases hcase with ⟨hnot, hcrossed⟩ | ⟨hanswers, hclosing⟩
  · refine iff_of_false ?_ hnot
    rintro ⟨n, f', hf', hempty, -⟩
    -- Nothing is at rest after one delivery or none, and nothing later once the SYNs crossed.
    match n with
    | 0 =>
      obtain rfl : f = f' := Except.ok.inj hf'
      rw [h.inFlight] at hempty
      cases hempty
    | 1 =>
      have hone : run (Flight.deliver id) f (order.take 1) = .ok f₁ := by
        show (f.deliver id order.head >>= fun f₁ => .ok f₁) = _
        rw [hf₁, ok_bind]
      obtain rfl : f₁ = f' := Except.ok.inj (hone.symm.trans hf')
      exact hbusy hempty
    | n + 2 =>
      rw [hrun] at hf'
      exact (Stuck.run ⟨o, h₂, hcrossed⟩ (hallowed n) hf').busy hempty
  · refine iff_of_true ?_ hanswers
    obtain ⟨f', hf', h'⟩ := h₂.closes hclosing rfl (hallowed 3)
    refine ⟨5, f', by rw [hrun]; exact hf', ?_, fun side => ?_⟩
    · rw [h'.inFlight]
      rfl
    · have hparty := h'.party side
      have hopened : (⟨.opened, .opened, []⟩ : Opening).state side = .opened := by
        cases side <;> rfl
      rw [hopened] at hparty
      exact hparty.isOpen

end

/-! ### Both calls -/

theorem pickPort_peer {addr2conn : Table RdpAddr ConPtr} {did : Id} {dport : BitVec 16}
    {rnds rest : List (BitVec 32)} {addr : RdpAddr}
    (h : pickPort addr2conn did dport rnds = .ok (addr, rest)) :
    addr.did = did ∧ addr.dport = dport := by
  induction rnds with
  | nil => cases h
  | cons r rnds ih =>
    rw [pickPort] at h
    split at h
    · exact ih h
    · obtain ⟨rfl, -⟩ := Prod.mk.inj (Except.ok.inj h)
      exact ⟨rfl, rfl⟩

/-- What `connectTo` leaves behind: a record in state SYN_SENT, and its SYN on the way. -/
theorem connectTo_party {w w' : World} {addr : RdpAddr} {func : Callback} {desc : Int}
    (hrest : AtRest w.rdp) (h : connectTo addr func w = .ok (desc, w')) :
    ∃ iss, (∀ irs, Party addr desc iss irs .synSent w'.rdp) ∧
      ∃ s, w'.out = w.out ++ [s] ∧ s.did = addr.did ∧ s.seg = Kind.encode addr iss 0 .syn := by
  obtain ⟨⟨iss, w₁⟩, hrnd, h⟩ := bind_eq_ok h
  obtain ⟨⟨desc', w₂⟩, hgen, h⟩ := bind_eq_ok h
  obtain ⟨rest, rfl⟩ := rnd_eq_ok hrnd
  obtain ⟨-, rest', rfl⟩ := generateDesc_eq_ok hgen
  obtain ⟨hdesc, rfl⟩ := Prod.mk.inj (Except.ok.inj h)
  subst hdesc
  generalize hc :
    (RdpCon.new (w.env.uninit w.rdp.nextPtr)).start addr false .synSent iss w.env.clock = c
  -- The number of the peer is not known yet, so any will do.
  have hready : ∀ irs, Ready addr iss irs .synSent { c with desc := desc' } := by
    intro irs
    subst hc
    exact ⟨rfl, rfl, rfl, rfl, rfl, rfl, rfl, rfl, fun h => absurd rfl h, fun h => absurd rfl h⟩
  have haddr : c.addr = addr := (hready 0).addr_eq
  have hcon : (withCon w.rdp desc' c).con w.rdp.nextPtr = { c with desc := desc' } :=
    withCon_con_self ..
  refine ⟨iss, fun irs => ⟨hrest, w.rdp.nextPtr, ?_, ?_, ?_⟩, ⟨_, _, _, _⟩, rfl, rfl, ?_⟩
  · show (w.rdp.addr2conn.insert c.addr w.rdp.nextPtr).lookup addr = some w.rdp.nextPtr
    rw [haddr, AList.lookup_insert]
  · exact AList.lookup_insert _
  · show Ready addr iss irs .synSent ((withCon w.rdp desc' c).con w.rdp.nextPtr)
    rw [hcon]
    exact hready irs
  · exact (hready 0).synSegment .syn (by decide)

/-- `connect` finds an address, and then goes on from it. -/
theorem connect_run (w : World) (sport : BitVec 16) (did : Id) (dport : BitVec 16)
    (func : Callback) : connect sport did dport func w = (if sport ≠ 0 then
      if (w.rdp.addr2conn.lookup ⟨did, dport, sport⟩).isSome then .ok (-1, w)
      else connectTo ⟨did, dport, sport⟩ func w
    else pickPort w.rdp.addr2conn did dport w.env.rnd >>= fun r =>
      connectTo r.1 func (withRnd w r.2)) := by
  show (if _ then if _ then _ else _ else _ : M Int) w = _
  split
  · split <;> rfl
  · show ((pickPort w.rdp.addr2conn did dport w.env.rnd >>= fun r => Except.ok (r, w)) >>= _) = _
    cases pickPort w.rdp.addr2conn did dport w.env.rnd <;> rfl

/-- What `connect` leaves behind, where it goes well. -/
theorem connect_party {w w' : World} {sport dport : BitVec 16} {did : Id} {func : Callback}
    {desc : Int} (hrest : AtRest w.rdp) (h : connect sport did dport func w = .ok (desc, w'))
    (hdesc : desc ≠ -1) :
    ∃ addr iss, addr.did = did ∧ addr.dport = dport ∧
      (∀ irs, Party addr desc iss irs .synSent w'.rdp) ∧
      ∃ s, w'.out = w.out ++ [s] ∧ s.did = did ∧ s.seg = Kind.encode addr iss 0 .syn := by
  rw [connect_run] at h
  split at h
  · split at h
    · exact absurd (Prod.mk.inj (Except.ok.inj h)).1.symm hdesc
    · obtain ⟨iss, hparty, hsyn⟩ := connectTo_party hrest h
      exact ⟨_, iss, rfl, rfl, hparty, hsyn⟩
  · obtain ⟨⟨addr, rest⟩, hpick, h⟩ := bind_eq_ok h
    obtain ⟨hdid, hdport⟩ := pickPort_peer hpick
    obtain ⟨iss, hparty, s, hout, hs, hseg⟩ := connectTo_party (w := withRnd w rest) hrest h
    exact ⟨addr, iss, hdid, hdport, hparty, s, hout, hs.trans hdid, hseg⟩

/-- What a node leaves behind that calls `rdp::connect` after any past. -/
theorem opener_party {o : Opener} {peer : Id} {desc : Int} {r : Members} {out : List Sent}
    (h : o.connect peer = .ok (desc, r, out)) (hdesc : desc ≠ -1) :
    ∃ addr iss, addr.did = peer ∧ addr.dport = o.dport ∧
      (∀ irs, Party addr desc iss irs .synSent r) ∧
      ∃ s, out = [s] ∧ s.did = peer ∧ s.seg = Kind.encode addr iss 0 .syn := by
  obtain ⟨r₀, hpast, h⟩ := bind_eq_ok h
  obtain ⟨⟨desc', w⟩, hconnect, h⟩ := bind_eq_ok h
  obtain ⟨rfl, hpair⟩ := Prod.mk.inj (Except.ok.inj h)
  obtain ⟨rfl, rfl⟩ := Prod.mk.inj hpair
  exact connect_party (w := .start r₀ o.env) (started_of_run hpast).atRest hconnect hdesc

/-- Both SYNs are in flight after the calls, and the nodes wait for them. -/
theorem refines_connectBoth {id : Side → Id} {o : Side → Opener} {desc : Side → Int} {f : Flight}
    (h : Opener.connectBoth id o = .ok (desc, f)) (hmirrored : Opener.Mirrored o desc f) :
    ∃ p : Numbers id, p.desc = desc ∧ Refines p f .start := by
  obtain ⟨⟨descL, l, outL⟩, hleft, h⟩ := bind_eq_ok h
  obtain ⟨⟨descR, r, outR⟩, hright, h⟩ := bind_eq_ok h
  obtain ⟨rfl, rfl⟩ := Prod.mk.inj (Except.ok.inj h)
  obtain ⟨hconnected, hports⟩ := hmirrored
  obtain ⟨addrL, issL, hdidL, hdportL, hpartyL, sL, rfl, hsL, hsegL⟩ :=
    opener_party hleft (hconnected .left)
  obtain ⟨addrR, issR, hdidR, hdportR, hpartyR, sR, rfl, hsR, hsegR⟩ :=
    opener_party hright (hconnected .right)
  have hfly : launched id .left [sL] ++ launched id .right [sR]
      = [⟨.right, Kind.encode addrL issL 0 .syn⟩, ⟨.left, Kind.encode addrR issR 0 .syn⟩] := by
    rw [← hsegL, ← hsegR]
    simp [launched, hsL, hsR, Side.other]
  -- The ports of one record are those of the other, the other way round.
  have hportL : addrL.sport = addrR.dport := by
    have hport := hports ⟨.right, Kind.encode addrL issL 0 .syn⟩ (by
      show _ ∈ launched id .left [sL] ++ launched id .right [sR]
      rw [hfly]
      exact List.mem_cons_self ..)
    rw [Kind.decode_encode] at hport
    exact hport.trans hdportR.symm
  have hportR : addrR.sport = addrL.dport := by
    have hport := hports ⟨.left, Kind.encode addrR issR 0 .syn⟩ (by
      show _ ∈ launched id .left [sL] ++ launched id .right [sR]
      rw [hfly]
      exact List.mem_cons_of_mem _ (List.mem_cons_self ..))
    rw [Kind.decode_encode] at hport
    exact hport.trans hdportL.symm
  refine ⟨{ addr := fun | .left => addrL | .right => addrR
            desc := fun | .left => descL | .right => descR
            iss := fun | .left => issL | .right => issR
            mirrored := ?_ }, rfl, ?_, hfly⟩
  · rintro (_ | _)
    · show addrL = ⟨id .right, addrR.sport, addrR.dport⟩
      rw [hportR, ← hportL, ← hdidL]
    · show addrR = ⟨id .left, addrL.sport, addrL.dport⟩
      rw [hportL, ← hportR, ← hdidR]
  · rintro (_ | _)
    · exact hpartyL issR
    · exact hpartyR issL

/-- Two nodes connect to each other, and both SYNs are in flight. The exchange stops, with
nothing in flight and both connections open, exactly if the second segment delivered is the
SYN|ACK that answers the first. -/
theorem simultaneousOpen_completes_iff {id : Side → Id} {o : Side → Opener} {desc : Side → Int}
    {f : Flight} (hconnect : Opener.connectBoth id o = .ok (desc, f))
    (hmirrored : Opener.Mirrored o desc f) {order : Stream' Delivery} (horder : f.Order id order) :
    f.Completes id desc order ↔ SecondAnswers order := by
  obtain ⟨p, rfl, hrefines⟩ := refines_connectBoth hconnect hmirrored
  exact hrefines.completes_iff horder

/-! ### Two orders -/

/-- The ids of the nodes. -/
def openIds : Side → Id
  | .left => 1
  | .right => 2

/-- They connect from port 200 to port 100 and back. -/
def openers : Side → Opener
  | .left => { (default : Opener) with
      env := { (default : Env) with rnd := [1000, 8] }, sport := 200, dport := 100 }
  | .right => { (default : Opener) with
      env := { (default : Env) with rnd := [500, 9] }, sport := 100, dport := 200 }

/-- The calls go well. Delivered the last first, the second segment is the SYN|ACK, and
delivered the first first, it is the other SYN. -/
theorem openers_connect : ∃ desc f, Opener.connectBoth openIds openers = .ok (desc, f) ∧
    Opener.Mirrored openers desc f ∧
    SecondAnswers (follow (Flight.deliver openIds) (pick fun n => n - 1) f) ∧
    ¬ SecondAnswers (follow (Flight.deliver openIds) (pick fun _ => 0) f) := by
  have h : (do
      let (desc, f) ← Opener.connectBoth openIds openers
      return ((desc .left, desc .right),
        f.inFlight.all fun s => (RdpHead.decode s.seg).sport == (openers s.dest).dport,
        (RdpHead.decode
          ((follow (Flight.deliver openIds) (pick fun n => n - 1) f).get 1).pbuf.data).has
          flagAck,
        (RdpHead.decode ((follow (Flight.deliver openIds) (pick fun _ => 0) f).get 1).pbuf.data).has
          flagAck))
      = (.ok ((8, 9), true, true, false) : Except Fault _) := by decide +kernel
  obtain ⟨⟨desc, f⟩, hconnect, hend⟩ := bind_eq_ok h
  have hend' := Except.ok.inj hend
  simp only [Prod.mk.injEq] at hend'
  obtain ⟨⟨hleft, hright⟩, hports, hlast, hfirst⟩ := hend'
  refine ⟨desc, f, hconnect, ⟨?_, fun s hs => ?_⟩, hlast, ?_⟩
  · rintro (_ | _)
    · rw [hleft]
      decide
    · rw [hright]
      decide
  · exact eq_of_beq (List.all_eq_true.mp hports s hs)
  · exact ne_true_of_eq_false hfirst

/-- Delivered the last first, the exchange completes. -/
theorem simultaneousOpen_completes_iff_lastFirst :
    ∃ desc f, Opener.connectBoth openIds openers = .ok (desc, f) ∧
      f.Completes openIds desc (follow (Flight.deliver openIds) (pick fun n => n - 1) f) := by
  obtain ⟨desc, f, hconnect, hmirrored, hanswers, -⟩ := openers_connect
  obtain ⟨p, -, hrefines⟩ := refines_connectBoth hconnect hmirrored
  have horder := hrefines.order_follow (fun n => n - 1) fun n hn => Nat.sub_lt hn Nat.one_pos
  exact ⟨desc, f, hconnect,
    (simultaneousOpen_completes_iff hconnect hmirrored horder).mpr hanswers⟩

/-- Delivered the first first, the SYNs cross, and the exchange never ends. -/
theorem crossing_never_completes :
    ∃ desc f order, Opener.connectBoth openIds openers = .ok (desc, f) ∧
      Opener.Mirrored openers desc f ∧ f.Order openIds order ∧
        ¬ f.Completes openIds desc order := by
  obtain ⟨desc, f, hconnect, hmirrored, -, hcross⟩ := openers_connect
  obtain ⟨p, rfl, hrefines⟩ := refines_connectBoth hconnect hmirrored
  have horder := hrefines.order_follow (fun _ => 0) fun _ hn => hn
  exact ⟨_, f, _, hconnect, hmirrored, horder, fun hdone =>
    hcross ((hrefines.completes_iff horder).mp hdone)⟩

end Libcage.Proofs.Rdp
