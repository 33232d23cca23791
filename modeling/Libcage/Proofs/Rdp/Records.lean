import Libcage.Proofs.Rdp.SendWindow

/-!
# `Libcage.Proofs.Rdp.Records`: what a call on a record can do, in any state

The windows of a record may be in any state here: their lengths come from the peer, and
`recv_eack` can leave the cursors wrong. Still a call keeps most of the record
(`Kept`), and what it emits are segments with `ACK` that carry the `rcv_cur` of their
moment (`Plain`). `Work` says both. Its lemmas follow the functions of
`Libcage.Rdp.Connection`, each by the lemmas of the functions it calls.

A division by zero comes up only where a window has length zero (`NoLen`).
-/

set_option autoImplicit false

namespace Libcage.Proofs.Rdp

open Libcage.Lib
open Libcage.Rdp

/-- Each slot that was sent holds a data segment of the record, or nothing. -/
def SlotsOk (c : RdpCon) : Prop :=
  ∀ w ∈ c.swnd, w.isSent = true → ∀ pbuf, w.pbuf = some pbuf →
    ∃ payload seq ack, pbuf.data = dataSegment c.addr payload seq ack

/-- What no call on an open record changes. -/
structure Kept (c c' : RdpCon) : Prop where
  addr : c'.addr = c.addr
  desc : c'.desc = c.desc
  sndIss : c'.sndIss = c.sndIss
  rcvIrs : c'.rcvIrs = c.rcvIrs
  rcvMax : c'.rcvMax = c.rcvMax
  swndLen : c'.swndLen = c.swndLen
  rwndLen : c'.rwndLen = c.rwndLen
  length : c'.rwnd.length = c.rwnd.length
  slots : SlotsOk c → SlotsOk c'

/-- The header of an acknowledgement, with data behind it or not. -/
structure PlainHead (addr : RdpAddr) (ack : BitVec 32) (head : RdpHead) : Prop where
  sport : head.sport = addr.sport
  dport : head.dport = addr.dport
  acknum : head.acknum = ack
  hasAck : head.has flagAck = true
  noSyn : head.has flagSyn = false
  noRst : head.has flagRst = false

/-- A segment of a record that acknowledges what the record has received. -/
def Plain (addr : RdpAddr) (e : Emitted) : Prop :=
  ∃ head rest, e.seg = head.encode ++ rest ∧ PlainHead addr e.rcvCur head

/-- A call that leaves the state alone and emits acknowledgements. -/
structure Work (c c' : RdpCon) (out : List Emitted) : Prop where
  kept : Kept c c'
  state : c'.state = c.state
  plain : SlotsOk c → ∀ e ∈ out, Plain c.addr e

/-- A division by zero means a window of length zero. -/
def NoLen (c : RdpCon) (e : Fault) : Prop :=
  e = .divByZero → c.swndLen = 0 ∨ c.rwndLen = 0

namespace Kept

theorem refl (c : RdpCon) : Kept c c := ⟨rfl, rfl, rfl, rfl, rfl, rfl, rfl, rfl, id⟩

theorem trans {c c₁ c₂ : RdpCon} (h : Kept c c₁) (h' : Kept c₁ c₂) : Kept c c₂ where
  addr := h'.addr.trans h.addr
  desc := h'.desc.trans h.desc
  sndIss := h'.sndIss.trans h.sndIss
  rcvIrs := h'.rcvIrs.trans h.rcvIrs
  rcvMax := h'.rcvMax.trans h.rcvMax
  swndLen := h'.swndLen.trans h.swndLen
  rwndLen := h'.rwndLen.trans h.rwndLen
  length := h'.length.trans h.length
  slots := fun hok => h'.slots (h.slots hok)

/-- A lack of length after a call was there before it. -/
theorem noLen {c c' : RdpCon} (h : Kept c c') {e : Fault} (he : NoLen c' e) : NoLen c e := by
  intro hdiv
  rw [← h.swndLen, ← h.rwndLen]
  exact he hdiv

end Kept

namespace Work

theorem refl (c : RdpCon) : Work c c [] := ⟨.refl c, rfl, fun _ _ he => nomatch he⟩

theorem trans {c c₁ c₂ : RdpCon} {out out' : List Emitted} (h : Work c c₁ out)
    (h' : Work c₁ c₂ out') : Work c c₂ (out ++ out') where
  kept := h.kept.trans h'.kept
  state := h'.state.trans h.state
  plain := by
    intro hok e he
    rcases List.mem_append.mp he with he | he
    · exact h.plain hok e he
    · have hplain := h'.plain (h.kept.slots hok) e he
      rwa [h.kept.addr] at hplain

/-- A call that emits nothing. -/
theorem of_kept {c c' : RdpCon} (h : Kept c c') (hstate : c'.state = c.state) : Work c c' [] :=
  ⟨h, hstate, fun _ _ he => nomatch he⟩

/-- One segment of the record after the call. -/
theorem emit {c c' : RdpCon} (h : Kept c c') (hstate : c'.state = c.state) {e : Emitted}
    (he : SlotsOk c → Plain c.addr e) : Work c c' [e] where
  kept := h
  state := hstate
  plain := by
    intro hok e' he'
    rw [List.mem_singleton.mp he']
    exact he hok

end Work

/-! ### Segments -/

/-- The flags say what an acknowledgement is: `ACK` alone or with `EAK`. -/
theorem plainHead {addr : RdpAddr} {ack : BitVec 32} {head : RdpHead}
    (hsport : head.sport = addr.sport) (hdport : head.dport = addr.dport)
    (hack : head.acknum = ack)
    (hflags : head.flags = flagAck ||| flagVer ∨ head.flags = flagAck ||| flagVer ||| flagEak) :
    PlainHead addr ack head := by
  cases hflags with
  | inl h =>
    exact ⟨hsport, hdport, hack, RdpHead.has_of_flags h (by decide),
      RdpHead.has_of_flags h (by decide), RdpHead.has_of_flags h (by decide)⟩
  | inr h =>
    exact ⟨hsport, hdport, hack, RdpHead.has_of_flags h (by decide),
      RdpHead.has_of_flags h (by decide), RdpHead.has_of_flags h (by decide)⟩

/-- What `send_ostand_swnd` puts in front of a payload. -/
theorem plain_dataSegment (addr : RdpAddr) (payload : List Byte) (seq ack : BitVec 32) :
    Plain addr ⟨dataSegment addr payload seq ack, ack⟩ :=
  ⟨dataHeadOf addr payload.length seq ack, payload, rfl, plainHead rfl rfl rfl (Or.inl rfl)⟩

/-- A plain acknowledgement. -/
theorem plain_ackHead (c : RdpCon) (addr : RdpAddr) : Plain addr (c.emit (c.ackHead addr).encode) :=
  ⟨c.ackHead addr, [], (List.append_nil _).symm, plainHead rfl rfl rfl (Or.inl rfl)⟩

/-- The acknowledgement of `delayed_ack`. -/
theorem plain_eackSegment (c : RdpCon) (seqs : List (BitVec 32)) :
    Plain c.addr (c.emit (c.eackSegment seqs)) := by
  by_cases hseqs : seqs = []
  · have hseg : c.eackSegment seqs = (c.ackHead c.addr).encode := if_pos hseqs
    rw [hseg]
    exact plain_ackHead c c.addr
  · exact ⟨_, wr32s seqs, if_neg hseqs, plainHead rfl rfl rfl (Or.inr rfl)⟩

/-! ### Faults of the window accesses -/

theorem wrap_ends {len : Nat} {F : Fault → Prop} (hF : ∀ e, (e = .divByZero → len = 0) → F e)
    (i : Nat) : Ends (fun _ => True) F (wrap i len) := by
  unfold wrap modLen
  split
  · split
    · exact Ends.error (hF _ fun _ => ‹len = 0›)
    · trivial
  · trivial

theorem modLen_ends {len : Nat} {F : Fault → Prop} (hF : ∀ e, (e = .divByZero → len = 0) → F e)
    (i : Nat) : Ends (fun _ => True) F (modLen i len) := by
  unfold modLen
  split
  · exact Ends.error (hF _ fun _ => ‹len = 0›)
  · trivial

section
variable {c : RdpCon}

/-- The remainder by the length of the send window. -/
theorem wrapSwnd_ends (c : RdpCon) (i : Nat) : Ends (fun _ => True) (NoLen c) (wrap i c.swndLen) :=
  wrap_ends (fun _ h hdiv => Or.inl (h hdiv)) i

/-- The remainder by the length of the receive window. -/
theorem wrapRwnd_ends (c : RdpCon) (i : Nat) : Ends (fun _ => True) (NoLen c) (wrap i c.rwndLen) :=
  wrap_ends (fun _ h hdiv => Or.inr (h hdiv)) i

theorem swndAt_ends (c : RdpCon) (i : Nat) : Ends (fun w => w ∈ c.swnd) (NoLen c) (c.swndAt i) := by
  unfold RdpCon.swndAt
  split
  · exact Ends.ok (List.mem_of_getElem? ‹_›)
  · exact Ends.error fun h => nomatch h

theorem rwndAt_ends (c : RdpCon) (i : Nat) : Ends (fun _ => True) (NoLen c) (c.rwndAt i) := by
  unfold RdpCon.rwndAt
  split
  · trivial
  · exact Ends.error fun h => nomatch h

theorem deref_ends (c : RdpCon) (p : Option Packetbuf) :
    Ends (fun pbuf => p = some pbuf) (NoLen c) (deref p) := by
  cases p with
  | some pbuf => exact Ends.ok rfl
  | none => exact Ends.error fun h => nomatch h

/-- A slot that holds nothing it should not may be written anywhere. -/
theorem SlotsOk.set (h : SlotsOk c) {w : Swnd} {i : Nat}
    (hw : w.isSent = true → ∀ pbuf, w.pbuf = some pbuf →
      ∃ payload seq ack, pbuf.data = dataSegment c.addr payload seq ack) :
    SlotsOk { c with swnd := c.swnd.set i w } := by
  intro w' hw'
  rcases List.mem_or_eq_of_mem_set hw' with hmem | rfl
  · exact h w' hmem
  · exact hw

/-- Writing a slot keeps the record. -/
theorem kept_setSwnd (c : RdpCon) {w : Swnd} {i : Nat}
    (hw : SlotsOk c → w.isSent = true → ∀ pbuf, w.pbuf = some pbuf →
      ∃ payload seq ack, pbuf.data = dataSegment c.addr payload seq ack) :
    Kept c { c with swnd := c.swnd.set i w } :=
  ⟨rfl, rfl, rfl, rfl, rfl, rfl, rfl, rfl, fun h => h.set (hw h)⟩

/-- Writing a slot of the receive window keeps the record. -/
theorem kept_setRwnd (c : RdpCon) (w : Rwnd) (i : Nat) :
    Kept c { c with rwnd := c.rwnd.set i w } :=
  ⟨rfl, rfl, rfl, rfl, rfl, rfl, rfl, List.length_set .., id⟩

/-! ### The send window -/

theorem sendSlot_ends (clock : Int) (c : RdpCon) (i : Nat) :
    Ends (fun r => Work c r.1 [r.2]) (NoLen c) (c.sendSlot clock i) := by
  refine (swndAt_ends c i).bind fun pWnd hmem => ?_
  refine (deref_ends c pWnd.pbuf).bind fun payload _ => ?_
  refine (deref_ends c _).bind fun pbuf hpre => ?_
  have hdata : pbuf.data = dataSegment c.addr payload.data c.sndNxt c.rcvCur :=
    (Packetbuf.prepend_eq_some hpre).2
  refine Ends.ok (Work.emit ?_ ?_ fun _ => ?_)
  · refine (kept_setSwnd c fun _ _ pbuf' h => ?_).trans ⟨rfl, rfl, rfl, rfl, rfl, rfl, rfl, rfl, id⟩
    obtain rfl := Option.some.inj h
    exact ⟨_, _, _, hdata⟩
  · rfl
  · show Plain c.addr ⟨pbuf.data, c.rcvCur⟩
    rw [hdata]
    exact plain_dataSegment ..

/-- What a loop that appends to `out` ends with. -/
def Appends (c : RdpCon) (out : List Emitted) (r : RdpCon × List Emitted) : Prop :=
  ∃ more, r.2 = out ++ more ∧ Work c r.1 more

/-- One round, then the rest of the loop. -/
theorem Appends.step {c₁ : RdpCon} {out new : List Emitted} {r : RdpCon × List Emitted}
    (h : Work c c₁ new) (hr : Appends c₁ (out ++ new) r) : Appends c out r := by
  obtain ⟨more, heq, hwork⟩ := hr
  exact ⟨new ++ more, heq.trans (List.append_assoc ..), h.trans hwork⟩

theorem sendOstandLoop_ends (clock : Int) (stop fuel : Nat) :
    ∀ (c : RdpCon) (i : Nat) (out : List Emitted),
      Ends (Appends c out) (NoLen c) (RdpCon.sendOstandLoop clock stop fuel c i out) := by
  induction fuel with
  | zero => intro c i out; exact Ends.error fun h => nomatch h
  | succ fuel ih =>
    intro c i out
    have hend : Appends c out ({ c with swndOstand := i }, out) :=
      ⟨[], (List.append_nil out).symm, .of_kept ⟨rfl, rfl, rfl, rfl, rfl, rfl, rfl, rfl, id⟩ rfl⟩
    rw [RdpCon.sendOstandLoop]
    split
    · exact Ends.ok hend
    · split
      · refine (sendSlot_ends clock c i).bind fun r hwork => ?_
        refine (wrapSwnd_ends c _).bind fun i' _ => ?_
        exact (ih r.1 i' (out ++ [r.2])).mono (fun _ hr => hr.step hwork) fun _ => hwork.kept.noLen
      · exact Ends.ok hend

theorem sendOstandSwnd_ends (clock : Int) (c : RdpCon) :
    Ends (fun r => Work c r.1 r.2) (NoLen c) (c.sendOstandSwnd clock) := by
  refine (modLen_ends (F := NoLen c) (fun _ h hdiv => Or.inl (h hdiv)) _).bind fun stop _ => ?_
  refine (sendOstandLoop_ends clock stop _ c _ []).mono (fun r hr => ?_) fun _ => id
  obtain ⟨more, hout, hwork⟩ := hr
  rw [hout]
  exact hwork

/-- A fault of `send_ostand_swnd` after some work. -/
theorem Work.sendOstand {c₁ : RdpCon} (h : Work c c₁ []) (clock : Int) :
    Ends (fun r => Work c r.1 r.2) (NoLen c) (c₁.sendOstandSwnd clock) :=
  (sendOstandSwnd_ends clock c₁).mono (fun _ hr => h.trans hr) fun _ => h.kept.noLen

theorem enqueueSwnd_ends (clock : Int) (c : RdpCon) (pbuf : Packetbuf) :
    Ends (fun r => Work c r.2.1 r.2.2) (NoLen c) (c.enqueueSwnd clock pbuf) := by
  rw [RdpCon.enqueueSwnd]
  split
  · exact Ends.ok (.refl c)
  · refine (modLen_ends (F := NoLen c) (fun _ h hdiv => Or.inl (h hdiv)) _).bind fun pos _ => ?_
    refine (swndAt_ends c pos).bind fun pWnd _ => ?_
    have hkept : Kept c { c with
        swnd := c.swnd.set pos { pWnd with
          pbuf := some pbuf, sentTime := 0, isAcked := false, isSent := false, rtSec := 1 }
        swndUsed := c.swndUsed + 1 } :=
      (kept_setSwnd c fun _ hsent => absurd hsent Bool.false_ne_true).trans
        ⟨rfl, rfl, rfl, rfl, rfl, rfl, rfl, rfl, id⟩
    exact ((Work.of_kept hkept rfl).sendOstand clock).bind fun _ hr => Ends.ok hr

/-- What `recv_ack` does to an entry that the number covers. -/
theorem work_giveUp (c : RdpCon) (pWnd : Swnd) (i : Nat) :
    Work c
      (if pWnd.isSent then
        { c with
          swnd := if pWnd.isAcked then c.swnd else c.swnd.set i { pWnd with pbuf := none }
          swndUsed := c.swndUsed - 1 }
      else
        c) [] := by
  split
  · refine .of_kept ⟨rfl, rfl, rfl, rfl, rfl, rfl, rfl, rfl, fun h => ?_⟩ rfl
    show ∀ w ∈ (if pWnd.isAcked then c.swnd else c.swnd.set i { pWnd with pbuf := none }), _
    split
    · exact h
    · exact h.set fun _ _ hnone => nomatch hnone
  · exact .refl c

theorem recvAckLoop_ends (acknum : BitVec 32) (fuel : Nat) :
    ∀ (c : RdpCon) (i : Nat),
      Ends (fun r => Work c r.1 []) (NoLen c) (RdpCon.recvAckLoop acknum fuel c i) := by
  induction fuel with
  | zero => intro c i; exact Ends.error fun h => nomatch h
  | succ fuel ih =>
    intro c i
    rw [RdpCon.recvAckLoop]
    split
    · exact Ends.ok (.refl c)
    · refine (swndAt_ends c i).bind fun pWnd _ => ?_
      split
      · have hwork := work_giveUp c pWnd i
        refine (wrapSwnd_ends c _).bind fun i' _ => ?_
        exact (ih _ i').mono (fun _ hr => hwork.trans hr) fun _ => hwork.kept.noLen
      · exact Ends.ok (.refl c)

theorem recvAck_ends (clock : Int) (c : RdpCon) (acknum : BitVec 32) :
    Ends (fun r => Work c r.1 r.2) (NoLen c) (c.recvAck clock acknum) := by
  rw [RdpCon.recvAck]
  split
  · refine (recvAckLoop_ends acknum _ c _).bind fun r hwork => ?_
    have hmoved : Work r.1 { r.1 with swndHead := r.2, sndUna := acknum } [] :=
      .of_kept ⟨rfl, rfl, rfl, rfl, rfl, rfl, rfl, rfl, id⟩ rfl
    exact (hwork.trans hmoved).sendOstand clock
  · exact sendOstandSwnd_ends clock c

theorem eackPopLoop_ends (fuel : Nat) :
    ∀ c : RdpCon, Ends (fun c' => Work c c' []) (NoLen c) (RdpCon.eackPopLoop fuel c) := by
  induction fuel with
  | zero => intro c; exact Ends.error fun h => nomatch h
  | succ fuel ih =>
    intro c
    rw [RdpCon.eackPopLoop]
    split
    · exact Ends.ok (.refl c)
    · refine (swndAt_ends c _).bind fun pWnd _ => ?_
      split
      · refine (wrapSwnd_ends c _).bind fun head _ => ?_
        have hwork : Work c { c with swndHead := head } [] :=
          .of_kept ⟨rfl, rfl, rfl, rfl, rfl, rfl, rfl, rfl, id⟩ rfl
        exact (ih _).mono (fun _ hr => hwork.trans hr) fun _ => hwork.kept.noLen
      · exact Ends.ok (.refl c)

theorem recvEack_ends (c : RdpCon) (eacknum : BitVec 32) :
    Ends (fun c' => Work c c' []) (NoLen c) (c.recvEack eacknum) := by
  rw [RdpCon.recvEack]
  split
  · exact Ends.ok (.refl c)
  · refine (swndAt_ends c _).bind fun first _ => ?_
    dsimp only
    split
    · exact Ends.ok (.refl c)
    · refine (wrapSwnd_ends c _).bind fun pos _ => ?_
      refine (swndAt_ends c pos).bind fun pWnd _ => ?_
      split
      · have hwork :
            Work c { c with swnd := c.swnd.set pos { pWnd with pbuf := none, isAcked := true } }
              [] := .of_kept (kept_setSwnd c fun _ _ pbuf hnone => by cases hnone) rfl
        exact (eackPopLoop_ends _ _).mono (fun _ hr => hwork.trans hr) fun _ => hwork.kept.noLen
      · exact eackPopLoop_ends _ c

theorem eackLoop_ends (view : List Byte) (n : Nat) :
    ∀ (i : Nat) (c : RdpCon),
      Ends (fun c' => Work c c' []) (NoLen c) (RdpCon.eackLoop view n i c) := by
  induction n with
  | zero => intro i c; exact Ends.ok (.refl c)
  | succ n ih =>
    intro i c
    refine (recvEack_ends c _).bind fun c' hwork => ?_
    exact (ih (i + 1) c').mono (fun _ hr => hwork.trans hr) fun _ => hwork.kept.noLen

/-- What `retransmit` ends with: it ran to its end, or the pipe broke after some work. -/
def Retransmitted (c : RdpCon) (out : List Emitted) (r : Bool × RdpCon × List Emitted) : Prop :=
  ∃ c₁ more, r.2.2 = out ++ more ∧ Work c c₁ more ∧
    r.2.1 = if r.1 then c₁ else { c₁ with state := .closed }

theorem Retransmitted.step {c₁ : RdpCon} {out new : List Emitted} {r : Bool × RdpCon × List Emitted}
    (h : Work c c₁ new) (hr : Retransmitted c₁ (out ++ new) r) : Retransmitted c out r := by
  obtain ⟨c₂, more, heq, hwork, hc⟩ := hr
  exact ⟨c₂, new ++ more, heq.trans (List.append_assoc ..), h.trans hwork, hc⟩

theorem retransmitLoop_ends (clock maxRetrans : Int) (n : Nat) :
    ∀ (c : RdpCon) (i : Nat) (out : List Emitted),
      Ends (Retransmitted c out) (NoLen c) (RdpCon.retransmitLoop clock maxRetrans n c i out) := by
  induction n with
  | zero =>
    intro c i out
    exact Ends.ok ⟨c, [], (List.append_nil out).symm, .refl c, rfl⟩
  | succ n ih =>
    intro c i out
    -- A loop that stops here has sent nothing.
    have hend : ∀ alive : Bool, Retransmitted c out
        (alive, if alive then c else { c with state := .closed }, out) := fun alive =>
      ⟨c, [], (List.append_nil out).symm, .refl c, rfl⟩
    rw [RdpCon.retransmitLoop]
    refine (swndAt_ends c i).bind fun pWnd hmem => ?_
    refine (wrapSwnd_ends c _).bind fun i' _ => ?_
    split
    · exact Ends.ok (hend true)
    · split
      · exact ih c i' out
      · split
        · exact Ends.ok (hend false)
        · split
          · -- The slot goes out again, its acknowledgement number brought up to date.
            refine (deref_ends c pWnd.pbuf).bind fun pbuf hpbuf => ?_
            have hsent : pWnd.isSent = true := by simpa using ‹¬¬pWnd.isSent = true›
            have hagain : SlotsOk c → ∃ payload seq, (pbuf.set32 12 c.rcvCur).data
                = dataSegment c.addr payload seq c.rcvCur := by
              intro hok
              obtain ⟨payload, seq, ack, hdata⟩ := hok pWnd hmem hsent pbuf hpbuf
              exact ⟨payload, seq, set32_acknum hdata c.rcvCur⟩
            have hwork : Work c
                { c with swnd := c.swnd.set i { pWnd with
                    pbuf := some (pbuf.set32 12 c.rcvCur), sentTime := timeNull clock,
                    rtSec := pWnd.rtSec * 2 } }
                [c.emit (pbuf.set32 12 c.rcvCur).data] := by
              refine Work.emit (kept_setSwnd c fun hok _ pbuf' h => ?_) rfl fun hok => ?_
              · obtain ⟨payload, seq, hdata⟩ := hagain hok
                obtain rfl := Option.some.inj h
                exact ⟨payload, seq, c.rcvCur, hdata⟩
              · obtain ⟨payload, seq, hdata⟩ := hagain hok
                show Plain c.addr ⟨(pbuf.set32 12 c.rcvCur).data, c.rcvCur⟩
                rw [hdata]
                exact plain_dataSegment ..
            exact (ih _ i' _).mono (fun _ hr => hr.step hwork) fun _ => hwork.kept.noLen
          · exact ih c i' out

theorem retransmit_ends (clock maxRetrans : Int) (c : RdpCon) :
    Ends (Retransmitted c []) (NoLen c) (c.retransmit clock maxRetrans) :=
  retransmitLoop_ends ..

/-! ### The receive window -/

theorem eackScanLoop_ends (fuel : Nat) :
    ∀ (c : RdpCon) (idx i : Nat) (seqs : List (BitVec 32)),
      Ends (fun r => Work c r.1 []) (NoLen c) (RdpCon.eackScanLoop fuel c idx i seqs) := by
  induction fuel with
  | zero => intro c idx i seqs; exact Ends.error fun h => nomatch h
  | succ fuel ih =>
    intro c idx i seqs
    rw [RdpCon.eackScanLoop]
    split
    · refine (rwndAt_ends c idx).bind fun w _ => ?_
      refine (wrapRwnd_ends c _).bind fun idx' _ => ?_
      split
      · split
        · exact ih c idx' (i + 1) seqs
        · have hwork : Work c { c with rwnd := c.rwnd.set idx { w with isEacked := true } } [] :=
            .of_kept (kept_setRwnd c _ idx) rfl
          exact (ih _ idx' (i + 1) _).mono (fun _ hr => hwork.trans hr) fun _ => hwork.kept.noLen
      · exact ih c idx' i seqs
    · exact Ends.ok (.refl c)

theorem delayedAck_ends (clock : Int) (c : RdpCon) :
    Ends (fun r => Work c r.1 r.2) (NoLen c) (c.delayedAck clock) := by
  refine (eackScanLoop_ends _ c _ 0 []).bind fun (c', seqs) hwork => ?_
  dsimp only
  split
  · exact Ends.ok hwork
  · have hacked : Work c' { c' with rcvAck := c'.rcvCur, ackedTime := clock }
        [c'.emit (c'.eackSegment seqs)] := by
      refine Work.emit ?_ ?_ fun _ => plain_eackSegment c' seqs
      · exact ⟨rfl, rfl, rfl, rfl, rfl, rfl, rfl, rfl, id⟩
      · rfl
    exact Ends.ok (hwork.trans hacked)

theorem rwndPopLoop_ends (fuel : Nat) :
    ∀ c : RdpCon, Ends (fun c' => Work c c' []) (NoLen c) (RdpCon.rwndPopLoop fuel c) := by
  induction fuel with
  | zero => intro c; exact Ends.error fun h => nomatch h
  | succ fuel ih =>
    intro c
    rw [RdpCon.rwndPopLoop]
    refine (rwndAt_ends c _).bind fun w _ => ?_
    split
    · refine (deref_ends c w.pbuf).bind fun pbuf _ => ?_
      refine (wrapRwnd_ends c _).bind fun head _ => ?_
      have hwork : Work c
          { c with
            rcvCur := c.rcvCur + 1
            rqueue := if pbuf.getLen > 0 then c.rqueue ++ [pbuf] else c.rqueue
            rwnd :=
              c.rwnd.set c.rwndHead { w with pbuf := none, isUsed := false, isEacked := false }
            rwndUsed := c.rwndUsed - 1
            rwndHead := head } [] :=
        .of_kept ⟨rfl, rfl, rfl, rfl, rfl, rfl, rfl, List.length_set .., id⟩ rfl
      exact (ih _).mono (fun _ hr => hwork.trans hr) fun _ => hwork.kept.noLen
    · exact Ends.ok (.refl c)

theorem rwndRecvData_ends (clock : Int) (c : RdpCon) (pbuf : Packetbuf) (seqnum : BitVec 32) :
    Ends (fun r => Work c r.1 r.2) (NoLen c) (c.rwndRecvData clock pbuf seqnum) := by
  unfold RdpCon.rwndRecvData
  dsimp only
  split
  · exact Ends.ok (.refl c)
  · refine (wrapRwnd_ends c _).bind fun idx _ => ?_
    refine (rwndAt_ends c idx).bind fun w _ => ?_
    -- The packet takes its slot, unless the slot is taken.
    have hwork : Work c (if w.isUsed then c else
        { c with
          rwnd := c.rwnd.set idx
            { pbuf := some pbuf, seqnum := seqnum, isUsed := true, isEacked := false }
          rwndUsed := c.rwndUsed + 1 }) [] := by
      split
      · exact .refl c
      · exact .of_kept ⟨rfl, rfl, rfl, rfl, rfl, rfl, rfl, List.length_set .., id⟩ rfl
    refine ((rwndPopLoop_ends _ _).mono (fun _ hr => hwork.trans hr)
      fun _ => hwork.kept.noLen).bind fun c₂ hpop => ?_
    split
    · exact (delayedAck_ends clock c₂).mono (fun _ hr => hpop.trans hr) fun _ => hpop.kept.noLen
    · exact Ends.ok hpop

/-! ### User data -/

theorem sendLoop_ends (clock : Int) (fuel : Nat) :
    ∀ (c : RdpCon) (buf : List Byte) (total : Nat) (out : List Emitted),
      Ends (fun r => Appends c out r.2) (NoLen c) (RdpCon.sendLoop clock fuel c buf total out) := by
  induction fuel with
  | zero => intro c buf total out; exact Ends.error fun h => nomatch h
  | succ fuel ih =>
    intro c buf total out
    rw [RdpCon.sendLoop]
    dsimp only
    generalize (if (buf.length : Int) < _ then (buf.length : Int) else _) = size
    split
    · exact Ends.error fun h => nomatch h
    · refine (deref_ends c _).bind fun pbuf _ => ?_
      refine (enqueueSwnd_ends clock c pbuf).bind fun r hwork => ?_
      split
      · exact Ends.ok ⟨r.2.2, rfl, hwork⟩
      · split
        · exact Ends.ok ⟨r.2.2, rfl, hwork⟩
        · exact (ih r.2.1 _ _ _).mono (fun _ hr => hr.step hwork) fun _ => hwork.kept.noLen

/-- `send` works on an open record only. -/
theorem send_ends (clock : Int) (c : RdpCon) (buf : List Byte) :
    Ends (fun r => Work c r.2.1 r.2.2 ∧ (r.2.2 = [] ∨ c.state = .opened))
      (fun e => c.state = .opened ∧ NoLen c e) (c.send clock buf) := by
  unfold RdpCon.send
  split
  · exact Ends.ok ⟨.refl c, Or.inl rfl⟩
  · have hopen : c.state = .opened := not_not.mp ‹_›
    split
    · exact Ends.ok ⟨.refl c, Or.inl rfl⟩
    · refine ((sendLoop_ends clock _ c buf 0 []).mono (fun _ => id) fun _ h => ⟨hopen, h⟩).bind
        fun r hr => ?_
      obtain ⟨more, hout, hwork⟩ := hr
      refine Ends.ok ⟨?_, Or.inr hopen⟩
      show Work c r.2.1 r.2.2
      rw [hout]
      exact hwork

theorem receive_work (c : RdpCon) (len : Int) : Work c (c.receive len).2 [] :=
  .of_kept ⟨rfl, rfl, rfl, rfl, rfl, rfl, rfl, rfl, id⟩ rfl

end

end Libcage.Proofs.Rdp
