import Libcage.Proofs.Rdp.RecvWindow
import Libcage.Proofs.Rdp.SendWindowRuns

/-!
# `Libcage.Proofs.Rdp.SendCursors`: the send window after any calls

`SendWindow` describes the ring as long as no `recv_eack` removes its head. After one that
does, `m_swnd_used` counts slots behind the tail, and these have lost their packets.
`SendCursors` is what remains true then, for a window of any positive length: the first `o`
entries are sent and carry consecutive numbers, the slots behind them up to the counted
tail hold a payload that waits or nothing, and all others hold nothing.

Every call that returns keeps it. `send_ostand_swnd` returns exactly if no slot that it comes
to is empty (`sendOstandLoop_cursors`). The numbers stay in the window of the peer: there is
always at least one and never more than `snd_max` between `snd_una` and `snd_nxt`.

A handshake may also leave a window without slots (`NoSlots`). `SendReady` is either.
-/

set_option autoImplicit false

namespace Libcage.Proofs.Rdp

open Libcage.Lib
open Libcage.Rdp

/-- The slot `k` places behind the head, of which `o` are sent and `used` counted. -/
structure CursorSlot (sndNxt : BitVec 32) (o used k : Nat) (w : Swnd) : Prop where
  sent : k < o → w.isSent = true ∧ w.seqnum = sndNxt - BitVec.ofNat 32 (o - k)
  marked : k < o → w.isAcked = true → w.pbuf = none
  waits : o ≤ k → k < used → w.pbuf ≠ none → ∃ payload, QueuedSlot payload w
  free : used ≤ k → w.pbuf = none

/-- A slot behind the sent ones may always be empty. -/
theorem CursorSlot.empty {sndNxt : BitVec 32} {o used k : Nat} {w : Swnd} (hk : o ≤ k)
    (hnone : w.pbuf = none) : CursorSlot sndNxt o used k w where
  sent hlt := by omega
  marked _ _ := hnone
  waits _ _ hsome := absurd hnone hsome
  free _ := hnone

/-- The head moves over `p` slots that were sent and taken off. -/
theorem CursorSlot.behind {sndNxt : BitVec 32} {o used p k : Nat} {w : Swnd}
    (h : CursorSlot sndNxt o used (p + k) w) : CursorSlot sndNxt (o - p) (used - p) k w where
  sent hk := by
    rw [show o - p - k = o - (p + k) by omega]
    exact h.sent (by omega)
  marked hk := h.marked (by omega)
  waits hk hk' := h.waits (by omega) (by omega)
  free hk := h.free (by omega)

/-- The entries behind a head that moved: those in front of the end of the old ring, and those
that it moved over. -/
theorem entry_behind {swnd : List Swnd} {head len p k : Nat} {w : Swnd} (hlen : swnd.length = len)
    (hw : Ring.entry swnd (Ring.pos head len p) k = some w) :
    p + k < len ∧ Ring.entry swnd head (p + k) = some w ∨
      len ≤ p + k ∧ Ring.entry swnd head (p + k - len) = some w := by
  subst hlen
  rw [Ring.entry_pos] at hw
  by_cases hturn : p + k < swnd.length
  · exact Or.inl ⟨hturn, hw⟩
  · rw [Ring.entry_turn _ (Nat.not_lt.mp hturn)] at hw
    exact Or.inr ⟨Nat.not_lt.mp hturn, hw⟩

/-- The ring and its cursors, whatever the calls before. -/
structure CursorRing (o : Nat) (c : RdpCon) : Prop where
  max_lt : c.sndMax.toNat < 2 ^ 29
  len_eq : c.swndLen = c.sndMax.toNat * 4
  length_eq : c.swnd.length = c.swndLen
  head_lt : c.swndHead < c.swndLen
  sent_lt : o < (c.sndNxt - c.sndUna).toNat
  out_le : (c.sndNxt - c.sndUna).toNat ≤ c.sndMax.toNat
  sent_le : o ≤ c.swndUsed
  used_le : c.swndUsed ≤ c.swndLen
  slot : ∀ k w, k < c.swndLen → Ring.entry c.swnd c.swndHead k = some w →
    CursorSlot c.sndNxt o c.swndUsed k w

/-- The send window between two calls, whatever they were. -/
structure SendCursors (o : Nat) (c : RdpCon) : Prop extends CursorRing o c where
  ostand : c.swndOstand = Ring.pos c.swndHead c.swndLen o

section
variable {o : Nat} {c : RdpCon}

namespace CursorRing

theorem sent_lt_len (h : CursorRing o c) : o < c.swndLen := by
  have := h.len_eq
  have := h.sent_lt
  have := h.out_le
  omega

theorem len_pos (h : CursorRing o c) : 0 < c.swndLen :=
  Nat.lt_of_le_of_lt (Nat.zero_le o) h.sent_lt_len

theorem length_pos (h : CursorRing o c) : 0 < c.swnd.length := by
  rw [h.length_eq]
  exact h.len_pos

/-- `m_swnd[i]` at the slot of an entry. -/
theorem swndAt_of_entry (h : CursorRing o c) {k : Nat} {w : Swnd}
    (hw : Ring.entry c.swnd c.swndHead k = some w) :
    c.swndAt (Ring.pos c.swndHead c.swndLen k) = .ok w := by
  unfold RdpCon.swndAt
  rw [Ring.entry, h.length_eq] at hw
  rw [hw]

/-- The entries after one slot was written. -/
theorem entry_set (h : CursorRing o c) {j k : Nat} (hj : j < c.swndLen) (hk : k < c.swndLen)
    (w : Swnd) :
    Ring.entry (c.swnd.set (Ring.pos c.swndHead c.swndLen k) w) c.swndHead j
      = if j = k then some w else Ring.entry c.swnd c.swndHead j := by
  rw [← h.length_eq] at hj hk ⊢
  split
  · next heq => rw [heq, Ring.entry_set_self _ _ (by omega)]
  · next hne => rw [Ring.entry_set_ne hj hk hne]

/-- The cursor of the payloads that wait is at the tail where none waits. A full ring is told
from an empty one by the segments outstanding. -/
theorem pos_eq_tail_iff (h : CursorRing o c) (hfree : c.swndUsed < c.swndLen ∨ 0 < o) :
    Ring.pos c.swndHead c.swndLen o = Ring.pos c.swndHead c.swndLen c.swndUsed
      ↔ o = c.swndUsed := by
  have hlt := h.sent_lt_len
  refine ⟨fun he => ?_, fun he => by rw [he]⟩
  by_cases hfull : c.swndUsed = c.swndLen
  · rw [hfull, Ring.pos_len h.head_lt, ← Ring.pos_zero h.head_lt, Ring.pos_pos, Nat.zero_add] at he
    have := Ring.pos_inj hlt h.len_pos he
    omega
  · have := h.used_le
    exact Ring.pos_inj hlt (by omega) he

/-- Overwrite the slot `k` places behind the head with one that fits there. -/
theorem setSlot (h : CursorRing o c) {k : Nat} (hk : k < c.swndLen) {w : Swnd}
    (hw : CursorSlot c.sndNxt o c.swndUsed k w) :
    CursorRing o { c with swnd := c.swnd.set (Ring.pos c.swndHead c.swndLen k) w } := by
  refine { h with
    length_eq := (List.length_set ..).trans h.length_eq
    slot := fun j w' hj hw' => ?_ }
  have hset := h.entry_set hj hk w
  by_cases hjk : j = k
  · rw [if_pos hjk] at hset
    obtain rfl : w = w' := Option.some.inj (hset.symm.trans hw')
    rw [hjk]
    exact hw
  · rw [if_neg hjk] at hset
    exact h.slot j w' hj (hset.symm.trans hw')

end CursorRing

/-! ### Sending what fits -/

/-- The slot `k` places behind the head has no packet. -/
def Empty (c : RdpCon) (k : Nat) : Prop :=
  ∃ w, Ring.entry c.swnd c.swndHead k = some w ∧ w.pbuf = none

/-- The room that the peer's window leaves. -/
def room (c : RdpCon) : Nat := c.sndMax.toNat - (c.sndNxt - c.sndUna).toNat

/-- The loop body of `send_ostand_swnd` faults at an empty slot. -/
theorem CursorRing.sendSlot_empty (h : CursorRing o c) (hempty : Empty c o) (clock : Int) :
    c.sendSlot clock (Ring.pos c.swndHead c.swndLen o) = .error .nullDeref := by
  obtain ⟨w, hw, hnone⟩ := hempty
  rw [RdpCon.sendSlot, h.swndAt_of_entry hw, ok_bind, hnone]
  rfl

/-- A segment more is outstanding. -/
theorem CursorRing.next_outstanding (h : CursorRing o c) (hroom : 0 < room c) :
    (c.sndNxt + 1 - c.sndUna).toNat = (c.sndNxt - c.sndUna).toNat + 1 := by
  have := h.max_lt
  unfold room at hroom
  rw [add_sub_right_comm, BitVec.toNat_add]
  exact Nat.mod_eq_of_lt (by show _ + 1 < 2 ^ 32; omega)

/-- The ring when the first payload that waits has been sent from its slot. -/
theorem CursorRing.advance (h : CursorRing o c) (ho : o < c.swndUsed) (hroom : 0 < room c)
    {sent : Swnd} (hsent : sent.isSent = true) (hseq : sent.seqnum = c.sndNxt)
    (hnotAcked : sent.isAcked = false) :
    CursorRing (o + 1) { c with
      swnd := c.swnd.set (Ring.pos c.swndHead c.swndLen o) sent
      sndNxt := c.sndNxt + 1 } := by
  have hlt := h.sent_lt_len
  have hnext := h.next_outstanding hroom
  refine { max_lt := h.max_lt, len_eq := h.len_eq,
           length_eq := (List.length_set ..).trans h.length_eq,
           head_lt := h.head_lt, sent_lt := ?_, out_le := ?_, sent_le := ho, used_le := h.used_le,
           slot := fun k w' hk hw' => ?_ }
  · show o + 1 < (c.sndNxt + 1 - c.sndUna).toNat
    have := h.sent_lt
    omega
  · show (c.sndNxt + 1 - c.sndUna).toNat ≤ c.sndMax.toNat
    unfold room at hroom
    omega
  · have hset := h.entry_set hk hlt sent
    by_cases hko : k = o
    · -- The slot just sent.
      rw [if_pos hko] at hset
      obtain rfl : sent = w' := Option.some.inj (hset.symm.trans hw')
      refine ⟨fun _ => ⟨hsent, hseq.trans ?_⟩, fun _ hacked => ?_, fun hle => by omega,
        fun hle => ?_⟩
      · show c.sndNxt = c.sndNxt + 1 - BitVec.ofNat 32 (o + 1 - k)
        rw [hko, show o + 1 - o = 1 by omega]
        exact (add_sub_cancel_right c.sndNxt 1).symm
      · exact absurd (hnotAcked.symm.trans hacked) (by decide)
      · have : c.swndUsed ≤ k := hle
        omega
    · rw [if_neg hko] at hset
      have hold := h.slot k w' hk (hset.symm.trans hw')
      refine ⟨fun hlt' => ?_, fun hlt' => hold.marked (by omega),
        fun hle => hold.waits (by omega), hold.free⟩
      obtain ⟨hsent, hseq⟩ := hold.sent (by omega)
      refine ⟨hsent, hseq.trans ?_⟩
      rw [show o + 1 - k = o - k + 1 by omega, BitVec.ofNat_add]
      exact (add_sub_add_right_eq_sub c.sndNxt _ 1).symm

/-- The loop body of `send_ostand_swnd` sends a payload that waits. -/
theorem CursorRing.sendSlot (h : CursorRing o c) (ho : o < c.swndUsed) (hroom : 0 < room c)
    (hfull : ¬ Empty c o) (clock : Int) :
    ∃ c' e, c.sendSlot clock (Ring.pos c.swndHead c.swndLen o) = .ok (c', e) ∧
      CursorRing (o + 1) c' ∧ room c' + 1 = room c ∧ c'.sndUna = c.sndUna ∧
      c'.swndHead = c.swndHead ∧ c'.swndUsed = c.swndUsed ∧ withoutSend c' = withoutSend c ∧
      ∀ k, o < k → k < c.swndLen → (Empty c' k ↔ Empty c k) := by
  have hlt := h.sent_lt_len
  obtain ⟨w, hw⟩ := Ring.exists_entry c.swndHead o h.length_pos
  have hnone : w.pbuf ≠ none := fun hnone => hfull ⟨w, hw, hnone⟩
  have hslot := h.slot o w hlt hw
  obtain ⟨payload, hqueued⟩ := hslot.waits (Nat.le_refl o) ho hnone
  obtain ⟨waiting, hwaiting, -, hhead⟩ := hqueued.pbuf
  obtain ⟨pbuf, hpre⟩ : ∃ pbuf, waiting.prepend (c.dataHead waiting.getLen).encode = some pbuf :=
    Packetbuf.prepend_isSome hhead
  let sent : Swnd :=
    { w with pbuf := some pbuf, sentTime := timeNull clock, isSent := true, seqnum := c.sndNxt }
  have hnext := h.next_outstanding hroom
  refine ⟨{ c with swnd := c.swnd.set (Ring.pos c.swndHead c.swndLen o) sent,
                   sndNxt := c.sndNxt + 1 }, c.emit pbuf.data, ?_,
    h.advance ho hroom rfl rfl hqueued.isAcked, ?_, rfl, rfl, rfl, rfl, ?_⟩
  · rw [RdpCon.sendSlot, h.swndAt_of_entry hw, ok_bind, hwaiting]
    show (deref (waiting.prepend (c.dataHead waiting.getLen).encode) >>= _) = _
    rw [hpre]
    rfl
  · unfold room at hroom ⊢
    show c.sndMax.toNat - (c.sndNxt + 1 - c.sndUna).toNat + 1 = _
    omega
  · intro k hok hk
    unfold Empty
    show (∃ w', Ring.entry (c.swnd.set (Ring.pos c.swndHead c.swndLen o) sent) c.swndHead k
      = some w' ∧ _) ↔ _
    rw [h.entry_set hk hlt, if_neg (by omega)]

/-- `send_ostand_swnd` comes to an empty slot. -/
def Blocked (o : Nat) (c : RdpCon) : Prop :=
  ∃ k, o ≤ k ∧ k < c.swndUsed ∧ k - o < room c ∧ Empty c k

/-- What `send_ostand_swnd` leaves as it was. -/
structure Sends (c c' : RdpCon) : Prop where
  head : c'.swndHead = c.swndHead
  used : c'.swndUsed = c.swndUsed
  una : c'.sndUna = c.sndUna
  same : withoutSend c' = withoutSend c

theorem Sends.trans {c₁ c' : RdpCon} (h : Sends c c₁) (h' : Sends c₁ c') : Sends c c' :=
  ⟨h'.head.trans h.head, h'.used.trans h.used, h'.una.trans h.una, h'.same.trans h.same⟩

/-- The loop of `send_ostand_swnd` sends payloads until none waits or the peer's window is
full, unless it comes to an empty slot before. -/
theorem sendOstandLoop_cursors (clock : Int) (fuel : Nat) :
    ∀ {o : Nat} {c : RdpCon} (out : List Emitted), CursorRing o c →
      (c.swndUsed < c.swndLen ∨ 0 < o) → c.swndUsed - o < fuel →
      (∃ o' c' more, RdpCon.sendOstandLoop clock (Ring.pos c.swndHead c.swndLen c.swndUsed) fuel c
          (Ring.pos c.swndHead c.swndLen o) out = .ok (c', out ++ more) ∧
        SendCursors o' c' ∧ Sends c c' ∧ (o' = c'.swndUsed ∨ room c' = 0) ∧ ¬ Blocked o c) ∨
      (RdpCon.sendOstandLoop clock (Ring.pos c.swndHead c.swndLen c.swndUsed) fuel c
          (Ring.pos c.swndHead c.swndLen o) out = .error .nullDeref ∧ Blocked o c) := by
  -- By the slots still in front of the tail.
  induction fuel with
  | zero => intro o c out _ _ hfuel; omega
  | succ fuel ih =>
    intro o c out h hfree hfuel
    have hstop := h.pos_eq_tail_iff hfree
    have hle := h.sent_le
    rw [RdpCon.sendOstandLoop]
    by_cases hdone : o = c.swndUsed
    · left
      rw [if_pos (hstop.mpr hdone)]
      refine ⟨o, { c with swndOstand := Ring.pos c.swndHead c.swndLen o }, [],
        by rw [List.append_nil], ⟨{ h with }, rfl⟩, ⟨rfl, rfl, rfl, rfl⟩, Or.inl hdone, ?_⟩
      rintro ⟨k, hok, hk, -⟩
      omega
    rw [if_neg fun he => hdone (hstop.mp he)]
    by_cases hroom : c.sndNxt - c.sndUna < c.sndMax
    · rw [if_pos hroom]
      have hpos : 0 < room c := by
        have : (c.sndNxt - c.sndUna).toNat < c.sndMax.toNat := hroom
        unfold room
        omega
      by_cases hempty : Empty c o
      · right
        rw [h.sendSlot_empty hempty clock]
        exact ⟨rfl, o, Nat.le_refl o, by omega, by omega, hempty⟩
      -- The first payload goes out, and the rest by the hypothesis.
      obtain ⟨c₁, e, hsend, hring, hless, huna, hhead, hused, hsame, hslots⟩ :=
        h.sendSlot (by omega) hpos hempty clock
      have hlen : c₁.swndLen = c.swndLen := (congrArg RdpCon.swndLen hsame :)
      have hstep : Sends c c₁ := ⟨hhead, hused, huna, hsame⟩
      have hblocked : Blocked (o + 1) c₁ ↔ Blocked o c := by
        have hfits := h.used_le
        constructor
        · rintro ⟨k, hok, hk, hnear, he⟩
          rw [hused] at hk
          exact ⟨k, by omega, hk, by omega, (hslots k (by omega) (by omega)).mp he⟩
        · rintro ⟨k, hok, hk, hnear, he⟩
          have hne : k ≠ o := fun heq => hempty (heq ▸ he)
          exact ⟨k, by omega, by omega, by omega, (hslots k (by omega) (by omega)).mpr he⟩
      have hloop := ih (out ++ [e]) hring (Or.inr (Nat.succ_pos o)) (by omega)
      rw [hlen, hhead, hused, hblocked] at hloop
      rw [hsend, ok_bind]
      dsimp only
      rw [wrap_pos h.len_pos, ok_bind]
      refine hloop.imp_left ?_
      rintro ⟨o', c', more, hrun, hcursors, hsends, hends, hnot⟩
      exact ⟨o', c', e :: more, by rw [hrun, List.append_assoc]; rfl, hcursors, hstep.trans hsends,
        hends, hnot⟩
    · left
      rw [if_neg hroom]
      have hzero : room c = 0 := by
        have : ¬ (c.sndNxt - c.sndUna).toNat < c.sndMax.toNat := hroom
        unfold room
        omega
      refine ⟨o, { c with swndOstand := Ring.pos c.swndHead c.swndLen o }, [],
        by rw [List.append_nil], ⟨{ h with }, rfl⟩, ⟨rfl, rfl, rfl, rfl⟩, Or.inr hzero, ?_⟩
      rintro ⟨k, -, -, hnear, -⟩
      omega

/-- `send_ostand_swnd` at a ring that is full and has nothing outstanding takes it for an
empty one and sends nothing. -/
theorem sendOstandSwnd_full (h : SendCursors 0 c) (hfull : c.swndUsed = c.swndLen) (clock : Int) :
    c.sendOstandSwnd clock = .ok (c, []) := by
  have hstop : (c.swndHead + c.swndUsed) % c.swndLen = c.swndOstand := by
    rw [hfull, h.ostand, Ring.pos_zero h.head_lt]
    exact Ring.pos_len h.head_lt
  rw [RdpCon.sendOstandSwnd, modLen_eq h.len_pos, hstop, ok_bind, RdpCon.sendOstandLoop, if_pos rfl]

/-- `send_ostand_swnd` keeps the cursors where it returns, and returns unless it comes to an
empty slot. -/
theorem sendOstandSwnd_cursors (h : SendCursors o c) (hfree : c.swndUsed < c.swndLen ∨ 0 < o)
    (clock : Int) :
    (∃ o' c' out, c.sendOstandSwnd clock = .ok (c', out) ∧ SendCursors o' c' ∧ Sends c c' ∧
      (o' = c'.swndUsed ∨ room c' = 0) ∧ ¬ Blocked o c) ∨
    (c.sendOstandSwnd clock = .error .nullDeref ∧ Blocked o c) := by
  have hfuel : c.swndUsed - o < c.swndLen + 1 := by
    have := h.used_le
    omega
  have hloop := sendOstandLoop_cursors clock (c.swndLen + 1) [] h.toCursorRing hfree hfuel
  rw [RdpCon.sendOstandSwnd, modLen_eq h.len_pos, ok_bind, h.ostand]
  exact hloop

/-! ### Accepting a payload -/

/-- A ring with a free slot takes a payload at its counted tail. -/
theorem SendCursors.enqueue (h : SendCursors o c) (hroom : c.swndUsed < c.swndLen)
    {pbuf : Packetbuf} (hhead : sizeofHead ≤ pbuf.head) (w : Swnd) :
    SendCursors o (withQueued c (Ring.pos c.swndHead c.swndLen c.swndUsed) w pbuf) := by
  have hle := h.sent_le
  refine ⟨{ h.toCursorRing with
    length_eq := (List.length_set ..).trans h.length_eq
    sent_le := Nat.le_succ_of_le hle
    used_le := hroom
    slot := fun k w' hk hw' => ?_ }, h.ostand⟩
  have hset := h.entry_set hk hroom (queuedSlot w pbuf)
  show CursorSlot c.sndNxt o (c.swndUsed + 1) k w'
  by_cases hlast : k = c.swndUsed
  · -- The payload just accepted.
    rw [if_pos hlast] at hset
    obtain rfl : queuedSlot w pbuf = w' := Option.some.inj (hset.symm.trans hw')
    refine ⟨fun hlt => by omega, fun hlt => by omega, fun _ _ _ => ?_, fun hle => by omega⟩
    exact ⟨pbuf.data, rfl, rfl, pbuf, rfl, rfl, hhead⟩
  · rw [if_neg hlast] at hset
    have hold := h.slot k w' hk (hset.symm.trans hw')
    exact ⟨hold.sent, hold.marked, fun hle' hlt => hold.waits hle' (by omega),
      fun hle' => hold.free (by omega)⟩

/-- The payload that was accepted is not what `send_ostand_swnd` gets stuck at. -/
theorem blocked_withQueued (h : SendCursors o c) (hroom : c.swndUsed < c.swndLen) (w : Swnd)
    (pbuf : Packetbuf) :
    Blocked o (withQueued c (Ring.pos c.swndHead c.swndLen c.swndUsed) w pbuf) ↔ Blocked o c := by
  have hslot : ∀ k, k < c.swndUsed →
      (Empty (withQueued c (Ring.pos c.swndHead c.swndLen c.swndUsed) w pbuf) k ↔ Empty c k) := by
    intro k hk
    unfold Empty
    show (∃ w', Ring.entry (c.swnd.set _ (queuedSlot w pbuf)) c.swndHead k = some w' ∧ _) ↔ _
    rw [h.entry_set (by omega) hroom, if_neg (by omega)]
  constructor
  · rintro ⟨k, hok, hk, hnear, hempty⟩
    have hne : k ≠ c.swndUsed := by
      intro hlast
      obtain ⟨w', hw', hnone⟩ := hempty
      have hset := h.entry_set (hlast ▸ hroom) hroom (queuedSlot w pbuf)
      rw [if_pos hlast] at hset
      obtain rfl : queuedSlot w pbuf = w' := Option.some.inj (hset.symm.trans hw')
      cases hnone
    have hlt : k < c.swndUsed := by
      have : k < c.swndUsed + 1 := hk
      omega
    exact ⟨k, hok, hlt, hnear, (hslot k hlt).mp hempty⟩
  · rintro ⟨k, hok, hk, hnear, hempty⟩
    exact ⟨k, hok, Nat.lt_succ_of_lt hk, hnear, (hslot k hk).mpr hempty⟩

/-- The window takes one more payload, and `send_ostand_swnd` then comes to a slot that has
lost its packet. The slots it walks over lie between `m_swnd_ostand` and the slot of that
payload; a ring that the payload fills and that has nothing outstanding looks empty to it. -/
def LostSlot (c : RdpCon) : Prop :=
  c.swndUsed < c.swndLen ∧
    ∃ k, k + 1 < (c.swndHead + c.swndUsed + 1 + (c.swndLen - c.swndOstand)) % c.swndLen ∧
      k < room c ∧ ∃ w, Ring.entry c.swnd c.swndOstand k = some w ∧ w.pbuf = none

/-- The slots between the cursor and the tail, as a remainder. -/
theorem walk_eq {head len o used : Nat} (hhead : head < len) (ho : o < len) (hle : o ≤ used)
    (hroom : used < len) :
    (head + used + 1 + (len - Ring.pos head len o)) % len
      = if used + 1 = len ∧ o = 0 then 0 else used + 1 - o := by
  have hostand : Ring.pos head len o = if head + o < len then head + o else head + o - len := by
    rw [Ring.pos]
    split
    · exact Nat.mod_eq_of_lt ‹_›
    · rw [Nat.mod_eq_sub_mod (by omega), Nat.mod_eq_of_lt (by omega)]
  -- The difference is `used + 1 - o` or a turn more.
  have hturn : ∃ n, head + used + 1 + (len - Ring.pos head len o) = used + 1 - o + len * n := by
    rw [hostand]
    split
    · exact ⟨1, by omega⟩
    · exact ⟨2, by omega⟩
  obtain ⟨n, hn⟩ := hturn
  rw [hn, Nat.add_mul_mod_self_left]
  split
  · next hboth => rw [hboth.1, hboth.2, Nat.sub_zero, Nat.mod_self]
  · next hnot => exact Nat.mod_eq_of_lt (by omega)

/-- As long as the window holds every payload that waits, no slot is lost. -/
theorem SendWindow.not_lostSlot {iss : BitVec 32} {marks : Nat → Prop} {items : List (List Byte)}
    {una nxt : Nat} (h : SendWindow iss marks items una nxt c) : ¬ LostSlot c := by
  rintro ⟨hroom, k, hk, -, w, hw, hnone⟩
  have hle := h.una_le
  have hnxt := h.nxt_le
  have hused := h.used_eq
  rw [h.ostand, walk_eq h.head_lt h.window_lt (by omega) hroom] at hk
  have hwaits : una + (nxt - una + k) < items.length := by
    split at hk <;> omega
  rw [h.ostand, ← h.length_eq, Ring.entry_pos] at hw
  obtain ⟨w', hw', hok⟩ := h.slot (nxt - una + k) _ (List.getElem?_eq_getElem hwaits)
  obtain rfl : w' = w := Option.some.inj (hw'.symm.trans hw)
  rw [SlotOk, if_neg (by omega)] at hok
  obtain ⟨pbuf, hpbuf, -⟩ := hok.pbuf
  cases hnone.symm.trans hpbuf

theorem SendCursors.lostSlot_iff (h : SendCursors o c) (hroom : c.swndUsed < c.swndLen) :
    LostSlot c ↔ ¬ (c.swndUsed + 1 = c.swndLen ∧ o = 0) ∧ Blocked o c := by
  have hle := h.sent_le
  have hentry : ∀ k, Ring.entry c.swnd c.swndOstand k = Ring.entry c.swnd c.swndHead (o + k) := by
    intro k
    rw [h.ostand, ← h.length_eq, Ring.entry_pos]
  unfold LostSlot
  rw [h.ostand, walk_eq h.head_lt h.sent_lt_len hle hroom, ← h.ostand]
  constructor
  · rintro ⟨-, k, hk, hnear, w, hw, hnone⟩
    split at hk
    · omega
    · refine ⟨‹_›, o + k, Nat.le_add_right o k, by omega, by omega, w, ?_, hnone⟩
      rw [← hentry k]
      exact hw
  · rintro ⟨hnot, k, hok, hk, hnear, w, hw, hnone⟩
    refine ⟨hroom, k - o, ?_, hnear, w, ?_, hnone⟩
    · rw [if_neg hnot]
      omega
    · rw [hentry, Nat.add_sub_cancel' hok]
      exact hw

/-- `enqueue_swnd` into a window with a free slot accepts the payload unless a slot in front
of it has lost its packet. After it no slot is lost. -/
theorem enqueueSwnd_cursors (h : SendCursors o c) (hopen : c.state = .opened)
    (hroom : c.swndUsed < c.swndLen) {pbuf : Packetbuf} (hhead : sizeofHead ≤ pbuf.head)
    (clock : Int) :
    (∃ o' c' out, c.enqueueSwnd clock pbuf = .ok (true, c', out) ∧ SendCursors o' c' ∧
      c'.swndUsed = c.swndUsed + 1 ∧ withoutSend c' = withoutSend c ∧
      ¬ LostSlot c ∧ ¬ LostSlot c') ∨
    (c.enqueueSwnd clock pbuf = .error .nullDeref ∧ LostSlot c) := by
  obtain ⟨w, hw⟩ := Ring.exists_entry c.swndHead c.swndUsed h.length_pos
  have hqueued := h.enqueue hroom hhead w
  have hrun : c.enqueueSwnd clock pbuf
      = (withQueued c (Ring.pos c.swndHead c.swndLen c.swndUsed) w pbuf).sendOstandSwnd clock >>=
          fun r => .ok (true, r.1, r.2) := by
    have htail : modLen (c.swndHead + c.swndUsed) c.swndLen
        = .ok (Ring.pos c.swndHead c.swndLen c.swndUsed) := modLen_eq h.len_pos
    rw [RdpCon.enqueueSwnd, if_neg (by rw [hopen]; simp; omega), htail, ok_bind,
      h.swndAt_of_entry hw, ok_bind]
    rfl
  rw [hrun, h.lostSlot_iff hroom]
  by_cases hfills : c.swndUsed + 1 = c.swndLen ∧ o = 0
  · -- The ring is full now and nothing is outstanding.
    left
    obtain ⟨hlen, rfl⟩ := hfills
    refine ⟨0, _, [], by rw [sendOstandSwnd_full hqueued hlen clock]; rfl, hqueued, rfl, rfl,
      fun hlost => hlost.1 ⟨hlen, rfl⟩, ?_⟩
    rintro ⟨hfree, -⟩
    have : c.swndUsed + 1 < c.swndLen := hfree
    omega
  · have hfree : c.swndUsed + 1 < c.swndLen ∨ 0 < o := by omega
    rcases sendOstandSwnd_cursors hqueued hfree clock with
      ⟨o', c', out, hsend, hcursors, hsends, hends, hnot⟩ | ⟨hfault, hblocked⟩
    · left
      refine ⟨o', c', out, by rw [hsend]; rfl, hcursors, hsends.used, hsends.same, ?_, ?_⟩
      · exact fun hlost => hnot ((blocked_withQueued h hroom w pbuf).mpr hlost.2)
      · intro hlost
        obtain ⟨-, k, hok, hk, hnear, -⟩ := (hcursors.lostSlot_iff hlost.1).mp hlost
        omega
    · right
      exact ⟨by rw [hfault]; rfl, hfills, (blocked_withQueued h hroom w pbuf).mp hblocked⟩

/-! ### The other calls -/

/-- The distance of a sent entry from `snd_una`, as the code computes it. -/
theorem CursorRing.toNat_seq_sub (h : CursorRing o c) {k : Nat} (hk : k < o) {w : Swnd}
    (hw : Ring.entry c.swnd c.swndHead k = some w) :
    (w.seqnum - c.sndUna).toNat = (c.sndNxt - c.sndUna).toNat - (o - k) := by
  have hlt := h.sent_lt
  have hnum := ((h.slot k w (by have := h.sent_lt_len; omega) hw).sent hk).2
  have hsmall : (BitVec.ofNat 32 (o - k)).toNat = o - k := by
    rw [BitVec.toNat_ofNat]
    exact Nat.mod_eq_of_lt (by have := (c.sndNxt - c.sndUna).isLt; omega)
  rw [hnum, sub_right_comm, BitVec.toNat_sub_of_le, hsmall]
  rw [BitVec.le_def, hsmall]
  omega

/-- The loop of `recv_ack` takes off the sent entries that the number covers. -/
theorem recvAckLoop_cursors (h : SendCursors o c) (acknum : BitVec 32)
    (hin : (acknum - c.sndUna).toNat < (c.sndNxt - c.sndUna).toNat) (n : Nat) :
    ∀ {k : Nat} (fuel : Nat) {c₁ : RdpCon}, n + k = o → n < fuel → Popped k c c₁ →
      (∀ m < k, Empty c₁ m) →
      ∃ p c', RdpCon.recvAckLoop acknum fuel c₁ (Ring.pos c.swndHead c.swndLen k)
          = .ok (c', Ring.pos c.swndHead c.swndLen p) ∧ p ≤ o ∧ Popped p c c' ∧
        (∀ m < p, Empty c' m) ∧
        o - p < (c.sndNxt - c.sndUna).toNat - (acknum - c.sndUna).toNat := by
  have hlt := h.sent_lt_len
  -- By the sent entries still in front of the loop.
  induction n with
  | zero =>
    intro k fuel c₁ hk hfuel hpop hgone
    obtain rfl : k = o := by omega
    obtain ⟨fuel, rfl⟩ := Nat.exists_eq_succ_of_ne_zero (by omega : fuel ≠ 0)
    have hostand : c₁.swndOstand = c.swndOstand := (congrArg RdpCon.swndOstand hpop.same :)
    refine ⟨k, c₁, ?_, Nat.le_refl k, hpop, hgone, by omega⟩
    rw [RdpCon.recvAckLoop, hostand, if_pos h.ostand.symm]
  | succ n ih =>
    intro k fuel c₁ hk hfuel hpop hgone
    obtain ⟨fuel, rfl⟩ := Nat.exists_eq_succ_of_ne_zero (by omega : fuel ≠ 0)
    have hostand : c₁.swndOstand = c.swndOstand := (congrArg RdpCon.swndOstand hpop.same :)
    have huna : c₁.sndUna = c.sndUna := (congrArg RdpCon.sndUna hpop.same :)
    have hlen : c₁.swndLen = c.swndLen := (congrArg RdpCon.swndLen hpop.same :)
    have hhead : c₁.swndHead = c.swndHead := (congrArg RdpCon.swndHead hpop.same :)
    have hkl : k < c.swnd.length := by rw [h.length_eq]; omega
    have hne : Ring.pos c.swndHead c.swndLen k ≠ c.swndOstand := fun he => by
      rw [h.ostand] at he
      have := Ring.pos_inj (by omega) hlt he
      omega
    obtain ⟨w, hw⟩ := Ring.exists_entry c.swndHead k h.length_pos
    have hslot := h.slot k w (by omega) hw
    have hdist := h.toNat_seq_sub (by omega) hw
    rw [RdpCon.recvAckLoop, if_neg (by rw [hostand]; exact hne), hpop.swndAt h.length_eq hkl hw,
      ok_bind]
    by_cases hcovered : w.seqnum - c₁.sndUna ≤ acknum - c₁.sndUna
    · -- The entry is covered: the loop takes it off and goes on behind it.
      rw [if_pos hcovered, if_pos (hslot.sent (by omega)).1]
      have hpop' := hpop.step h.length_eq hkl w
      obtain ⟨p, c', hloop, hrest⟩ := ih fuel (by omega) (by omega) hpop' fun m hm => by
        show ∃ w', Ring.entry (if w.isAcked then c₁.swnd else
          c₁.swnd.set (Ring.pos c.swndHead c.swndLen k) { w with pbuf := none }) c₁.swndHead m
            = some w' ∧ _
        by_cases hmk : m = k
        · -- Its slot is empty now, or was already where it is marked.
          rw [hmk, hhead]
          split
          · next hacked =>
            exact ⟨w, (hpop.entry k (Nat.le_refl k) hkl).trans hw, hslot.marked (by omega) hacked⟩
          · refine ⟨{ w with pbuf := none }, ?_, rfl⟩
            rw [← h.length_eq, ← hpop.length_eq]
            exact Ring.entry_set_self _ _ (by rw [hpop.length_eq]; exact h.length_pos) _
        · obtain ⟨w', hw', hnone⟩ := hgone m (by omega)
          split
          · exact ⟨w', hw', hnone⟩
          · refine ⟨w', ?_, hnone⟩
            rw [hhead] at hw' ⊢
            rw [← h.length_eq, ← hpop.length_eq, Ring.entry_set_ne (by rw [hpop.length_eq]; omega)
              (by rw [hpop.length_eq]; exact hkl) hmk, hw']
      have hwrap : wrap (Ring.pos c.swndHead c.swndLen k + 1) c₁.swndLen
          = .ok (Ring.pos c.swndHead c.swndLen (k + 1)) := by
        rw [hlen, wrap_pos h.len_pos]
      refine ⟨p, c', ?_, hrest⟩
      show (wrap (Ring.pos c.swndHead c.swndLen k + 1) c₁.swndLen >>= _) = _
      rw [hwrap, ok_bind]
      exact hloop
    · rw [if_neg hcovered]
      refine ⟨k, c₁, rfl, by omega, hpop, hgone, ?_⟩
      rw [huna, BitVec.le_def, hdist] at hcovered
      omega

/-- The ring after `recv_ack` moved its head over `p` entries, which are empty now. -/
theorem SendCursors.popped (h : SendCursors o c) {acknum : BitVec 32}
    (hin : (acknum - c.sndUna).toNat < (c.sndNxt - c.sndUna).toNat) {p : Nat} (hp : p ≤ o)
    {c₁ : RdpCon} (hpop : Popped p c c₁) (hgone : ∀ m < p, Empty c₁ m)
    (hnear : o - p < (c.sndNxt - c.sndUna).toNat - (acknum - c.sndUna).toNat) :
    SendCursors (o - p)
      { c₁ with swndHead := Ring.pos c.swndHead c.swndLen p, sndUna := acknum } := by
  have hlt := h.sent_lt_len
  have hle := h.sent_le
  have hfits := h.used_le
  have hlen := hpop.length_eq
  have hentry := hpop.entry
  have hc₁ := hpop.same
  generalize c₁.swnd = swnd at hlen hentry hc₁
  subst hc₁
  have hout : (c.sndNxt - acknum).toNat
      = (c.sndNxt - c.sndUna).toNat - (acknum - c.sndUna).toNat := by
    rw [← sub_sub_sub_cancel_right c.sndNxt acknum c.sndUna, BitVec.toNat_sub_of_le]
    exact Nat.le_of_lt hin
  refine ⟨{ max_lt := h.max_lt, len_eq := h.len_eq, length_eq := hlen.trans h.length_eq,
            head_lt := Ring.pos_lt _ _ h.len_pos, sent_lt := ?_, out_le := ?_, sent_le := ?_,
            used_le := ?_, slot := fun k w hk hw => ?_ }, ?_⟩
  · show o - p < (c.sndNxt - acknum).toNat
    omega
  · show (c.sndNxt - acknum).toNat ≤ c.sndMax.toNat
    have := h.out_le
    omega
  · show o - p ≤ c.swndUsed - p
    omega
  · show c.swndUsed - p ≤ c.swndLen
    omega
  · show CursorSlot c.sndNxt (o - p) (c.swndUsed - p) k w
    have hkl : k < c.swndLen := hk
    rcases entry_behind (hlen.trans h.length_eq) hw with ⟨hturn, hw'⟩ | ⟨hturn, hw'⟩
    · rw [hentry (p + k) (Nat.le_add_right p k) (by rw [h.length_eq]; exact hturn)] at hw'
      exact (h.slot (p + k) w hturn hw').behind
    · -- A slot that was taken off.
      obtain ⟨w', hw'', hnone⟩ := hgone (p + k - c.swndLen) (by omega)
      obtain rfl : w' = w := Option.some.inj (hw''.symm.trans hw')
      exact .empty (by omega) hnone
  · show c.swndOstand = _
    rw [h.ostand, Ring.pos_pos, Nat.add_sub_cancel' hp]

/-- `recv_ack` keeps the cursors where it returns. -/
theorem recvAck_cursors (h : SendCursors o c) {clock : Int} {acknum : BitVec 32} {c' : RdpCon}
    {out : List Emitted} (hrun : c.recvAck clock acknum = .ok (c', out)) :
    ∃ o', SendCursors o' c' ∧ withoutSend c' = withoutSend c ∧
      (c'.sndUna = c.sndUna ∨
        c'.sndUna = acknum ∧ acknum - c.sndUna < c.sndNxt - c.sndUna) := by
  -- What `send_ostand_swnd` does last.
  have hsends : ∀ {o₁ : Nat} {c₁ : RdpCon}, SendCursors o₁ c₁ →
      c₁.sendOstandSwnd clock = .ok (c', out) →
      ∃ o', SendCursors o' c' ∧ withoutSend c' = withoutSend c₁ ∧ c'.sndUna = c₁.sndUna := by
    intro o₁ c₁ h₁ hrun₁
    by_cases hfree : c₁.swndUsed < c₁.swndLen ∨ 0 < o₁
    · rcases sendOstandSwnd_cursors h₁ hfree clock with
        ⟨o', c'', out', hsend, hcursors, hkept, -⟩ | ⟨hfault, -⟩
      · obtain ⟨rfl, rfl⟩ := Prod.mk.inj (Except.ok.inj (hsend.symm.trans hrun₁))
        exact ⟨o', hcursors, hkept.same, hkept.una⟩
      · cases hfault.symm.trans hrun₁
    · obtain rfl : o₁ = 0 := by omega
      have hfull := sendOstandSwnd_full h₁ (by have := h₁.used_le; omega) clock
      obtain ⟨rfl, -⟩ := Prod.mk.inj (Except.ok.inj (hfull.symm.trans hrun₁))
      exact ⟨0, h₁, rfl, rfl⟩
  rw [RdpCon.recvAck] at hrun
  by_cases hin : acknum - c.sndUna < c.sndNxt - c.sndUna
  · rw [if_pos hin] at hrun
    have hstart : Popped 0 c c := ⟨by simp, rfl, fun _ _ _ => rfl⟩
    obtain ⟨p, c₁, hloop, hp, hpop, hgone, hnear⟩ := recvAckLoop_cursors h acknum hin o
      (c.swndLen + 1) (Nat.add_zero o) (by have := h.sent_lt_len; omega) hstart
      fun m hm => absurd hm (Nat.not_lt_zero m)
    rw [Ring.pos_zero h.head_lt] at hloop
    rw [hloop, ok_bind] at hrun
    obtain ⟨o', hcursors, hsame, huna⟩ := hsends (h.popped hin hp hpop hgone hnear) hrun
    refine ⟨o', hcursors, hsame.trans ?_, Or.inr ⟨huna, hin⟩⟩
    have hc₁ := hpop.same
    generalize c₁.swnd = swnd at hc₁
    subst hc₁
    rfl
  · rw [if_neg hin] at hrun
    obtain ⟨o', hcursors, hsame, huna⟩ := hsends h hrun
    exact ⟨o', hcursors, hsame, Or.inl huna⟩

/-- The ring after the removal loop of `recv_eack` moved its head over `p` entries that are
marked. The count stays as it was. -/
theorem SendCursors.moved (h : SendCursors o c) {p : Nat} (hp : p ≤ o)
    (hmarked : ∀ m < p, ∃ w, Ring.entry c.swnd c.swndHead m = some w ∧ w.isAcked = true) :
    SendCursors (o - p) { c with swndHead := Ring.pos c.swndHead c.swndLen p } := by
  have hlt := h.sent_lt_len
  have hle := h.sent_le
  refine ⟨{ h.toCursorRing with
    head_lt := Ring.pos_lt _ _ h.len_pos
    sent_lt := Nat.lt_of_le_of_lt (Nat.sub_le o p) h.sent_lt
    sent_le := Nat.le_trans (Nat.sub_le o p) hle
    slot := fun k w hk hw => ?_ }, ?_⟩
  · have hkl : k < c.swndLen := hk
    show CursorSlot c.sndNxt (o - p) c.swndUsed k w
    rcases entry_behind h.length_eq hw with ⟨hturn, hw'⟩ | ⟨hturn, hw'⟩
    · have hold := h.slot (p + k) w hturn hw'
      refine { hold.behind with waits := fun hk' hk'' hsome => ?_, free := fun hk' => ?_ }
      · -- A slot that is counted now and was free before holds nothing.
        by_cases hcounted : p + k < c.swndUsed
        · exact hold.waits (by omega) hcounted hsome
        · exact absurd (hold.free (by omega)) hsome
      · exact hold.free (by omega)
    · obtain ⟨w', hw'', hacked⟩ := hmarked (p + k - c.swndLen) (by omega)
      have hnone := (h.slot (p + k - c.swndLen) w' (by omega) hw'').marked (by omega) hacked
      obtain rfl : w' = w := Option.some.inj (hw''.symm.trans hw')
      exact .empty (by omega) hnone
  · show c.swndOstand = _
    rw [h.ostand, Ring.pos_pos, Nat.add_sub_cancel' hp]

/-- The removal loop of `recv_eack` returns and keeps the cursors. -/
theorem SendCursors.eackPopLoop (h : SendCursors o c) :
    ∃ o' c', RdpCon.eackPopLoop (c.swndLen + 1) c = .ok c' ∧ SendCursors o' c' ∧
      withoutSend c' = withoutSend c := by
  obtain ⟨p, -, hp, hloop, hmarked, -⟩ := eackPopLoop_spec h.len_pos h.length_eq h.sent_lt_len
    h.ostand o (k := 0) (c.swndLen + 1) (Nat.add_zero o) (by have := h.sent_lt_len; omega)
  rw [Ring.pos_zero h.head_lt] at hloop
  exact ⟨o - p, _, hloop, h.moved hp fun m hm => hmarked m (Nat.zero_le m) hm, rfl⟩

/-- `recv_eack` returns and keeps the cursors. -/
theorem recvEack_cursors (h : SendCursors o c) (eacknum : BitVec 32) :
    ∃ o' c', c.recvEack eacknum = .ok c' ∧ SendCursors o' c' ∧
      withoutSend c' = withoutSend c := by
  obtain ⟨first, hfirst⟩ := Ring.exists_entry c.swndHead 0 h.length_pos
  have hat := h.swndAt_of_entry hfirst
  rw [Ring.pos_zero h.head_lt] at hat
  rw [RdpCon.recvEack]
  by_cases hused : c.swndUsed = 0
  · rw [if_pos hused]
    exact ⟨o, c, rfl, h, rfl⟩
  rw [if_neg hused, hat, ok_bind]
  by_cases hfar : (eacknum - first.seqnum).toNat ≥ c.swndLen
  · rw [if_pos hfar]
    exact ⟨o, c, rfl, h, rfl⟩
  have hk : (eacknum - first.seqnum).toNat < c.swndLen := Nat.not_le.mp hfar
  obtain ⟨w, hw⟩ := Ring.exists_entry c.swndHead (eacknum - first.seqnum).toNat h.length_pos
  have hslot : wrap ((eacknum - first.seqnum).toNat + c.swndHead) c.swndLen
      = .ok (Ring.pos c.swndHead c.swndLen (eacknum - first.seqnum).toNat) := by
    rw [wrap_eq h.len_pos, Nat.add_comm]
    rfl
  rw [if_neg hfar, hslot, ok_bind, h.swndAt_of_entry hw, ok_bind]
  -- The entry is marked, or nothing changes before the removal loop.
  by_cases hmatch : w.seqnum = eacknum ∧ w.isSent ∧ ¬ w.isAcked
  · have hold := h.slot _ w hk hw
    have hset : SendCursors o { c with
        swnd := c.swnd.set (Ring.pos c.swndHead c.swndLen (eacknum - first.seqnum).toNat)
          { w with pbuf := none, isAcked := true } } :=
      ⟨h.toCursorRing.setSlot hk ⟨hold.sent, fun _ _ => rfl, fun _ _ hsome => absurd rfl hsome,
        fun _ => rfl⟩, h.ostand⟩
    simp only [if_pos hmatch]
    obtain ⟨o', c', hrun, hcursors, hsame⟩ := hset.eackPopLoop
    exact ⟨o', c', hrun, hcursors, hsame⟩
  · simp only [if_neg hmatch]
    exact h.eackPopLoop

/-- `retransmit` keeps the cursors where it returns. Where no entry is sent, nothing goes out. -/
theorem retransmitLoop_cursors (clock maxRetrans : Int) (n : Nat) :
    ∀ {c : RdpCon} {k : Nat} {out : List Emitted} {alive : Bool} {c' : RdpCon}
      {out' : List Emitted}, SendCursors o c → k + n ≤ c.swndLen →
      RdpCon.retransmitLoop clock maxRetrans n c (Ring.pos c.swndHead c.swndLen k) out
        = .ok (alive, c', out') →
      SendCursors o c' ∧
        withoutSend c' = withoutSend (if alive then c else { c with state := .closed }) ∧
        (o = 0 → out' = out) := by
  induction n with
  | zero =>
    intro c k out alive c' out' h _ hrun
    obtain ⟨rfl, rfl, rfl⟩ : true = alive ∧ c = c' ∧ out = out' := by
      simpa [RdpCon.retransmitLoop] using hrun
    exact ⟨h, rfl, fun _ => rfl⟩
  | succ n ih =>
    intro c k out alive c' out' h hk hrun
    obtain ⟨w, hw⟩ := Ring.exists_entry c.swndHead k h.length_pos
    rw [RdpCon.retransmitLoop, h.swndAt_of_entry hw, ok_bind, wrap_pos h.len_pos, ok_bind] at hrun
    by_cases hsent : ¬ w.isSent
    · rw [if_pos hsent] at hrun
      obtain ⟨rfl, rfl, rfl⟩ : true = alive ∧ c = c' ∧ out = out' := by
        simpa [pure, Except.pure] using hrun
      exact ⟨h, rfl, fun _ => rfl⟩
    rw [if_neg hsent] at hrun
    by_cases hacked : w.isAcked
    · rw [if_pos hacked] at hrun
      exact ih h (by omega) hrun
    rw [if_neg hacked] at hrun
    by_cases hbroken : w.rtSec > maxRetrans
    · rw [if_pos hbroken] at hrun
      obtain ⟨rfl, rfl, rfl⟩ : false = alive ∧ { c with state := .closed } = c' ∧ out = out' := by
        simpa [pure, Except.pure] using hrun
      exact ⟨⟨{ h.toCursorRing with }, h.ostand⟩, rfl, fun _ => rfl⟩
    rw [if_neg hbroken] at hrun
    by_cases hdue : timeNull clock - w.sentTime > w.rtSec
    · rw [if_pos hdue] at hrun
      obtain ⟨pbuf, hpbuf, hrun⟩ := bind_eq_ok hrun
      have hsome : w.pbuf ≠ none := fun hnone => by rw [hnone] at hpbuf; cases hpbuf
      have hslot := h.slot k w (by omega) hw
      -- A packet in a slot that is sent lies in front of the cursor.
      have hko : k < o := by
        by_contra hge
        by_cases hcounted : k < c.swndUsed
        · obtain ⟨payload, hqueued⟩ := hslot.waits (by omega) hcounted hsome
          exact hsent (by rw [hqueued.isSent]; decide)
        · exact hsome (hslot.free (by omega))
      let sent : Swnd := { w with pbuf := some (pbuf.set32 12 c.rcvCur),
                                  sentTime := timeNull clock, rtSec := w.rtSec * 2 }
      have hset : SendCursors o
          { c with swnd := c.swnd.set (Ring.pos c.swndHead c.swndLen k) sent } :=
        ⟨h.toCursorRing.setSlot (by omega) ⟨hslot.sent, fun _ hack => absurd hack hacked,
          fun hle => by omega, fun hle => by have := h.sent_le; omega⟩, h.ostand⟩
      obtain ⟨hcursors, hsame, -⟩ :=
        ih (k := k + 1) hset (by show k + 1 + n ≤ c.swndLen; omega) hrun
      refine ⟨hcursors, hsame.trans ?_, fun hnone => by omega⟩
      cases alive <;> rfl
    · rw [if_neg hdue] at hrun
      exact ih h (by omega) hrun

/-- `init_swnd` makes an empty ring. -/
theorem initSwnd_cursors (uninit : Uninit) {c : RdpCon} (hmin : 1 ≤ c.sndMax.toNat)
    (hmax : c.sndMax.toNat < 2 ^ 29) (hnxt : c.sndNxt = c.sndUna + 1) :
    SendCursors 0 (c.initSwnd uninit) := by
  have hlen : (c.sndMax * 4).toNat = c.sndMax.toNat * 4 := by
    rw [BitVec.toNat_mul]
    exact Nat.mod_eq_of_lt (by show c.sndMax.toNat * 4 < 2 ^ 32; omega)
  have hone : (c.sndNxt - c.sndUna).toNat = 1 := by
    rw [hnxt, add_sub_cancel_left]
    rfl
  refine ⟨{ max_lt := hmax, len_eq := hlen, length_eq := by simp [RdpCon.initSwnd], head_lt := ?_,
            sent_lt := ?_, out_le := ?_, sent_le := Nat.le_refl 0, used_le := Nat.zero_le _,
            slot := fun k w hk hw => ?_ }, ?_⟩
  · show 0 < (c.sndMax * 4).toNat
    omega
  · show 0 < (c.sndNxt - c.sndUna).toNat
    omega
  · show (c.sndNxt - c.sndUna).toNat ≤ c.sndMax.toNat
    omega
  · have hnone : w.pbuf = none := by
      have hmem : w ∈ (c.initSwnd uninit).swnd := List.mem_of_getElem? hw
      obtain ⟨i, -, rfl⟩ := List.mem_map.mp hmem
      rfl
    exact ⟨fun hlt => absurd hlt (Nat.not_lt_zero k), fun _ _ => hnone,
      fun _ _ hsome => absurd hnone hsome, fun _ => hnone⟩
  · exact (Nat.zero_mod _).symm

/-- A window without slots, as `out_segs_max` zero leaves it. -/
structure NoSlots (c : RdpCon) : Prop where
  len : c.swndLen = 0
  used : c.swndUsed = 0
  cursor : c.swndHead = c.swndOstand

/-- `recv_ack` divides by the length of the window. -/
theorem NoSlots.recvAck (h : NoSlots c) (clock : Int) (acknum : BitVec 32) :
    c.recvAck clock acknum = .error .divByZero := by
  have hdiv : ∀ una : BitVec 32, ∀ head : Nat,
      RdpCon.sendOstandSwnd clock { c with sndUna := una, swndHead := head }
        = .error .divByZero := by
    intro una head
    unfold RdpCon.sendOstandSwnd
    show (modLen _ c.swndLen >>= _) = _
    rw [h.len]
    rfl
  rw [RdpCon.recvAck, RdpCon.recvAckLoop, if_pos h.cursor, ok_bind]
  split
  · exact hdiv acknum c.swndHead
  · exact hdiv c.sndUna c.swndHead

/-- The send window of a connection, whatever the handshake and the calls were. -/
def SendReady (c : RdpCon) : Prop := (∃ o, SendCursors o c) ∨ NoSlots c

namespace SendReady

/-- `enqueue_swnd` keeps the window where it returns. -/
theorem enqueueSwnd (h : SendReady c) {clock : Int} {pbuf : Packetbuf}
    (hhead : sizeofHead ≤ pbuf.head) {done : Bool} {c' : RdpCon} {out : List Emitted}
    (hrun : c.enqueueSwnd clock pbuf = .ok (done, c', out)) :
    SendReady c' ∧ withoutSend c' = withoutSend c := by
  by_cases hfull : c.swndUsed ≥ c.swndLen ∨ c.state ≠ .opened
  · rw [RdpCon.enqueueSwnd, if_pos hfull] at hrun
    obtain ⟨-, rfl, -⟩ : false = done ∧ c = c' ∧ [] = out := by simpa using hrun
    exact ⟨h, rfl⟩
  obtain ⟨hroom, hopen⟩ := not_or.mp hfull
  rcases h with ⟨o, h⟩ | h
  · rcases enqueueSwnd_cursors h (not_not.mp hopen) (by omega) hhead clock with
      ⟨o', c₁, out₁, hok, hcursors, -, hsame, -⟩ | ⟨hfault, -⟩
    · obtain ⟨-, rfl, -⟩ : done = true ∧ c' = c₁ ∧ out = out₁ := by
        simpa using hrun.symm.trans hok
      exact ⟨Or.inl ⟨o', hcursors⟩, hsame⟩
    · cases hfault.symm.trans hrun
  · have := h.len
    omega

/-- `recv_ack` keeps the window where it returns. -/
theorem recvAck (h : SendReady c) {clock : Int} {acknum : BitVec 32} {c' : RdpCon}
    {out : List Emitted} (hrun : c.recvAck clock acknum = .ok (c', out)) :
    SendReady c' ∧ withoutSend c' = withoutSend c := by
  rcases h with ⟨o, h⟩ | h
  · obtain ⟨o', hcursors, hsame, -⟩ := recvAck_cursors h hrun
    exact ⟨Or.inl ⟨o', hcursors⟩, hsame⟩
  · cases (h.recvAck clock acknum).symm.trans hrun

/-- `recv_eack` returns on any window and keeps it. -/
theorem recvEack (h : SendReady c) (eacknum : BitVec 32) :
    ∃ c', c.recvEack eacknum = .ok c' ∧ SendReady c' ∧ withoutSend c' = withoutSend c := by
  rcases h with ⟨o, h⟩ | h
  · obtain ⟨o', c', hrun, hcursors, hsame⟩ := recvEack_cursors h eacknum
    exact ⟨c', hrun, Or.inl ⟨o', hcursors⟩, hsame⟩
  · exact ⟨c, by rw [RdpCon.recvEack, if_pos h.used], Or.inr h, rfl⟩

/-- `retransmit` keeps the window where it returns. -/
theorem retransmit (h : SendReady c) {clock maxRetrans : Int} {alive : Bool} {c' : RdpCon}
    {out : List Emitted} (hrun : c.retransmit clock maxRetrans = .ok (alive, c', out)) :
    SendReady c' ∧
      withoutSend c' = withoutSend { c with state := if alive then c.state else .closed } := by
  rcases h with ⟨o, h⟩ | h
  · rw [RdpCon.retransmit, ← Ring.pos_zero h.head_lt] at hrun
    obtain ⟨hcursors, hsame, -⟩ := retransmitLoop_cursors clock maxRetrans _ h
      (by rw [Nat.zero_add]; exact h.used_le) hrun
    refine ⟨Or.inl ⟨o, hcursors⟩, hsame.trans ?_⟩
    cases alive <;> rfl
  · rw [RdpCon.retransmit, h.used] at hrun
    obtain ⟨rfl, rfl, -⟩ : true = alive ∧ c = c' ∧ [] = out := by
      simpa [RdpCon.retransmitLoop] using hrun
    exact ⟨Or.inr h, rfl⟩

/-- The send window of a record whose receive window changed. -/
theorem congr {c' : RdpCon} (h : SendReady c) (state : RdpState)
    (hsame : withoutRecv c' = withoutRecv { c with state := state }) : SendReady c' := by
  have huna : c'.sndUna = c.sndUna := (congrArg RdpCon.sndUna hsame :)
  have hnxt : c'.sndNxt = c.sndNxt := (congrArg RdpCon.sndNxt hsame :)
  have hmax : c'.sndMax = c.sndMax := (congrArg RdpCon.sndMax hsame :)
  have hswnd : c'.swnd = c.swnd := (congrArg RdpCon.swnd hsame :)
  have hlen : c'.swndLen = c.swndLen := (congrArg RdpCon.swndLen hsame :)
  have hhead : c'.swndHead = c.swndHead := (congrArg RdpCon.swndHead hsame :)
  have hused : c'.swndUsed = c.swndUsed := (congrArg RdpCon.swndUsed hsame :)
  have hostand : c'.swndOstand = c.swndOstand := (congrArg RdpCon.swndOstand hsame :)
  rcases h with ⟨o, h⟩ | h
  · obtain ⟨⟨h₁, h₂, h₃, h₄, h₅, h₆, h₇, h₈, h₉⟩, h₁₀⟩ := h
    rw [← hmax] at h₁ h₂ h₆
    rw [← hlen] at h₂ h₃ h₄ h₈ h₉ h₁₀
    rw [← hswnd] at h₃ h₉
    rw [← hhead] at h₄ h₉ h₁₀
    rw [← hnxt] at h₅ h₆ h₉
    rw [← huna] at h₅ h₆
    rw [← hused] at h₇ h₈ h₉
    rw [← hostand] at h₁₀
    exact Or.inl ⟨o, ⟨h₁, h₂, h₃, h₄, h₅, h₆, h₇, h₈, h₉⟩, h₁₀⟩
  · exact Or.inr ⟨hlen.trans h.len, hused.trans h.used, hhead.trans (h.cursor.trans hostand.symm)⟩

end SendReady

end

end Libcage.Proofs.Rdp
