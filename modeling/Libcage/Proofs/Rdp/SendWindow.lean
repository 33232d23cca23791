import Libcage.Lib.Except
import Libcage.Lib.Ring
import Libcage.Lib.Serial
import Libcage.Rdp.Connection

/-!
# `Libcage.Proofs.Rdp.SendWindow`: the send window holds the unacknowledged payloads

The payloads a connection accepts for sending form a list `items`, numbered from
`iss + 1` on. Of these, the first `una` are acknowledged and the first `nxt` are
sent. `SendWindow` says that the ring `m_swnd` with its cursors is the part of
`items` behind `una`: the entries up to `m_swnd_ostand` are sent, carry their
numbers and hold a packet unless they are marked as acknowledged, and the entries
from there to the tail hold the payloads that wait.

Every function on the window has one specification lemma over this view:

* `enqueueSwnd_spec`: the payload joins `items` at the tail (`SendRing.enqueue`), and
  what fits is sent;
* `recvAck_spec`: an acknowledgement inside the window moves `una` there;
* `recvEack_spec`: a selective acknowledgement marks its entry, as long as the
  entry in front stays unmarked (`eackPopsHead` tells);
* `retransmit_spec`: sent and unmarked entries go out again.

All four return a result: no buffer pointer they follow is null, and no loop runs
out of fuel.

The side condition of `recvEack_spec` is there for a reason. The removal loop of
`rdp_con::recv_eack` moves `m_swnd_head` and leaves `m_swnd_used` as it was.
-/

set_option autoImplicit false

namespace Libcage.Proofs.Rdp

open Libcage.Lib
open Libcage.Rdp

/-! ### Index steps -/

/-- `wrap` is the remainder wherever the window has a length. -/
theorem wrap_eq {i len : Nat} (h : 0 < len) : wrap i len = .ok (i % len) := by
  unfold wrap modLen
  split
  · rw [if_neg (by omega)]
  · rw [Nat.mod_eq_of_lt (by omega)]

/-- `modLen` is the remainder wherever the window has a length. -/
theorem modLen_eq {i len : Nat} (h : 0 < len) : modLen i len = .ok (i % len) := by
  unfold modLen
  rw [if_neg (by omega)]

/-- One index step of a loop that walks around a window. -/
theorem wrap_pos {head len k : Nat} (h : 0 < len) :
    wrap (Ring.pos head len k + 1) len = .ok (Ring.pos head len (k + 1)) := by
  rw [wrap_eq h, Ring.pos_succ]

/-! ### The view -/

/-- The header of the data segment with a sequence number, for a payload of
`len` bytes. -/
def dataHeadOf (addr : RdpAddr) (len : Nat) (seq ack : BitVec 32) : RdpHead where
  flags := flagAck ||| flagVer
  hlen := 10
  sport := addr.sport
  dport := addr.dport
  dlen := BitVec.ofNat 16 len
  seqnum := seq
  acknum := ack

/-- The data segment with a sequence number. -/
def dataSegment (addr : RdpAddr) (payload : List Byte) (seq ack : BitVec 32) : List Byte :=
  (dataHeadOf addr payload.length seq ack).encode ++ payload

/-- A slot whose payload was sent under a sequence number. -/
structure SentSlot (addr : RdpAddr) (seq : BitVec 32) (payload : List Byte) (w : Swnd) :
    Prop where
  isSent : w.isSent = true
  seqnum : w.seqnum = seq
  pbuf : w.isAcked = false → ∃ pbuf ack,
    w.pbuf = some pbuf ∧ pbuf.data = dataSegment addr payload seq ack

/-- A slot whose payload waits. -/
structure QueuedSlot (payload : List Byte) (w : Swnd) : Prop where
  isSent : w.isSent = false
  isAcked : w.isAcked = false
  pbuf : ∃ pbuf, w.pbuf = some pbuf ∧ pbuf.data = payload ∧ sizeofHead ≤ pbuf.head

/-- The slot of the payload with index `j`, of which the first `nxt` are sent.
Only the payloads in `marks` may be marked as acknowledged. -/
def SlotOk (addr : RdpAddr) (iss : BitVec 32) (marks : Nat → Prop) (nxt j : Nat)
    (payload : List Byte) (w : Swnd) : Prop :=
  if j < nxt then
    SentSlot addr (num iss (j + 1)) payload w ∧ (w.isAcked = true → marks j)
  else
    QueuedSlot payload w

/-- The ring and its cursors hold the payloads behind `una`. The loops of the
source rely on this much. -/
structure SendRing (iss : BitVec 32) (marks : Nat → Prop) (items : List (List Byte))
    (una nxt : Nat) (c : RdpCon) : Prop where
  una_le : una ≤ nxt
  nxt_le : nxt ≤ items.length
  sndUna : c.sndUna = num iss una
  sndNxt : c.sndNxt = num iss (nxt + 1)
  max_ge : 2 ≤ c.sndMax.toNat
  max_lt : c.sndMax.toNat < 2 ^ 29
  window : nxt - una < c.sndMax.toNat
  len_eq : c.swndLen = c.sndMax.toNat * 4
  length_eq : c.swnd.length = c.swndLen
  head_lt : c.swndHead < c.swndLen
  used_eq : c.swndUsed = items.length - una
  used_le : items.length - una ≤ c.swndLen
  slot : ∀ k payload, items[una + k]? = some payload →
    ∃ w, Ring.entry c.swnd c.swndHead k = some w ∧ SlotOk c.addr iss marks nxt (una + k) payload w

/-- The send window between two calls. `full` says that no payload waits that
could go out. -/
structure SendWindow (iss : BitVec 32) (marks : Nat → Prop) (items : List (List Byte))
    (una nxt : Nat) (c : RdpCon) : Prop extends SendRing iss marks items una nxt c where
  ostand : c.swndOstand = Ring.pos c.swndHead c.swndLen (nxt - una)
  full : nxt < items.length → c.sndMax.toNat ≤ nxt + 1 - una

section
variable {iss : BitVec 32} {marks : Nat → Prop} {items : List (List Byte)} {una nxt : Nat}
  {c : RdpCon}

namespace SendRing

theorem len_pos (h : SendRing iss marks items una nxt c) : 0 < c.swndLen := by
  have := h.len_eq
  have := h.max_ge
  omega

theorem window_lt (h : SendRing iss marks items una nxt c) : nxt - una < c.swndLen := by
  have := h.len_eq
  have := h.window
  omega

/-- The number of outstanding segments, as the code computes it. -/
theorem outstanding (h : SendRing iss marks items una nxt c) :
    (c.sndNxt - c.sndUna).toNat = nxt + 1 - una := by
  have := h.una_le
  have := h.window
  have := h.max_lt
  rw [h.sndNxt, h.sndUna, toNat_num_sub_num_of_le iss (by omega) (by omega)]

theorem length_pos (h : SendRing iss marks items una nxt c) : 0 < c.swnd.length := by
  rw [h.length_eq]
  exact h.len_pos

/-- The entry of a payload that is in the window. -/
theorem entry_of_lt (h : SendRing iss marks items una nxt c) {j : Nat} (hj : una ≤ j)
    (hlt : j < items.length) :
    ∃ w, Ring.entry c.swnd c.swndHead (j - una) = some w ∧
      SlotOk c.addr iss marks nxt j items[j] w := by
  have hidx : una + (j - una) = j := by omega
  have hsome : items[una + (j - una)]? = some items[j] := by
    rw [hidx, List.getElem?_eq_getElem hlt]
  obtain ⟨w, hw, hok⟩ := h.slot (j - una) items[j] hsome
  rw [hidx] at hok
  exact ⟨w, hw, hok⟩

/-- The entry of a payload that is sent and not yet acknowledged. -/
theorem sent_of_lt (h : SendRing iss marks items una nxt c) {k : Nat} (hk : una + k < nxt) :
    ∃ payload w, Ring.entry c.swnd c.swndHead k = some w ∧
      SentSlot c.addr (num iss (una + k + 1)) payload w ∧
      (w.isAcked = true → marks (una + k)) := by
  have hlt := Nat.lt_of_lt_of_le hk h.nxt_le
  obtain ⟨w, hw, hok⟩ := h.entry_of_lt (Nat.le_add_right una k) hlt
  rw [Nat.add_sub_cancel_left] at hw
  rw [SlotOk, if_pos hk] at hok
  exact ⟨items[una + k], w, hw, hok⟩

/-- `m_swnd[i]` at the slot of an entry. -/
theorem swndAt_of_entry (h : SendRing iss marks items una nxt c) {k : Nat} {w : Swnd}
    (hw : Ring.entry c.swnd c.swndHead k = some w) :
    c.swndAt (Ring.pos c.swndHead c.swndLen k) = .ok w := by
  unfold RdpCon.swndAt
  rw [← h.length_eq]
  rw [Ring.entry] at hw
  rw [hw]

/-- An index inside `items` is less than a turn behind the head. -/
theorem lt_length (h : SendRing iss marks items una nxt c) {k : Nat} {payload : List Byte}
    (hk : items[una + k]? = some payload) : k < c.swnd.length := by
  have hlt := (List.getElem?_eq_some_iff.mp hk).1
  have := h.used_le
  have := h.length_eq
  omega

/-- Whether an acknowledged number covers a sent entry, as the code computes it. -/
theorem covered_iff (h : SendRing iss marks items una nxt c) {acknum : BitVec 32} {j k : Nat}
    {payload : List Byte} {w : Swnd} (hj : (acknum - c.sndUna).toNat = j) (hk : una + k < nxt)
    (hw : SentSlot c.addr (num iss (una + k + 1)) payload w) :
    w.seqnum - c.sndUna ≤ acknum - c.sndUna ↔ k < j := by
  have := h.una_le
  have := h.window
  have := h.max_lt
  rw [BitVec.le_def, hj, hw.seqnum, h.sndUna,
    toNat_num_sub_num_of_le iss (by omega) (by omega)]
  omega

/-- The cursor of the payloads that wait is at the tail where all are sent. A full
ring is told from an empty one by the segments outstanding. -/
theorem pos_eq_tail_iff (h : SendRing iss marks items una nxt c)
    (hfree : items.length - una < c.swndLen ∨ una < nxt) :
    Ring.pos c.swndHead c.swndLen (nxt - una)
        = Ring.pos c.swndHead c.swndLen (items.length - una) ↔ nxt = items.length := by
  have hle := h.una_le
  have hnxt := h.nxt_le
  refine ⟨fun he => ?_, fun he => by rw [he]⟩
  by_cases hfull : items.length - una = c.swndLen
  · -- The tail is the head, and some entry is outstanding.
    rw [hfull, Ring.pos_len h.head_lt, ← Ring.pos_zero h.head_lt, Ring.pos_pos,
      Nat.zero_add] at he
    have := Ring.pos_inj h.window_lt h.len_pos he
    omega
  · have := h.used_le
    have := Ring.pos_inj h.window_lt (by omega) he
    omega

/-- The entries after one slot was written. -/
theorem entry_set (h : SendRing iss marks items una nxt c) {j k : Nat} (hj : j < c.swndLen)
    (hk : k < c.swndLen) (w : Swnd) :
    Ring.entry (c.swnd.set (Ring.pos c.swndHead c.swndLen k) w) c.swndHead j
      = if j = k then some w else Ring.entry c.swnd c.swndHead j := by
  rw [← h.length_eq] at hj hk ⊢
  split
  · next heq => rw [heq, Ring.entry_set_self _ _ (by omega)]
  · next hne => rw [Ring.entry_set_ne hj hk hne]

/-- Where the loop of `send_ostand_swnd` stopped does not matter to the ring. -/
theorem setOstand (h : SendRing iss marks items una nxt c) (i : Nat) :
    SendRing iss marks items una nxt { c with swndOstand := i } :=
  { h with }

end SendRing

/-- The record without the send window. Two records that agree here differ in the
send window only. -/
def withoutSend (c : RdpCon) : RdpCon :=
  { c with swnd := [], sndNxt := 0, sndUna := 0, swndHead := 0, swndUsed := 0, swndOstand := 0 }

/-! ### Sending what fits -/

/-- The segments that carry the given payloads for the first time, the first of
them with index `j`. -/
def firstSends (addr : RdpAddr) (iss ack : BitVec 32) : Nat → List (List Byte) → List Emitted
  | _, [] => []
  | j, payload :: rest =>
      ⟨dataSegment addr payload (num iss (j + 1)) ack, ack⟩ :: firstSends addr iss ack (j + 1) rest

theorem length_firstSends (addr : RdpAddr) (iss ack : BitVec 32) (j : Nat)
    (payloads : List (List Byte)) :
    (firstSends addr iss ack j payloads).length = payloads.length := by
  induction payloads generalizing j with
  | nil => rfl
  | cons payload rest ih => rw [firstSends, List.length_cons, List.length_cons, ih]

/-- Segments that carry payloads of `items` in front of `nxt`. -/
def DataOut (addr : RdpAddr) (iss ack : BitVec 32) (items : List (List Byte)) (nxt : Nat)
    (out : List Emitted) : Prop :=
  ∀ e ∈ out, ∃ j payload, j < nxt ∧ items[j]? = some payload ∧
    e = ⟨dataSegment addr payload (num iss (j + 1)) ack, ack⟩

/-- First transmissions carry payloads that now are sent. -/
theorem dataOut_firstSends (addr : RdpAddr) (iss ack : BitVec 32) (items : List (List Byte))
    (nxt n : Nat) :
    DataOut addr iss ack items (nxt + n)
      (firstSends addr iss ack nxt ((items.drop nxt).take n)) := by
  induction n generalizing nxt with
  | zero => exact fun e he => absurd he (by simp [firstSends])
  | succ n ih =>
    cases hdrop : items.drop nxt with
    | nil => exact fun e he => absurd he (by simp [firstSends])
    | cons payload rest =>
      have hrest : rest = items.drop (nxt + 1) := by
        rw [← List.drop_drop, hdrop]
        rfl
      have hitem : items[nxt]? = some payload := by
        have := congrArg (fun xs => xs[0]?) hdrop
        simpa using this
      intro e he
      rw [List.take_succ_cons, firstSends] at he
      rcases List.mem_cons.mp he with rfl | he
      · exact ⟨nxt, payload, by omega, hitem, rfl⟩
      · rw [hrest] at he
        obtain ⟨j, payload', hj, hrest'⟩ := ih (nxt + 1) e he
        exact ⟨j, payload', by omega, hrest'⟩

/-- The loop body of `send_ostand_swnd` sends the first payload that waits. -/
theorem sendSlot_spec (h : SendRing iss marks items una nxt c) (hlt : nxt < items.length)
    (hroom : nxt + 1 - una < c.sndMax.toNat) (clock : Int) :
    ∃ c', c.sendSlot clock (Ring.pos c.swndHead c.swndLen (nxt - una))
        = .ok (c', ⟨dataSegment c.addr items[nxt] (num iss (nxt + 1)) c.rcvCur, c.rcvCur⟩) ∧
      SendRing iss marks items una (nxt + 1) c' ∧
      c'.swndHead = c.swndHead ∧ withoutSend c' = withoutSend c := by
  obtain ⟨w, hw, hok⟩ := h.entry_of_lt h.una_le hlt
  rw [SlotOk, if_neg (Nat.lt_irrefl nxt)] at hok
  obtain ⟨payload, hpayload, hdata, hhead⟩ := hok.pbuf
  obtain ⟨pbuf, hpre⟩ : ∃ pbuf, payload.prepend (c.dataHead payload.getLen).encode = some pbuf :=
    Packetbuf.prepend_isSome hhead
  have hsegment : pbuf.data = dataSegment c.addr items[nxt] (num iss (nxt + 1)) c.rcvCur := by
    rw [(Packetbuf.prepend_eq_some hpre).2, ← hdata, ← h.sndNxt]
    rfl
  -- The slot as the loop body leaves it.
  let sent : Swnd :=
    { w with pbuf := some pbuf, sentTime := timeNull clock, isSent := true, seqnum := c.sndNxt }
  refine ⟨{ c with swnd := c.swnd.set (Ring.pos c.swndHead c.swndLen (nxt - una)) sent,
                   sndNxt := c.sndNxt + 1 }, ?_, ?_, rfl, rfl⟩
  · rw [RdpCon.sendSlot, h.swndAt_of_entry hw, ok_bind, hpayload]
    show (deref (payload.prepend (c.dataHead payload.getLen).encode) >>= _) = _
    rw [hpre]
    show Except.ok (_, c.emit pbuf.data) = _
    rw [RdpCon.emit, hsegment]
  · refine ⟨by have := h.una_le; omega, hlt, h.sndUna, ?_, h.max_ge, h.max_lt,
      by simpa using by omega, h.len_eq, by simpa using h.length_eq, h.head_lt, h.used_eq,
      h.used_le, fun k item hitem => ?_⟩
    · show c.sndNxt + 1 = num iss (nxt + 1 + 1)
      rw [h.sndNxt, num_succ iss (nxt + 1)]
    · have hkl : k < c.swndLen := h.length_eq ▸ h.lt_length hitem
      show ∃ w, Ring.entry (c.swnd.set (Ring.pos c.swndHead c.swndLen (nxt - una)) sent)
          c.swndHead k = some w ∧ _
      rw [h.entry_set hkl h.window_lt]
      by_cases hkn : k = nxt - una
      · -- The slot just sent.
        have hidx : una + k = nxt := by
          have := h.una_le
          omega
        obtain rfl : items[nxt] = item := by
          rw [hidx, List.getElem?_eq_getElem hlt] at hitem
          exact Option.some.inj hitem
        refine ⟨sent, if_pos hkn, ?_⟩
        rw [SlotOk, if_pos (by omega), hidx]
        refine ⟨⟨rfl, h.sndNxt, fun _ => ⟨pbuf, c.rcvCur, rfl, hsegment⟩⟩, fun hacked => ?_⟩
        exact absurd (hok.isAcked.symm.trans hacked) (by decide)
      · obtain ⟨w', hw', hok'⟩ := h.slot k item hitem
        refine ⟨w', by rw [if_neg hkn]; exact hw', ?_⟩
        have hiff : una + k < nxt + 1 ↔ una + k < nxt := by
          have := h.una_le
          omega
        simpa only [SlotOk, hiff] using hok'

/-- The loop of `send_ostand_swnd` sends the payloads that wait, in order, until
none is left or the window is full. -/
theorem sendOstandLoop_spec (clock : Int) (fuel : Nat) :
    ∀ {nxt : Nat} {c : RdpCon} (out : List Emitted), SendRing iss marks items una nxt c →
      (items.length - una < c.swndLen ∨ una < nxt) → items.length - nxt < fuel →
      ∃ nxt' c', RdpCon.sendOstandLoop clock
          (Ring.pos c.swndHead c.swndLen (items.length - una)) fuel c
          (Ring.pos c.swndHead c.swndLen (nxt - una)) out
          = .ok (c', out ++ firstSends c.addr iss c.rcvCur nxt
              ((items.drop nxt).take (nxt' - nxt))) ∧
        nxt ≤ nxt' ∧ SendWindow iss marks items una nxt' c' ∧ withoutSend c' = withoutSend c := by
  -- The hypothesis is at the next payload, whose predecessor is then outstanding.
  induction fuel with
  | zero => intro nxt c out _ _ hfuel; omega
  | succ fuel ih =>
    intro nxt c out h hfree hfuel
    have hle := h.una_le
    have hstop := h.pos_eq_tail_iff hfree
    rw [RdpCon.sendOstandLoop]
    by_cases hdone : nxt = items.length
    · rw [if_pos (hstop.mpr hdone)]
      refine ⟨nxt, { c with swndOstand := Ring.pos c.swndHead c.swndLen (nxt - una) }, ?_,
        Nat.le_refl _, ⟨h.setOstand _, rfl, fun hlt => absurd hlt (by omega)⟩, rfl⟩
      simp [firstSends]
    · rw [if_neg (fun he => hdone (hstop.mp he))]
      have hlt : nxt < items.length := Nat.lt_of_le_of_ne h.nxt_le hdone
      by_cases hroom : nxt + 1 - una < c.sndMax.toNat
      · -- The window has room: the first payload goes out, and the rest by the hypothesis.
        obtain ⟨c₁, hsend, hring, hhead, hsame⟩ := sendSlot_spec h hlt hroom clock
        have hlen : c₁.swndLen = c.swndLen := (congrArg RdpCon.swndLen hsame :)
        have haddr : c₁.addr = c.addr := (congrArg RdpCon.addr hsame :)
        have hcur : c₁.rcvCur = c.rcvCur := (congrArg RdpCon.rcvCur hsame :)
        obtain ⟨nxt', c', hloop, hle', hwin, hsame'⟩ :=
          ih (out ++ [⟨dataSegment c.addr items[nxt] (num iss (nxt + 1)) c.rcvCur, c.rcvCur⟩])
            hring (Or.inr (by omega)) (by omega)
        rw [hlen, hhead, haddr, hcur, show nxt + 1 - una = nxt - una + 1 by omega] at hloop
        refine ⟨nxt', c', ?_, by omega, hwin, hsame'.trans hsame⟩
        rw [if_pos (by rw [BitVec.lt_def, h.outstanding]; exact hroom)]
        rw [hsend, ok_bind]
        show (wrap (Ring.pos c.swndHead c.swndLen (nxt - una) + 1) c.swndLen >>= _) = _
        rw [wrap_pos h.len_pos, ok_bind, hloop]
        have hdrop : (items.drop nxt).take (nxt' - nxt)
            = items[nxt] :: (items.drop (nxt + 1)).take (nxt' - (nxt + 1)) := by
          rw [List.drop_eq_getElem_cons hlt, show nxt' - nxt = nxt' - (nxt + 1) + 1 by omega,
            List.take_succ_cons]
        rw [hdrop, firstSends, List.append_assoc, List.singleton_append]
      · rw [if_neg (by rw [BitVec.lt_def, h.outstanding]; exact hroom)]
        refine ⟨nxt, { c with swndOstand := Ring.pos c.swndHead c.swndLen (nxt - una) }, ?_,
        Nat.le_refl _, ⟨h.setOstand _, rfl, fun _ => by simpa using hroom⟩, rfl⟩
        simp [firstSends]

/-- `send_ostand_swnd` sends the payloads that wait, in order, until none is left
or the window is full. -/
theorem sendOstandSwnd_spec (h : SendRing iss marks items una nxt c)
    (hostand : c.swndOstand = Ring.pos c.swndHead c.swndLen (nxt - una))
    (hfree : items.length - una < c.swndLen ∨ una < nxt) (clock : Int) :
    ∃ nxt' c', c.sendOstandSwnd clock
        = .ok (c', firstSends c.addr iss c.rcvCur nxt ((items.drop nxt).take (nxt' - nxt))) ∧
      nxt ≤ nxt' ∧ SendWindow iss marks items una nxt' c' ∧ withoutSend c' = withoutSend c := by
  have hfuel : items.length - nxt < c.swndLen + 1 := by
    have := h.used_le
    have := h.una_le
    omega
  obtain ⟨nxt', c', hloop, hrest⟩ := sendOstandLoop_spec clock (c.swndLen + 1) [] h hfree hfuel
  refine ⟨nxt', c', ?_, hrest⟩
  rw [List.nil_append] at hloop
  rw [RdpCon.sendOstandSwnd, modLen_eq h.len_pos, hostand, h.used_eq]
  exact hloop

namespace SendWindow

/-- Where payloads wait, some segment is outstanding; else the ring is not full. -/
theorem free (h : SendWindow iss marks items una nxt c) :
    items.length - una < c.swndLen ∨ una < nxt := by
  have := h.len_eq
  have := h.max_ge
  have := h.nxt_le
  have := h.window
  rcases Nat.lt_or_ge nxt items.length with hlt | hge
  · have := h.full hlt
    omega
  · omega

/-- An entry in front of the payloads that wait is not where those begin. -/
theorem pos_ne_ostand (h : SendWindow iss marks items una nxt c) {k : Nat} (hk : una + k < nxt) :
    Ring.pos c.swndHead c.swndLen k ≠ c.swndOstand := by
  intro he
  have hwindow := h.window_lt
  rw [h.ostand] at he
  have := Ring.pos_inj (by omega) hwindow he
  omega

end SendWindow

/-! ### Accepting a payload -/

/-- The slot of a payload that was just accepted. -/
def queuedSlot (w : Swnd) (pbuf : Packetbuf) : Swnd :=
  { w with pbuf := some pbuf, sentTime := 0, isAcked := false, isSent := false, rtSec := 1 }

/-- The record with an accepted payload at the tail of the ring. -/
def withQueued (c : RdpCon) (tail : Nat) (w : Swnd) (pbuf : Packetbuf) : RdpCon :=
  { c with swnd := c.swnd.set tail (queuedSlot w pbuf), swndUsed := c.swndUsed + 1 }

/-- A ring with a free slot takes a payload at its tail. -/
theorem SendRing.enqueue (h : SendRing iss marks items una nxt c)
    (hroom : items.length - una < c.swndLen) {pbuf : Packetbuf} (hhead : sizeofHead ≤ pbuf.head)
    (w : Swnd) :
    SendRing iss marks (items ++ [pbuf.data]) una nxt
      (withQueued c (Ring.pos c.swndHead c.swndLen (items.length - una)) w pbuf) := by
  have hle := h.una_le
  have hnxt := h.nxt_le
  have hlength : (items ++ [pbuf.data]).length = items.length + 1 := by
    rw [List.length_append, List.length_singleton]
  refine ⟨hle, by omega, h.sndUna, h.sndNxt, h.max_ge, h.max_lt, h.window, h.len_eq,
    (List.length_set ..).trans h.length_eq, h.head_lt, ?_, ?_, fun k payload hitem => ?_⟩
  · show c.swndUsed + 1 = (items ++ [pbuf.data]).length - una
    have := h.used_eq
    omega
  · show (items ++ [pbuf.data]).length - una ≤ c.swndLen
    omega
  · have hk := (List.getElem?_eq_some_iff.mp hitem).1
    show ∃ w', Ring.entry (c.swnd.set _ (queuedSlot w pbuf)) c.swndHead k = some w' ∧ _
    rw [h.entry_set (by omega) hroom]
    by_cases hlast : k = items.length - una
    · -- The payload just accepted.
      have hidx : una + k = items.length := by omega
      obtain rfl : pbuf.data = payload := by
        rw [hidx, List.getElem?_concat_length] at hitem
        exact Option.some.inj hitem
      refine ⟨queuedSlot w pbuf, if_pos hlast, ?_⟩
      rw [SlotOk, if_neg (by omega)]
      exact ⟨rfl, rfl, pbuf, rfl, rfl, hhead⟩
    · rw [List.getElem?_append_left (by omega)] at hitem
      rw [if_neg hlast]
      exact h.slot k payload hitem

/-- A payload that is accepted leaves the ring with a free slot, or with a segment
outstanding. -/
theorem SendWindow.free_append (h : SendWindow iss marks items una nxt c) (payload : List Byte) :
    (items ++ [payload]).length - una < c.swndLen ∨ una < nxt := by
  have := h.len_eq
  have := h.max_ge
  have := h.nxt_le
  have := h.window
  rw [List.length_append, List.length_singleton]
  rcases Nat.lt_or_ge nxt items.length with hlt | hge
  · have := h.full hlt
    omega
  · omega

/-- `enqueue_swnd` accepts a payload while the connection is open and the ring
has a free slot. -/
theorem enqueueSwnd_spec (h : SendWindow iss marks items una nxt c) {pbuf : Packetbuf}
    (hhead : sizeofHead ≤ pbuf.head) (clock : Int) :
    c.enqueueSwnd clock pbuf = .ok (false, c, []) ∨
    ∃ nxt' c', c.enqueueSwnd clock pbuf
        = .ok (true, c', firstSends c.addr iss c.rcvCur nxt
            (((items ++ [pbuf.data]).drop nxt).take (nxt' - nxt))) ∧
      nxt ≤ nxt' ∧ SendWindow iss marks (items ++ [pbuf.data]) una nxt' c' ∧
      withoutSend c' = withoutSend c := by
  rw [RdpCon.enqueueSwnd]
  by_cases hfull : c.swndUsed ≥ c.swndLen ∨ c.state ≠ .opened
  · exact Or.inl (if_pos hfull)
  rw [if_neg hfull]
  right
  have hroom : items.length - una < c.swndLen := by
    have := h.used_eq
    omega
  obtain ⟨w, hw⟩ := Ring.exists_entry c.swndHead (items.length - una) h.length_pos
  have hring := h.toSendRing.enqueue hroom hhead w
  -- The new payload is queued behind the others before the loop sends what fits.
  obtain ⟨nxt', c', hsend, hle', hwin, hsame⟩ :=
    sendOstandSwnd_spec hring h.ostand (h.free_append pbuf.data) clock
  refine ⟨nxt', c', ?_, hle', hwin, hsame⟩
  have htail : modLen (c.swndHead + c.swndUsed) c.swndLen
      = .ok (Ring.pos c.swndHead c.swndLen (items.length - una)) := by
    rw [modLen_eq h.len_pos, h.used_eq]
    rfl
  rw [htail, ok_bind, h.swndAt_of_entry hw, ok_bind]
  show ((withQueued c _ w pbuf).sendOstandSwnd clock >>= _) = _
  rw [hsend, ok_bind]
  rfl

/-! ### Cumulative acknowledgements -/

/-- The ring after the loop of `recv_ack` has walked over `k` entries: the entries
behind them are as before. -/
structure Popped (k : Nat) (c c' : RdpCon) : Prop where
  same : c' = { c with swnd := c'.swnd, swndUsed := c.swndUsed - k }
  length_eq : c'.swnd.length = c.swnd.length
  entry : ∀ m, k ≤ m → m < c.swnd.length →
    Ring.entry c'.swnd c.swndHead m = Ring.entry c.swnd c.swndHead m

/-- A walk over `k` entries leaves the next one where the loop looks for it. -/
theorem Popped.swndAt {k : Nat} {c₁ : RdpCon} {w : Swnd} (hpop : Popped k c c₁)
    (hlen : c.swnd.length = c.swndLen) (hk : k < c.swnd.length)
    (hw : Ring.entry c.swnd c.swndHead k = some w) :
    c₁.swndAt (Ring.pos c.swndHead c.swndLen k) = .ok w := by
  have hget : c₁.swnd[Ring.pos c.swndHead c.swndLen k]? = some w := by
    rw [← hpop.entry k (Nat.le_refl k) hk, Ring.entry, hpop.length_eq, hlen] at hw
    exact hw
  unfold RdpCon.swndAt
  rw [hget]

/-- The loop body of `recv_ack` takes one more entry off. -/
theorem Popped.step {k : Nat} {c₁ : RdpCon} (hpop : Popped k c c₁)
    (hlen : c.swnd.length = c.swndLen) (hk : k < c.swnd.length) (w : Swnd) :
    Popped (k + 1) c { c₁ with
      swnd := if w.isAcked then c₁.swnd else
        c₁.swnd.set (Ring.pos c.swndHead c.swndLen k) { w with pbuf := none }
      swndUsed := c₁.swndUsed - 1 } := by
  refine ⟨?_, ?_, fun m hm hml => ?_⟩
  · rw [hpop.same]
    simp only [Nat.sub_sub]
  · show (if w.isAcked then c₁.swnd else c₁.swnd.set _ _).length = c.swnd.length
    split
    · exact hpop.length_eq
    · rw [List.length_set, hpop.length_eq]
  · rw [← hpop.entry m (by omega) hml]
    show Ring.entry (if w.isAcked then c₁.swnd else c₁.swnd.set _ _) c.swndHead m = _
    split
    · rfl
    · rw [← hlen, ← hpop.length_eq,
        Ring.entry_set_ne (by rw [hpop.length_eq]; exact hml) (by rw [hpop.length_eq]; exact hk)
          (by omega)]

/-- The loop of `recv_ack` walks over the entries up to the acknowledged number
and takes them off the count. -/
theorem recvAckLoop_spec (h : SendWindow iss marks items una nxt c) (acknum : BitVec 32) {j : Nat}
    (hj : (acknum - c.sndUna).toNat = j) (hle : j ≤ nxt - una) (n : Nat) :
    ∀ {k : Nat} (fuel : Nat) {c₁ : RdpCon}, n + k = j → n < fuel → Popped k c c₁ →
      ∃ c', RdpCon.recvAckLoop acknum fuel c₁ (Ring.pos c.swndHead c.swndLen k)
        = .ok (c', Ring.pos c.swndHead c.swndLen j) ∧ Popped j c c' := by
  have hwlt := h.window_lt
  have hnxt := h.nxt_le
  -- By the entries still to be walked over.
  induction n with
  | zero =>
    intro k fuel c₁ hk hfuel hpop
    obtain rfl : k = j := by omega
    obtain ⟨fuel, rfl⟩ := Nat.exists_eq_succ_of_ne_zero (by omega : fuel ≠ 0)
    have hostand : c₁.swndOstand = c.swndOstand := (congrArg RdpCon.swndOstand hpop.same :)
    have huna : c₁.sndUna = c.sndUna := (congrArg RdpCon.sndUna hpop.same :)
    refine ⟨c₁, ?_, hpop⟩
    rw [RdpCon.recvAckLoop, hostand]
    by_cases hend : k = nxt - una
    · rw [if_pos (by rw [hend]; exact h.ostand.symm)]
    · -- The next entry lies behind the acknowledged number.
      have hne := h.pos_ne_ostand (k := k) (by omega)
      obtain ⟨payload, w, hw, hok, -⟩ := h.sent_of_lt (k := k) (by omega)
      have hbehind : ¬ w.seqnum - c₁.sndUna ≤ acknum - c₁.sndUna := by
        rw [huna, h.covered_iff hj (by omega) hok]
        exact Nat.lt_irrefl k
      rw [if_neg hne, hpop.swndAt h.length_eq (by rw [h.length_eq]; omega) hw, ok_bind,
        if_neg hbehind]
      rfl
  | succ n ih =>
    intro k fuel c₁ hk hfuel hpop
    obtain ⟨fuel, rfl⟩ := Nat.exists_eq_succ_of_ne_zero (by omega : fuel ≠ 0)
    have hostand : c₁.swndOstand = c.swndOstand := (congrArg RdpCon.swndOstand hpop.same :)
    have huna : c₁.sndUna = c.sndUna := (congrArg RdpCon.sndUna hpop.same :)
    have hlen : c₁.swndLen = c.swndLen := (congrArg RdpCon.swndLen hpop.same :)
    have hkl : k < c.swnd.length := by rw [h.length_eq]; omega
    have hne := h.pos_ne_ostand (k := k) (by omega)
    obtain ⟨payload, w, hw, hok, -⟩ := h.sent_of_lt (k := k) (by omega)
    have hinside : w.seqnum - c₁.sndUna ≤ acknum - c₁.sndUna := by
      rw [huna, h.covered_iff hj (by omega) hok]
      omega
    -- The entry is covered: the loop takes it off and goes on behind it.
    obtain ⟨c', hloop, hpop'⟩ := ih fuel (by omega) (by omega) (hpop.step h.length_eq hkl w)
    refine ⟨c', ?_, hpop'⟩
    have hwrap : wrap (Ring.pos c.swndHead c.swndLen k + 1) c₁.swndLen
        = .ok (Ring.pos c.swndHead c.swndLen (k + 1)) := by
      rw [hlen, wrap_pos h.len_pos]
    rw [RdpCon.recvAckLoop, if_neg (by rw [hostand]; exact hne),
      hpop.swndAt h.length_eq hkl hw, ok_bind, if_pos hinside, if_pos hok.isSent]
    show (wrap (Ring.pos c.swndHead c.swndLen k + 1) c₁.swndLen >>= _) = _
    rw [hwrap, ok_bind]
    exact hloop

/-- `recv_ack` moves `una` to an acknowledged number inside the window and sends
what then fits. Any other number moves nothing. -/
theorem recvAck_spec (h : SendWindow iss marks items una nxt c) (clock : Int)
    (acknum : BitVec 32) :
    ∃ una' nxt' c', c.recvAck clock acknum
        = .ok (c', firstSends c.addr iss c.rcvCur nxt ((items.drop nxt).take (nxt' - nxt))) ∧
      una ≤ una' ∧ una' ≤ nxt ∧ nxt ≤ nxt' ∧
      (una' = una ∧ ¬ acknum - c.sndUna < c.sndNxt - c.sndUna ∨ acknum = num iss una') ∧
      SendWindow iss marks items una' nxt' c' ∧ withoutSend c' = withoutSend c := by
  have hle := h.una_le
  rw [RdpCon.recvAck]
  by_cases hin : acknum - c.sndUna < c.sndNxt - c.sndUna
  · rw [if_pos hin]
    rw [BitVec.lt_def, h.outstanding] at hin
    have hstart : Popped 0 c c := ⟨by simp, rfl, fun _ _ _ => rfl⟩
    obtain ⟨c₁, hloop, hpop⟩ := recvAckLoop_spec h acknum rfl (by omega)
      (acknum - c.sndUna).toNat (c.swndLen + 1) (by omega) (by have := h.window_lt; omega) hstart
    rw [Ring.pos_zero h.head_lt] at hloop
    have hack : acknum = num iss (una + (acknum - c.sndUna).toNat) := by
      rw [← num_num, ← h.sndUna, num_toNat_sub]
    have hlen := hpop.length_eq
    have hsame := hpop.entry
    have hc₁ := hpop.same
    generalize c₁.swnd = swnd at hlen hsame hc₁
    subst hc₁
    -- From here on the number of acknowledged entries is all that matters.
    generalize (acknum - c.sndUna).toNat = j at hin hloop hack hsame
    have hring : SendRing iss marks items (una + j) nxt
        { c with swnd := swnd, swndUsed := c.swndUsed - j,
                 swndHead := Ring.pos c.swndHead c.swndLen j, sndUna := acknum } := by
      have hnxt := h.nxt_le
      have hwin := h.window
      have hfits := h.used_le
      refine ⟨by omega, hnxt, hack, h.sndNxt, h.max_ge, h.max_lt, by show _ < c.sndMax.toNat; omega,
        h.len_eq, hlen.trans h.length_eq, Ring.pos_lt _ _ h.len_pos, ?_, by
          show _ ≤ c.swndLen; omega, fun k payload hitem => ?_⟩
      · show c.swndUsed - j = items.length - (una + j)
        rw [h.used_eq]
        omega
      · rw [Nat.add_assoc] at hitem
        have hkl := h.lt_length hitem
        obtain ⟨w, hw, hok⟩ := h.slot (j + k) payload hitem
        refine ⟨w, ?_, by rw [Nat.add_assoc]; exact hok⟩
        show Ring.entry swnd (Ring.pos c.swndHead c.swndLen j) k = some w
        rw [← h.length_eq, ← hlen, Ring.entry_pos, hsame (j + k) (by omega) hkl, hw]
    have hostand : c.swndOstand
        = Ring.pos (Ring.pos c.swndHead c.swndLen j) c.swndLen (nxt - (una + j)) := by
      rw [h.ostand, Ring.pos_pos]
      congr 1
      omega
    have hfree : items.length - (una + j) < c.swndLen ∨ una + j < nxt := by
      have := h.free
      have := h.used_le
      have := h.len_pos
      omega
    obtain ⟨nxt', c', hsend, hnxt', hwin', hsame'⟩ := sendOstandSwnd_spec hring hostand hfree clock
    refine ⟨una + j, nxt', c', ?_, by omega, by omega, hnxt', Or.inr hack, hwin', hsame'⟩
    rw [hloop, ok_bind]
    exact hsend
  · rw [if_neg hin]
    obtain ⟨nxt', c', hsend, hnxt', hwin', hsame'⟩ :=
      sendOstandSwnd_spec h.toSendRing h.ostand h.free clock
    exact ⟨una, nxt', c', hsend, Nat.le_refl _, hle, hnxt', Or.inl ⟨rfl, hin⟩, hwin', hsame'⟩

/-! ### Selective acknowledgements and retransmission -/

/-- More entries may be marked than are. -/
theorem SlotOk.mono {addr : RdpAddr} {marks' : Nat → Prop} {j : Nat}
    (hmarks : j < nxt → marks j → marks' j) {payload : List Byte} {w : Swnd}
    (h : SlotOk addr iss marks nxt j payload w) : SlotOk addr iss marks' nxt j payload w := by
  unfold SlotOk at h ⊢
  split at h
  · exact (if_pos ‹_›).mpr ⟨h.1, fun hacked => hmarks ‹_› (h.2 hacked)⟩
  · exact (if_neg ‹_›).mpr h

namespace SendWindow

/-- Overwrite the slot `k` places behind the head with one that fits there. -/
theorem setSlot (h : SendWindow iss marks items una nxt c) (marks' : Nat → Prop)
    (hmarks : ∀ j, marks j → marks' j) {k : Nat} (hk : k < c.swndLen) {w : Swnd}
    (hok : ∀ payload, items[una + k]? = some payload →
      SlotOk c.addr iss marks' nxt (una + k) payload w) :
    SendWindow iss marks' items una nxt
      { c with swnd := c.swnd.set (Ring.pos c.swndHead c.swndLen k) w } := by
  refine ⟨{ h.toSendRing with
    length_eq := (List.length_set ..).trans h.length_eq
    slot := fun m payload hitem => ?_ }, h.ostand, h.full⟩
  show ∃ w', Ring.entry (c.swnd.set (Ring.pos c.swndHead c.swndLen k) w) c.swndHead m
      = some w' ∧ _
  rw [h.entry_set (h.length_eq ▸ h.lt_length hitem) hk]
  by_cases hm : m = k
  · subst hm
    exact ⟨w, if_pos rfl, hok payload hitem⟩
  · obtain ⟨w', hw', hok'⟩ := h.slot m payload hitem
    rw [if_neg hm]
    exact ⟨w', hw', hok'.mono fun _ => hmarks _⟩

/-- More entries may be marked than are. -/
theorem mono (h : SendWindow iss marks items una nxt c) {marks' : Nat → Prop}
    (hmarks : ∀ j, j < nxt → marks j → marks' j) : SendWindow iss marks' items una nxt c := by
  refine ⟨{ h.toSendRing with slot := fun m payload hitem => ?_ }, h.ostand, h.full⟩
  obtain ⟨w', hw', hok'⟩ := h.slot m payload hitem
  exact ⟨w', hw', hok'.mono (hmarks _)⟩

end SendWindow

/-- `recv_eack` removes the head of the window: the number lies in the window,
and the segment in front is outstanding and either the one it names or marked
already. -/
def eackPopsHead (c : RdpCon) (eacknum : BitVec 32) : Bool :=
  match c.swnd[c.swndHead]? with
  | none => false
  | some w =>
      c.swndUsed ≠ 0 && (eacknum - w.seqnum).toNat < c.swndLen && c.swndHead ≠ c.swndOstand &&
        w.isSent && (w.isAcked || w.seqnum == eacknum)

/-- The removal loop stops at once where the head is not marked. -/
theorem eackPopLoop_of_head {fuel : Nat} {w : Swnd} (hw : c.swndAt c.swndHead = .ok w)
    (hstop : c.swndHead = c.swndOstand ∨ (w.isSent && w.isAcked) = false) :
    RdpCon.eackPopLoop (fuel + 1) c = .ok c := by
  rw [RdpCon.eackPopLoop]
  by_cases hend : c.swndHead = c.swndOstand
  · rw [if_pos hend]
  · rw [if_neg hend, hw, ok_bind, hstop.resolve_left hend]
    rfl

/-- `recv_eack` for a number less than a turn behind the head: it marks the entry if it
is sent under this number, and goes to the removal loop. -/
theorem recvEack_eq (h : SendRing iss marks items una nxt c) {eacknum : BitVec 32} {first : Swnd}
    (hfirst : Ring.entry c.swnd c.swndHead 0 = some first) (hused : c.swndUsed ≠ 0)
    (hk : (eacknum - first.seqnum).toNat < c.swndLen) {w : Swnd}
    (hw : Ring.entry c.swnd c.swndHead (eacknum - first.seqnum).toNat = some w) :
    c.recvEack eacknum = RdpCon.eackPopLoop (c.swndLen + 1)
      (if w.seqnum = eacknum ∧ w.isSent ∧ ¬ w.isAcked then
        { c with swnd := c.swnd.set (Ring.pos c.swndHead c.swndLen (eacknum - first.seqnum).toNat)
                          { w with pbuf := none, isAcked := true } }
      else
        c) := by
  have hat := h.swndAt_of_entry hfirst
  rw [Ring.pos_zero h.head_lt] at hat
  have hslot : wrap ((eacknum - first.seqnum).toNat + c.swndHead) c.swndLen
      = .ok (Ring.pos c.swndHead c.swndLen (eacknum - first.seqnum).toNat) := by
    rw [wrap_eq h.len_pos, Nat.add_comm]
    rfl
  rw [RdpCon.recvEack, if_neg hused, hat, ok_bind, if_neg (Nat.not_le.mpr hk), hslot, ok_bind,
    h.swndAt_of_entry hw, ok_bind]
  split <;> rfl

/-- `recv_eack` for any other number does nothing. -/
theorem recvEack_far (h : SendRing iss marks items una nxt c) {eacknum : BitVec 32} {first : Swnd}
    (hfirst : Ring.entry c.swnd c.swndHead 0 = some first)
    (hfar : c.swndUsed = 0 ∨ c.swndLen ≤ (eacknum - first.seqnum).toNat) :
    c.recvEack eacknum = .ok c := by
  have hat := h.swndAt_of_entry hfirst
  rw [Ring.pos_zero h.head_lt] at hat
  rw [RdpCon.recvEack]
  by_cases hused : c.swndUsed = 0
  · rw [if_pos hused]
  · rw [if_neg hused, hat, ok_bind, if_pos (hfar.resolve_left hused)]
    rfl

/-- A selective acknowledgement that leaves the head alone marks the payload with
its number. -/
theorem recvEack_spec (h : SendWindow iss marks items una nxt c) {eacknum : BitVec 32}
    (hpops : eackPopsHead c eacknum = false) :
    ∃ c', c.recvEack eacknum = .ok c' ∧
      SendWindow iss (fun j => marks j ∨ eacknum = num iss (j + 1)) items una nxt c' ∧
      withoutSend c' = withoutSend c := by
  have hsame : SendWindow iss (fun j => marks j ∨ eacknum = num iss (j + 1)) items una nxt c :=
    h.mono fun _ _ => Or.inl
  have hpos := h.length_pos
  obtain ⟨first, hfirst⟩ := Ring.exists_entry c.swndHead 0 hpos
  have hat : c.swndAt c.swndHead = .ok first := by
    have := h.swndAt_of_entry hfirst
    rwa [Ring.pos_zero h.head_lt] at this
  by_cases hfar : c.swndUsed = 0 ∨ c.swndLen ≤ (eacknum - first.seqnum).toNat
  · exact ⟨c, recvEack_far h.toSendRing hfirst hfar, hsame, rfl⟩
  obtain ⟨hused, hnear⟩ := not_or.mp hfar
  have hk := Nat.not_le.mp hnear
  obtain ⟨w, hw⟩ := Ring.exists_entry c.swndHead (eacknum - first.seqnum).toNat hpos
  rw [recvEack_eq h.toSendRing hfirst hused hk hw]
  -- The head is neither marked nor about to be.
  have hstop : c.swndHead = c.swndOstand ∨ first.isSent = false ∨
      first.isAcked = false ∧ first.seqnum ≠ eacknum := by
    rw [eackPopsHead, ← Ring.entry_zero (by rw [h.length_eq]; exact h.head_lt), hfirst] at hpops
    simp only [hused, hk, ne_eq, not_false_eq_true, decide_true, Bool.true_and,
      Bool.and_eq_false_iff, decide_eq_false_iff_not, not_not, Bool.or_eq_false_iff,
      beq_eq_false_iff_ne, or_assoc] at hpops
    exact hpops
  by_cases hmatch : w.seqnum = eacknum ∧ w.isSent ∧ ¬ w.isAcked
  · rw [if_pos hmatch]
    let marked : Swnd := { w with pbuf := none, isAcked := true }
    have hwin := h.setSlot (fun j => marks j ∨ eacknum = num iss (j + 1))
      (fun _ => Or.inl) hk (w := marked) (fun payload hitem => by
        obtain ⟨w', hw', hok⟩ := h.slot _ payload hitem
        obtain rfl : w = w' := Option.some.inj (hw.symm.trans hw')
        unfold SlotOk at hok ⊢
        split at hok
        · refine (if_pos ‹_›).mpr ⟨⟨hok.1.isSent, hok.1.seqnum, fun hacked => ?_⟩, fun _ => ?_⟩
          · exact Bool.noConfusion hacked
          · exact Or.inr (hmatch.1.symm.trans hok.1.seqnum)
        · exact absurd (hok.isSent.symm.trans hmatch.2.1) (by decide))
    refine ⟨_, eackPopLoop_of_head (w := if (eacknum - first.seqnum).toNat = 0 then marked
      else first) ?_ ?_, hwin, rfl⟩
    · have hentry : Ring.entry (c.swnd.set (Ring.pos c.swndHead c.swndLen
          (eacknum - first.seqnum).toNat) marked) c.swndHead 0
          = some (if (eacknum - first.seqnum).toNat = 0 then marked else first) := by
        rw [← h.length_eq]
        split
        · next hzero => rw [hzero, Ring.entry_set_self _ _ hpos]
        · next hzero =>
          rw [Ring.entry_set_ne hpos (by rw [h.length_eq]; exact hk) (Ne.symm hzero), hfirst]
      have := hwin.swndAt_of_entry hentry
      rwa [Ring.pos_zero h.head_lt] at this
    · by_cases hzero : (eacknum - first.seqnum).toNat = 0
      · -- The number is that of the head, and the slot is the head.
        rw [hzero] at hw
        obtain rfl : first = w := Option.some.inj (hfirst.symm.trans hw)
        rcases hstop with hstop | hstop | hstop
        · exact Or.inl hstop
        · exact absurd (hstop.symm.trans hmatch.2.1) (by decide)
        · exact absurd hmatch.1 hstop.2
      · rw [if_neg hzero]
        refine hstop.imp_right fun hstop => ?_
        rcases hstop with hstop | hstop
        · rw [hstop, Bool.false_and]
        · rw [hstop.1, Bool.and_false]
  · rw [if_neg hmatch]
    refine ⟨c, eackPopLoop_of_head hat (hstop.imp_right fun hstop => ?_), hsame, rfl⟩
    rcases hstop with hstop | hstop
    · rw [hstop, Bool.false_and]
    · rw [hstop.1, Bool.and_false]

/-- The loop of `retransmit` sends unmarked segments again, each under its number
and with the present acknowledgement. -/
theorem retransmitLoop_spec (clock maxRetrans : Int) (n : Nat) :
    ∀ {c : RdpCon} {k : Nat} (out : List Emitted), SendWindow iss marks items una nxt c →
      n + k = items.length - una →
      ∃ alive c' again, RdpCon.retransmitLoop clock maxRetrans n c
          (Ring.pos c.swndHead c.swndLen k) out = .ok (alive, c', out ++ again) ∧
        SendWindow iss marks items una nxt c' ∧
        withoutSend c' = withoutSend (if alive then c else { c with state := .closed }) ∧
        ∀ e ∈ again, ∃ j payload, una ≤ j ∧ j < nxt ∧ items[j]? = some payload ∧
          e = ⟨dataSegment c.addr payload (num iss (j + 1)) c.rcvCur, c.rcvCur⟩ := by
  induction n with
  | zero =>
    intro c k out h _
    exact ⟨true, c, [], by rw [RdpCon.retransmitLoop, List.append_nil], h, rfl, by simp⟩
  | succ n ih =>
    intro c k out h hk
    have hlt : una + k < items.length := by omega
    have hkl : k < c.swndLen := by
      have := h.used_le
      omega
    obtain ⟨w, hw, hok⟩ := h.entry_of_lt (j := una + k) (by omega) hlt
    rw [Nat.add_sub_cancel_left] at hw
    rw [RdpCon.retransmitLoop, h.swndAt_of_entry hw, ok_bind, wrap_pos h.len_pos, ok_bind]
    -- At the first payload that waits the loop stops.
    by_cases hsent : ¬ w.isSent
    · rw [if_pos hsent]
      exact ⟨true, c, [], by rw [List.append_nil]; rfl, h, rfl, by simp⟩
    rw [if_neg hsent]
    have hj : una + k < nxt := by
      by_contra hge
      rw [SlotOk, if_neg hge] at hok
      exact hsent (by rw [hok.isSent]; decide)
    rw [SlotOk, if_pos hj] at hok
    by_cases hacked : w.isAcked
    · rw [if_pos hacked]
      exact ih out h (by omega)
    rw [if_neg hacked]
    -- A pipe that broke closes the record.
    by_cases hbroken : w.rtSec > maxRetrans
    · rw [if_pos hbroken]
      refine ⟨false, { c with state := .closed }, [], by rw [List.append_nil]; rfl, ?_, rfl,
        by simp⟩
      exact ⟨{ h.toSendRing with }, h.ostand, h.full⟩
    rw [if_neg hbroken]
    -- A segment goes out again once its interval is over, which then doubles.
    by_cases hdue : timeNull clock - w.sentTime > w.rtSec
    · rw [if_pos hdue]
      obtain ⟨pbuf, ack, hpbuf, hdata⟩ := hok.1.pbuf (by simpa using hacked)
      rw [hpbuf]
      have hagain : (pbuf.set32 12 c.rcvCur).data
          = dataSegment c.addr items[una + k] (num iss (una + k + 1)) c.rcvCur :=
        set32_acknum hdata c.rcvCur
      let sent : Swnd := { w with pbuf := some (pbuf.set32 12 c.rcvCur),
                                  sentTime := timeNull clock, rtSec := w.rtSec * 2 }
      have hwin := h.setSlot marks (fun _ => id) hkl (w := sent) (fun payload hitem => by
        obtain rfl : items[una + k] = payload := by
          rw [List.getElem?_eq_getElem hlt] at hitem
          exact Option.some.inj hitem
        rw [SlotOk, if_pos hj]
        exact ⟨⟨hok.1.isSent, hok.1.seqnum, fun _ => ⟨_, _, rfl, hagain⟩⟩, hok.2⟩)
      obtain ⟨alive, c', again, hloop, hwin', hsame, hemits⟩ :=
        ih (k := k + 1) (out ++ [c.emit (pbuf.set32 12 c.rcvCur).data]) hwin (by omega)
      refine ⟨alive, c', c.emit (pbuf.set32 12 c.rcvCur).data :: again, ?_, hwin', ?_, ?_⟩
      · rw [List.append_assoc] at hloop
        exact hloop
      · rw [hsame]
        cases alive <;> rfl
      · intro e he
        rcases List.mem_cons.mp he with rfl | he
        · refine ⟨una + k, items[una + k], by omega, hj, List.getElem?_eq_getElem hlt, ?_⟩
          rw [RdpCon.emit, hagain]
        · exact hemits e he
    · rw [if_neg hdue]
      exact ih out h (by omega)

/-- `retransmit` sends unmarked segments again, each under its number and with the
present acknowledgement. It closes the record where the pipe broke. -/
theorem retransmit_spec (h : SendWindow iss marks items una nxt c) (clock maxRetrans : Int) :
    ∃ alive c' again, c.retransmit clock maxRetrans = .ok (alive, c', again) ∧
      SendWindow iss marks items una nxt c' ∧
      withoutSend c' = withoutSend (if alive then c else { c with state := .closed }) ∧
      ∀ e ∈ again, ∃ j payload, una ≤ j ∧ j < nxt ∧ items[j]? = some payload ∧
        e = ⟨dataSegment c.addr payload (num iss (j + 1)) c.rcvCur, c.rcvCur⟩ := by
  obtain ⟨alive, c', again, hloop, hrest⟩ :=
    retransmitLoop_spec clock maxRetrans c.swndUsed (k := 0) [] h (by rw [h.used_eq]; rfl)
  rw [Ring.pos_zero h.head_lt, List.nil_append] at hloop
  exact ⟨alive, c', again, hloop, hrest⟩

/-! ### The empty window -/

/-- `init_swnd` makes an empty window. -/
theorem initSwnd_spec {c : RdpCon} (hmin : 2 ≤ c.sndMax.toNat) (hmax : c.sndMax.toNat < 2 ^ 29)
    (hnxt : c.sndNxt = c.sndUna + 1) (uninit : Uninit) :
    SendWindow c.sndUna (fun _ => False) [] 0 0 (c.initSwnd uninit) := by
  have hlen : (c.sndMax * 4).toNat = c.sndMax.toNat * 4 := by
    rw [BitVec.toNat_mul]
    exact Nat.mod_eq_of_lt (by show c.sndMax.toNat * 4 < 2 ^ 32; omega)
  refine ⟨⟨Nat.le_refl _, Nat.le_refl _, (num_zero _).symm, ?_, hmin, hmax, ?_, hlen, ?_, ?_, rfl,
    Nat.zero_le _, fun k payload hitem => ?_⟩, ?_, fun hlt => ?_⟩
  · show c.sndNxt = num c.sndUna (0 + 1)
    rw [num_succ, num_zero, hnxt]
  · show 0 - 0 < c.sndMax.toNat
    omega
  · simp [RdpCon.initSwnd]
  · show 0 < (c.sndMax * 4).toNat
    omega
  · simp at hitem
  · exact (Nat.zero_mod _).symm
  · exact absurd hlt (Nat.lt_irrefl 0)

end

end Libcage.Proofs.Rdp
