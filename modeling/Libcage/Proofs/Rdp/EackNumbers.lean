import Libcage.Lib.Run
import Libcage.Proofs.Rdp.Stream

/-!
# `Libcage.Proofs.Rdp.EackNumbers`: the receive window keeps its count and EACKs once

`m_rwnd_used` bounds the scan of `delayed_ack`, which does not look at the length of the
ring. A `Receiver` is a connection that gets any calls of `rwnd_recv_data`, with any numbers,
and of `delayed_ack`. It remembers the segments of the last call and, in `eacked`, which
segments of the stream it acknowledged singly. Those are indices, as a number comes up again
after 2^32 segments.

`receiver_exact` proves for any calls that the count, the numbers and the free head of
`WindowExact` hold after each of them, that no scan runs on, and that nothing is acknowledged
singly twice. What carries it is `Marked`: a payload that was acknowledged keeps its flag as
long as it is in the window (`Receiver.recvData_kept`, `Receiver.delayedAck_kept`).
-/

set_option autoImplicit false

namespace Libcage.Proofs.Rdp

open Libcage.Lib
open Libcage.Rdp

/-! ### Numbers in a segment -/

/-- The numbers of an EACK segment, as `in_state_open` reads them behind the header. -/
def eackedNumbers (seg : List Byte) : List (BitVec 32) :=
  let head := RdpHead.decode seg
  if head.has flagEak then
    (List.range (RdpCon.eackCount head.hlen)).map fun i => rd32 seg (sizeofHead + 4 * i)
  else
    []

/-- The numbers that `delayed_ack` collected are read back. -/
theorem eackedNumbers_eackSegment (c : RdpCon) {seqs : List (BitVec 32)}
    (hlen : seqs.length ≤ maxEack) : eackedNumbers (c.eackSegment seqs) = seqs := by
  obtain ⟨-, -, -, -, heak⟩ := has_ackHeadOf c.addr c.sndNxt c.rcvCur seqs.length
  rw [eackSegment_eq, eackedNumbers, ackSegment, RdpHead.decode_encode, heak,
    eackCount_ackHeadOf hlen]
  by_cases hnil : seqs.length = 0
  · rw [List.eq_nil_of_length_eq_zero hnil]
    rfl
  · rw [if_pos (by simpa using hnil)]
    refine List.ext_getElem (by simp) fun i hi hi' => ?_
    have hread := rd32_wr32s (ackHeadOf c.addr c.sndNxt c.rcvCur seqs.length).encode [] seqs i hi'
    rw [RdpHead.length_encode, List.append_nil] at hread
    rw [List.getElem_map, List.getElem_range, hread]

/-! ### Runs of the receive window -/

/-- A call on the receive window. -/
inductive RwndCall where
  | recvData (clock : Int) (pbuf : Packetbuf) (seqnum : BitVec 32)
  | delayedAck (clock : Int)

/-- The call on the record. -/
def RwndCall.run (c : RdpCon) : RwndCall → Except Fault (RdpCon × List Emitted)
  | .recvData clock pbuf seqnum => c.rwndRecvData clock pbuf seqnum
  | .delayedAck clock => c.delayedAck clock

/-- A connection, how many segments left its window in order, which ones it acknowledged
singly, and what the last call sent. -/
structure Receiver where
  con : RdpCon
  taken : Nat
  eacked : List Nat
  out : List Emitted

namespace Receiver

/-- The receiver before the first call. -/
def fresh (c : RdpCon) : Receiver := { con := c, taken := 0, eacked := [], out := [] }

/-- The index of a number, counted on from the segments that left the window. -/
def indexOf (taken : Nat) (c : RdpCon) (seq : BitVec 32) : Nat :=
  taken + (seq - c.rcvCur - 1).toNat

/-- One call. -/
def step (r : Receiver) (call : RwndCall) : Except Fault Receiver := do
  let (c, out) ← call.run r.con
  let taken := r.taken + (c.rcvCur - r.con.rcvCur).toNat
  let seqs := out.flatMap fun e => eackedNumbers e.seg
  return { con := c, taken, eacked := r.eacked ++ seqs.map (indexOf taken c), out }

end Receiver

/-- The counter, the numbers and the head of the ring. -/
structure WindowExact (c : RdpCon) : Prop where
  used_eq : c.rwndUsed = c.rwnd.countP (·.isUsed)
  seqnum : ∀ k w, k < c.rwndLen → c.rwnd[(c.rwndHead + k) % c.rwndLen]? = some w →
    w.isUsed = true → w.seqnum = c.rcvCur + 1 + BitVec.ofNat 32 k
  head_free : ∃ w, c.rwnd[c.rwndHead]? = some w ∧ w.isUsed = false

/-- A segment with this number is in the window, behind the head. -/
def Buffered (c : RdpCon) (seq : BitVec 32) : Prop :=
  ∃ k w, 1 ≤ k ∧ k < c.rwndLen ∧ seq = c.rcvCur + 1 + BitVec.ofNat 32 k ∧
    c.rwnd[(c.rwndHead + k) % c.rwndLen]? = some w ∧ w.isUsed = true

/-- What a segment acknowledges singly. -/
structure EacksExact (c : RdpCon) (seg : List Byte) : Prop where
  length_le : (eackedNumbers seg).length ≤ 64
  nodup : (eackedNumbers seg).Nodup
  buffered : ∀ seq ∈ eackedNumbers seg, Buffered c seq

/-- What holds after each call. -/
structure ReceiverExact (r : Receiver) : Prop where
  window : WindowExact r.con
  eacks : ∀ e ∈ r.out, EacksExact r.con e.seg
  once : r.eacked.Nodup

section
variable {irs : BitVec 32} {got : Nat} {arrived : Nat → Option (List Byte)} {c : RdpCon}

/-- The slots of a window in the words of the source. -/
theorem RecvRing.getElem?_slot (h : RecvRing irs got arrived c) (k : Nat) :
    c.rwnd[(c.rwndHead + k) % c.rwndLen]? = Ring.entry c.rwnd c.rwndHead k := by
  rw [Ring.entry, Ring.pos, h.length_eq]

/-- The number at offset `k`. -/
theorem RecvRing.num_slot (h : RecvRing irs got arrived c) (k : Nat) :
    num irs (got + k + 1) = c.rcvCur + 1 + BitVec.ofNat 32 k := by
  rw [h.rcvCur, ← num_succ, show got + k + 1 = got + 1 + k by omega, ← num_num]
  rfl

/-- A slot is used where its payload arrived. -/
theorem RecvRing.isUsed_slot (h : RecvRing irs got arrived c) {k : Nat} (hk : k < c.rwndLen) :
    (Ring.entry c.rwnd c.rwndHead k).any (·.isUsed) = (arrived (got + k)).isSome := by
  obtain ⟨w, hw, hok⟩ := h.slot k hk
  rw [hw]
  cases harrived : arrived (got + k) with
  | none =>
    rw [harrived] at hok
    exact hok
  | some payload =>
    rw [harrived] at hok
    exact hok.1

/-- The receive window keeps its counter, its numbers and a free head. -/
theorem RecvWindow.exact (h : RecvWindow irs got arrived c) : WindowExact c := by
  refine ⟨?_, fun k w hk hw hused => ?_, ?_⟩
  · rw [h.used_eq, Ring.countP_entries _ _ c.rwndHead, h.length_eq, arrivals,
      List.range'_eq_map_range, List.countP_map]
    refine List.countP_congr fun k hk => ?_
    rw [h.isUsed_slot (List.mem_range.mp hk)]
    rfl
  · rw [h.getElem?_slot] at hw
    obtain ⟨w', hw', hok⟩ := h.slot k hk
    obtain rfl : w = w' := Option.some.inj (hw.symm.trans hw')
    cases harrived : arrived (got + k) with
    | none =>
      rw [harrived] at hok
      rw [show w.isUsed = false from hok] at hused
      cases hused
    | some payload =>
      rw [harrived] at hok
      rw [hok.2.1, h.num_slot]
  · obtain ⟨w, -, hw, hok⟩ := h.rwndAt_head
    rw [Ring.entry_zero (by rw [h.length_eq]; exact h.head_lt)] at hw
    rw [h.front] at hok
    exact ⟨w, hw, hok⟩

/-! ### One call -/

/-- The segments that were acknowledged singly are distinct, arrived at the window, and are
marked as long as they are in it. -/
structure EackedOnce (got : Nat) (c : RdpCon) (eacked : List Nat) : Prop where
  nodup : eacked.Nodup
  lt : ∀ j ∈ eacked, j < got + c.rwndLen
  marked : ∀ j ∈ eacked, got ≤ j → Marked got c j

/-- The window moves on and keeps its marks. -/
theorem EackedOnce.moved {got' : Nat} {c' : RdpCon} {eacked : List Nat}
    (h : EackedOnce got c eacked) (hgot : got ≤ got') (hlen : c'.rwndLen = c.rwndLen)
    (hmarks : ∀ j, got' ≤ j → Marked got c j → Marked got' c' j) : EackedOnce got' c' eacked := by
  refine ⟨h.nodup, fun j hj => ?_, fun j hj hle => ?_⟩
  · have hlt := h.lt j hj
    omega
  · exact hmarks j hle (h.marked j hj (by omega))

/-- A scan adds segments that were not acknowledged singly before. -/
theorem EackedOnce.scanned {c' : RdpCon} {eacked js : List Nat} (h : EackedOnce got c eacked)
    (hlen : c'.rwndLen = c.rwndLen) (hjs : Scanned got got arrived c c' js) :
    EackedOnce got c' (eacked ++ js) := by
  refine ⟨List.nodup_append.mpr ⟨h.nodup, hjs.ascending.imp Nat.ne_of_lt, ?_⟩, fun j hj => ?_,
    fun j hj hle => ?_⟩
  · -- What was acknowledged before is marked, and the scan passes over marks.
    rintro j hj i hi rfl
    exact hjs.fresh j hi (h.marked j hj (hjs.behind j hi))
  · rcases List.mem_append.mp hj with hj | hj
    · rw [hlen]
      exact h.lt j hj
    · exact (hjs.marked j hj).2.1
  · rcases List.mem_append.mp hj with hj | hj
    · exact hjs.kept j (h.marked j hj hle)
    · exact hjs.marked j hj

/-- The number of a payload in the window leads back to its index. -/
theorem RecvRing.indexOf_num (h : RecvRing irs got arrived c) {j : Nat} (hle : got ≤ j)
    (hlt : j < got + c.rwndLen) : Receiver.indexOf got c (num irs (j + 1)) = j := by
  have hbound := h.len_lt
  have hdiff := toNat_num_sub_num_of_le irs (j := got + 1) (k := j + 1) (by omega) (by omega)
  rw [Receiver.indexOf, sub_sub, h.rcvCur, ← num_succ, hdiff]
  omega

/-- A marked payload is in the window under its number. -/
theorem RecvRing.buffered (h : RecvRing irs got arrived c) {j : Nat} (hgot : got < j)
    (hmarked : Marked got c j) : Buffered c (num irs (j + 1)) := by
  obtain ⟨-, hlt, w, hw, hused, -⟩ := hmarked
  refine ⟨j - got, w, by omega, by omega, ?_, ?_, hused⟩
  · rw [← h.num_slot, show got + (j - got) = j by omega]
  · rw [h.getElem?_slot, hw]

/-- The numbers of a scan are distinct, in the window, and lead back to its payloads. -/
theorem RecvRing.eacksExact (h : RecvRing irs got arrived c) {c₀ : RdpCon} {js : List Nat}
    (hlen : js.length ≤ maxEack) (hjs : Scanned got got arrived c₀ c js) :
    (js.map fun j => num irs (j + 1)).map (Receiver.indexOf got c) = js ∧
      EacksExact c (c.eackSegment (js.map fun j => num irs (j + 1))) := by
  have hindex : ∀ j ∈ js, Receiver.indexOf got c (num irs (j + 1)) = j := fun j hj =>
    h.indexOf_num (hjs.behind j hj) (hjs.marked j hj).2.1
  have hread : eackedNumbers (c.eackSegment (js.map fun j => num irs (j + 1)))
      = js.map fun j => num irs (j + 1) :=
    eackedNumbers_eackSegment c (by rwa [List.length_map])
  refine ⟨?_, ?_⟩
  · rw [List.map_map]
    exact (List.map_congr_left hindex).trans (List.map_id js)
  · constructor
    · rw [hread, List.length_map]
      exact hlen
    · rw [hread]
      refine List.Nodup.map_on (fun i hi j hj heq => ?_) (hjs.ascending.imp Nat.ne_of_lt)
      rw [← hindex i hi, ← hindex j hj, heq]
    · rw [hread]
      intro seq hseq
      obtain ⟨j, hj, rfl⟩ := List.mem_map.mp hseq
      exact h.buffered (hjs.early j hj).1 (hjs.marked j hj)

end

/-! ### Any calls -/

/-- What every call keeps. -/
structure ReceiverInv (irs : BitVec 32) (r : Receiver) : Prop where
  window : ∃ arrived, RecvWindow irs r.taken arrived r.con
  eacks : ∀ e ∈ r.out, EacksExact r.con e.seg
  once : EackedOnce r.taken r.con r.eacked

section
variable {irs : BitVec 32} {got : Nat} {arrived : Nat → Option (List Byte)} {c : RdpCon}

theorem ReceiverInv.exact {r : Receiver} (h : ReceiverInv irs r) : ReceiverExact r := by
  obtain ⟨arrived, hwin⟩ := h.window
  exact ⟨hwin.exact, h.eacks, h.once.nodup⟩

/-- An acknowledgement after the window moved on. -/
theorem ReceiverInv.acked {c' : RdpCon} {out : List Emitted} {js eacked : List Nat}
    (hwin : RecvWindow irs got arrived c') (honce : EackedOnce got c eacked)
    (hlen : c'.rwndLen = c.rwndLen) (hmax : js.length ≤ maxEack)
    (hjs : Scanned got got arrived c c' js)
    (hout : out = [] ∧ js = [] ∨
      out = [c'.emit (c'.eackSegment (js.map fun j => num irs (j + 1)))]) :
    ReceiverInv irs { con := c', taken := got, eacked := eacked ++
      (out.flatMap fun e => eackedNumbers e.seg).map (Receiver.indexOf got c'), out } := by
  obtain ⟨hindex, heacks⟩ := hwin.toRecvRing.eacksExact hmax hjs
  have hread : eackedNumbers (c'.eackSegment (js.map fun j => num irs (j + 1)))
      = js.map fun j => num irs (j + 1) :=
    eackedNumbers_eackSegment c' (by rwa [List.length_map])
  refine ⟨⟨arrived, hwin⟩, ?_, ?_⟩
  · rcases hout with ⟨rfl, -⟩ | rfl
    · exact nofun
    · exact List.forall_mem_singleton.mpr heacks
  · -- The indices in the new acknowledgement are those of the scan.
    have hadded : (out.flatMap fun e => eackedNumbers e.seg).map (Receiver.indexOf got c')
        = js := by
      rcases hout with ⟨rfl, rfl⟩ | rfl
      · rfl
      · rw [List.flatMap_singleton]
        show (eackedNumbers (c'.eackSegment (js.map fun j => num irs (j + 1)))).map _ = js
        rw [hread, hindex]
    show EackedOnce got c' (eacked ++ _)
    rw [hadded]
    exact honce.scanned hlen hjs

/-- `delayed_ack` keeps the invariant. -/
theorem Receiver.delayedAck_kept {r : Receiver} (h : ReceiverInv irs r) (clock : Int) :
    ∃ r', r.step (.delayedAck clock) = .ok r' ∧ ReceiverInv irs r' := by
  obtain ⟨arrived, hwin⟩ := h.window
  obtain ⟨c', out, js, hrun, hwin', hsame, -, hmax, hjs, hout⟩ := delayedAck_marks hwin clock
  have hlen : c'.rwndLen = r.con.rwndLen := (congrArg RdpCon.rwndLen hsame :)
  -- `rcv_cur` stays, so that no segment leaves the window.
  have hcur : r.taken + (c'.rcvCur - r.con.rcvCur).toNat = r.taken := by
    rw [hwin.rcvCur, hwin'.rcvCur, sub_self]
    rfl
  refine ⟨_, by rw [Receiver.step, RwndCall.run, hrun, ok_bind]; rfl, ?_⟩
  show ReceiverInv irs { con := c', taken := r.taken + (c'.rcvCur - r.con.rcvCur).toNat, .. }
  rw [hcur]
  exact ReceiverInv.acked hwin' h.once hlen hmax hjs hout

/-- The window moves on by fewer segments than numbers. -/
theorem RecvRing.moved_le (h : RecvRing irs got arrived c) {got' : Nat}
    {arrived' : Nat → Option (List Byte)} {seqnum : BitVec 32} {payload : List Byte}
    (harrives : Arrives irs got c.rwndLen seqnum payload arrived arrived')
    (hall : ∀ i, got ≤ i → i < got' → arrived' i ≠ none) : got' ≤ got + c.rwndLen := by
  by_contra hnot
  -- The first index behind the window has not arrived.
  refine hall (got + c.rwndLen) (by omega) (by omega) ?_
  rcases harrives with rfl | ⟨j, hle, hlt, -, -, rfl⟩
  · exact h.beyond _ (Nat.le_refl _)
  · rw [Function.update_of_ne (by omega)]
    exact h.beyond _ (Nat.le_refl _)

/-- `rwnd_recv_data` keeps the invariant, whatever the number is. -/
theorem Receiver.recvData_kept {r : Receiver} (h : ReceiverInv irs r) (clock : Int)
    (pbuf : Packetbuf) (seqnum : BitVec 32) :
    ∃ r', r.step (.recvData clock pbuf seqnum) = .ok r' ∧ ReceiverInv irs r' := by
  obtain ⟨arrived, hwin⟩ := h.window
  obtain ⟨arrived', got', c₁, hrun, harrives, hgot, hall, hwin₁, -, hsame₁, hmarks⟩ :=
    rwndRecvData_takes hwin clock pbuf seqnum
  have hlen₁ : c₁.rwndLen = r.con.rwndLen := (congrArg RdpCon.rwndLen hsame₁ :)
  have honce := h.once.moved hgot hlen₁ hmarks
  have hmoved := hwin.moved_le harrives hall
  have hbound := hwin.len_lt
  have hcur : r.taken + (num irs got' - r.con.rcvCur).toNat = got' := by
    rw [hwin.rcvCur, toNat_num_sub_num_of_le irs hgot (by omega)]
    omega
  rcases hrun with hrun | hrun
  · refine ⟨_, by rw [Receiver.step, RwndCall.run, hrun, ok_bind]; rfl, ?_⟩
    show ReceiverInv irs { con := c₁, taken := r.taken + (c₁.rcvCur - r.con.rcvCur).toNat, .. }
    rw [hwin₁.rcvCur, hcur]
    exact ReceiverInv.acked hwin₁ honce rfl (Nat.zero_le _) Scanned.nil
      (Or.inl ⟨rfl, rfl⟩)
  · obtain ⟨c', out, js, hack, hwin', hsame, -, hmax, hjs, hout⟩ := delayedAck_marks hwin₁ clock
    have hlen : c'.rwndLen = c₁.rwndLen := (congrArg RdpCon.rwndLen hsame :)
    refine ⟨_, by rw [Receiver.step, RwndCall.run, hrun, hack, ok_bind]; rfl, ?_⟩
    show ReceiverInv irs { con := c', taken := r.taken + (c'.rcvCur - r.con.rcvCur).toNat, .. }
    rw [hwin'.rcvCur, hcur]
    exact ReceiverInv.acked hwin' honce hlen hmax hjs hout

/-- After `init_rwnd` every call returns, and the receive window is exact after it. The length of
the ring is an `int`, and so is the sum of the head and an offset. -/
theorem receiver_exact {c : RdpCon} (hpos : 0 < c.rcvMax.toNat) (hint : c.rcvMax.toNat ≤ 2 ^ 29)
    (uninit : Uninit) (calls : List RwndCall) :
    Always Receiver.step ReceiverExact (Receiver.fresh (c.initRwnd uninit)) calls := by
  have hdouble : (c.rcvMax * 2).toNat = c.rcvMax.toNat * 2 := by
    rw [BitVec.toNat_mul]
    show c.rcvMax.toNat * 2 % 2 ^ 32 = _
    omega
  have hfresh : ReceiverInv c.rcvCur (Receiver.fresh (c.initRwnd uninit)) :=
    ⟨⟨_, initRwnd_spec (by omega) uninit⟩, nofun, List.nodup_nil, nofun, nofun⟩
  have hallowed : Allowed Receiver.step (fun _ _ => True)
    (Receiver.fresh (c.initRwnd uninit)) calls :=
    allowed_of_all fun _ _ _ => trivial
  refine always_of_allowed (fun r (h : ReceiverInv c.rcvCur r) => h.exact) (fun r call h _ => ?_)
    hfresh hallowed
  cases call with
  | recvData clock pbuf seqnum => exact Receiver.recvData_kept h clock pbuf seqnum
  | delayedAck clock => exact Receiver.delayedAck_kept h clock

/-- The ring of `rcv_max_default` segments, with two packets that come early, once more, and
out of the window. -/
theorem receiver_exact_default :
    Always Receiver.step ReceiverExact
      (Receiver.fresh (({ (default : RdpCon) with rcvMax := rcvMaxDefault } : RdpCon).initRwnd
        default))
      [.recvData 0 Packetbuf.construct 3, .delayedAck 0, .recvData 0 Packetbuf.construct 2,
        .recvData 0 Packetbuf.construct 3, .recvData 0 Packetbuf.construct 0,
        .recvData 0 Packetbuf.construct 1] :=
  receiver_exact (by decide) (by decide) default _

end

end Libcage.Proofs.Rdp
