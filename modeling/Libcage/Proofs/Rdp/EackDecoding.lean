import Libcage.Proofs.Rdp.Segmentation

/-!
# `Libcage.Proofs.Rdp.EackDecoding`: what `rdp::in_state_open` reads of a segment

The header length of a segment is a byte that nothing checks. `in_state_open` takes 10 from
it in 8-bit arithmetic, halves it, and reads that many numbers behind the header, and it
takes the payload from behind twice that length.

A call that faults ends the program, so `made` are the calls up to the first fault.
`openReadsInside_iff` says exactly when everything that is handed on lies inside the segment.
-/

set_option autoImplicit false

namespace Libcage.Proofs.Rdp

open Libcage.Lib
open Libcage.Rdp

/-- The calls up to the first one that faults, that one included. -/
def made (clock : Int) : RdpCon → List OpenCall → List OpenCall
  | _, [] => []
  | c, call :: calls =>
      call :: match call.run clock c with
        | .ok (c', _) => made clock c' calls
        | .error _ => []

/-- What a call hands on lies inside the segment: a number is four bytes behind the header,
and a payload is the `dlen` bytes behind a header of at least its full size. A NUL segment
hands on no byte. -/
def OpenCall.Inside (pbuf : Packetbuf) : OpenCall → Prop
  | .recvAck _ => True
  | .recvEack off eacknum =>
      sizeofHead ≤ off ∧ off + 4 ≤ pbuf.getLen ∧ eacknum = rd32 pbuf.data off
  | .rwndRecvData payload _ =>
      let head := RdpHead.decode pbuf.data
      payload.data = [] ∨
        sizeofHead ≤ head.hlen.toNat * 2 ∧ payload.data = pbuf.data.drop (head.hlen.toNat * 2) ∧
          payload.getLen = head.dlen.toNat

/-- Everything that `in_state_open` hands on lies inside the segment. -/
def ReadsInside (clock : Int) (c : RdpCon) (pbuf : Packetbuf) : Prop :=
  ∀ call ∈ made clock c (openCalls c pbuf), call.Inside pbuf

/-- `recv_ack` for the number of the segment returns, or is not called. -/
def AckReturns (clock : Int) (c : RdpCon) (head : RdpHead) : Prop :=
  head.has flagAck = true → ∃ r, c.recvAck clock head.acknum = .ok r

section
variable {clock : Int} {c : RdpCon} {pbuf : Packetbuf}

/-! ### The calls that are made -/

/-- Calls that return are all made, and the ones behind them follow. -/
theorem made_append {calls : List OpenCall} (calls' : List OpenCall) :
    ∀ {c c' : RdpCon} {out : List Emitted}, runOpenCalls clock c calls = .ok (c', out) →
      made clock c (calls ++ calls') = calls ++ made clock c' calls' := by
  induction calls with
  | nil =>
    intro c c' out hrun
    obtain ⟨rfl, -⟩ := Prod.mk.inj (Except.ok.inj hrun)
    rfl
  | cons call calls ih =>
    intro c c' out hrun
    obtain ⟨⟨c₁, out₁⟩, hcall, hrest⟩ := bind_eq_ok hrun
    obtain ⟨⟨c₂, out₂⟩, hcalls, hret⟩ := bind_eq_ok hrest
    obtain ⟨rfl, -⟩ := Prod.mk.inj (Except.ok.inj hret)
    rw [List.cons_append, made, hcall]
    exact congrArg _ (ih hcalls)

/-- The last call is made whether it returns or not. -/
theorem made_dataCalls (clock : Int) (c : RdpCon) (pbuf : Packetbuf) :
    made clock c (dataCalls pbuf) = dataCalls pbuf := by
  unfold dataCalls
  dsimp only
  split
  · rw [made]
    split <;> rfl
  · rfl

/-- `recv_eack` returns for any numbers. -/
theorem eackLoop_returns (view : List Byte) (n : Nat) :
    ∀ (i : Nat) {c : RdpCon}, SendReady c → ∃ c', RdpCon.eackLoop view n i c = .ok c' := by
  induction n with
  | zero => intro i c _; exact ⟨c, rfl⟩
  | succ n ih =>
    intro i c h
    obtain ⟨c₁, hrun, h₁, -⟩ := h.recvEack (rd32 view (sizeofHead + 4 * i))
    obtain ⟨c', hrest⟩ := ih (i + 1) h₁
    exact ⟨c', by rw [RdpCon.eackLoop, hrun, ok_bind, hrest]⟩

/-- Once the acknowledgement is through, the calls for the numbers and the data are all
made. -/
theorem made_eackDataCalls (h : SendReady c) (clock : Int) (pbuf : Packetbuf) :
    made clock c (eackDataCalls pbuf) = eackDataCalls pbuf := by
  unfold eackDataCalls
  dsimp only
  split
  · obtain ⟨c', hloop⟩ := eackLoop_returns pbuf.view
      (RdpCon.eackCount (RdpHead.decode pbuf.data).hlen) 0 h
    have hrun := runOpenCalls_eacks clock pbuf.view
      (RdpCon.eackCount (RdpHead.decode pbuf.data).hlen) 0 c
    rw [hloop, ok_bind] at hrun
    rw [made_append _ hrun, made_dataCalls]
  · rw [List.nil_append, made_dataCalls]

/-! ### Where the reads lie -/

/-- The calls for the numbers, by their offsets. -/
theorem mem_eackCalls {view : List Byte} {call : OpenCall} (n : Nat) :
    ∀ i, call ∈ eackCalls view n i ↔ ∃ k, k < n ∧ call =
      .recvEack (sizeofHead + 4 * (i + k)) (rd32 view (sizeofHead + 4 * (i + k))) := by
  induction n with
  | zero =>
    intro i
    refine ⟨fun hmem => (nomatch hmem), ?_⟩
    rintro ⟨k, hk, -⟩
    cases hk
  | succ n ih =>
    intro i
    rw [eackCalls, List.mem_cons, ih (i + 1)]
    constructor
    · rintro (rfl | ⟨k, hk, rfl⟩)
      · exact ⟨0, Nat.succ_pos n, rfl⟩
      · exact ⟨k + 1, Nat.succ_lt_succ hk, by rw [show i + 1 + k = i + (k + 1) by omega]⟩
    · rintro ⟨k, hk, rfl⟩
      cases k with
      | zero => exact Or.inl rfl
      | succ k =>
        exact Or.inr ⟨k, Nat.lt_of_succ_lt_succ hk, by rw [show i + 1 + k = i + (k + 1) by omega]⟩

/-- All numbers lie inside the segment exactly if the last one does. -/
theorem eackCalls_inside_iff (hlen : sizeofHead ≤ pbuf.getLen) (n : Nat) :
    (∀ call ∈ eackCalls pbuf.view n 0, call.Inside pbuf) ↔ sizeofHead + 4 * n ≤ pbuf.getLen := by
  constructor
  · intro h
    cases n with
    | zero => exact hlen
    | succ n =>
      obtain ⟨-, hlast, -⟩ := h _ ((mem_eackCalls (n + 1) 0).mpr ⟨n, Nat.lt_succ_self n, rfl⟩)
      omega
  · intro h call hmem
    obtain ⟨k, hk, rfl⟩ := (mem_eackCalls n 0).mp hmem
    have hin : sizeofHead + 4 * (0 + k) + 4 ≤ pbuf.getLen := by omega
    exact ⟨Nat.le_add_right _ _, hin, rd32_append_left pbuf.data pbuf.tail _ hin⟩

/-- The payload is what the segment says exactly if its header has its full size. -/
theorem dataCalls_inside_iff (pbuf : Packetbuf) :
    (∀ call ∈ dataCalls pbuf, call.Inside pbuf) ↔
      (HasData (RdpHead.decode pbuf.data) pbuf.getLen →
        sizeofHead ≤ (RdpHead.decode pbuf.data).hlen.toNat * 2) := by
  by_cases hdata : HasData (RdpHead.decode pbuf.data) pbuf.getLen
  · have hcalls : dataCalls pbuf = [.rwndRecvData
        (pbuf.rmHead ((RdpHead.decode pbuf.data).hlen.toNat * 2))
        (RdpHead.decode pbuf.data).seqnum] := if_pos hdata
    obtain ⟨hpos, hsum⟩ := hdata
    have hpayload : (pbuf.rmHead ((RdpHead.decode pbuf.data).hlen.toNat * 2)).data
        = pbuf.data.drop ((RdpHead.decode pbuf.data).hlen.toNat * 2) :=
      Packetbuf.rmHead_data (by unfold Packetbuf.getLen at hsum; omega)
    have hsize : (pbuf.rmHead ((RdpHead.decode pbuf.data).hlen.toNat * 2)).getLen
        = (RdpHead.decode pbuf.data).dlen.toNat := by
      unfold Packetbuf.getLen at hsum ⊢
      rw [hpayload, List.length_drop]
      omega
    rw [hcalls]
    constructor
    · intro h _
      rcases h _ (List.mem_singleton_self _) with hnil | ⟨hfull, -⟩
      · -- The payload has `dlen` bytes, so it is not empty.
        rw [Packetbuf.getLen, hnil, List.length_nil] at hsize
        omega
      · exact hfull
    · intro h call hmem
      rw [List.mem_singleton.mp hmem]
      exact Or.inr ⟨h ⟨hpos, hsum⟩, hpayload, hsize⟩
  · have hcalls : dataCalls pbuf = [] := if_neg hdata
    rw [hcalls]
    exact ⟨fun _ hd => absurd hd hdata, fun _ _ hmem => absurd hmem List.not_mem_nil⟩

/-- The numbers that the header length announces lie inside the segment, and the data is behind
a header of full size. -/
def HeadFits (head : RdpHead) (len : Nat) : Prop :=
  (head.has flagEak = true → sizeofHead + 4 * RdpCon.eackCount head.hlen ≤ len) ∧
    (HasData head len → sizeofHead ≤ head.hlen.toNat * 2)

instance (head : RdpHead) (len : Nat) : Decidable (HeadFits head len) := by
  unfold HeadFits
  infer_instance

theorem eackDataCalls_inside_iff (hlen : sizeofHead ≤ pbuf.getLen) :
    (∀ call ∈ eackDataCalls pbuf, call.Inside pbuf) ↔
      HeadFits (RdpHead.decode pbuf.data) pbuf.getLen := by
  have hdata := dataCalls_inside_iff pbuf
  have heacks := eackCalls_inside_iff hlen (RdpCon.eackCount (RdpHead.decode pbuf.data).hlen)
  unfold eackDataCalls HeadFits
  dsimp only
  rw [List.forall_mem_append, hdata]
  refine and_congr_left fun _ => ?_
  by_cases heak : (RdpHead.decode pbuf.data).has flagEak = true
  · rw [if_pos heak, heacks]
    exact ⟨fun h _ => h, fun h => h heak⟩
  · rw [if_neg heak]
    exact ⟨fun _ he => absurd he heak, fun _ _ hmem => absurd hmem List.not_mem_nil⟩

/-- What is read lies inside the segment exactly if the segment is not one that is decoded,
the acknowledgement already stops the program, or the header fits. -/
theorem SendReady.reads_iff (h : SendReady c) (clock : Int)
    (hlen : sizeofHead ≤ pbuf.getLen) :
    ReadsInside clock c pbuf ↔
      (Decodes c (RdpHead.decode pbuf.data) → AckReturns clock c (RdpHead.decode pbuf.data) →
        HeadFits (RdpHead.decode pbuf.data) pbuf.getLen) := by
  unfold ReadsInside
  by_cases hnul : TakesNul c pbuf
  · -- A NUL segment: no byte is left behind the header.
    have hcalls : openCalls c pbuf = [.rwndRecvData (pbuf.rmHead pbuf.getLen)
        (RdpHead.decode pbuf.data).seqnum] := if_pos hnul
    have hnone : (pbuf.rmHead pbuf.getLen).data = [] :=
      (Packetbuf.rmHead_data (Nat.le_refl _)).trans List.drop_length
    refine iff_of_true (fun call hmem => ?_) fun hdecodes => ?_
    · rw [hcalls, made] at hmem
      rcases List.mem_cons.mp hmem with rfl | hmem
      · exact Or.inl hnone
      · split at hmem <;> cases hmem
    · exact absurd (hnul.2.2.1.symm.trans hdecodes.2.2.1) (by decide)
  by_cases hdecodes : Decodes c (RdpHead.decode pbuf.data)
  swap
  · -- A segment that is refused, a reset or a SYN.
    have hcalls : openCalls c pbuf = [] := by
      unfold openCalls
      rw [if_neg hnul, if_neg hdecodes]
    rw [hcalls]
    exact iff_of_true (fun _ hmem => nomatch hmem) fun hd => absurd hd hdecodes
  rw [← eackDataCalls_inside_iff hlen, forall_prop_of_true hdecodes]
  by_cases hack : (RdpHead.decode pbuf.data).has flagAck = true
  · have hcalls : openCalls c pbuf
        = [.recvAck (RdpHead.decode pbuf.data).acknum] ++ eackDataCalls pbuf := by
      unfold openCalls
      rw [if_neg hnul, if_pos hdecodes, if_pos hack]
    cases hrun : c.recvAck clock (RdpHead.decode pbuf.data).acknum with
    | error fault =>
      -- Nothing else is handed on.
      refine iff_of_true (fun call hmem => ?_) fun hreturns => ?_
      · have hfault : (OpenCall.recvAck (RdpHead.decode pbuf.data).acknum).run clock c
            = .error fault := hrun
        rw [hcalls, List.singleton_append, made, hfault] at hmem
        rw [List.mem_singleton.mp hmem]
        trivial
      · obtain ⟨r, hok⟩ := hreturns hack
        cases hrun.symm.trans hok
    | ok r =>
      -- The calls behind the acknowledgement find the window as it leaves it.
      obtain ⟨c₁, out⟩ := r
      obtain ⟨h₁, -⟩ := h.recvAck hrun
      have hmade := made_append (eackDataCalls pbuf)
        ((runOpenCalls_singleton clock c (.recvAck (RdpHead.decode pbuf.data).acknum)).trans hrun)
      have hreturns : AckReturns clock c (RdpHead.decode pbuf.data) := fun _ => ⟨_, hrun⟩
      rw [hcalls, hmade, made_eackDataCalls h₁, List.singleton_append, List.forall_mem_cons,
        forall_prop_of_true hreturns]
      exact and_iff_right trivial
  · have hcalls : openCalls c pbuf = eackDataCalls pbuf := by
      unfold openCalls
      rw [if_neg hnul, if_pos hdecodes, if_neg hack, List.nil_append]
    have hreturns : AckReturns clock c (RdpHead.decode pbuf.data) := fun ha => absurd ha hack
    rw [hcalls, made_eackDataCalls h, forall_prop_of_true hreturns]

/-- Take a connection that any handshake opened, any calls and segments after it, and any
segment of at least 20 bytes. Every number that `in_state_open` passes to `recv_eack` is four
bytes of the segment, and every payload it passes to `rwnd_recv_data` the `dlen` bytes behind a
header of at least 20, exactly if the segment is not one whose acknowledgements and data are
read, `recv_ack` does not return for its number, or its header fits. -/
theorem openReadsInside_iff (uninit : Uninit) (c : RdpCon) (addr : RdpAddr) (isPasv : Bool)
    (iss : BitVec 32) (clock : Int) (syn : RdpSyn) (acts : List Act) {e : End}
    (hrun : run End.step (openedEnd uninit c addr isPasv iss clock syn) acts = .ok e)
    (now : Int) {pbuf : Packetbuf} (hlen : sizeofHead ≤ pbuf.getLen) :
    ReadsInside now e.con pbuf ↔
      (Decodes e.con (RdpHead.decode pbuf.data) →
        AckReturns now e.con (RdpHead.decode pbuf.data) →
        HeadFits (RdpHead.decode pbuf.data) pbuf.getLen) :=
  (openReady_of_run hrun).send.reads_iff now hlen

end

/-! ### Headers that are too short -/

/-- A segment without data for the connection of `sizedEnd`, the next in order. -/
def nextSegment (flags hlen : Byte) (dlen : BitVec 16) (rest : List Byte)
    (h : rest.length ≤ 1004) : Packetbuf :=
  .received (({ flags := flags, hlen := hlen, sport := 200, dport := 100, dlen := dlen,
                seqnum := 6 } : RdpHead).encode ++ rest) [] (by
    rw [List.length_append, RdpHead.length_encode]
    show 20 + rest.length ≤ 1024
    omega)

/-- A segment with one number behind its header. -/
theorem openReadsInside_iff_oneEack :
    ReadsInside 0 (sizedEnd 30).con
      (nextSegment (flagEak ||| flagVer) 12 0 (wr32 1001) (by decide)) :=
  (openReadsInside_iff default default ⟨1, 200, 100⟩ true 1000 0 (sizedSyn 30) [] rfl 0
    (by decide)).mpr fun _ _ => by decide

/-- A header length of 9 announces 127 numbers behind a header that is the whole segment, and
one of 0 makes the header itself the payload. -/
theorem shortHead_not_inside :
    ¬ ReadsInside 0 (sizedEnd 30).con (nextSegment (flagEak ||| flagVer) 9 0 [] (by decide)) ∧
      ¬ ReadsInside 0 (sizedEnd 30).con (nextSegment flagVer 0 20 [] (by decide)) := by
  have hready := sendReady_openedEnd default default ⟨1, 200, 100⟩ true 1000 0 (sizedSyn 30)
  constructor
  · intro h
    have hfits := (hready.reads_iff 0 (by decide)).mp h (by decide)
      fun hack => absurd hack (by decide)
    exact absurd hfits (by decide)
  · intro h
    have hfits := (hready.reads_iff 0 (by decide)).mp h (by decide)
      fun hack => absurd hack (by decide)
    exact absurd hfits (by decide)

end Libcage.Proofs.Rdp
