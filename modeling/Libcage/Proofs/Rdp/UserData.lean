import Libcage.Proofs.Rdp.RecvWindow

/-!
# `Libcage.Proofs.Rdp.UserData`: user data in and out of the windows

* `send_spec`: `rdp::send` cuts the bytes it accepts into payloads, in order, none of
  them empty and none longer than `sbuf_max - sizeof(rdp_head)`.
* `receive_spec`: the bytes `rdp::receive` returns are the front of the read queue,
  whatever the size of the buffer.
-/

set_option autoImplicit false

namespace Libcage.Proofs.Rdp

open Libcage.Lib
open Libcage.Rdp

/-- The longest payload `rdp::send` makes under the default `sbuf_max`. -/
def maxPayload : Nat := 864

/-- A payload as `rdp::send` makes it. -/
def PayloadOk (payload : List Byte) : Prop := 0 < payload.length ∧ payload.length ≤ maxPayload

section
variable {iss : BitVec 32} {marks : Nat → Prop} {una : Nat}

/-- The loop of `rdp::send` cuts the bytes it accepts into payloads. Each round fills
a slot, so the free slots bound the rounds. -/
theorem sendLoop_spec (clock : Int) (fuel : Nat) :
    ∀ {items : List (List Byte)} {nxt : Nat} {c : RdpCon} {buf : List Byte} (total : Nat)
      (out : List Emitted), SendWindow iss marks items una nxt c → c.sbufMax = sbufLimit →
      buf ≠ [] → c.swndLen - c.swndUsed < fuel →
      ∃ n payloads nxt' c' more, RdpCon.sendLoop clock fuel c buf total out
          = .ok (total + n, c', out ++ more) ∧
        payloads.flatten = buf.take n ∧ (∀ payload ∈ payloads, PayloadOk payload) ∧
        SendWindow iss marks (items ++ payloads) una nxt' c' ∧
        nxt ≤ nxt' ∧ more.length = nxt' - nxt ∧
        DataOut c.addr iss c.rcvCur (items ++ payloads) nxt' more ∧
        withoutSend c' = withoutSend c := by
  induction fuel with
  | zero => intro items nxt c buf total out _ _ _ hfuel; omega
  | succ fuel ih =>
    intro items nxt c buf total out h hmax hbuf hfuel
    have hlen : 0 < buf.length := List.length_pos_iff.mpr hbuf
    -- The size of the next payload.
    obtain ⟨size, hsize, hpos, hle, hmaxp⟩ : ∃ size : Nat,
        (if (buf.length : Int) < (c.sbufMax - BitVec.ofNat 32 sizeofHead).toInt then
          (buf.length : Int) else (c.sbufMax - BitVec.ofNat 32 sizeofHead).toInt) = size ∧
        0 < size ∧ size ≤ buf.length ∧ size ≤ maxPayload := by
      have hdmax : (c.sbufMax - BitVec.ofNat 32 sizeofHead).toInt = 864 := by rw [hmax]; decide
      rw [hdmax]
      by_cases hshort : (buf.length : Int) < 864
      · exact ⟨buf.length, if_pos hshort, hlen, Nat.le_refl _, by unfold maxPayload; omega⟩
      · exact ⟨864, if_neg hshort, by decide, by omega, by decide⟩
    have htake : (buf.take size).length = size := by
      rw [List.length_take]
      omega
    obtain ⟨pbuf, happend, hdata, hhead⟩ : ∃ pbuf,
        Packetbuf.construct.append (buf.take size) = some pbuf ∧ pbuf.data = buf.take size ∧
          sizeofHead ≤ pbuf.head := by
      have hroom : (buf.take size).length ≤ 896 := by
        rw [htake]
        exact Nat.le_trans hmaxp (by decide)
      obtain ⟨pbuf, hpbuf⟩ := Packetbuf.construct_append hroom
      obtain ⟨hhead, hdata⟩ := Packetbuf.append_eq_some hpbuf
      exact ⟨pbuf, hpbuf, hdata, by rw [hhead]; decide⟩
    rw [RdpCon.sendLoop]
    simp only [hsize, Int.toNat_natCast]
    rw [if_neg (by omega), happend]
    show ∃ n payloads nxt' c' more, (c.enqueueSwnd clock pbuf >>= _) = _ ∧ _
    rcases enqueueSwnd_spec h hhead clock with hfull | ⟨nxt₁, c₁, hrun, hle₁, hwin, hsame⟩
    · refine ⟨0, [], nxt, c, [], ?_, rfl, by simp, by rwa [List.append_nil], Nat.le_refl _,
        (Nat.sub_self _).symm, fun e he => absurd he (by simp), rfl⟩
      rw [hfull]
      rfl
    · rw [hrun, ok_bind]
      rw [hdata] at hwin
      have hfirst : DataOut c.addr iss c.rcvCur (items ++ [buf.take size]) nxt₁
          (firstSends c.addr iss c.rcvCur nxt
            (((items ++ [buf.take size]).drop nxt).take (nxt₁ - nxt))) := by
        have := dataOut_firstSends c.addr iss c.rcvCur (items ++ [buf.take size]) nxt (nxt₁ - nxt)
        rwa [Nat.add_sub_cancel' hle₁] at this
      have hcount : (firstSends c.addr iss c.rcvCur nxt
          (((items ++ [buf.take size]).drop nxt).take (nxt₁ - nxt))).length = nxt₁ - nxt := by
        rw [length_firstSends, List.length_take, List.length_drop]
        have := hwin.nxt_le
        omega
      rw [hdata]
      by_cases hend : buf.length = size
      · refine ⟨size, [buf.take size], nxt₁, c₁, _, ?_, by simp, ?_, hwin, hle₁, hcount, hfirst,
          hsame⟩
        · show (if buf.length = size then _ else _) = _
          rw [if_pos hend]
          rfl
        · intro payload hpayload
          rw [List.mem_singleton.mp hpayload, PayloadOk, htake]
          exact ⟨hpos, hmaxp⟩
      · have hrest : buf.drop size ≠ [] := fun he => by
          have := congrArg List.length he
          rw [List.length_drop, List.length_nil] at this
          omega
        have hmax₁ : c₁.sbufMax = sbufLimit := (congrArg RdpCon.sbufMax hsame :).trans hmax
        have hlen₁ : c₁.swndLen = c.swndLen := (congrArg RdpCon.swndLen hsame :)
        have haddr : c₁.addr = c.addr := (congrArg RdpCon.addr hsame :)
        have hcur : c₁.rcvCur = c.rcvCur := (congrArg RdpCon.rcvCur hsame :)
        have hfuel₁ : c₁.swndLen - c₁.swndUsed < fuel := by
          have hused₁ := hwin.used_eq
          have hused := h.used_eq
          have hfits := hwin.used_le
          rw [List.length_append, List.length_singleton] at hused₁ hfits
          have := h.una_le
          have := h.nxt_le
          omega
        obtain ⟨n, payloads, nxt', c', more, hloop, hflat, hok, hwin', hle', hcount', hdata',
          hsame'⟩ := ih (total + size) (out ++ firstSends c.addr iss c.rcvCur nxt
            (((items ++ [buf.take size]).drop nxt).take (nxt₁ - nxt))) hwin hmax₁ hrest hfuel₁
        rw [List.append_assoc, List.singleton_append] at hwin' hdata'
        refine ⟨size + n, buf.take size :: payloads, nxt', c',
          firstSends c.addr iss c.rcvCur nxt
            (((items ++ [buf.take size]).drop nxt).take (nxt₁ - nxt)) ++ more, ?_, ?_, ?_, hwin',
          by omega, ?_, ?_, hsame'.trans hsame⟩
        · show (if buf.length = size then _ else _) = _
          rw [if_neg hend, hloop, Nat.add_assoc, List.append_assoc]
        · rw [List.flatten_cons, hflat, List.take_add]
        · intro payload hpayload
          rcases List.mem_cons.mp hpayload with rfl | hpayload
          · rw [PayloadOk, htake]
            exact ⟨hpos, hmaxp⟩
          · exact hok payload hpayload
        · rw [List.length_append, hcount, hcount']
          omega
        · intro e he
          rcases List.mem_append.mp he with he | he
          · obtain ⟨j, payload, hj, hitem, heq⟩ := hfirst e he
            refine ⟨j, payload, by omega, ?_, heq⟩
            rw [← List.singleton_append, ← List.append_assoc,
              List.getElem?_append_left (List.getElem?_eq_some_iff.mp hitem).1, hitem]
          · rw [haddr, hcur] at hdata'
            exact hdata' e he

/-- `rdp::send` cuts the bytes it accepts into payloads. -/
theorem send_spec {items : List (List Byte)} {nxt : Nat} {c : RdpCon}
    (h : SendWindow iss marks items una nxt c) (hmax : c.sbufMax = sbufLimit) (clock : Int)
    (buf : List Byte) :
    ∃ total payloads nxt' c' more, c.send clock buf = .ok (total, c', more) ∧
      payloads.flatten = buf.take total.toNat ∧ (∀ payload ∈ payloads, PayloadOk payload) ∧
      SendWindow iss marks (items ++ payloads) una nxt' c' ∧
      nxt ≤ nxt' ∧ more.length = nxt' - nxt ∧
      DataOut c.addr iss c.rcvCur (items ++ payloads) nxt' more ∧
      withoutSend c' = withoutSend c := by
  -- The calls that return before the loop.
  have hnothing : ∀ total : Int, total.toNat = 0 →
      ∃ payloads nxt' c' more, (.ok (total, c, []) : Except Fault (Int × RdpCon × List Emitted))
          = .ok (total, c', more) ∧
        payloads.flatten = buf.take total.toNat ∧ (∀ payload ∈ payloads, PayloadOk payload) ∧
        SendWindow iss marks (items ++ payloads) una nxt' c' ∧
        nxt ≤ nxt' ∧ more.length = nxt' - nxt ∧
        DataOut c.addr iss c.rcvCur (items ++ payloads) nxt' more ∧
        withoutSend c' = withoutSend c := fun total htotal =>
    ⟨[], nxt, c, [], rfl, by rw [htotal]; rfl, by simp, by rwa [List.append_nil], Nat.le_refl _,
      (Nat.sub_self _).symm, fun e he => absurd he (by simp), rfl⟩
  rw [RdpCon.send]
  by_cases hstate : c.state ≠ .opened
  · rw [if_pos hstate]
    exact ⟨-1, hnothing (-1) rfl⟩
  rw [if_neg hstate]
  by_cases hempty : buf = []
  · rw [if_pos hempty]
    exact ⟨0, hnothing 0 rfl⟩
  rw [if_neg hempty]
  obtain ⟨n, payloads, nxt', c', more, hloop, hrest⟩ :=
    sendLoop_spec clock (c.swndLen - c.swndUsed + 1) 0 [] h hmax hempty (Nat.lt_succ_self _)
  refine ⟨n, payloads, nxt', c', more, ?_, hrest⟩
  rw [hloop, Nat.zero_add]
  rfl

/-- The loop of `rdp::receive` splits the read queue. -/
theorem receiveLoop_spec (len : Int) (rqueue : List Packetbuf) (dst : List Byte) :
    (RdpCon.receiveLoop len rqueue dst).1
        ++ ((RdpCon.receiveLoop len rqueue dst).2.map Packetbuf.data).flatten
      = dst ++ (rqueue.map Packetbuf.data).flatten := by
  induction rqueue generalizing dst with
  | nil => rfl
  | cons pbuf rqueue ih =>
    rw [RdpCon.receiveLoop]
    split
    · rfl
    · rw [ih, List.map_cons, List.flatten_cons, List.append_assoc]

/-- `rdp::receive` takes the bytes it returns from the front of the read queue. -/
theorem receive_spec (c : RdpCon) (len : Int) :
    (c.receive len).1 ++ queued (c.receive len).2 = queued c :=
  receiveLoop_spec len c.rqueue []

end

end Libcage.Proofs.Rdp
