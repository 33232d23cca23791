import Libcage.Proofs.Rdp.OpenConnections

/-!
# `Libcage.Proofs.Rdp.Segmentation`: how `rdp::send` cuts its bytes

`rdp::send` cuts what it is given into payloads of at most `sbuf_max - sizeof(rdp_head)`
bytes, and `sbuf_max` is the `seg_size_max` of the peer's SYN, which nothing checks. Below
20 the difference is negative and the first copy has a negative length. At 20 every payload
is empty, and the loop fills the window with empty ones.

`send_segmented_iff` says exactly when the cut is as a reader expects, for a connection that
any handshake opened and at any time. Besides the limit of the peer there is the other defect
of the window: a slot that waits may have lost its packet after `recv_eack` removed the head
(`LostSlot`, see `SendCursors`).
-/

set_option autoImplicit false

namespace Libcage.Proofs.Rdp

open Libcage.Lib
open Libcage.Rdp

/-- The window accepted these payloads, one after the other. -/
inductive Enqueued (clock : Int) : RdpCon → List (List Byte) → RdpCon → Prop
  | nil (c : RdpCon) : Enqueued clock c [] c
  | cons {c c₁ c' : RdpCon} {pbuf : Packetbuf} {out : List Emitted} {payloads : List (List Byte)}
      (hfirst : c.enqueueSwnd clock pbuf = .ok (true, c₁, out))
      (hrest : Enqueued clock c₁ payloads c') : Enqueued clock c (pbuf.data :: payloads) c'

/-- `send` returns some `t` and enqueues the first `t` bytes, cut into payloads that are
not empty and fit both the packets and the peer. -/
def Segmented (clock : Int) (c : RdpCon) (buf : List Byte) : Prop :=
  ∃ (t : Int) (payloads : List (List Byte)) (c' : RdpCon) (out : List Emitted),
    c.send clock buf = .ok (t, c', out) ∧ 0 ≤ t ∧ t ≤ buf.length ∧
      Enqueued clock c payloads c' ∧ payloads.flatten = buf.take t.toNat ∧
      ∀ payload ∈ payloads, 1 ≤ payload.length ∧
        payload.length ≤ min maxPayload (c.sbufMax.toNat - sizeofHead)

section
variable {o : Nat} {c : RdpCon} {clock : Int}

/-! ### The limit of the peer -/

/-- The longest payload, as `rdp::send` computes it. -/
theorem toInt_limit (hle : c.sbufMax.toNat ≤ 884) :
    (c.sbufMax - BitVec.ofNat 32 sizeofHead).toInt = (c.sbufMax.toNat : Int) - sizeofHead := by
  have hhead : (BitVec.ofNat 32 sizeofHead).toNat = 20 := rfl
  have hsize : (sizeofHead : Int) = 20 := rfl
  rw [BitVec.toInt_eq_toNat_cond, BitVec.toNat_sub, hhead, hsize]
  split <;> omega

/-! ### The loop -/

/-- The size of the next payload, as `rdp::send` computes it. -/
theorem sendSize_eq (hmin : sizeofHead ≤ c.sbufMax.toNat) (hmax : c.sbufMax.toNat ≤ 884) (n : Nat) :
    (if (n : Int) < (c.sbufMax - BitVec.ofNat 32 sizeofHead).toInt then (n : Int)
      else (c.sbufMax - BitVec.ofNat 32 sizeofHead).toInt)
      = (min n (c.sbufMax.toNat - sizeofHead) : Nat) := by
  rw [toInt_limit hmax]
  split <;> omega

/-- One round of the loop: the next payload goes to the window. -/
theorem sendLoop_round (hmin : sizeofHead ≤ c.sbufMax.toNat) (hmax : c.sbufMax.toNat ≤ 884)
    (clock : Int) (fuel : Nat) (buf : List Byte) (total : Nat) (out : List Emitted) {size : Nat}
    (hsize : size = min buf.length (c.sbufMax.toNat - sizeofHead)) :
    ∃ pbuf, pbuf.data = buf.take size ∧ sizeofHead ≤ pbuf.head ∧
      RdpCon.sendLoop clock (fuel + 1) c buf total out = (do
        let (done, c', out') ← c.enqueueSwnd clock pbuf
        if ¬ done then
          return (total, c', out ++ out')
        else if buf.length = size then
          return (total + size, c', out ++ out')
        else
          RdpCon.sendLoop clock fuel c' (buf.drop size) (total + size) (out ++ out')) := by
  have hsizeof : sizeofHead = 20 := rfl
  have hroom : (buf.take size).length ≤ 896 := by
    rw [List.length_take]
    omega
  obtain ⟨pbuf, hpbuf⟩ := Packetbuf.construct_append hroom
  obtain ⟨hhead, hdata⟩ := Packetbuf.append_eq_some hpbuf
  refine ⟨pbuf, hdata, by rw [hhead]; decide, ?_⟩
  rw [RdpCon.sendLoop]
  simp only [sendSize_eq hmin hmax, ← hsize, Int.toNat_natCast]
  rw [if_neg (by omega), hpbuf]
  rfl

/-- The window refuses a payload where it is full. -/
theorem enqueueSwnd_full (hfull : c.swndLen ≤ c.swndUsed) (pbuf : Packetbuf) :
    c.enqueueSwnd clock pbuf = .ok (false, c, []) := by
  rw [RdpCon.enqueueSwnd, if_pos (Or.inl hfull)]

/-- A loop that starts at a full window returns at once. -/
theorem sendLoop_full (hfull : c.swndLen ≤ c.swndUsed) (hmin : sizeofHead ≤ c.sbufMax.toNat)
    (hmax : c.sbufMax.toNat ≤ 884) (fuel : Nat) (buf : List Byte) (total : Nat)
    (out : List Emitted) :
    RdpCon.sendLoop clock (fuel + 1) c buf total out = .ok (total, c, out) := by
  obtain ⟨pbuf, -, -, hround⟩ := sendLoop_round hmin hmax clock fuel buf total out rfl
  rw [hround, enqueueSwnd_full hfull, ok_bind]
  show Except.ok (total, c, out ++ []) = _
  rw [List.append_nil]

/-- Where the peer takes some bytes, the loop cuts the buffer into payloads until the
window is full. -/
theorem sendLoop_segments (clock : Int) (fuel : Nat) :
    ∀ {o : Nat} {c : RdpCon} {buf : List Byte} (total : Nat) (out : List Emitted),
      SendCursors o c → c.state = .opened → ¬ LostSlot c → sizeofHead < c.sbufMax.toNat →
      c.sbufMax.toNat ≤ 884 → buf ≠ [] → c.swndLen - c.swndUsed < fuel →
      ∃ n payloads c' out', RdpCon.sendLoop clock fuel c buf total out = .ok (total + n, c', out') ∧
        n ≤ buf.length ∧ Enqueued clock c payloads c' ∧ payloads.flatten = buf.take n ∧
        ∀ payload ∈ payloads, 1 ≤ payload.length ∧
          payload.length ≤ min maxPayload (c.sbufMax.toNat - sizeofHead) := by
  -- By the free slots of the window.
  induction fuel with
  | zero => intro o c buf total out _ _ _ _ _ _ hfuel; omega
  | succ fuel ih =>
    intro o c buf total out h hopen hlost hmin hmax hbuf hfuel
    by_cases hfull : c.swndLen ≤ c.swndUsed
    · exact ⟨0, [], c, out, sendLoop_full hfull (Nat.le_of_lt hmin) hmax fuel buf total out,
        Nat.zero_le _, .nil c, rfl, fun _ hmem => nomatch hmem⟩
    have hlen : 0 < buf.length := List.length_pos_iff.mpr hbuf
    have hsizeof : sizeofHead = 20 := rfl
    obtain ⟨size, hsize⟩ : ∃ size, size = min buf.length (c.sbufMax.toNat - sizeofHead) := ⟨_, rfl⟩
    obtain ⟨pbuf, hdata, hhead, hround⟩ :=
      sendLoop_round (Nat.le_of_lt hmin) hmax clock fuel buf total out hsize
    have htake : (buf.take size).length = size := by
      rw [List.length_take]
      omega
    have hpayload : 1 ≤ (buf.take size).length ∧
        (buf.take size).length ≤ min maxPayload (c.sbufMax.toNat - sizeofHead) := by
      unfold maxPayload
      omega
    rcases enqueueSwnd_cursors h hopen (by omega) hhead clock with
      ⟨o', c₁, out₁, hrun, hcursors, hused, hsame, -, hlost₁⟩ | ⟨-, hbad⟩
    · rw [hround, hrun, ok_bind]
      by_cases hend : buf.length = size
      · -- The rest of the buffer is this payload.
        refine ⟨size, [pbuf.data], c₁, out ++ out₁, ?_, by omega, .cons hrun (.nil c₁), ?_, ?_⟩
        · show (if buf.length = size then _ else _) = _
          rw [if_pos hend]
          rfl
        · rw [hdata, List.flatten_singleton]
        · intro payload hmem
          rw [List.mem_singleton.mp hmem, hdata]
          exact hpayload
      · -- The record keeps its limits, so the hypothesis is about the bytes that are left.
        have hrest : buf.drop size ≠ [] := fun he => by
          have := congrArg List.length he
          rw [List.length_drop, List.length_nil] at this
          omega
        have hmax₁ : c₁.sbufMax = c.sbufMax := (congrArg RdpCon.sbufMax hsame :)
        have hstate₁ : c₁.state = c.state := (congrArg RdpCon.state hsame :)
        have hlen₁ : c₁.swndLen = c.swndLen := (congrArg RdpCon.swndLen hsame :)
        obtain ⟨n, payloads, c', out', hloop, hn, henq, hflat, hok⟩ :=
          ih (total + size) (out ++ out₁) hcursors (hstate₁.trans hopen) hlost₁
            (by rw [hmax₁]; exact hmin) (by rw [hmax₁]; exact hmax) hrest (by omega)
        rw [List.length_drop] at hn
        rw [hmax₁] at hok
        refine ⟨size + n, pbuf.data :: payloads, c', out', ?_, by omega, .cons hrun henq, ?_, ?_⟩
        · show (if buf.length = size then _ else _) = _
          rw [if_neg hend, hloop, Nat.add_assoc]
        · rw [List.flatten_cons, hflat, hdata, List.take_add]
        · intro payload hmem
          rcases List.mem_cons.mp hmem with rfl | hmem
          · rw [hdata]
            exact hpayload
          · exact hok payload hmem
    · exact absurd hbad hlost

/-- Where the peer takes headers only, the loop fills the window with empty payloads. -/
theorem sendLoop_empty (fuel : Nat) :
    ∀ {o : Nat} {c : RdpCon} {buf : List Byte} {total t : Nat} {out out' : List Emitted}
      {c' : RdpCon}, SendCursors o c → c.state = .opened → c.sbufMax.toNat = sizeofHead →
      buf ≠ [] → RdpCon.sendLoop clock fuel c buf total out = .ok (t, c', out') →
      t = total ∧ c.swndUsed ≤ c'.swndUsed ∧
        (c.swndUsed < c.swndLen → c.swndUsed < c'.swndUsed) := by
  induction fuel with
  | zero => intro o c buf total t out out' c' _ _ _ _ hrun; cases hrun
  | succ fuel ih =>
    intro o c buf total t out out' c' h hopen hlimit hbuf hrun
    have hsizeof : sizeofHead = 20 := rfl
    have hlen : 0 < buf.length := List.length_pos_iff.mpr hbuf
    by_cases hfull : c.swndLen ≤ c.swndUsed
    · rw [sendLoop_full hfull (by omega) (by omega)] at hrun
      obtain ⟨rfl, rfl, -⟩ : total = t ∧ c = c' ∧ out = out' := by simpa using hrun
      exact ⟨rfl, Nat.le_refl _, fun hlt => by omega⟩
    obtain ⟨pbuf, -, hhead, hround⟩ := sendLoop_round (by omega) (by omega) clock fuel buf total out
      (show 0 = min buf.length (c.sbufMax.toNat - sizeofHead) by omega)
    rw [hround] at hrun
    rcases enqueueSwnd_cursors h hopen (by omega) hhead clock with
      ⟨o', c₁, out₁, henq, hcursors, hused, hsame, -⟩ | ⟨hfault, -⟩
    · rw [henq, ok_bind] at hrun
      -- No byte was taken from the buffer.
      have hrun' : RdpCon.sendLoop clock fuel c₁ buf total (out ++ out₁) = .ok (t, c', out') := by
        rw [← hrun]
        show _ = (if buf.length = 0 then _ else _)
        rw [if_neg (by omega)]
        rfl
      obtain ⟨ht, hle, -⟩ := ih hcursors ((congrArg RdpCon.state hsame :).trans hopen)
        ((congrArg (·.sbufMax.toNat) hsame :).trans hlimit) hbuf hrun'
      exact ⟨ht, by omega, fun _ => by omega⟩
    · rw [hfault] at hrun
      cases hrun

/-! ### When the cut is right -/

/-- `send` on an open record runs its loop. -/
theorem send_eq (hopen : c.state = .opened) {buf : List Byte} (hbuf : buf ≠ []) :
    c.send clock buf = do
      let (total, c', out) ← RdpCon.sendLoop clock (c.swndLen - c.swndUsed + 1) c buf 0 []
      return ((total : Int), c', out) := by
  rw [RdpCon.send, if_neg (by rw [hopen]; simp), if_neg hbuf]

/-- A window that takes nothing cuts nothing. -/
theorem segmented_full (hopen : c.state = .opened) (hfull : c.swndLen ≤ c.swndUsed)
    (hmin : sizeofHead ≤ c.sbufMax.toNat) (hmax : c.sbufMax.toNat ≤ 884) {buf : List Byte}
    (hbuf : buf ≠ []) : Segmented clock c buf := by
  refine ⟨0, [], c, [], ?_, Int.le_refl 0, by omega, .nil c, rfl, fun _ hmem => nomatch hmem⟩
  rw [send_eq hopen hbuf, sendLoop_full hfull hmin hmax]
  rfl

/-- A copy of negative length. -/
theorem not_segmented_of_lt (hopen : c.state = .opened) (hlt : c.sbufMax.toNat < sizeofHead)
    {buf : List Byte} (hbuf : buf ≠ []) : ¬ Segmented clock c buf := by
  have hsizeof : sizeofHead = 20 := rfl
  rintro ⟨t, payloads, c', out, hrun, -⟩
  have hneg : (c.sbufMax - BitVec.ofNat 32 sizeofHead).toInt < 0 := by
    rw [toInt_limit (by omega)]
    omega
  have hfault : RdpCon.sendLoop clock (c.swndLen - c.swndUsed + 1) c buf 0 []
      = .error .badCopy := by
    rw [RdpCon.sendLoop]
    simp only [if_neg (show ¬ (buf.length : Int)
      < (c.sbufMax - BitVec.ofNat 32 sizeofHead).toInt by omega), if_pos hneg]
    rfl
  rw [send_eq hopen hbuf, hfault] at hrun
  cases hrun

/-- A window with a free slot gets an empty payload. -/
theorem not_segmented_of_eq (h : SendCursors o c) (hopen : c.state = .opened)
    (hlimit : c.sbufMax.toNat = sizeofHead) (hroom : c.swndUsed < c.swndLen) {buf : List Byte}
    (hbuf : buf ≠ []) : ¬ Segmented clock c buf := by
  rintro ⟨t, payloads, c', out, hrun, -, -, henq, hflat, hok⟩
  rw [send_eq hopen hbuf] at hrun
  obtain ⟨⟨total, c₁, out₁⟩, hloop, hret⟩ := bind_eq_ok hrun
  obtain ⟨rfl, rfl, -⟩ : (total : Int) = t ∧ c₁ = c' ∧ out₁ = out := by
    simpa [pure, Except.pure] using hret
  obtain ⟨rfl, -, hmore⟩ := sendLoop_empty _ h hopen hlimit hbuf hloop
  have hused := hmore hroom
  cases henq with
  | nil => omega
  | cons hfirst hrest =>
    -- The bytes that count are none, so the first payload is empty.
    have hpos := (hok _ (List.mem_cons_self ..)).1
    rw [List.flatten_cons] at hflat
    have hnil := (List.append_eq_nil_iff.mp (hflat.trans List.take_zero)).1
    rw [hnil] at hpos
    cases hpos

/-- A slot that lost its packet stops the program at the first payload. -/
theorem not_segmented_of_lost (h : SendCursors o c) (hopen : c.state = .opened)
    (hlost : LostSlot c) (hmin : sizeofHead ≤ c.sbufMax.toNat) (hmax : c.sbufMax.toNat ≤ 884)
    {buf : List Byte} (hbuf : buf ≠ []) : ¬ Segmented clock c buf := by
  rintro ⟨t, payloads, c', out, hrun, -⟩
  obtain ⟨pbuf, -, hhead, hround⟩ :=
    sendLoop_round hmin hmax clock (c.swndLen - c.swndUsed) buf 0 [] rfl
  rcases enqueueSwnd_cursors h hopen hlost.1 hhead clock with
    ⟨_, _, _, _, _, _, _, hnot, _⟩ | ⟨hfault, -⟩
  · exact hnot hlost
  · rw [send_eq hopen hbuf, hround, hfault] at hrun
    cases hrun

/-- What the cursors and the limit of the peer say about the cut. -/
theorem SendCursors.segmented_iff (h : SendCursors o c) (hopen : c.state = .opened)
    (hmax : c.sbufMax.toNat ≤ 884) {buf : List Byte} (hbuf : buf ≠ []) :
    Segmented clock c buf ↔
      (sizeofHead < c.sbufMax.toNat ∨ c.sbufMax.toNat = sizeofHead ∧ c.swndLen ≤ c.swndUsed) ∧
        ¬ LostSlot c := by
  constructor
  · intro hseg
    have hmin : sizeofHead ≤ c.sbufMax.toNat := by
      by_contra hlt
      exact not_segmented_of_lt hopen (by omega) hbuf hseg
    refine ⟨?_, fun hlost => not_segmented_of_lost h hopen hlost hmin hmax hbuf hseg⟩
    by_contra hnot
    exact not_segmented_of_eq h hopen (by omega) (by omega) hbuf hseg
  · rintro ⟨hlimit, hlost⟩
    rcases hlimit with hlt | ⟨hlimit, hfull⟩
    · obtain ⟨n, payloads, c', out, hloop, hn, henq, hflat, hok⟩ := sendLoop_segments
        clock _ 0 [] h hopen hlost hlt hmax hbuf (Nat.lt_succ_self _)
      refine ⟨n, payloads, c', out, ?_, Int.natCast_nonneg n, by omega, henq, hflat, hok⟩
      rw [send_eq hopen hbuf, hloop, Nat.zero_add]
      rfl
    · exact segmented_full hopen hfull (by omega) hmax hbuf

/-- Take a connection that any handshake opened, with any limits of the peer, and any calls
of its user and of the timer and any segments after it. `rdp::send` cuts a buffer as a reader
expects exactly if the peer takes more than a header, or a header where the window is full, and
no slot that waits has lost its packet. -/
theorem send_segmented_iff (uninit : Uninit) (c : RdpCon) (addr : RdpAddr) (isPasv : Bool)
    (iss : BitVec 32) (clock : Int) (syn : RdpSyn) (acts : List Act) {e : End}
    (hrun : run End.step (openedEnd uninit c addr isPasv iss clock syn) acts = .ok e)
    (hopen : e.con.state = .opened) (now : Int) {buf : List Byte} (hbuf : buf ≠ []) :
    Segmented now e.con buf ↔
      (sizeofHead < syn.segSizeMax.toNat ∨
        syn.segSizeMax.toNat = sizeofHead ∧ e.con.swndLen ≤ e.con.swndUsed) ∧
      ¬ LostSlot e.con := by
  have hready := openReady_of_run hrun
  have hlimit : e.con.sbufMax.toNat = min syn.segSizeMax.toNat 884 := by
    rw [hready.limit, toNat_peerLimit]
  have hsizeof : sizeofHead = 20 := rfl
  have hmore : sizeofHead < e.con.sbufMax.toNat ↔ sizeofHead < syn.segSizeMax.toNat := by omega
  have hsame : e.con.sbufMax.toNat = sizeofHead ↔ syn.segSizeMax.toNat = sizeofHead := by omega
  rw [← hmore, ← hsame]
  rcases hready.send with ⟨o, hcursors⟩ | hnone
  · exact hcursors.segmented_iff hopen (by omega) hbuf
  · -- A window without slots is always full.
    have hlen := hnone.len
    have hused := hnone.used
    have hlost : ¬ LostSlot e.con := fun hlost => by
      have := hlost.1
      omega
    constructor
    · intro hseg
      refine ⟨?_, hlost⟩
      by_contra hnot
      exact not_segmented_of_lt hopen (by omega) hbuf hseg
    · rintro ⟨hmin, -⟩
      exact segmented_full hopen (by omega) (by omega) (by omega) hbuf

end

/-! ### A limit below the header -/

/-- A SYN that offers two segments of the given size. -/
def sizedSyn (segSizeMax : BitVec 16) : RdpSyn where
  head := { flags := flagSyn ||| flagVer, hlen := 12, sport := 200, dport := 100, seqnum := 5 }
  outSegsMax := 2
  segSizeMax := segSizeMax

/-- A connection that a handshake with this SYN opened. -/
def sizedEnd (segSizeMax : BitVec 16) : End :=
  openedEnd default default ⟨1, 200, 100⟩ true 1000 0 (sizedSyn segSizeMax)

/-- Twenty-five bytes to a peer that takes ten at once. -/
theorem send_segmented_iff_ten : Segmented 0 (sizedEnd 30).con (List.replicate 25 7) := by
  refine (send_segmented_iff default default ⟨1, 200, 100⟩ true 1000 0 (sizedSyn 30) [] rfl rfl 0
    (by decide)).mpr ⟨by decide, ?_⟩
  rintro ⟨-, k, hk, -⟩
  have hwalk : k + 1 < 1 := hk
  omega

/-- A limit of zero makes the first copy negative, and a limit of a header fills the window
with empty payloads. -/
theorem shortLimit_not_segmented :
    ¬ Segmented 0 (sizedEnd 0).con [7] ∧ ¬ Segmented 0 (sizedEnd 20).con [7] := by
  refine ⟨not_segmented_of_lt rfl (by decide) (by decide), ?_⟩
  rcases sendReady_openedEnd default default ⟨1, 200, 100⟩ true 1000 0 (sizedSyn 20) with
    ⟨o, hcursors⟩ | hnone
  · exact not_segmented_of_eq hcursors rfl (by decide) (by decide) (by decide)
  · exact absurd hnone.len (by decide)

end Libcage.Proofs.Rdp
