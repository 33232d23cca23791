import Libcage.Proofs.Rdp.SendWindow

/-!
# `Libcage.Proofs.Rdp.RecvWindow`: the receive window holds the payloads that arrived early

The payloads of the peer are numbered from `irs + 1` on. `arrived` maps the index of
a payload to what came under its number, and `got` counts the payloads that went to
the read queue. `RecvWindow` says that the ring `m_rwnd` is `arrived` behind `got`:
slot `k` behind the head is used exactly where payload `got + k` arrived, and it
holds that payload under its number. The payload with index `got` has not arrived.

* `rwndRecvData_spec`: a payload inside the window joins `arrived`, and what is now
  complete goes to the read queue, in order;
* `delayedAck_spec`: the acknowledgement carries `rcv_cur`, and the numbers it adds
  are those of payloads that arrived behind `got`. `Marked` payloads are not among
  them (`delayedAck_marks`), and keep their marks in the window.

Both return a result for every number. The scanning loop of `delayed_ack` ends as
`m_rwnd_used` is the number of used slots.
-/

set_option autoImplicit false

namespace Libcage.Proofs.Rdp

open Libcage.Lib
open Libcage.Rdp

/-! ### The view -/

/-- The slot of the payload with index `j`. -/
def RecvSlot (irs : BitVec 32) (j : Nat) (payload : Option (List Byte)) (w : Rwnd) : Prop :=
  match payload with
  | none => w.isUsed = false
  | some payload =>
      w.isUsed = true ∧ w.seqnum = num irs (j + 1) ∧
        ∃ pbuf, w.pbuf = some pbuf ∧ pbuf.data = payload

/-- How many payloads arrived, out of `n` from index `j` on. -/
def arrivals (arrived : Nat → Option (List Byte)) (j n : Nat) : Nat :=
  (List.range' j n).countP fun i => (arrived i).isSome

/-- The ring and its cursors hold the payloads that arrived behind `got`. -/
structure RecvRing (irs : BitVec 32) (got : Nat) (arrived : Nat → Option (List Byte))
    (c : RdpCon) : Prop where
  rcvCur : c.rcvCur = num irs got
  len_lt : c.rwndLen < 2 ^ 32
  length_eq : c.rwnd.length = c.rwndLen
  head_lt : c.rwndHead < c.rwndLen
  used_eq : c.rwndUsed = arrivals arrived got c.rwndLen
  beyond : ∀ j, got + c.rwndLen ≤ j → arrived j = none
  slot : ∀ k, k < c.rwndLen →
    ∃ w, Ring.entry c.rwnd c.rwndHead k = some w ∧ RecvSlot irs (got + k) (arrived (got + k)) w

/-- The receive window between two calls: the next payload has not arrived. -/
structure RecvWindow (irs : BitVec 32) (got : Nat) (arrived : Nat → Option (List Byte))
    (c : RdpCon) : Prop extends RecvRing irs got arrived c where
  front : arrived got = none

/-- The payload with index `j` is in the window, and its number went out alone. -/
def Marked (got : Nat) (c : RdpCon) (j : Nat) : Prop :=
  got ≤ j ∧ j < got + c.rwndLen ∧ ∃ w, Ring.entry c.rwnd c.rwndHead (j - got) = some w ∧
    w.isUsed = true ∧ w.isEacked = true

/-- The bytes in the read queue. -/
def queued (c : RdpCon) : List Byte := (c.rqueue.map Packetbuf.data).flatten

/-- The bytes of the payloads from index `j` to before `k`. -/
def bytesBetween (arrived : Nat → Option (List Byte)) (j k : Nat) : List Byte :=
  ((List.range' j (k - j)).map fun i => (arrived i).getD []).flatten

/-- The record without the receive window. Two records that agree here differ in
the receive window only. -/
def withoutRecv (c : RdpCon) : RdpCon :=
  { c with rcvCur := 0, rcvAck := 0, ackedTime := 0, rqueue := [], rwnd := [], rwndHead := 0,
           rwndUsed := 0 }

/-! ### Counting arrivals -/

/-- The first payload counts by itself. -/
theorem arrivals_succ (arrived : Nat → Option (List Byte)) (j n : Nat) :
    arrivals arrived j (n + 1)
      = arrivals arrived (j + 1) n + if (arrived j).isSome then 1 else 0 := by
  rw [arrivals, List.range'_succ, List.countP_cons]
  rfl

/-- The last payload counts by itself. -/
theorem arrivals_concat (arrived : Nat → Option (List Byte)) (j n : Nat) :
    arrivals arrived j (n + 1)
      = arrivals arrived j n + if (arrived (j + n)).isSome then 1 else 0 := by
  rw [arrivals, List.range'_1_concat, List.countP_append, List.countP_singleton]
  rfl

/-- At most all of them arrived. -/
theorem arrivals_le (arrived : Nat → Option (List Byte)) (j n : Nat) :
    arrivals arrived j n ≤ n := by
  have h := List.countP_le_length (p := fun i => (arrived i).isSome) (l := List.range' j n)
  rwa [List.length_range'] at h

/-- A payload that is new counts once more. -/
theorem arrivals_update {arrived : Nat → Option (List Byte)} {i : Nat} (hnew : arrived i = none)
    (payload : List Byte) (n : Nat) :
    ∀ j, arrivals (Function.update arrived i (some payload)) j n
      = arrivals arrived j n + if j ≤ i ∧ i < j + n then 1 else 0 := by
  induction n with
  | zero =>
    intro j
    have hout : ¬ (j ≤ i ∧ i < j + 0) := by omega
    rw [if_neg hout]
    rfl
  | succ n ih =>
    intro j
    rw [arrivals_succ, arrivals_succ, ih (j + 1)]
    by_cases hj : j = i
    · subst hj
      have hbehind : ¬ (j + 1 ≤ j ∧ j < j + 1 + n) := by omega
      have hhere : j ≤ j ∧ j < j + (n + 1) := by omega
      rw [Function.update_self, hnew, if_neg hbehind, if_pos hhere]
      rfl
    · have hiff : (j + 1 ≤ i ∧ i < j + 1 + n) ↔ (j ≤ i ∧ i < j + (n + 1)) := by omega
      rw [Function.update_of_ne hj, if_congr hiff rfl rfl, Nat.add_right_comm]

section
variable {irs : BitVec 32} {arrived : Nat → Option (List Byte)} {got : Nat} {c : RdpCon}

namespace RecvRing

theorem len_pos (h : RecvRing irs got arrived c) : 0 < c.rwndLen := by
  have := h.head_lt
  omega

/-- `m_rwnd[i]` at the slot of an entry. -/
theorem rwndAt_of_entry (h : RecvRing irs got arrived c) {k : Nat} {w : Rwnd}
    (hw : Ring.entry c.rwnd c.rwndHead k = some w) :
    c.rwndAt (Ring.pos c.rwndHead c.rwndLen k) = .ok w := by
  rw [Ring.entry, h.length_eq] at hw
  unfold RdpCon.rwndAt
  rw [hw]

/-- `m_rwnd[m_rwnd_head]`. -/
theorem rwndAt_head (h : RecvRing irs got arrived c) :
    ∃ w, c.rwndAt c.rwndHead = .ok w ∧ Ring.entry c.rwnd c.rwndHead 0 = some w ∧
      RecvSlot irs got (arrived got) w := by
  obtain ⟨w, hw, hok⟩ := h.slot 0 h.len_pos
  have hat := h.rwndAt_of_entry hw
  rw [Ring.pos_zero h.head_lt] at hat
  exact ⟨w, hat, hw, hok⟩

end RecvRing

/-! ### Removing the head -/

/-- Without its head the window starts one slot further on. -/
theorem RecvRing.entry_pop (h : RecvRing irs got arrived c) (w : Rwnd) {k : Nat}
    (hk : k + 1 < c.rwndLen) :
    Ring.entry (c.rwnd.set c.rwndHead w) (Ring.pos c.rwndHead c.rwndLen 1) k
      = Ring.entry c.rwnd c.rwndHead (k + 1) := by
  have hpos : 0 < c.rwnd.length := by
    rw [h.length_eq]
    exact h.len_pos
  have hset : (c.rwnd.set c.rwndHead w).length = c.rwnd.length := List.length_set
  have hhead : c.rwndHead = Ring.pos c.rwndHead c.rwnd.length 0 := by
    rw [Ring.pos_zero (by rw [h.length_eq]; exact h.head_lt)]
  rw [← h.length_eq, ← hset, Ring.entry_pos, Nat.add_comm 1 k]
  conv_lhs => rw [show c.rwnd.set c.rwndHead = c.rwnd.set
    (Ring.pos c.rwndHead c.rwnd.length 0) from congrArg _ hhead]
  rw [Ring.entry_set_ne (by rw [h.length_eq]; omega) hpos (by omega)]

/-- The loop body of the removal takes the first payload off the ring. -/
theorem RecvRing.pop (h : RecvRing irs got arrived c) {payload : List Byte}
    (harrived : arrived got = some payload) {w : Rwnd} (rqueue : List Packetbuf) :
    RecvRing irs (got + 1) arrived
      { c with
        rcvCur := c.rcvCur + 1
        rqueue := rqueue
        rwnd := c.rwnd.set c.rwndHead { w with pbuf := none, isUsed := false, isEacked := false }
        rwndUsed := c.rwndUsed - 1
        rwndHead := Ring.pos c.rwndHead c.rwndLen 1 } := by
  have hlast : arrived (got + c.rwndLen) = none := h.beyond _ (Nat.le_refl _)
  refine ⟨?_, h.len_lt, ?_, Ring.pos_lt _ _ h.len_pos, ?_, fun j hj => h.beyond j ?_,
    fun k hk => ?_⟩
  · show c.rcvCur + 1 = num irs (got + 1)
    rw [h.rcvCur, num_succ]
  · show (c.rwnd.set _ _).length = c.rwndLen
    rw [List.length_set, h.length_eq]
  · -- The window has one arrival less: the head leaves it, and the slot that enters it is empty.
    show c.rwndUsed - 1 = arrivals arrived (got + 1) c.rwndLen
    obtain ⟨n, hn⟩ := Nat.exists_eq_succ_of_ne_zero (Nat.ne_of_gt h.len_pos)
    rw [h.used_eq, hn, arrivals_succ, arrivals_concat, harrived,
      show got + 1 + n = got + c.rwndLen by omega, hlast]
    rfl
  · have : got + 1 + c.rwndLen ≤ j := hj
    omega
  · have hk : k < c.rwndLen := hk
    show ∃ w', Ring.entry (c.rwnd.set c.rwndHead _) (Ring.pos c.rwndHead c.rwndLen 1) k
      = some w' ∧ _
    by_cases hlastk : k + 1 = c.rwndLen
    · -- The slot just cleared comes last.
      have hset : (c.rwnd.set c.rwndHead
          { w with pbuf := none, isUsed := false, isEacked := false }).length = c.rwnd.length :=
        List.length_set
      refine ⟨{ w with pbuf := none, isUsed := false, isEacked := false }, ?_, ?_⟩
      · rw [← h.length_eq, ← hset, Ring.entry_pos,
          Ring.entry, List.length_set, h.length_eq, Nat.add_comm 1 k, hlastk,
          Ring.pos_len h.head_lt, List.getElem?_set_self (by rw [h.length_eq]; exact h.head_lt)]
      · rw [show got + 1 + k = got + c.rwndLen by omega, hlast]
        rfl
    · -- Every other slot is the next one of the window before.
      obtain ⟨w', hw', hok⟩ := h.slot (k + 1) (by omega)
      refine ⟨w', ?_, by rw [show got + 1 + k = got + (k + 1) by omega]; exact hok⟩
      rw [h.entry_pop _ (by omega), hw']

/-- Behind the head the marks stay. -/
theorem RecvRing.pop_marked (h : RecvRing irs got arrived c) {j : Nat} (hj : got + 1 ≤ j)
    (hmarked : Marked got c j) {w : Rwnd} {cur : BitVec 32} {rqueue : List Packetbuf}
    {used : Nat} :
    Marked (got + 1)
      { c with
        rcvCur := cur
        rqueue := rqueue
        rwnd := c.rwnd.set c.rwndHead w
        rwndUsed := used
        rwndHead := Ring.pos c.rwndHead c.rwndLen 1 } j := by
  obtain ⟨-, hlt, w', hw', hflags⟩ := hmarked
  refine ⟨hj, ?_, w', ?_, hflags⟩
  · show j < got + 1 + c.rwndLen
    omega
  · show Ring.entry (c.rwnd.set c.rwndHead w) (Ring.pos c.rwndHead c.rwndLen 1) (j - (got + 1)) = _
    rw [h.entry_pop w (by omega), show j - (got + 1) + 1 = j - got by omega, hw']

/-- The bytes of one more payload. -/
theorem bytesBetween_succ {arrived : Nat → Option (List Byte)} {j k : Nat} {payload : List Byte}
    (hj : arrived j = some payload) (hlt : j < k) :
    bytesBetween arrived j k = payload ++ bytesBetween arrived (j + 1) k := by
  obtain ⟨n, rfl⟩ : ∃ n, k = j + 1 + n := Nat.exists_eq_add_of_le hlt
  rw [bytesBetween, bytesBetween, show j + 1 + n - j = n + 1 by omega, Nat.add_sub_cancel_left,
    List.range'_succ, List.map_cons, List.flatten_cons, hj]
  rfl

/-- The loop that removes the head moves the payloads that are complete to the read
queue, in order. -/
theorem rwndPopLoop_spec (fuel : Nat) :
    ∀ {got : Nat} {c : RdpCon}, RecvRing irs got arrived c → c.rwndUsed < fuel →
      ∃ got' c', RdpCon.rwndPopLoop fuel c = .ok c' ∧ got ≤ got' ∧
        (∀ i, got ≤ i → i < got' → arrived i ≠ none) ∧ RecvWindow irs got' arrived c' ∧
        queued c' = queued c ++ bytesBetween arrived got got' ∧
        withoutRecv c' = withoutRecv c ∧ ∀ j, got' ≤ j → Marked got c j → Marked got' c' j := by
  -- Each round takes the head out of a window whose arrivals are fewer than the fuel.
  induction fuel with
  | zero => intro got c _ hfuel; omega
  | succ fuel ih =>
    intro got c h hfuel
    obtain ⟨w, hat, -, hok⟩ := h.rwndAt_head
    rw [RdpCon.rwndPopLoop, hat, ok_bind]
    cases harrived : arrived got with
    | none =>
      rw [harrived] at hok
      have hfree : w.isUsed = false := hok
      refine ⟨got, c, by rw [hfree]; rfl, Nat.le_refl _, fun i hle hlt => ?_, ⟨h, harrived⟩, ?_,
        rfl, fun _ _ hmarked => hmarked⟩
      · omega
      · rw [bytesBetween, Nat.sub_self]
        exact (List.append_nil _).symm
    | some payload =>
      rw [harrived] at hok
      obtain ⟨hused, -, pbuf, hpbuf, hdata⟩ := hok
      let rqueue := if pbuf.getLen > 0 then c.rqueue ++ [pbuf] else c.rqueue
      obtain ⟨got', c', hloop, hle, hall, hwin, hqueue, hsame, hmarks⟩ :=
        ih (h.pop harrived (w := w) rqueue) (by
          have hcount : 0 < c.rwndUsed := by
            obtain ⟨n, hn⟩ := Nat.exists_eq_succ_of_ne_zero (Nat.ne_of_gt h.len_pos)
            rw [h.used_eq, hn, arrivals_succ, harrived]
            simp
          show c.rwndUsed - 1 < fuel
          omega)
      refine ⟨got', c', ?_, by omega, fun i hi hlt => ?_, hwin, ?_, hsame,
        fun j hj hmarked => hmarks j hj (h.pop_marked (by omega) hmarked)⟩
      · rw [if_pos hused, hpbuf]
        show (wrap (c.rwndHead + 1) c.rwndLen >>= _) = _
        have hnext : wrap (c.rwndHead + 1) c.rwndLen = .ok (Ring.pos c.rwndHead c.rwndLen 1) :=
          wrap_eq h.len_pos
        rw [hnext, ok_bind]
        exact hloop
      · by_cases hi' : i = got
        · rw [hi', harrived]
          exact Option.some_ne_none _
        · exact hall i (by omega) hlt
      · rw [hqueue, bytesBetween_succ harrived (by omega), ← List.append_assoc]
        congr 1
        show (rqueue.map Packetbuf.data).flatten = (c.rqueue.map Packetbuf.data).flatten ++ payload
        -- An empty payload is not queued, and adds no bytes.
        by_cases hlen : pbuf.getLen > 0
        · rw [show rqueue = c.rqueue ++ [pbuf] from if_pos hlen]
          simp [hdata]
        · rw [show rqueue = c.rqueue from if_neg hlen]
          have hnil : payload = [] := by
            rw [← hdata]
            exact List.eq_nil_of_length_eq_zero (Nat.eq_zero_of_not_pos hlen)
          rw [hnil, List.append_nil]

/-! ### Delayed acknowledgements -/

/-- The slots after slot `k` got its flag. -/
theorem RecvRing.entry_setEacked (h : RecvRing irs got arrived c) {k m : Nat} {w w' : Rwnd}
    (hk : k < c.rwndLen) (hm : m < c.rwndLen) (hw : Ring.entry c.rwnd c.rwndHead k = some w)
    (hw' : Ring.entry c.rwnd c.rwndHead m = some w') :
    Ring.entry (c.rwnd.set (Ring.pos c.rwndHead c.rwndLen k) { w with isEacked := true })
        c.rwndHead m
      = some (if m = k then { w' with isEacked := true } else w') := by
  rw [← h.length_eq]
  by_cases hmk : m = k
  · subst hmk
    obtain rfl : w = w' := Option.some.inj (hw.symm.trans hw')
    rw [if_pos rfl, Ring.entry_set_self _ _ (by rw [h.length_eq]; exact h.len_pos) _]
  · rw [if_neg hmk, Ring.entry_set_ne (by rwa [h.length_eq]) (by rwa [h.length_eq]) hmk, hw']

/-- A flag of a slot that the view does not show. -/
theorem RecvWindow.setEacked (h : RecvWindow irs got arrived c) {k : Nat} {w : Rwnd}
    (hk : k < c.rwndLen) (hw : Ring.entry c.rwnd c.rwndHead k = some w) :
    RecvWindow irs got arrived
      { c with
        rwnd := c.rwnd.set (Ring.pos c.rwndHead c.rwndLen k) { w with isEacked := true } } := by
  refine ⟨{ h.toRecvRing with
    length_eq := (List.length_set ..).trans h.length_eq
    slot := fun m hm => ?_ }, h.front⟩
  obtain ⟨w', hw', hok⟩ := h.slot m hm
  refine ⟨_, h.entry_setEacked hk hm hw hw', ?_⟩
  unfold RecvSlot at hok ⊢
  by_cases hmk : m = k
  · rw [if_pos hmk]
    exact hok
  · rw [if_neg hmk]
    exact hok

/-- A used slot that gets the flag is marked, and no mark is lost. -/
theorem RecvRing.marked_setEacked (h : RecvRing irs got arrived c) {k j : Nat} {w : Rwnd}
    (hk : k < c.rwndLen) (hw : Ring.entry c.rwnd c.rwndHead k = some w) (hused : w.isUsed = true)
    (hj : j = got + k ∨ Marked got c j) :
    Marked got
      { c with
        rwnd := c.rwnd.set (Ring.pos c.rwndHead c.rwndLen k) { w with isEacked := true } } j := by
  by_cases hjk : j = got + k
  · subst hjk
    refine ⟨Nat.le_add_right .., Nat.add_lt_add_left hk got, { w with isEacked := true }, ?_, hused,
      rfl⟩
    rw [Nat.add_sub_cancel_left]
    have hentry := h.entry_setEacked hk hk hw hw
    rwa [if_pos rfl] at hentry
  · obtain ⟨hle, hlt, w', hw', hflags⟩ := hj.resolve_left hjk
    have hentry := h.entry_setEacked hk (by omega) hw hw'
    rw [if_neg (by omega)] at hentry
    exact ⟨hle, hlt, w', hentry, hflags⟩

/-- What a scan from the slot of the payload `first` on does: it finds the payloads `js` in
ascending order, all early and without a mark, and marks them. -/
structure Scanned (got first : Nat) (arrived : Nat → Option (List Byte)) (c c' : RdpCon)
    (js : List Nat) : Prop where
  ascending : js.Pairwise (· < ·)
  behind : ∀ j ∈ js, first ≤ j
  early : ∀ j ∈ js, got < j ∧ arrived j ≠ none
  fresh : ∀ j ∈ js, ¬ Marked got c j
  marked : ∀ j ∈ js, Marked got c' j
  kept : ∀ j, Marked got c j → Marked got c' j

/-- A scan that finds nothing. -/
theorem Scanned.nil {first : Nat} : Scanned got first arrived c c [] :=
  ⟨List.Pairwise.nil, nofun, nofun, nofun, nofun, fun _ h => h⟩

/-- One more slot in front that is not counted in. -/
theorem Scanned.skip {first : Nat} {c' : RdpCon} {js : List Nat}
    (h : Scanned got (first + 1) arrived c c' js) : Scanned got first arrived c c' js :=
  { h with behind := fun j hj => Nat.le_of_succ_le (h.behind j hj) }

/-- The scanning loop of `delayed_ack` ends, at the latest behind the last used slot. It
collects the numbers of payloads that arrived and were not acknowledged singly before. -/
theorem eackScanLoop_marks (n : Nat) :
    ∀ {k : Nat} (fuel : Nat) {i : Nat} {c : RdpCon} {seqs : List (BitVec 32)},
      RecvWindow irs got arrived c →
      n + k = c.rwndLen → n < fuel → i + arrivals arrived (got + k) n = c.rwndUsed →
      seqs.length ≤ maxEack →
      ∃ c' js, RdpCon.eackScanLoop fuel c (Ring.pos c.rwndHead c.rwndLen k) i seqs
          = .ok (c', seqs ++ js.map fun j => num irs (j + 1)) ∧
        seqs.length + js.length ≤ maxEack ∧ Scanned got (got + k) arrived c c' js ∧
        RecvWindow irs got arrived c' ∧ c' = { c with rwnd := c'.rwnd } := by
  -- By the slots that are left. What is counted and what is still ahead make up `rwndUsed`.
  induction n with
  | zero =>
    intro k fuel i c seqs h hk hfuel hcount hseqs
    obtain ⟨fuel, rfl⟩ := Nat.exists_eq_succ_of_ne_zero (by omega : fuel ≠ 0)
    refine ⟨c, [], ?_, hseqs, Scanned.nil, h, rfl⟩
    rw [RdpCon.eackScanLoop, if_neg, List.map_nil, List.append_nil]
    have : arrivals arrived (got + k) 0 = 0 := rfl
    omega
  | succ n ih =>
    intro k fuel i c seqs h hk hfuel hcount hseqs
    obtain ⟨fuel, rfl⟩ := Nat.exists_eq_succ_of_ne_zero (by omega : fuel ≠ 0)
    rw [RdpCon.eackScanLoop]
    by_cases hmore : i < c.rwndUsed ∧ seqs.length < maxEack
    · obtain ⟨w, hw, hok⟩ := h.slot k (by omega)
      rw [if_pos hmore, h.rwndAt_of_entry hw, ok_bind, wrap_pos h.len_pos, ok_bind]
      rw [arrivals_succ] at hcount
      cases harrived : arrived (got + k) with
      | none =>
        rw [harrived] at hok hcount
        have hfree : w.isUsed = false := hok
        rw [hfree]
        obtain ⟨c', js, hloop, hlen, hscan, hrest⟩ := ih fuel h (k := k + 1) (by omega) (by omega)
          (by simpa [Nat.add_assoc] using hcount) hseqs
        exact ⟨c', js, hloop, hlen, hscan.skip, hrest⟩
      | some payload =>
        rw [harrived] at hok hcount
        obtain ⟨hused, hnum, -⟩ := hok
        rw [if_pos hused]
        have hcount' : i + 1 + arrivals arrived (got + (k + 1)) n = c.rwndUsed := by
          rw [← hcount, ← Nat.add_assoc]
          simp only [Option.isSome_some, if_true]
          omega
        by_cases heacked : w.isEacked
        · rw [if_pos heacked]
          obtain ⟨c', js, hloop, hlen, hscan, hrest⟩ :=
            ih fuel h (k := k + 1) (by omega) (by omega) hcount' hseqs
          exact ⟨c', js, hloop, hlen, hscan.skip, hrest⟩
        · rw [if_neg heacked]
          -- The front has not arrived, so this slot is behind it.
          have hk0 : k ≠ 0 := fun hzero => by
            rw [hzero, Nat.add_zero, h.front] at harrived
            cases harrived
          have hset {j : Nat} (hj : j = got + k ∨ Marked got c j) :=
            h.marked_setEacked (by omega : k < c.rwndLen) hw hused hj
          have hroom : (seqs ++ [w.seqnum]).length ≤ maxEack := by
            rw [List.length_append]
            exact hmore.2
          obtain ⟨c', js, hloop, hlen, hscan, hwin, hsame⟩ :=
            ih fuel (h.setEacked (by omega) hw) (by show n + (k + 1) = c.rwndLen; omega) (by omega)
              hcount' hroom
          refine ⟨c', (got + k) :: js, ?_, ?_, ⟨?_, ?_, ?_, ?_, ?_, ?_⟩, hwin, hsame⟩
          · rw [List.append_assoc] at hloop
            rw [List.map_cons, ← hnum]
            exact hloop
          · rw [List.length_append] at hlen
            rw [List.length_cons]
            simp only [List.length_singleton] at hlen
            omega
          · exact List.pairwise_cons.mpr ⟨fun j hj => hscan.behind j hj, hscan.ascending⟩
          · exact List.forall_mem_cons.mpr
              ⟨Nat.le_refl _, fun j hj => Nat.le_of_succ_le (hscan.behind j hj)⟩
          · refine List.forall_mem_cons.mpr ⟨⟨by omega, ?_⟩, hscan.early⟩
            rw [harrived]
            exact Option.some_ne_none _
          · refine List.forall_mem_cons.mpr ⟨fun hmarked => ?_, fun j hj hmarked => ?_⟩
            · obtain ⟨-, -, w', hw', -, hflag⟩ := hmarked
              rw [Nat.add_sub_cancel_left] at hw'
              obtain rfl : w = w' := Option.some.inj (hw.symm.trans hw')
              exact heacked hflag
            · exact hscan.fresh j hj (hset (Or.inr hmarked))
          · exact List.forall_mem_cons.mpr ⟨hscan.kept _ (hset (Or.inl rfl)), hscan.marked⟩
          · exact fun j hmarked => hscan.kept j (hset (Or.inr hmarked))
    · rw [if_neg hmore]
      exact ⟨c, [], by rw [List.map_nil, List.append_nil], hseqs, Scanned.nil, h, rfl⟩

/-- `delayed_ack` sends at most one segment: the acknowledgement of `rcv_cur`, with the
numbers of early payloads that were not acknowledged singly before. -/
theorem delayedAck_marks (h : RecvWindow irs got arrived c) (clock : Int) :
    ∃ c' out js, c.delayedAck clock = .ok (c', out) ∧ RecvWindow irs got arrived c' ∧
      withoutRecv c' = withoutRecv c ∧ c'.rqueue = c.rqueue ∧ js.length ≤ maxEack ∧
      Scanned got got arrived c c' js ∧
      (out = [] ∧ js = [] ∨
        out = [c'.emit (c'.eackSegment (js.map fun j => num irs (j + 1)))]) := by
  have hroom : ([] : List (BitVec 32)).length ≤ maxEack := Nat.zero_le _
  obtain ⟨c₁, js, hscan, hlen, hjs, hwin, hsame⟩ :=
    eackScanLoop_marks c.rwndLen (k := 0) (c.rwndLen + 1) (i := 0) h (Nat.add_zero _)
      (by omega) (by rw [Nat.zero_add, h.used_eq]; rfl) hroom
  rw [Ring.pos_zero h.head_lt, List.nil_append] at hscan
  rw [List.length_nil, Nat.zero_add] at hlen
  rw [RdpCon.delayedAck, hscan, ok_bind]
  have hframe : withoutRecv c₁ = withoutRecv c := by rw [hsame]; rfl
  have hqueue : c₁.rqueue = c.rqueue := (congrArg RdpCon.rqueue hsame :)
  show ∃ c' out js', (if c₁.rcvCur = c₁.rcvAck ∧ js.map (fun j => num irs (j + 1)) = [] then
      pure (c₁, [])
    else pure (_, [c₁.emit (c₁.eackSegment (js.map fun j => num irs (j + 1)))])) = _ ∧ _
  split
  · rename_i hnothing
    have hnil : js = [] := List.map_eq_nil_iff.mp hnothing.2
    exact ⟨c₁, [], js, rfl, hwin, hframe, hqueue, hlen, hjs, Or.inl ⟨rfl, hnil⟩⟩
  · exact ⟨_, _, js, rfl, ⟨{ hwin.toRecvRing with }, hwin.front⟩, hframe, hqueue, hlen,
      ⟨hjs.ascending, hjs.behind, hjs.early, hjs.fresh, hjs.marked, hjs.kept⟩, Or.inr rfl⟩

/-- The numbers of payloads that arrived behind `got`. -/
def EarlyNumbers (irs : BitVec 32) (got : Nat) (arrived : Nat → Option (List Byte))
    (seqs : List (BitVec 32)) : Prop :=
  seqs.length ≤ maxEack ∧ ∀ seq ∈ seqs, ∃ j, got < j ∧ arrived j ≠ none ∧ seq = num irs (j + 1)

/-- `delayed_ack` sends at most one segment: the acknowledgement of `rcv_cur`, with
numbers of payloads that arrived behind it. -/
theorem delayedAck_spec (h : RecvWindow irs got arrived c) (clock : Int) :
    ∃ c' out, c.delayedAck clock = .ok (c', out) ∧ RecvWindow irs got arrived c' ∧
      withoutRecv c' = withoutRecv c ∧ c'.rqueue = c.rqueue ∧
      (out = [] ∨ ∃ seqs, EarlyNumbers irs got arrived seqs ∧
        out = [c'.emit (c'.eackSegment seqs)]) := by
  obtain ⟨c', out, js, hrun, hwin, hsame, hqueue, hlen, hjs, hout⟩ := delayedAck_marks h clock
  refine ⟨c', out, hrun, hwin, hsame, hqueue, ?_⟩
  rcases hout with ⟨hnil, -⟩ | hout
  · exact Or.inl hnil
  · refine Or.inr ⟨_, ⟨by rwa [List.length_map], fun seq hseq => ?_⟩, hout⟩
    obtain ⟨j, hj, rfl⟩ := List.mem_map.mp hseq
    exact ⟨j, (hjs.early j hj).1, (hjs.early j hj).2, rfl⟩

/-! ### A payload arrives -/

/-- A new payload fills its slot. -/
theorem RecvRing.insert (h : RecvRing irs got arrived c) {k : Nat} (hk : k < c.rwndLen)
    (hnew : arrived (got + k) = none) (pbuf : Packetbuf) :
    RecvRing irs got (Function.update arrived (got + k) (some pbuf.data))
      { c with
        rwnd := c.rwnd.set (Ring.pos c.rwndHead c.rwndLen k)
          { pbuf := some pbuf, seqnum := num irs (got + k + 1), isUsed := true, isEacked := false }
        rwndUsed := c.rwndUsed + 1 } := by
  have hkl : k < c.rwnd.length := by rwa [h.length_eq]
  refine { h with
    length_eq := (List.length_set ..).trans h.length_eq
    used_eq := ?_
    beyond := fun j hj => ?_
    slot := fun m hm => ?_ }
  · have hin : got ≤ got + k ∧ got + k < got + c.rwndLen := by omega
    show c.rwndUsed + 1 = arrivals _ got c.rwndLen
    rw [arrivals_update hnew, if_pos hin, h.used_eq]
  · have hj : got + c.rwndLen ≤ j := hj
    rw [Function.update_of_ne (by omega)]
    exact h.beyond j hj
  · show ∃ w', Ring.entry (c.rwnd.set (Ring.pos c.rwndHead c.rwndLen k) _) c.rwndHead m
      = some w' ∧ _
    rw [← h.length_eq]
    -- The slot that is written holds the arrival, and the others are as before.
    by_cases hmk : m = k
    · subst hmk
      refine ⟨_, Ring.entry_set_self _ _ (by omega) _, ?_⟩
      rw [Function.update_self]
      exact ⟨rfl, rfl, pbuf, rfl, rfl⟩
    · obtain ⟨w', hw', hok⟩ := h.slot m hm
      rw [Function.update_of_ne (by omega)]
      exact ⟨w', by rw [Ring.entry_set_ne (by rw [h.length_eq]; exact hm) hkl hmk]; exact hw', hok⟩

/-- No slot with a mark is filled anew. -/
theorem RecvRing.insert_marked (h : RecvRing irs got arrived c) {k j : Nat} {w w₀ : Rwnd}
    (hk : k < c.rwndLen) (hw₀ : Ring.entry c.rwnd c.rwndHead k = some w₀)
    (hfree : ¬ w₀.isUsed = true) {used : Nat} (hmarked : Marked got c j) :
    Marked got
      { c with rwnd := c.rwnd.set (Ring.pos c.rwndHead c.rwndLen k) w, rwndUsed := used } j := by
  obtain ⟨hle, hlt, w', hw', hused, hflag⟩ := hmarked
  refine ⟨hle, hlt, w', ?_, hused, hflag⟩
  have hne : j - got ≠ k := fun heq => by
    rw [heq] at hw'
    obtain rfl : w₀ = w' := Option.some.inj (hw₀.symm.trans hw')
    exact hfree hused
  show Ring.entry (c.rwnd.set (Ring.pos c.rwndHead c.rwndLen k) w) c.rwndHead (j - got) = some w'
  rw [← h.length_eq, Ring.entry_set_ne (by rw [h.length_eq]; omega) (by rwa [h.length_eq]) hne, hw']

/-- What a packet under a number adds to the payloads that arrived: nothing, or
itself where the number is in the window and new. -/
def Arrives (irs : BitVec 32) (got len : Nat) (seqnum : BitVec 32) (payload : List Byte)
    (arrived arrived' : Nat → Option (List Byte)) : Prop :=
  arrived' = arrived ∨ ∃ j, got ≤ j ∧ j < got + len ∧ seqnum = num irs (j + 1) ∧
    arrived j = none ∧ arrived' = Function.update arrived j (some payload)

/-- What `rwnd_recv_data` does before it may send an acknowledgement: it takes the packet into
the window and moves what is complete to the read queue. -/
theorem rwndRecvData_takes (h : RecvWindow irs got arrived c) (clock : Int) (pbuf : Packetbuf)
    (seqnum : BitVec 32) :
    ∃ arrived' got' c', (c.rwndRecvData clock pbuf seqnum = .ok (c', []) ∨
        c.rwndRecvData clock pbuf seqnum = c'.delayedAck clock) ∧
      Arrives irs got c.rwndLen seqnum pbuf.data arrived arrived' ∧ got ≤ got' ∧
      (∀ i, got ≤ i → i < got' → arrived' i ≠ none) ∧ RecvWindow irs got' arrived' c' ∧
      queued c' = queued c ++ bytesBetween arrived' got got' ∧
      withoutRecv c' = withoutRecv c ∧ ∀ j, got' ≤ j → Marked got c j → Marked got' c' j := by
  rw [RdpCon.rwndRecvData]
  by_cases hout : ¬ (0 < seqnum - c.rcvCur ∧ (seqnum - c.rcvCur).toNat ≤ c.rwndLen)
  · rw [if_pos hout]
    refine ⟨arrived, got, c, Or.inl rfl, Or.inl rfl, Nat.le_refl _, fun i _ _ => by omega, h, ?_,
      rfl, fun _ _ hmarked => hmarked⟩
    rw [bytesBetween, Nat.sub_self]
    exact (List.append_nil _).symm
  rw [if_neg hout]
  obtain ⟨hpos, hle⟩ := not_not.mp hout
  -- The packet belongs `k` slots behind the head.
  obtain ⟨k, hk⟩ : ∃ k, (seqnum - c.rcvCur).toNat = k + 1 :=
    Nat.exists_eq_succ_of_ne_zero (Nat.ne_of_gt (by simpa [BitVec.lt_def] using hpos))
  have hnum : seqnum = num irs (got + k + 1) := by
    rw [Nat.add_assoc, ← hk, ← num_num, ← h.rcvCur, num_toNat_sub]
  have hkl : k < c.rwndLen := by omega
  obtain ⟨w, hw, hok⟩ := h.slot k hkl
  have hidx : wrap (c.rwndHead + (seqnum - c.rcvCur).toNat - 1) c.rwndLen
      = .ok (Ring.pos c.rwndHead c.rwndLen k) := by
    rw [wrap_eq h.len_pos, hk]
    rfl
  rw [hidx, ok_bind, h.rwndAt_of_entry hw, ok_bind]
  obtain ⟨arrived', c₁, hc₁, harrives, hring, hqueue₁, hsame₁, hmarks₁⟩ : ∃ arrived' c₁,
      c₁ = (if w.isUsed then c else { c with
        rwnd := c.rwnd.set (Ring.pos c.rwndHead c.rwndLen k)
          { pbuf := some pbuf, seqnum := seqnum, isUsed := true, isEacked := false }
        rwndUsed := c.rwndUsed + 1 }) ∧
      Arrives irs got c.rwndLen seqnum pbuf.data arrived arrived' ∧
      RecvRing irs got arrived' c₁ ∧ queued c₁ = queued c ∧ withoutRecv c₁ = withoutRecv c ∧
      ∀ j, Marked got c j → Marked got c₁ j := by
    cases hstored : arrived (got + k) with
    | some payload =>
      rw [hstored] at hok
      exact ⟨arrived, c, by rw [if_pos hok.1], Or.inl rfl, h.toRecvRing, rfl, rfl, fun _ h => h⟩
    | none =>
      rw [hstored] at hok
      have hfree : ¬ w.isUsed = true := by rw [show w.isUsed = false from hok]; decide
      have hins := h.toRecvRing.insert hkl hstored pbuf
      rw [← hnum] at hins
      exact ⟨_, _, by rw [if_neg hfree], Or.inr ⟨got + k, by omega, by omega, hnum, hstored, rfl⟩,
        hins, rfl, rfl, fun _ hmarked => h.toRecvRing.insert_marked hkl hw hfree hmarked⟩
  rw [← hc₁]
  obtain ⟨got', c₂, hloop, hgot, hall, hwin, hqueue, hsame, hmarks⟩ :=
    rwndPopLoop_spec (c₁.rwndLen + 1) hring
      (by rw [hring.used_eq]; exact Nat.lt_succ_of_le (arrivals_le _ _ _))
  refine ⟨arrived', got', c₂, ?_, harrives, hgot, hall, hwin, by rw [hqueue, hqueue₁],
    hsame.trans hsame₁, fun j hj hmarked => hmarks j hj (hmarks₁ j hmarked)⟩
  show (RdpCon.rwndPopLoop (c₁.rwndLen + 1) c₁ >>= _) = _ ∨
    (RdpCon.rwndPopLoop (c₁.rwndLen + 1) c₁ >>= _) = _
  rw [hloop, ok_bind]
  split
  · exact Or.inr rfl
  · exact Or.inl rfl

/-- `rwnd_recv_data` takes the packet into the window, moves what is complete to the
read queue and may send an acknowledgement. -/
theorem rwndRecvData_spec (h : RecvWindow irs got arrived c) (clock : Int) (pbuf : Packetbuf)
    (seqnum : BitVec 32) :
    ∃ arrived' got' c' out, c.rwndRecvData clock pbuf seqnum = .ok (c', out) ∧
      Arrives irs got c.rwndLen seqnum pbuf.data arrived arrived' ∧ got ≤ got' ∧
      (∀ i, got ≤ i → i < got' → arrived' i ≠ none) ∧ RecvWindow irs got' arrived' c' ∧
      queued c' = queued c ++ bytesBetween arrived' got got' ∧
      withoutRecv c' = withoutRecv c ∧
      (out = [] ∨ ∃ seqs, EarlyNumbers irs got' arrived' seqs ∧
        out = [c'.emit (c'.eackSegment seqs)]) := by
  obtain ⟨arrived', got', c₂, hrun, harrives, hgot, hall, hwin, hqueue, hsame, -⟩ :=
    rwndRecvData_takes h clock pbuf seqnum
  rcases hrun with hrun | hrun
  · exact ⟨arrived', got', c₂, [], hrun, harrives, hgot, hall, hwin, hqueue, hsame, Or.inl rfl⟩
  · obtain ⟨c', out, hack, hwin', hsame', hq, hout⟩ := delayedAck_spec hwin clock
    refine ⟨arrived', got', c', out, hrun.trans hack, harrives, hgot, hall, hwin', ?_,
      hsame'.trans hsame, hout⟩
    rw [queued, hq]
    exact hqueue

/-! ### The empty window -/

/-- Nothing arrived. -/
def noArrivals : Nat → Option (List Byte) := fun _ => none

/-- `init_rwnd` makes an empty window. -/
theorem initRwnd_spec {c : RdpCon} (hmin : 0 < (c.rcvMax * 2).toNat) (uninit : Uninit) :
    RecvWindow c.rcvCur 0 noArrivals (c.initRwnd uninit) := by
  refine ⟨⟨(num_zero _).symm, (c.rcvMax * 2).isLt, ?_, hmin, ?_, fun _ _ => rfl, fun k hk => ?_⟩,
    rfl⟩
  · simp [RdpCon.initRwnd]
  · show 0 = arrivals noArrivals 0 (c.rcvMax * 2).toNat
    rw [arrivals, eq_comm, List.countP_eq_zero]
    exact fun _ _ => Bool.false_ne_true
  · have hk : k < (c.rcvMax * 2).toNat := hk
    refine ⟨{ pbuf := none, seqnum := uninit.rwndSeqnum k, isUsed := false, isEacked := false }, ?_,
      rfl⟩
    show Ring.entry (List.map _ (List.range (c.rcvMax * 2).toNat)) 0 k = _
    rw [Ring.entry, Ring.pos, List.length_map, List.length_range, Nat.zero_add,
      Nat.mod_eq_of_lt hk, List.getElem?_map, List.getElem?_range hk]
    rfl

end

end Libcage.Proofs.Rdp
