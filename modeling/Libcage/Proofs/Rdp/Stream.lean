import Libcage.Lib.Flow
import Libcage.Proofs.Rdp.UserData
import Libcage.Rdp.Exchange

/-!
# `Libcage.Proofs.Rdp.Stream`: a connection delivers the bytes it accepted, in order

Each direction of a connection is a `Flow` of payloads. `EndView` relates one end to
the two flows it takes part in: its send window is the sender of the first, its
receive window the receiver of the second, and every segment it sent carries a
payload of the first and acknowledges the second (`NetSegment`).

Every call of an end is a run of the sender on the first flow and of the receiver
on the second (`EndView.step`). So both flows keep the invariant of the library, and
`stream_prefix` follows: over any network, what one side received is a prefix of
what the other side accepted. On the way no call faults (`stream_step`).

The numbers on the wire are the indices of the flow modulo 2^32. They name the same
payloads as long as a side sent fewer than 2^31 segments.
-/

set_option autoImplicit false

namespace Libcage.Proofs.Rdp

open Libcage.Lib
open Libcage.Rdp

/-! ### Segments on the wire -/

/-- The header of an acknowledgement with `n` single numbers. -/
def ackHeadOf (addr : RdpAddr) (seq ack : BitVec 32) (n : Nat) : RdpHead where
  flags := if n = 0 then flagAck ||| flagVer else flagAck ||| flagVer ||| flagEak
  hlen := 10 + BitVec.ofNat 8 (4 * n / 2)
  sport := addr.sport
  dport := addr.dport
  seqnum := seq
  acknum := ack

/-- An acknowledgement with single numbers. -/
def ackSegment (addr : RdpAddr) (seq ack : BitVec 32) (seqs : List (BitVec 32)) : List Byte :=
  (ackHeadOf addr seq ack seqs.length).encode ++ wr32s seqs

/-- What `delayed_ack` sends. -/
theorem eackSegment_eq (c : RdpCon) (seqs : List (BitVec 32)) :
    c.eackSegment seqs = ackSegment c.addr c.sndNxt c.rcvCur seqs := by
  cases seqs with
  | nil => rfl
  | cons seq seqs => rfl

/-- What a window check sends. -/
theorem ackHead_eq (c : RdpCon) (addr : RdpAddr) :
    (c.ackHead addr).encode = ackSegment addr c.sndNxt c.rcvCur [] := rfl

/-- What an end sends while it sends `f` and receives `g`: a payload of `f` that is
sent, or numbers of `g` that are acknowledged. Data carries an acknowledgement,
too. -/
inductive NetSegment (iss irs : BitVec 32) (f g : Flow (List Byte)) : List Byte → Prop where
  | data {addr : RdpAddr} {j a : Nat} {payload : List Byte} (hj : j < f.nxt)
      (hitem : f.items[j]? = some payload) (hok : PayloadOk payload) (ha : a ∈ g.acks) :
      NetSegment iss irs f g (dataSegment addr payload (num iss (j + 1)) (num irs a))
  | ack {addr : RdpAddr} {seq : BitVec 32} {a : Nat} {js : List Nat} (ha : a ∈ g.acks)
      (hjs : ∀ j ∈ js, j ∈ g.eacks) (hlen : js.length ≤ maxEack) :
      NetSegment iss irs f g
        (ackSegment addr seq (num irs a) (js.map fun j => num irs (j + 1)))

/-- A segment stays what it is while both flows go on. -/
theorem NetSegment.mono {iss irs : BitVec 32} {f f' g g' : Flow (List Byte)} {seg : List Byte}
    (h : NetSegment iss irs f g seg) (hf : Flow.SendFrame f f') (hg : Flow.RecvFrame g g') :
    NetSegment iss irs f' g' seg := by
  cases h with
  | data hj hitem hok ha =>
    obtain ⟨hj', hitem'⟩ := hf.sent _ _ hj hitem
    exact .data hj' hitem' hok (hg.acks ha)
  | ack ha hjs hlen => exact .ack (hg.acks ha) (fun j hj => hg.eacks (hjs j hj)) hlen

/-! ### The view -/

/-- One end and the two flows it takes part in. -/
structure EndView (iss irs : BitVec 32) (f g : Flow (List Byte)) (e : End) : Prop where
  send : SendWindow iss (· ∈ f.eacks) f.items f.una f.nxt e.con
  recv : RecvWindow irs g.got g.arrived e.con
  rwnd_le : e.con.rwndLen ≤ 2 ^ 31
  sbufMax : e.con.sbufMax = sbufLimit
  payloads : ∀ payload ∈ f.items, PayloadOk payload
  accepted : e.accepted = f.items.flatten
  received : e.received ++ queued e.con = bytesBetween g.arrived 0 g.got
  net : ∀ seg ∈ e.net, NetSegment iss irs f g seg
  nxt_le : f.nxt ≤ e.net.length

/-- The receive window of a record whose send window and state changed. -/
theorem RecvWindow.congr {irs : BitVec 32} {got : Nat} {arrived : Nat → Option (List Byte)}
    {c c' : RdpCon} (h : RecvWindow irs got arrived c) (state : RdpState)
    (hsame : withoutSend c' = withoutSend { c with state := state }) :
    RecvWindow irs got arrived c' := by
  have hcur : c'.rcvCur = c.rcvCur := (congrArg RdpCon.rcvCur hsame :)
  have hrwnd : c'.rwnd = c.rwnd := (congrArg RdpCon.rwnd hsame :)
  have hlen : c'.rwndLen = c.rwndLen := (congrArg RdpCon.rwndLen hsame :)
  have hhead : c'.rwndHead = c.rwndHead := (congrArg RdpCon.rwndHead hsame :)
  have hused : c'.rwndUsed = c.rwndUsed := (congrArg RdpCon.rwndUsed hsame :)
  obtain ⟨⟨h₁, h₂, h₃, h₄, h₅, h₆, h₇⟩, h₈⟩ := h
  rw [← hcur] at h₁
  rw [← hlen] at h₂ h₃ h₄ h₅ h₆ h₇
  rw [← hrwnd] at h₃ h₇
  rw [← hhead] at h₄ h₇
  rw [← hused] at h₅
  exact ⟨⟨h₁, h₂, h₃, h₄, h₅, h₆, h₇⟩, h₈⟩

/-- The send window of a record whose receive window changed. -/
theorem SendWindow.congr {iss : BitVec 32} {marks : Nat → Prop} {items : List (List Byte)}
    {una nxt : Nat} {c c' : RdpCon} (h : SendWindow iss marks items una nxt c)
    (hsame : withoutRecv c' = withoutRecv c) : SendWindow iss marks items una nxt c' := by
  have haddr : c'.addr = c.addr := (congrArg RdpCon.addr hsame :)
  have huna : c'.sndUna = c.sndUna := (congrArg RdpCon.sndUna hsame :)
  have hnxt : c'.sndNxt = c.sndNxt := (congrArg RdpCon.sndNxt hsame :)
  have hmax : c'.sndMax = c.sndMax := (congrArg RdpCon.sndMax hsame :)
  have hswnd : c'.swnd = c.swnd := (congrArg RdpCon.swnd hsame :)
  have hlen : c'.swndLen = c.swndLen := (congrArg RdpCon.swndLen hsame :)
  have hhead : c'.swndHead = c.swndHead := (congrArg RdpCon.swndHead hsame :)
  have hused : c'.swndUsed = c.swndUsed := (congrArg RdpCon.swndUsed hsame :)
  have hostand : c'.swndOstand = c.swndOstand := (congrArg RdpCon.swndOstand hsame :)
  obtain ⟨⟨h₁, h₂, h₃, h₄, h₅, h₆, h₇, h₈, h₉, h₁₀, h₁₁, h₁₂, h₁₃⟩, h₁₄, h₁₅⟩ := h
  rw [← huna] at h₃
  rw [← hnxt] at h₄
  rw [← hmax] at h₅ h₆ h₇ h₈ h₁₅
  rw [← hlen] at h₈ h₉ h₁₀ h₁₂ h₁₄
  rw [← hswnd] at h₉ h₁₃
  rw [← hhead] at h₁₀ h₁₃ h₁₄
  rw [← hused] at h₁₁
  rw [← haddr] at h₁₃
  rw [← hostand] at h₁₄
  exact ⟨⟨h₁, h₂, h₃, h₄, h₅, h₆, h₇, h₈, h₉, h₁₀, h₁₁, h₁₂, h₁₃⟩, h₁₄, h₁₅⟩

@[simp] theorem emits_emits (e : End) (c c' : RdpCon) (out out' : List Emitted) :
    (e.emits c out).emits c' out' = e.emits c' (out ++ out') := by
  simp [End.emits]

section
variable {iss irs : BitVec 32} {f g : Flow (List Byte)} {e : End}

namespace EndView

/-- The other end goes on. -/
theorem mono (h : EndView iss irs f g e) {f' g' : Flow (List Byte)} (hf : Flow.RecvFrame f f')
    (hg : Flow.SendFrame g g') : EndView iss irs f' g' e := by
  have hitems := hf.items
  have hnxt := hf.nxt
  refine ⟨?_, ?_, h.rwnd_le, h.sbufMax, ?_, ?_, ?_, fun seg hseg => ?_, ?_⟩
  · rw [hf.items, hf.una, hf.nxt]
    exact h.send.mono fun j _ hj => hf.eacks hj
  · rw [hg.got, hg.arrived]
    exact h.recv
  · rw [hitems]
    exact h.payloads
  · rw [hitems]
    exact h.accepted
  · rw [hg.arrived, hg.got]
    exact h.received
  · cases h.net seg hseg with
    | data hj hitem hok ha =>
      exact .data (by rw [hnxt]; exact hj) (by rw [hitems]; exact hitem) hok
        (by rw [hg.acks]; exact ha)
    | ack ha hjs hlen =>
      exact .ack (by rw [hg.acks]; exact ha) (fun j hj => by rw [hg.eacks]; exact hjs j hj) hlen
  · rw [hnxt]
    exact h.nxt_le

/-- A call on the send window: data goes out with the present acknowledgement. -/
theorem sent (h : EndView iss irs f g e) {f' : Flow (List Byte)} (hsteps : f.Sends f')
    {c' : RdpCon} {out : List Emitted} (state : RdpState) (accepted : List Byte)
    (hwin : SendWindow iss (· ∈ f'.eacks) f'.items f'.una f'.nxt c')
    (hsame : withoutSend c' = withoutSend { e.con with state := state })
    (hdata : DataOut e.con.addr iss e.con.rcvCur f'.items f'.nxt out)
    (hcount : f'.nxt ≤ e.net.length + out.length) (hpay : ∀ payload ∈ f'.items, PayloadOk payload)
    (haccepted : accepted = f'.items.flatten) :
    EndView iss irs f' { g with acks := insert g.got g.acks }
      { e.emits c' out with accepted := accepted } := by
  have hack : g.Receives { g with acks := insert g.got g.acks } := .single .ack
  refine ⟨hwin, h.recv.congr state hsame, ?_, ?_, hpay, haccepted, ?_, fun seg hseg => ?_, ?_⟩
  · rw [show ({ e.emits c' out with accepted := accepted } : End).con.rwndLen = e.con.rwndLen from
      (congrArg RdpCon.rwndLen hsame :)]
    exact h.rwnd_le
  · exact (congrArg RdpCon.sbufMax hsame :).trans h.sbufMax
  · have hqueue : c'.rqueue = e.con.rqueue := (congrArg RdpCon.rqueue hsame :)
    show e.received ++ queued c' = bytesBetween g.arrived 0 g.got
    rw [queued, hqueue]
    exact h.received
  · rcases List.mem_append.mp hseg with hseg | hseg
    · exact (h.net seg hseg).mono (.of_steps hsteps) (.of_steps hack)
    · obtain ⟨em, hem, rfl⟩ := List.mem_map.mp hseg
      obtain ⟨j, payload, hj, hitem, rfl⟩ := hdata em hem
      show NetSegment iss irs f' _ (dataSegment e.con.addr payload _ e.con.rcvCur)
      rw [h.recv.rcvCur]
      exact .data hj hitem (hpay payload (List.mem_of_getElem? hitem)) (Set.mem_insert _ _)
  · show f'.nxt ≤ (e.net ++ out.map Emitted.seg).length
    rw [List.length_append, List.length_map]
    exact hcount

/-- A call on the receive window: acknowledgements go out. -/
theorem answered (h : EndView iss irs f g e) {g' : Flow (List Byte)} (hsteps : g.Receives g')
    {c' : RdpCon} {out : List Emitted} (hwin : RecvWindow irs g'.got g'.arrived c')
    (hsame : withoutRecv c' = withoutRecv e.con)
    (hbytes : e.received ++ queued c' = bytesBetween g'.arrived 0 g'.got)
    (hout : ∀ em ∈ out, NetSegment iss irs f g' em.seg) :
    EndView iss irs f g' (e.emits c' out) := by
  refine ⟨h.send.congr hsame, hwin, ?_, ?_, h.payloads, h.accepted, hbytes, fun seg hseg => ?_, ?_⟩
  · rw [show (e.emits c' out).con.rwndLen = e.con.rwndLen from (congrArg RdpCon.rwndLen hsame :)]
    exact h.rwnd_le
  · exact (congrArg RdpCon.sbufMax hsame :).trans h.sbufMax
  · rcases List.mem_append.mp hseg with hseg | hseg
    · exact (h.net seg hseg).mono (.of_steps .refl) (.of_steps hsteps)
    · obtain ⟨em, hem, rfl⟩ := List.mem_map.mp hseg
      exact hout em hem
  · show f.nxt ≤ (e.net ++ out.map Emitted.seg).length
    rw [List.length_append]
    exact Nat.le_trans h.nxt_le (Nat.le_add_right _ _)

end EndView

/-! ### Calls of the user and the timer -/

/-- The indices behind numbers that arrived early. -/
theorem EarlyNumbers.indices {got : Nat} {arrived : Nat → Option (List Byte)}
    {seqs : List (BitVec 32)} (h : EarlyNumbers irs got arrived seqs) :
    ∃ js : List Nat, seqs = js.map (fun j => num irs (j + 1)) ∧ js.length ≤ maxEack ∧
      ∀ j ∈ js, got < j ∧ arrived j ≠ none := by
  obtain ⟨hlen, hall⟩ := h
  induction seqs with
  | nil => exact ⟨[], rfl, Nat.zero_le _, by simp⟩
  | cons seq seqs ih =>
    rw [List.length_cons] at hlen
    obtain ⟨hseq, hseqs⟩ := List.forall_mem_cons.mp hall
    obtain ⟨js, rfl, -, hjs⟩ := ih (by omega) hseqs
    obtain ⟨j, hj, harrived, rfl⟩ := hseq
    refine ⟨j :: js, rfl, ?_, List.forall_mem_cons.mpr ⟨⟨hj, harrived⟩, hjs⟩⟩
    rw [List.length_map] at hlen
    exact hlen

/-- What `delayed_ack` sends is an acknowledgement by the receiver. -/
theorem receives_of_ack (iss : BitVec 32) (f g : Flow (List Byte)) {c : RdpCon} {out : List Emitted}
    (hcur : c.rcvCur = num irs g.got)
    (hout : out = [] ∨ ∃ seqs, EarlyNumbers irs g.got g.arrived seqs ∧
      out = [c.emit (c.eackSegment seqs)]) :
    ∃ g', g.Receives g' ∧ g'.got = g.got ∧ g'.arrived = g.arrived ∧
      ∀ em ∈ out, NetSegment iss irs f g' em.seg := by
  rcases hout with rfl | ⟨seqs, hearly, rfl⟩
  · exact ⟨g, .refl, rfl, rfl, by simp⟩
  · obtain ⟨js, rfl, hlen, hjs⟩ := hearly.indices
    have hack : g.Receives { g with acks := insert g.got g.acks } := .single .ack
    refine ⟨_, hack.trans (Flow.eackAll { g with acks := insert g.got g.acks } hjs), rfl, rfl,
      fun em hem => ?_⟩
    obtain rfl := List.mem_singleton.mp hem
    rw [RdpCon.emit, eackSegment_eq, hcur]
    exact .ack (Set.mem_insert _ _) (fun j hj => Or.inl hj) hlen

namespace EndView

/-- `rdp::send` accepts payloads and sends what fits. -/
theorem stepSend (h : EndView iss irs f g e) (clock : Int) (buf : List Byte) :
    ∃ e' f' g', e.step (.send clock buf) = .ok e' ∧ f.Sends f' ∧ g.Receives g' ∧
      EndView iss irs f' g' e' := by
  obtain ⟨total, payloads, nxt', c', more, hrun, hflat, hok, hwin, hle, hcount, hdata, hsame⟩ :=
    send_spec h.send h.sbufMax clock buf
  have hsteps : f.Sends { f with items := f.items ++ payloads, nxt := nxt' } :=
    (Flow.accepts f payloads).trans
      (Flow.sends { f with items := f.items ++ payloads } hle hwin.nxt_le)
  refine ⟨_, _, _, by rw [End.step, hrun]; rfl, hsteps, .single .ack,
    h.sent hsteps e.con.state _ hwin hsame hdata ?_ (fun payload hpayload => ?_) ?_⟩
  · have := h.nxt_le
    show nxt' ≤ _
    omega
  · rcases List.mem_append.mp hpayload with hpayload | hpayload
    · exact h.payloads payload hpayload
    · exact hok payload hpayload
  · show e.accepted ++ _ = (f.items ++ payloads).flatten
    rw [List.flatten_append, hflat, h.accepted]

/-- `rdp::receive` moves bytes from the read queue to the user. -/
theorem stepReceive (h : EndView iss irs f g e) (len : Int) :
    ∃ e', e.step (.receive len) = .ok e' ∧ EndView iss irs f g e' := by
  refine ⟨_, rfl, ⟨h.send.congr rfl, ?_, h.rwnd_le, h.sbufMax, h.payloads, h.accepted, ?_, h.net,
    h.nxt_le⟩⟩
  · exact ⟨{ h.recv.toRecvRing with }, h.recv.front⟩
  · rw [← h.received, ← receive_spec e.con len, ← List.append_assoc]
    rfl

/-- `rdp_con::retransmit` sends payloads again. -/
theorem stepRetransmit (h : EndView iss irs f g e) (clock maxRetrans : Int) :
    ∃ e' g', e.step (.retransmit clock maxRetrans) = .ok e' ∧ g.Receives g' ∧
      EndView iss irs f g' e' := by
  obtain ⟨alive, c', again, hrun, hwin, hsame, hdata⟩ := retransmit_spec h.send clock maxRetrans
  have hframe : withoutSend c'
      = withoutSend { e.con with state := if alive then e.con.state else .closed } := by
    rw [hsame]
    cases alive <;> rfl
  have hview := h.sent .refl _ e.accepted hwin hframe
    (fun em hem => by
      obtain ⟨j, payload, -, hrest⟩ := hdata em hem
      exact ⟨j, payload, hrest⟩)
    (Nat.le_trans h.nxt_le (Nat.le_add_right _ _)) h.payloads h.accepted
  exact ⟨_, _, by rw [End.step, hrun]; rfl, .single .ack, hview⟩

/-- `rdp_con::delayed_ack` acknowledges. -/
theorem stepDelayedAck (h : EndView iss irs f g e) (clock : Int) :
    ∃ e' g', e.step (.delayedAck clock) = .ok e' ∧ g.Receives g' ∧ EndView iss irs f g' e' := by
  obtain ⟨c', out, hrun, hwin, hsame, hqueue, hout⟩ := delayedAck_spec h.recv clock
  obtain ⟨g', hsteps, hgot, harrived, hseg⟩ := receives_of_ack iss f g hwin.rcvCur hout
  refine ⟨_, g', by rw [End.step, hrun]; rfl, hsteps,
    h.answered hsteps (by rw [hgot, harrived]; exact hwin) hsame ?_ hseg⟩
  rw [hgot, harrived, queued, hqueue]
  exact h.received

end EndView

/-! ### A segment arrives -/

/-- The payloads from one index on, split at another. -/
theorem bytesBetween_append (arrived : Nat → Option (List Byte)) {i j k : Nat} (hij : i ≤ j)
    (hjk : j ≤ k) :
    bytesBetween arrived i j ++ bytesBetween arrived j k = bytesBetween arrived i k := by
  obtain ⟨m, rfl⟩ := Nat.exists_eq_add_of_le hij
  obtain ⟨n, rfl⟩ := Nat.exists_eq_add_of_le hjk
  rw [bytesBetween, bytesBetween, bytesBetween, ← List.flatten_append, ← List.map_append,
    show i + m - i = m by omega, show i + m + n - (i + m) = n by omega,
    show i + m + n - i = m + n by omega, List.range'_append_1]

/-- Only the payloads in between matter. -/
theorem bytesBetween_congr {arrived arrived' : Nat → Option (List Byte)} {j k : Nat}
    (h : ∀ i, j ≤ i → i < k → arrived i = arrived' i) :
    bytesBetween arrived j k = bytesBetween arrived' j k := by
  rw [bytesBetween, bytesBetween]
  congr 1
  refine List.map_congr_left fun i hi => ?_
  obtain ⟨hle, hlt⟩ := List.mem_range'_1.mp hi
  rw [h i hle (by omega)]

namespace EndView

/-- An acknowledgement that arrives moves the window. -/
theorem recvAck (h : EndView iss irs f g e) (hf : f.Inv) (hlt : f.nxt < 2 ^ 32) {a : Nat}
    (ha : a ∈ f.acks) (clock : Int) :
    ∃ c' out f' g', e.con.recvAck clock (num iss a) = .ok (c', out) ∧ f.Sends f' ∧
      g.Receives g' ∧ EndView iss irs f' g' (e.emits c' out) ∧
      withoutSend c' = withoutSend e.con := by
  obtain ⟨una', nxt', c', hrun, hle, hle', hnxt, hwhere, hwin, hsame⟩ :=
    recvAck_spec h.send clock (num iss a)
  have huna : una' ∈ f.acks := by
    rcases hwhere with ⟨rfl, -⟩ | heq
    · exact hf.una
    · have hle := hf.ack_le ha
      rcases Nat.le_total a una' with hau | hau
      · rwa [← num_inj iss hau (by omega) heq]
      · rwa [num_inj iss hau (by omega) heq.symm]
  have hsteps : f.Sends { f with una := una', nxt := nxt' } :=
    .head (.ack huna) (Flow.sends { f with una := una' } hnxt hwin.nxt_le)
  have hdata := dataOut_firstSends e.con.addr iss e.con.rcvCur f.items f.nxt (nxt' - f.nxt)
  rw [Nat.add_sub_cancel' hnxt] at hdata
  refine ⟨c', _, _, _, hrun, hsteps, .single .ack,
    h.sent hsteps e.con.state _ hwin hsame hdata ?_ h.payloads h.accepted, hsame⟩
  rw [length_firstSends, List.length_take, List.length_drop]
  have := h.nxt_le
  have := hwin.nxt_le
  show nxt' ≤ _
  omega

/-- The peer never acknowledges the first outstanding payload by its number, so the
head of the window stays. -/
theorem not_pops (h : EndView iss irs f g e) (hf : f.Inv) (hlt : f.nxt < 2 ^ 32) {j : Nat}
    (hj : j ∈ f.eacks) : eackPopsHead e.con (num iss (j + 1)) = false := by
  have hhead : e.con.swndHead < e.con.swnd.length := by
    rw [h.send.length_eq]
    exact h.send.head_lt
  by_cases hnone : f.nxt = f.una
  · -- Nothing is outstanding.
    have hostand : e.con.swndHead = e.con.swndOstand := by
      rw [h.send.ostand, hnone, Nat.sub_self, Ring.pos_zero h.send.head_lt]
    unfold eackPopsHead
    split
    · rfl
    · simp [hostand]
  · have hout : f.una < f.nxt := by
      have := h.send.una_le
      omega
    -- The head holds the first outstanding payload: it is not marked and has another number.
    obtain ⟨payload, w, hw, hok, hmarked⟩ := h.send.sent_of_lt (k := 0) hout
    rw [Ring.entry_zero hhead] at hw
    have hne : j ≠ f.una := fun he => hf.una_notMem_eacks (he ▸ hj)
    have hjn := hf.eack_lt hj
    have hacked : w.isAcked = false := by
      by_contra hacked
      exact hf.una_notMem_eacks (hmarked (by simpa using hacked))
    have hnum : w.seqnum ≠ num iss (j + 1) := fun he => by
      rw [hok.seqnum] at he
      rcases Nat.le_total j f.una with hle | hle
      · have := num_inj iss (j := j + 1) (k := f.una + 1) (by omega) (by omega) he.symm
        omega
      · have := num_inj iss (j := f.una + 1) (k := j + 1) (by omega) (by omega) he
        omega
    unfold eackPopsHead
    rw [hw]
    simp [hacked, hnum]

/-- A selective acknowledgement that arrives marks its payload. -/
theorem recvEack (h : EndView iss irs f g e) (hf : f.Inv) (hlt : f.nxt < 2 ^ 32) {j : Nat}
    (hj : j ∈ f.eacks) :
    ∃ c', e.con.recvEack (num iss (j + 1)) = .ok c' ∧
      EndView iss irs f g { e with con := c' } ∧ withoutSend c' = withoutSend e.con := by
  obtain ⟨c', hrun, hwin, hsame⟩ := recvEack_spec h.send (h.not_pops hf hlt hj)
  have hjn := hf.eack_lt hj
  -- The number stands for one index only, and that one was acknowledged before.
  have hwin' : SendWindow iss (· ∈ f.eacks) f.items f.una f.nxt c' := by
    refine hwin.mono fun i hi hmark => ?_
    rcases hmark with hmark | heq
    · exact hmark
    · rcases Nat.le_total i j with hle | hle
      · have := num_inj iss (j := i + 1) (k := j + 1) (by omega) (by omega) heq.symm
        obtain rfl : i = j := by omega
        exact hj
      · have := num_inj iss (j := j + 1) (k := i + 1) (by omega) (by omega) heq
        obtain rfl : i = j := by omega
        exact hj
  refine ⟨c', hrun, ?_, hsame⟩
  have hqueue : c'.rqueue = e.con.rqueue := (congrArg RdpCon.rqueue hsame :)
  refine ⟨hwin', h.recv.congr e.con.state hsame, ?_,
    (congrArg RdpCon.sbufMax hsame :).trans h.sbufMax, h.payloads, h.accepted, ?_, h.net, h.nxt_le⟩
  · rw [show ({ e with con := c' } : End).con.rwndLen = e.con.rwndLen from
      (congrArg RdpCon.rwndLen hsame :)]
    exact h.rwnd_le
  · show e.received ++ queued c' = _
    rw [queued, hqueue]
    exact h.received

/-- The numbers behind a header mark their payloads one after the other. -/
theorem eackLoop {view : List Byte} (js : List Nat) :
    ∀ {i : Nat} {e : End}, EndView iss irs f g e → f.Inv → f.nxt < 2 ^ 32 →
      (∀ j ∈ js, j ∈ f.eacks) →
      (∀ k j, js[k]? = some j → rd32 view (sizeofHead + 4 * (i + k)) = num iss (j + 1)) →
      ∃ c', RdpCon.eackLoop view js.length i e.con = .ok c' ∧
        EndView iss irs f g { e with con := c' } ∧ withoutSend c' = withoutSend e.con := by
  induction js with
  | nil => exact fun h _ _ _ _ => ⟨_, rfl, h, rfl⟩
  | cons j js ih =>
    intro i e h hf hlt hjs hview
    obtain ⟨hj, hjs⟩ := List.forall_mem_cons.mp hjs
    obtain ⟨c₁, hrun, h₁, hsame⟩ := h.recvEack hf hlt hj
    obtain ⟨c', hloop, h', hsame'⟩ := ih (i := i + 1) h₁ hf hlt hjs fun k j' hk => by
      have := hview (k + 1) j' hk
      rwa [show i + (k + 1) = i + 1 + k by omega] at this
    refine ⟨c', ?_, h', hsame'.trans hsame⟩
    have hfirst : rd32 view (sizeofHead + 4 * i) = num iss (j + 1) := hview 0 j rfl
    rw [List.length_cons, RdpCon.eackLoop, hfirst, hrun, ok_bind]
    exact hloop

/-- A payload that arrives joins the receive window. -/
theorem rwndRecvData (h : EndView iss irs f g e) (hg : g.Inv) (hlt : g.nxt < 2 ^ 31) {j : Nat}
    (pbuf : Packetbuf) (hj : j < g.nxt) (hitem : g.items[j]? = some pbuf.data) (clock : Int) :
    ∃ c' out g', e.con.rwndRecvData clock pbuf (num irs (j + 1)) = .ok (c', out) ∧
      g.Receives g' ∧ EndView iss irs f g' (e.emits c' out) := by
  obtain ⟨arrived', got', c', out, hrun, harrives, hle, hall, hwin, hqueue, hsame, hout⟩ :=
    rwndRecvData_spec h.recv clock pbuf (num irs (j + 1))
  have hgot := hg.got_le
  have hrwnd := h.rwnd_le
  -- The number names the payload `j` and no other.
  have hstep : g.Receives { g with arrived := arrived', got := got' } := by
    rcases harrives with rfl | ⟨i, hi, hin, hnum, hnew, rfl⟩
    · have hsamegot : got' = g.got := by
        by_contra hne
        exact hall g.got (Nat.le_refl _) (by omega) h.recv.front
      rw [hsamegot]
    · obtain rfl : j = i := by
        rcases Nat.le_total j i with hji | hji
        · have := num_inj irs (j := j + 1) (k := i + 1) (by omega) (by omega) hnum
          omega
        · have := num_inj irs (j := i + 1) (k := j + 1) (by omega) (by omega) hnum.symm
          omega
      exact .single (.arrive hitem hj hnew hle hall hwin.front)
  obtain ⟨g', hsteps, hgot', harrived', hseg⟩ :=
    receives_of_ack iss f { g with arrived := arrived', got := got' } hwin.rcvCur hout
  refine ⟨c', out, g', hrun, hstep.trans hsteps, h.answered (hstep.trans hsteps)
    (by rw [hgot', harrived']; exact hwin) hsame ?_ hseg⟩
  have hfront : bytesBetween g.arrived 0 g.got = bytesBetween arrived' 0 g.got := by
    refine bytesBetween_congr fun i _ hi => ?_
    rcases harrives with rfl | ⟨i', hi', -, -, -, rfl⟩
    · rfl
    · rw [Function.update_of_ne (by omega)]
  rw [hgot', harrived', hqueue, ← List.append_assoc, h.received, hfront,
    bytesBetween_append arrived' (Nat.zero_le _) hle]

end EndView

/-- `in_state_open` on a segment outside the receive window: it answers with an
acknowledgement. -/
theorem inStateOpen_outside {c : RdpCon} {pbuf : Packetbuf}
    (hout : (RdpHead.decode pbuf.data).seqnum - c.rcvCur - 1 ≥ c.rcvMax * 2) (clock : Int)
    (addr : RdpAddr) :
    c.inStateOpen clock addr pbuf
      = .ok ({ c with rcvAck := c.rcvCur, ackedTime := clock }, [c.emit (c.ackHead addr).encode],
          none) := by
  rw [RdpCon.inStateOpen]
  exact if_pos hout

/-- `in_state_open` on a segment inside the window that carries an acknowledgement
and neither RST, NUL nor SYN. -/
theorem inStateOpen_inside {c : RdpCon} {pbuf : Packetbuf} {head : RdpHead}
    (hhead : RdpHead.decode pbuf.data = head) (hin : ¬ head.seqnum - c.rcvCur - 1 ≥ c.rcvMax * 2)
    (hrst : head.has flagRst = false) (hnul : head.has flagNul = false)
    (hsyn : head.has flagSyn = false) (hack : head.has flagAck = true) (clock : Int)
    (addr : RdpAddr) :
    c.inStateOpen clock addr pbuf = c.recvAck clock head.acknum >>= fun r =>
      (if head.has flagEak then RdpCon.eackLoop pbuf.view (RdpCon.eackCount head.hlen) 0 r.1
        else .ok r.1) >>= fun c₂ =>
      if head.dlen.toNat > 0 ∧ head.dlen.toNat + head.hlen.toNat * 2 = pbuf.getLen then
        c₂.rwndRecvData clock (pbuf.rmHead (head.hlen.toNat * 2)) head.seqnum >>= fun r₃ =>
        .ok (r₃.1, r.2 ++ r₃.2, if r₃.1.rqueue ≠ [] then some .ready2read else none)
      else
        .ok (c₂, r.2, none) := by
  subst hhead
  rw [RdpCon.inStateOpen]
  simp only [if_neg hin, hrst, hnul, hsyn, hack, if_true, Bool.false_eq_true, if_false]
  congr 1
  funext r
  cases (RdpHead.decode pbuf.data).has flagEak <;> rfl

/-- The code reads back how many numbers a header announces. -/
theorem eackCount_ackHeadOf {n : Nat} (h : n ≤ maxEack) (addr : RdpAddr) (seq ack : BitVec 32) :
    RdpCon.eackCount (ackHeadOf addr seq ack n).hlen = n := by
  have hall : ∀ n : Fin 65, RdpCon.eackCount (10 + BitVec.ofNat 8 (4 * n.val / 2)) = n.val := by
    decide
  exact hall ⟨n, Nat.lt_succ_of_le h⟩

/-- The flags of an acknowledgement. -/
theorem has_ackHeadOf (addr : RdpAddr) (seq ack : BitVec 32) (n : Nat) :
    (ackHeadOf addr seq ack n).has flagRst = false ∧
    (ackHeadOf addr seq ack n).has flagNul = false ∧
      (ackHeadOf addr seq ack n).has flagSyn = false ∧
      (ackHeadOf addr seq ack n).has flagAck = true ∧
      (ackHeadOf addr seq ack n).has flagEak = decide (n ≠ 0) := by
  have hflag : ∀ (flag : Byte) {b : Bool},
      ((if n = 0 then flagAck ||| flagVer else flagAck ||| flagVer ||| flagEak) &&& flag != 0) = b →
      (ackHeadOf addr seq ack n).has flag = b := fun _ _ hb => RdpHead.has_of_flags rfl hb
  by_cases hn : n = 0
  · simp only [if_pos hn] at hflag
    exact ⟨hflag _ (by decide), hflag _ (by decide), hflag _ (by decide), hflag _ (by decide),
      by simpa [hn] using hflag (b := false) flagEak (by decide)⟩
  · simp only [if_neg hn] at hflag
    exact ⟨hflag _ (by decide), hflag _ (by decide), hflag _ (by decide), hflag _ (by decide),
      by simpa [hn] using hflag (b := true) flagEak (by decide)⟩

/-- The flags of a data segment. -/
theorem has_dataHeadOf (addr : RdpAddr) (len : Nat) (seq ack : BitVec 32) :
    (dataHeadOf addr len seq ack).has flagRst = false ∧
      (dataHeadOf addr len seq ack).has flagNul = false ∧
      (dataHeadOf addr len seq ack).has flagSyn = false ∧
      (dataHeadOf addr len seq ack).has flagAck = true ∧
      (dataHeadOf addr len seq ack).has flagEak = false := by
  have hflag : ∀ (flag : Byte) {b : Bool}, ((flagAck ||| flagVer) &&& flag != 0) = b →
      (dataHeadOf addr len seq ack).has flag = b := fun _ _ hb => RdpHead.has_of_flags rfl hb
  exact ⟨hflag _ (by decide), hflag _ (by decide), hflag _ (by decide), hflag _ (by decide),
    hflag _ (by decide)⟩

namespace EndView

/-- What an acknowledgement lets the sender send is at most one window. -/
theorem sent_lt {f' : Flow (List Byte)} {e' : End} (h' : EndView iss irs f' g e') (hf : f.Inv)
    (hsteps : f.Sends f') (hlt : f.nxt < 2 ^ 31) : f'.nxt < 2 ^ 32 := by
  have huna : f'.una ∈ f.acks := by
    rw [← (Flow.SendFrame.of_steps hsteps).acks]
    exact (hf.sendSteps hsteps).una
  have := hf.ack_le huna
  have := h'.send.window
  have := h'.send.max_lt
  omega

/-- A segment outside the receive window arrives: it is acknowledged. -/
theorem arriveOutside (h : EndView iss irs f g e) {pbuf : Packetbuf}
    (hout : (RdpHead.decode pbuf.data).seqnum - e.con.rcvCur - 1 ≥ e.con.rcvMax * 2) (clock : Int)
    (addr : RdpAddr) :
    ∃ c out ev g', e.con.inStateOpen clock addr pbuf = .ok (c, out, ev) ∧ g.Receives g' ∧
      EndView iss irs f g' (e.emits c out) := by
  have hack : g.Receives { g with acks := insert g.got g.acks } := .single .ack
  refine ⟨_, _, _, _, inStateOpen_outside hout clock addr, hack,
    h.answered hack ?_ rfl h.received ?_⟩
  · exact ⟨{ h.recv.toRecvRing with }, h.recv.front⟩
  · intro em hem
    obtain rfl := List.mem_singleton.mp hem
    rw [RdpCon.emit, ackHead_eq, h.recv.rcvCur]
    have hnone : ∀ j ∈ ([] : List Nat),
        j ∈ ({ g with acks := insert g.got g.acks } : Flow (List Byte)).eacks := by simp
    exact .ack (Set.mem_insert _ _) hnone (Nat.zero_le _)

/-- An acknowledgement of the other end arrives inside the receive window. -/
theorem arriveAck (h : EndView iss irs f g e) (hf : f.Inv) (hlt : f.nxt < 2 ^ 31)
    {addr' : RdpAddr} {seq : BitVec 32} {a : Nat} {js : List Nat} (ha : a ∈ f.acks)
    (hjs : ∀ j ∈ js, j ∈ f.eacks) (hlen : js.length ≤ maxEack) {pbuf : Packetbuf}
    (hdata : pbuf.data = ackSegment addr' seq (num iss a) (js.map fun j => num iss (j + 1)))
    (hin : ¬ seq - e.con.rcvCur - 1 ≥ e.con.rcvMax * 2) (clock : Int) (addr : RdpAddr) :
    ∃ c out ev f' g', e.con.inStateOpen clock addr pbuf = .ok (c, out, ev) ∧ f.Sends f' ∧
      g.Receives g' ∧ EndView iss irs f' g' (e.emits c out) := by
  have hhead : RdpHead.decode pbuf.data = ackHeadOf addr' seq (num iss a) js.length := by
    rw [hdata, ackSegment, RdpHead.decode_encode, List.length_map]
  obtain ⟨hrst, hnul, hsyn, hack, heak⟩ := has_ackHeadOf addr' seq (num iss a) js.length
  obtain ⟨c₁, out₁, f', g', hrun, hf', hg', h₁, -⟩ := h.recvAck hf (by omega) ha clock
  -- The numbers behind the header are the selective acknowledgements.
  have hview : ∀ k j, js[k]? = some j →
      rd32 pbuf.view (sizeofHead + 4 * (0 + k)) = num iss (j + 1) := by
    intro k j hk
    have hkl := (List.getElem?_eq_some_iff.mp hk).1
    have hread := rd32_wr32s (ackHeadOf addr' seq (num iss a) js.length).encode pbuf.tail
      (js.map fun j => num iss (j + 1)) k (by rwa [List.length_map])
    rw [List.getElem_map, (List.getElem?_eq_some_iff.mp hk).2, RdpHead.length_encode] at hread
    rw [Packetbuf.view, hdata, ackSegment, List.length_map, List.append_assoc, Nat.zero_add, hread]
  obtain ⟨c₂, hloop, h₂, -⟩ := h₁.eackLoop (i := 0) js (hf.sendSteps hf') (h₁.sent_lt hf hf' hlt)
    (fun j hj => by
      rw [(Flow.SendFrame.of_steps hf').eacks]
      exact hjs j hj) hview
  -- The source runs the loop under the flag EAK, which stands where there are numbers.
  have heacks : (if (ackHeadOf addr' seq (num iss a) js.length).has flagEak then
      RdpCon.eackLoop pbuf.view
        (RdpCon.eackCount (ackHeadOf addr' seq (num iss a) js.length).hlen) 0 c₁
      else .ok c₁) = .ok c₂ := by
    rw [heak, eackCount_ackHeadOf hlen]
    cases js with
    | nil => exact hloop
    | cons j js => exact hloop
  refine ⟨c₂, out₁, none, f', g', ?_, hf', hg', h₂⟩
  -- An acknowledgement carries no data.
  have hdlen : ¬ ((ackHeadOf addr' seq (num iss a) js.length).dlen.toNat > 0 ∧
      (ackHeadOf addr' seq (num iss a) js.length).dlen.toNat
        + (ackHeadOf addr' seq (num iss a) js.length).hlen.toNat * 2 = pbuf.getLen) :=
    fun hd => absurd hd.1 (Nat.lt_irrefl 0)
  rw [inStateOpen_inside hhead hin hrst hnul hsyn hack,
    show (ackHeadOf addr' seq (num iss a) js.length).acknum = num iss a from rfl, hrun, ok_bind,
    heacks, ok_bind, if_neg hdlen]

/-- A payload of the other end arrives inside the receive window. -/
theorem arriveData (h : EndView iss irs f g e) (hf : f.Inv) (hg : g.Inv) (hfl : f.nxt < 2 ^ 31)
    (hgl : g.nxt < 2 ^ 31) {addr' : RdpAddr} {j a : Nat} {payload : List Byte} (ha : a ∈ f.acks)
    (hj : j < g.nxt) (hitem : g.items[j]? = some payload) (hok : PayloadOk payload)
    {pbuf : Packetbuf} (hdata : pbuf.data = dataSegment addr' payload (num irs (j + 1)) (num iss a))
    (hin : ¬ num irs (j + 1) - e.con.rcvCur - 1 ≥ e.con.rcvMax * 2) (clock : Int)
    (addr : RdpAddr) :
    ∃ c out ev f' g', e.con.inStateOpen clock addr pbuf = .ok (c, out, ev) ∧ f.Sends f' ∧
      g.Receives g' ∧ EndView iss irs f' g' (e.emits c out) := by
  have hhead : RdpHead.decode pbuf.data
      = dataHeadOf addr' payload.length (num irs (j + 1)) (num iss a) := by
    rw [hdata, dataSegment, RdpHead.decode_encode]
  obtain ⟨hrst, hnul, hsyn, hack, heak⟩ :=
    has_dataHeadOf addr' payload.length (num irs (j + 1)) (num iss a)
  obtain ⟨c₁, out₁, f', g', hrun, hf', hg', h₁, -⟩ := h.recvAck hf (by omega) ha clock
  -- The length field is 16 bit wide, and a payload fits.
  have hlen : (BitVec.ofNat 16 payload.length).toNat = payload.length := by
    rw [BitVec.toNat_ofNat]
    exact Nat.mod_eq_of_lt (Nat.lt_of_le_of_lt hok.2 (by decide))
  have hrest : (pbuf.rmHead 20).data = payload := by
    rw [Packetbuf.rmHead_data (by rw [hdata, dataSegment]; simp [sizeofHead]), hdata]
    rfl
  have hframe := Flow.RecvFrame.of_steps hg'
  obtain ⟨c₃, out₃, g'', hrecv, hg'', h₃⟩ := h₁.rwndRecvData (hg.recvSteps hg')
    (by rw [hframe.nxt]; exact hgl) (pbuf.rmHead 20) (by rw [hframe.nxt]; exact hj)
    (by rw [hframe.items, hrest]; exact hitem) clock
  rw [emits_emits] at h₃
  refine ⟨c₃, out₁ ++ out₃, if c₃.rqueue ≠ [] then some .ready2read else none, f', g'', ?_, hf',
    hg'.trans hg'', h₃⟩
  have hdlen : (dataHeadOf addr' payload.length (num irs (j + 1)) (num iss a)).dlen.toNat > 0 ∧
      (dataHeadOf addr' payload.length (num irs (j + 1)) (num iss a)).dlen.toNat
        + (dataHeadOf addr' payload.length (num irs (j + 1)) (num iss a)).hlen.toNat * 2
        = pbuf.getLen := by
    refine ⟨by rw [show (dataHeadOf addr' payload.length (num irs (j + 1)) (num iss a)).dlen
      = BitVec.ofNat 16 payload.length from rfl, hlen]; exact hok.1, ?_⟩
    rw [show (dataHeadOf addr' payload.length (num irs (j + 1)) (num iss a)).dlen
      = BitVec.ofNat 16 payload.length from rfl, hlen, Packetbuf.getLen, hdata, dataSegment,
      List.length_append, RdpHead.length_encode, Nat.add_comm]
    rfl
  rw [inStateOpen_inside hhead hin hrst hnul hsyn hack,
    show (dataHeadOf addr' payload.length (num irs (j + 1)) (num iss a)).acknum = num iss a
      from rfl,
    hrun, ok_bind, heak, if_neg Bool.false_ne_true, ok_bind, if_pos hdlen]
  show (c₁.rwndRecvData clock (pbuf.rmHead 20) (num irs (j + 1)) >>= _) = _
  rw [show c₁.rwndRecvData clock (pbuf.rmHead 20) (num irs (j + 1)) = _ from hrecv, ok_bind]

/-- A segment of the other end arrives. -/
theorem stepArrive (h : EndView iss irs f g e) (hf : f.Inv) (hg : g.Inv) (hfl : f.nxt < 2 ^ 31)
    (hgl : g.nxt < 2 ^ 31) {pbuf : Packetbuf} (hseg : NetSegment irs iss g f pbuf.data)
    (clock : Int) (addr : RdpAddr) :
    ∃ e' f' g', e.step (.arrive clock addr pbuf) = .ok e' ∧ f.Sends f' ∧ g.Receives g' ∧
      EndView iss irs f' g' e' := by
  obtain ⟨c, out, ev, f', g', hrun, hf', hg', h'⟩ : ∃ c out ev f' g',
      e.con.inStateOpen clock addr pbuf = .ok (c, out, ev) ∧ f.Sends f' ∧ g.Receives g' ∧
        EndView iss irs f' g' (e.emits c out) := by
    by_cases hout : (RdpHead.decode pbuf.data).seqnum - e.con.rcvCur - 1 ≥ e.con.rcvMax * 2
    · obtain ⟨c, out, ev, g', hrun, hg', h'⟩ := h.arriveOutside hout clock addr
      exact ⟨c, out, ev, f, g', hrun, .refl, hg', h'⟩
    · generalize hdata : pbuf.data = seg at hseg hout
      cases hseg with
      | data hj hitem hok ha =>
        rw [dataSegment, RdpHead.decode_encode] at hout
        exact h.arriveData hf hg hfl hgl ha hj hitem hok hdata hout clock addr
      | ack ha hjs hlen =>
        rw [ackSegment, RdpHead.decode_encode] at hout
        exact h.arriveAck hf hfl ha hjs hlen hdata hout clock addr
  exact ⟨_, f', g', by rw [End.step, hrun]; rfl, hf', hg', h'⟩

end EndView

/-! ### Runs -/

namespace EndView

/-- Every call of an end is a run of the sender of its first flow and of the receiver
of its second. -/
theorem step (h : EndView iss irs f g e) (hf : f.Inv) (hg : g.Inv) (hfl : f.nxt < 2 ^ 31)
    (hgl : g.nxt < 2 ^ 31) {net : List (List Byte)}
    (hnet : ∀ seg ∈ net, NetSegment irs iss g f seg) {act : Act} (hsent : act.SentBy net) :
    ∃ e' f' g', e.step act = .ok e' ∧ f.Sends f' ∧ g.Receives g' ∧ EndView iss irs f' g' e' := by
  cases act with
  | send clock buf => exact h.stepSend clock buf
  | receive len =>
    obtain ⟨e', hstep, h'⟩ := h.stepReceive len
    exact ⟨e', f, g, hstep, .refl, .refl, h'⟩
  | arrive clock addr pbuf => exact h.stepArrive hf hg hfl hgl (hnet _ hsent) clock addr
  | retransmit clock maxRetrans =>
    obtain ⟨e', g', hstep, hg', h'⟩ := h.stepRetransmit clock maxRetrans
    exact ⟨e', f, g', hstep, .refl, hg', h'⟩
  | delayedAck clock =>
    obtain ⟨e', g', hstep, hg', h'⟩ := h.stepDelayedAck clock
    exact ⟨e', f, g', hstep, .refl, hg', h'⟩

end EndView

/-- Both ends and the two flows between them. -/
structure ExchangeView (iss irs : BitVec 32) (f g : Flow (List Byte)) (s : Exchange) : Prop where
  sends : f.Inv
  receives : g.Inv
  left : EndView iss irs f g s.left
  right : EndView irs iss g f s.right

namespace ExchangeView

variable {s s' : Exchange}

/-- The left end can make any call, and the view goes on. -/
theorem stepLeft (h : ExchangeView iss irs f g s) (hshort : s.Short) {act : Act}
    (hsent : act.SentBy s.right.net) :
    ∃ e f' g', s.left.step act = .ok e ∧ ExchangeView iss irs f' g' { s with left := e } := by
  obtain ⟨e, f', g', hstep, hf, hg, h'⟩ := h.left.step h.sends h.receives
    (Nat.lt_of_le_of_lt h.left.nxt_le hshort.1) (Nat.lt_of_le_of_lt h.right.nxt_le hshort.2)
    h.right.net hsent
  exact ⟨e, f', g', hstep, h.sends.sendSteps hf, h.receives.recvSteps hg, h',
    h.right.mono (.of_steps hg) (.of_steps hf)⟩

/-- The right end can make any call, and the view goes on. -/
theorem stepRight (h : ExchangeView iss irs f g s) (hshort : s.Short) {act : Act}
    (hsent : act.SentBy s.left.net) :
    ∃ e f' g', s.right.step act = .ok e ∧ ExchangeView iss irs f' g' { s with right := e } := by
  obtain ⟨e, g', f', hstep, hg, hf, h'⟩ := h.right.step h.receives h.sends
    (Nat.lt_of_le_of_lt h.right.nxt_le hshort.2) (Nat.lt_of_le_of_lt h.left.nxt_le hshort.1)
    h.left.net hsent
  exact ⟨e, f', g', hstep, h.sends.recvSteps hf, h.receives.sendSteps hg,
    h.left.mono (.of_steps hf) (.of_steps hg), h'⟩

theorem step (h : ExchangeView iss irs f g s) (hshort : s.Short)
    (hstep : Exchange.Step s s') : ∃ f' g', ExchangeView iss irs f' g' s' := by
  cases hstep with
  | left _ hsent hrun =>
    obtain ⟨e, f', g', hrun', h'⟩ := h.stepLeft hshort hsent
    obtain rfl := Except.ok.inj (hrun.symm.trans hrun')
    exact ⟨f', g', h'⟩
  | right _ hsent hrun =>
    obtain ⟨e, f', g', hrun', h'⟩ := h.stepRight hshort hsent
    obtain rfl := Except.ok.inj (hrun.symm.trans hrun')
    exact ⟨f', g', h'⟩

/-- What an end received is what its flow handed over. -/
theorem received_prefix {e e' : End} (h : EndView iss irs f g e) (hg : g.Inv)
    (h' : EndView irs iss g f e') : e.received <+: e'.accepted := by
  have hhanded : bytesBetween g.arrived 0 g.got = (g.items.take g.got).flatten := by
    rw [bytesBetween]
    congr 1
    refine List.ext_getElem? fun i => ?_
    rw [Nat.sub_zero, List.getElem?_map, List.getElem?_take]
    by_cases hi : i < g.got
    · have hlen : i < g.items.length :=
        Nat.lt_of_lt_of_le hi (Nat.le_trans hg.got_le hg.nxt_le)
      rw [if_pos hi, List.getElem?_range' hi, List.getElem?_eq_getElem hlen]
      simp [hg.handedOver hi, List.getElem?_eq_getElem hlen]
    · rw [if_neg hi, List.getElem?_eq_none (by simpa using hi)]
      rfl
  rw [h'.accepted]
  calc e.received <+: e.received ++ queued e.con := List.prefix_append _ _
    _ = (g.items.take g.got).flatten := h.received.trans hhanded
    _ <+: g.items.flatten := by
      conv_rhs => rw [← List.take_append_drop g.got g.items, List.flatten_append]
      exact List.prefix_append _ _

end ExchangeView

/-- No call takes back a segment. -/
theorem step_net {e e' : End} {act : Act} (h : e.step act = .ok e') :
    e.net.length ≤ e'.net.length := by
  cases act with
  | receive len =>
    obtain rfl := Except.ok.inj h
    exact Nat.le_refl _
  | send | arrive | retransmit | delayedAck =>
    obtain ⟨_, -, hret⟩ := bind_eq_ok h
    obtain rfl := Except.ok.inj hret
    show e.net.length ≤ (e.net ++ _).length
    rw [List.length_append]
    exact Nat.le_add_right _ _

/-- A later state has sent at least as much. -/
theorem short_of_step {s s' : Exchange} (hshort : s'.Short)
    (hstep : Exchange.Step s s') : s.Short := by
  cases hstep with
  | left _ _ hrun => exact ⟨Nat.lt_of_le_of_lt (step_net hrun) hshort.1, hshort.2⟩
  | right _ _ hrun => exact ⟨hshort.1, Nat.lt_of_le_of_lt (step_net hrun) hshort.2⟩

/-- The view goes on over whole runs. -/
theorem ExchangeView.run {s s' : Exchange} (h : ExchangeView iss irs f g s)
    (hrun : s.Reaches s') (hshort : s'.Short) :
    ∃ f' g', ExchangeView iss irs f' g' s' := by
  induction hrun with
  | refl => exact ⟨f, g, h⟩
  | tail _ hstep ih =>
    have hbefore := short_of_step hshort hstep
    obtain ⟨f', g', h'⟩ := ih hbefore
    exact h'.step hbefore hstep

/-! ### A fresh connection -/

/-- An end takes part in two fresh flows, as long as its limits fit the rings. -/
theorem endView_fresh {c : RdpCon} (hmin : 2 ≤ c.sndMax.toNat) (hmax : c.sndMax.toNat < 2 ^ 29)
    (hpos : 0 < (c.rcvMax * 2).toNat) (hlen : (c.rcvMax * 2).toNat ≤ 2 ^ 31)
    (hsbuf : c.sbufMax = sbufLimit) (hnxt : c.sndNxt = iss + 1) (huna : c.sndUna = iss)
    (hcur : c.rcvCur = irs) (hqueue : c.rqueue = []) (uninit : Uninit) :
    EndView iss irs Flow.init Flow.init (End.start uninit c) := by
  have hsend := initSwnd_spec (c := c.initRwnd uninit) hmin hmax
    (by show c.sndNxt = c.sndUna + 1; rw [hnxt, huna]) uninit
  have hrecv := initRwnd_spec (c := c) hpos uninit
  rw [show (c.initRwnd uninit).sndUna = iss from huna] at hsend
  rw [hcur] at hrecv
  refine ⟨hsend.mono fun _ _ hmark => hmark.elim, ?_, hlen, hsbuf, by simp [Flow.init], rfl, ?_,
    by simp [End.start], Nat.le_refl 0⟩
  · exact ⟨{ hrecv.toRecvRing with }, hrecv.front⟩
  · show [] ++ queued ((c.initRwnd uninit).initSwnd uninit) = _
    rw [queued, show ((c.initRwnd uninit).initSwnd uninit).rqueue = [] from hqueue]
    rfl

/-- An end at the start takes part in two fresh flows. -/
theorem endView_start {c : RdpCon} (h : Opened iss irs c) (uninit : Uninit) :
    EndView iss irs Flow.init Flow.init (End.start uninit c) := by
  have hmax : c.sndMax.toNat = 1024 := by rw [h.sndMax]; rfl
  have hlen : (c.rcvMax * 2).toNat = 2048 := by rw [h.rcvMax]; rfl
  exact endView_fresh (by omega) (by omega) (by omega) (by omega) h.sbufMax h.sndNxt h.sndUna
    h.rcvCur h.rqueue uninit

theorem exchangeView_start {a b : RdpCon} (ha : Opened iss irs a) (hb : Opened irs iss b)
    (uninit uninit' : Uninit) :
    ExchangeView iss irs Flow.init Flow.init (Exchange.start uninit uninit' a b) :=
  ⟨Flow.inv_init, Flow.inv_init, endView_start ha uninit, endView_start hb uninit'⟩

end

/-- Take two open ends of one connection with matching numbers, and any run in which
they call `send`, `receive`, `in_state_open`, `retransmit` and `delayed_ack` in any
order over a network that loses, repeats and reorders segments. While each side sent
fewer than 2^31 segments, what one side received is a prefix of what the other side
accepted. -/
theorem stream_prefix {iss irs : BitVec 32} {a b : RdpCon} (ha : Opened iss irs a)
    (hb : Opened irs iss b) (uninit uninit' : Uninit) {s : Exchange}
    (hrun : (Exchange.start uninit uninit' a b).Reaches s) (hshort : s.Short) :
    s.left.received <+: s.right.accepted ∧ s.right.received <+: s.left.accepted := by
  obtain ⟨f, g, h⟩ := (exchangeView_start ha hb uninit uninit').run hrun hshort
  exact ⟨ExchangeView.received_prefix h.left h.receives h.right,
    ExchangeView.received_prefix h.right h.sends h.left⟩

/-- A record after the handshake, with both initial numbers zero. -/
def openedCon : RdpCon :=
  { (default : RdpCon) with
    state := .opened, sndMax := rcvMaxDefault, rcvMax := rcvMaxDefault, sbufMax := sbufLimit,
    sndNxt := 1 }

/-- The packet that carries one byte from such a record. -/
def oneByte : Packetbuf := ⟨128, dataSegment default [0x61] 1 0, [], by decide⟩

/-- The theorem where one side sends a byte and the other side takes it in. -/
theorem stream_prefix_oneByte :
    ∃ s : Exchange, (Exchange.start default default openedCon openedCon).Reaches s ∧
      s.left.accepted = [0x61] ∧ s.right.received = [0x61] ∧
      s.left.received <+: s.right.accepted ∧ s.right.received <+: s.left.accepted := by
  have hcalls : (do
      let e ← (End.start default openedCon).step (.send 0 [0x61])
      let r ← (End.start default openedCon).step (.arrive 0 default oneByte)
      let r' ← r.step (.receive 100)
      return (e.accepted, e.net, r'.received, r'.net) : Except Fault _)
        = .ok ([0x61], [oneByte.data], [0x61], []) := by
    decide +kernel
  obtain ⟨e, hsend, hcalls⟩ := bind_eq_ok hcalls
  obtain ⟨r, harrive, hcalls⟩ := bind_eq_ok hcalls
  obtain ⟨r', hreceive, hcalls⟩ := bind_eq_ok hcalls
  simp only [pure, Except.pure, Except.ok.injEq, Prod.mk.injEq] at hcalls
  obtain ⟨haccepted, hnet, hreceived, hnet'⟩ := hcalls
  have hrun : (Exchange.start default default openedCon openedCon).Reaches ⟨e, r'⟩ :=
    .tail (.tail (.single (.left (.send 0 [0x61]) trivial hsend))
      (.right (.arrive 0 default oneByte) (by rw [hnet]; exact List.mem_singleton_self _)
        harrive)) (.right (.receive 100) trivial hreceive)
  refine ⟨_, hrun, haccepted, hreceived, ?_⟩
  have hopened : Opened 0 0 openedCon := ⟨rfl, rfl, rfl, rfl, rfl, rfl, rfl, rfl, rfl, rfl⟩
  exact stream_prefix hopened hopened default default hrun
    ⟨by rw [hnet]; decide, by rw [hnet']; decide⟩

/-- On such a run no call faults. -/
theorem stream_step {iss irs : BitVec 32} {a b : RdpCon} (ha : Opened iss irs a)
    (hb : Opened irs iss b) (uninit uninit' : Uninit) {s : Exchange}
    (hrun : (Exchange.start uninit uninit' a b).Reaches s) (hshort : s.Short)
    {act : Act} :
    (act.SentBy s.right.net → ∃ e, s.left.step act = .ok e) ∧
      (act.SentBy s.left.net → ∃ e, s.right.step act = .ok e) := by
  obtain ⟨f, g, h⟩ := (exchangeView_start ha hb uninit uninit').run hrun hshort
  refine ⟨fun hsent => ?_, fun hsent => ?_⟩
  · obtain ⟨e, f', g', hstep, -⟩ := h.stepLeft hshort hsent
    exact ⟨e, hstep⟩
  · obtain ⟨e, f', g', hstep, -⟩ := h.stepRight hshort hsent
    exact ⟨e, hstep⟩

end Libcage.Proofs.Rdp
