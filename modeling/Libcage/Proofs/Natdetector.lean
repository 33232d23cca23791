import Mathlib.Data.Finset.Basic
import Libcage.Lib.Index
import Libcage.Lib.Run
import Libcage.Natdetector

/-!
# `Libcage.Proofs.Natdetector`: a detector that waits for something

In a waiting state the detector has a timer that is set, or a socket that is open, so that
it does not wait for ever. A packet to the socket ends the wait, whatever it is, but for one
that is as long as a reply and has another type: the socket is closed and the state stays.
`waitsForSomething_iff` says that only such a packet leaves the detector waiting for nothing.
-/

set_option autoImplicit false

namespace Libcage.Proofs.Natdetector

open Libcage.Lib
open Libcage.Rdp (Id Table)
open Libcage.Dht (Saddr)

/-- A waiting state has the timer of the pending echo, or a socket. -/
structure WaitsForSomething (s : Natdetector) : Prop where
  timer : s.state = .echoWait1 ∨ s.state = .echoWait2 → s.timers.lookup s.pending ≠ none
  socket : s.state = .echoRedirectWait → s.udps.Nonempty

/-- While the detector waits for a reply to its last open socket, a packet of the length of a
reply is one by its type. -/
def ReplyByType (s : Natdetector) : Natdetector.Input → Prop
  | .receiverPacket nonce pbuf => s.state = .echoRedirectWait → s.udps = {nonce} →
      pbuf.length = sizeofEchoRedirectReply →
        (MsgHdr.decode pbuf).type = typeNatEchoRedirectReply
  | _ => True

section
variable {s : Natdetector}

/-! ### The functions -/

/-- The states in which the detector waits. -/
def isWaiting : NatState → Bool
  | .echoWait1 => true
  | .echoRedirectWait => true
  | .echoWait2 => true
  | _ => false

/-- A state in which nothing is waited for. -/
theorem waits_of_state (h : isWaiting s.state = false) : WaitsForSomething s := by
  refine ⟨fun hwait => ?_, fun hwait => ?_⟩
  · rcases hwait with hwait | hwait
    · rw [hwait] at h
      cases h
    · rw [hwait] at h
      cases h
  · rw [hwait] at h
    cases h

theorem waits_getEcho (s : Natdetector) (dst : Option Saddr) (nonce : BitVec 32) :
    WaitsForSomething (s.getEcho dst nonce) := by
  unfold Natdetector.getEcho
  cases dst with
  | none => exact ⟨fun _ => by simp, fun h => nomatch h⟩
  | some dst => exact ⟨fun _ => by simp [Natdetector.call], fun h => nomatch h⟩

theorem waits_detectNat (h : WaitsForSomething s) (dst : Option Saddr) (nonce : BitVec 32) :
    WaitsForSomething (s.detectNat dst nonce) := by
  unfold Natdetector.detectNat
  split
  · exact h
  · exact waits_getEcho s dst nonce

theorem waits_detectNatType (h : WaitsForSomething s) (saddr1 saddr2 : Saddr)
    (nonce : BitVec 32) : WaitsForSomething (s.detectNatType saddr1 saddr2 nonce) := by
  unfold Natdetector.detectNatType
  split
  · exact h
  · exact ⟨fun _ => by simp, fun h => nomatch h⟩

theorem waits_onTimerNat (h : WaitsForSomething s) (peers : List Inet) (nonce : BitVec 32) :
    WaitsForSomething (s.onTimerNat peers nonce) := by
  unfold Natdetector.onTimerNat
  split
  · exact ⟨h.timer, h.socket⟩
  · split
    · exact h
    · split
      · exact h
      · split
        · exact waits_detectNat h _ nonce
        · split
          · exact h
          · exact waits_detectNatType h _ _ nonce

theorem waits_detect (h : WaitsForSomething s) (host : Option Saddr) (nonce : BitVec 32) :
    WaitsForSomething (s.detect host nonce) := by
  unfold Natdetector.detect
  split
  · exact waits_of_state rfl
  · split
    · exact h
    · have hwaits := waits_detectNat h host nonce
      exact ⟨hwaits.timer, hwaits.socket⟩

theorem waits_recvEchoReplyWait1 (h : WaitsForSomething s) (reply : MsgNatEchoReply)
    (from_ : Sockaddr) (nonce2 : BitVec 32) (port : BitVec 16) :
    WaitsForSomething (s.recvEchoReplyWait1 reply from_ nonce2 port) := by
  unfold Natdetector.recvEchoReplyWait1
  split
  · exact h
  · refine ⟨fun hwait => ?_, fun _ => Finset.insert_nonempty ..⟩
    rcases hwait with hwait | hwait
    · cases hwait
    · cases hwait

theorem waits_recvEchoReplyWait2 (h : WaitsForSomething s) (reply : MsgNatEchoReply) :
    WaitsForSomething (s.recvEchoReplyWait2 reply) := by
  unfold Natdetector.recvEchoReplyWait2
  dsimp only
  split
  · exact h
  · split
    · exact ⟨h.timer, h.socket⟩
    · split
      · exact waits_of_state rfl
      · exact waits_of_state rfl

theorem waits_recvEchoReply (h : WaitsForSomething s) (reply : MsgNatEchoReply)
    (from_ : Sockaddr) (nonce2 : BitVec 32) (port : BitVec 16) :
    WaitsForSomething (s.recvEchoReply reply from_ nonce2 port) := by
  unfold Natdetector.recvEchoReply
  have hfirst : WaitsForSomething
      (if s.state = .echoWait1 then s.recvEchoReplyWait1 reply from_ nonce2 port else s) := by
    split
    · exact waits_recvEchoReplyWait1 h reply from_ nonce2 port
    · exact h
  generalize (if s.state = .echoWait1 then s.recvEchoReplyWait1 reply from_ nonce2 port else s) = s'
    at hfirst
  dsimp only
  split
  · exact waits_recvEchoReplyWait2 hfirst reply
  · exact hfirst

/-- A reply to the socket ends the wait. -/
theorem recvEchoRedirectReply_state (s : Natdetector) (msg : List Byte) :
    (s.recvEchoRedirectReply msg).state = .undefined ∨
      (s.recvEchoRedirectReply msg).state = .global := by
  unfold Natdetector.recvEchoRedirectReply
  split
  · exact Or.inl rfl
  · split
    · exact Or.inl rfl
    · exact Or.inr rfl

theorem waits_receiverPacket (h : WaitsForSomething s) (nonce : BitVec 32) (pbuf : List Byte)
    (hok : ReplyByType s (.receiverPacket nonce pbuf)) :
    WaitsForSomething (s.receiverPacket nonce pbuf) := by
  unfold Natdetector.receiverPacket
  by_cases hlen : pbuf.length = sizeofEchoRedirectReply
  · by_cases htype : (MsgHdr.decode pbuf).type = typeNatEchoRedirectReply
    · simp only [if_pos hlen, if_pos htype]
      rcases recvEchoRedirectReply_state s pbuf with hstate | hstate
      · exact waits_of_state (by simp [hstate, isWaiting])
      · exact waits_of_state (by simp [hstate, isWaiting])
    · -- The state stays, and another socket is open.
      simp only [if_pos hlen, if_neg htype]
      refine ⟨h.timer, fun hwait => ?_⟩
      by_contra hclosed
      have hnone : s.udps.erase nonce = ∅ := Finset.not_nonempty_iff_eq_empty.mp hclosed
      have hsub : s.udps ⊆ {nonce} := by
        intro n hn
        by_contra hne
        have hin := Finset.mem_erase.mpr ⟨fun heq => hne (Finset.mem_singleton.mpr heq), hn⟩
        rw [hnone] at hin
        exact absurd hin (Finset.notMem_empty n)
      rcases Finset.subset_singleton_iff.mp hsub with hempty | hone
      · exact absurd (h.socket hwait) (by simp [hempty])
      · exact htype (hok hwait hone hlen)
  · simp only [if_neg hlen]
    exact waits_of_state rfl

/-! ### One event -/

theorem waits_handle (h : WaitsForSomething s) (i : Natdetector.Input) (hok : ReplyByType s i) :
    WaitsForSomething (s.handle i) := by
  cases i with
  | detect host nonce => exact waits_detect h host nonce
  | detectNat dst nonce => exact waits_detectNat h dst nonce
  | detectNatType saddr1 saddr2 nonce => exact waits_detectNatType h saddr1 saddr2 nonce
  | timerNat peers nonce =>
    dsimp only [Natdetector.handle]
    split
    · exact waits_onTimerNat h peers nonce
    · exact h
  | timerEcho nonce =>
    dsimp only [Natdetector.handle]
    split
    · exact h
    · exact waits_of_state rfl
    · exact waits_of_state rfl
  | receiverTimeout nonce =>
    dsimp only [Natdetector.handle]
    split
    · exact waits_of_state rfl
    · exact h
  -- The only event for which the type of a packet counts.
  | receiverPacket nonce pbuf =>
    dsimp only [Natdetector.handle]
    split
    · exact waits_receiverPacket h nonce pbuf hok
    · exact h
  | recvEchoReply reply from_ nonce2 port => exact waits_recvEchoReply h reply from_ nonce2 port
  | setStateGlobal =>
    dsimp only [Natdetector.handle]
    exact waits_of_state rfl

/-- A packet of another type closes the last socket, and the state stays. -/
theorem otherType_breaks {i : Natdetector.Input} (hnot : ¬ ReplyByType s i) :
    ¬ WaitsForSomething (s.handle i) := by
  cases i with
  | receiverPacket nonce pbuf =>
    simp only [ReplyByType, not_forall] at hnot
    obtain ⟨hwait, hone, hlen, htype⟩ := hnot
    intro h
    have hin : nonce ∈ s.udps ∧ pbuf ≠ [] := by
      refine ⟨by simp [hone], ?_⟩
      rintro rfl
      cases hlen
    -- The socket is closed before the type is looked at, and no state follows.
    have hhandle : s.handle (.receiverPacket nonce pbuf) =
        { s with udps := s.udps.erase nonce } := by
      simp only [Natdetector.handle, if_pos hin, Natdetector.receiverPacket, if_pos hlen,
        if_neg htype]
    rw [hhandle] at h
    have hopen := h.socket hwait
    rw [hone, Finset.erase_singleton] at hopen
    exact absurd hopen (by simp)
  | detect host nonce => exact absurd trivial hnot
  | detectNat dst nonce => exact absurd trivial hnot
  | detectNatType saddr1 saddr2 nonce => exact absurd trivial hnot
  | timerNat peers nonce => exact absurd trivial hnot
  | timerEcho nonce => exact absurd trivial hnot
  | receiverTimeout nonce => exact absurd trivial hnot
  | recvEchoReply reply from_ nonce2 port => exact absurd trivial hnot
  | setStateGlobal => exact absurd trivial hnot

end

theorem waits_init (id : Id) (isInet6 : Bool) : WaitsForSomething (.init id isInet6) :=
  waits_of_state rfl

/-- The event draws no nonce. -/
theorem fresh_of_not {s : Natdetector} {i : Natdetector.Input} (h : ¬ ReplyByType s i) :
    s.Fresh i := by
  cases i with
  | receiverPacket nonce pbuf => trivial
  | detect host nonce => exact absurd trivial h
  | detectNat dst nonce => exact absurd trivial h
  | detectNatType saddr1 saddr2 nonce => exact absurd trivial h
  | timerNat peers nonce => exact absurd trivial h
  | timerEcho nonce => trivial
  | receiverTimeout nonce => trivial
  | recvEchoReply reply from_ nonce2 port => exact absurd trivial h
  | setStateGlobal => trivial

/-- The detector waits for something in every state of a run, exactly if no packet of the
length of a reply and of another type comes to the last open socket. -/
theorem waitsForSomething_iff (id : Id) (isInet6 : Bool) (inputs : List Natdetector.Input) :
    Always Natdetector.step WaitsForSomething (.init id isInet6) inputs ↔
      Allowed Natdetector.step ReplyByType (.init id isInet6) inputs := by
  refine always_iff_allowed WaitsForSomething (fun _ h => h) ?_ ?_ (waits_init id isInet6) inputs
  · intro s i h hok
    unfold Natdetector.step
    split
    · exact ⟨_, rfl, waits_handle h i hok⟩
    · exact ⟨s, rfl, h⟩
  · intro s i s' _ hnot hstep
    unfold Natdetector.step at hstep
    rw [if_pos (fresh_of_not hnot)] at hstep
    rw [← Except.ok.inj hstep]
    exact otherType_breaks hnot

/-- A server of the detection. -/
def echoServer : Sockaddr := ⟨.inet 5 5, by decide⟩

/-- An echo is answered, and then a packet of zeros as long as a reply comes to the socket. -/
def wrongType : List Natdetector.Input :=
  [.detectNat (some echoServer.1) 1, .recvEchoReply ⟨2, 1, 1, 1, 7, 0⟩ echoServer 3 9,
    .receiverPacket 3 (List.replicate 72 0)]

/-- The detector waits for a reply and has no socket. -/
theorem waits_for_nothing : ¬ ∀ (id : Id) (isInet6 : Bool) (inputs : List Natdetector.Input),
    Always Natdetector.step WaitsForSomething (.init id isInet6) inputs := by
  intro h
  obtain ⟨s, hrun, hwaits⟩ := (h 1 false wrongType).ends
  have hend : (do
      let s ← run Natdetector.step (.init 1 false) wrongType
      return (s.state, s.udps)) = .ok (.echoRedirectWait, ∅) := by
    decide
  rw [hrun] at hend
  obtain ⟨hstate, hudps⟩ := Prod.mk.inj (Except.ok.inj hend)
  have hopen := hwaits.socket hstate
  rw [hudps] at hopen
  exact absurd hopen (by simp)

end Libcage.Proofs.Natdetector
