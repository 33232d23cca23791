import Mathlib.Data.Finset.Card
import Libcage.Lib.Run
import Libcage.NatNetwork

/-!
# `Libcage.Proofs.NatNetwork`: when the address is said to be behind a cone NAT

A cone NAT shows the same port to two servers. The detector keeps the port of the first
answer, and not who gave it, so that the same answer twice looks like two servers that agree.
`twoObservers_iff` says that the runs in which `cone_nat` is concluded from two servers only
are those in which no answer comes a second time from the server that gave the first.
`never_cone_of_ports` is what follows behind a NAT with a port for each server.
-/

set_option autoImplicit false

namespace Libcage.Proofs.NatNetwork

open Libcage.Lib
open Libcage.Rdp (Id Table)
open Libcage.Dht (Saddr)

/-- The port that the detector keeps for its pending echo, and 0 for none. -/
def slot (s : Natdetector) : BitVec 16 := (s.reply.lookup s.pending).getD 0

/-- A step from `echo_wait2` to `cone_nat` takes an answer whose port another server has
reported for the same nonce. -/
def TwoObservers (s : NatNetwork) (i : NatNetwork.Input) (s' : NatNetwork) : Prop :=
  s.node.state = .echoWait2 → s'.node.state = .coneNat →
    ∃ server reply nonce2 port, i = .deliver server reply nonce2 port ∧
      reply.nonce = s.node.pending ∧
      ∃ p ∈ s.heard, p.1 ≠ server ∧ p.2.nonce = reply.nonce ∧ p.2.port = reply.port

/-- An answer to the pending echo that has a port comes from a server that has not reported
this port before. -/
def NewObserver (s : NatNetwork) : NatNetwork.Input → Prop
  | .deliver server reply nonce2 _ => (server, reply) ∈ s.replies → nonce2 ∉ s.node.udps →
      s.node.state = .echoWait2 → reply.nonce = s.node.pending → reply.port ≠ 0 →
        ∀ p ∈ s.heard, p.2.nonce = reply.nonce → p.2.port = reply.port → p.1 ≠ server
  | _ => True

/-! ### What is open -/

section
variable {s : Natdetector}

/-- There is no timer and no socket. -/
def Quiet (s : Natdetector) : Prop := (∀ n, s.timers.lookup n = none) ∧ s.udps = ∅

/-- There is no timer but that of the pending echo, and no socket. -/
def OneTimer (s : Natdetector) : Prop :=
  (∀ n, n ≠ s.pending → s.timers.lookup n = none) ∧ s.udps = ∅

/-- There is no timer, and one socket at most. -/
def OneSocket (s : Natdetector) : Prop := (∀ n, s.timers.lookup n = none) ∧ s.udps.card ≤ 1

/-- What is open in each state. -/
def Clean (s : Natdetector) : Prop :=
  match s.state with
  | .undefined => Quiet s
  | .echoWait1 => OneTimer s
  | .echoRedirectWait => OneSocket s
  | .global => OneTimer s ∨ OneSocket s
  | .nat => Quiet s
  | .echoWait2 => OneTimer s ∧ s.timers.lookup s.pending ≠ none
  | .coneNat => Quiet s
  | .symmetricNat => Quiet s

theorem Quiet.oneTimer (h : Quiet s) : OneTimer s := ⟨fun n _ => h.1 n, h.2⟩

theorem Quiet.oneSocket (h : Quiet s) : OneSocket s := ⟨h.1, by simp [h.2]⟩

/-- In every state there is one thing open at most. -/
theorem Clean.one (h : Clean s) : OneTimer s ∨ OneSocket s := by
  unfold Clean at h
  -- A node in `global` may have been either before.
  cases hstate : s.state with
  | undefined =>
    rw [hstate] at h
    exact Or.inl (Quiet.oneTimer h)
  | echoWait1 =>
    rw [hstate] at h
    exact Or.inl h
  | echoRedirectWait =>
    rw [hstate] at h
    exact Or.inr h
  | global =>
    rw [hstate] at h
    exact h
  | nat =>
    rw [hstate] at h
    exact Or.inl (Quiet.oneTimer h)
  | echoWait2 =>
    rw [hstate] at h
    exact Or.inl h.1
  | coneNat =>
    rw [hstate] at h
    exact Or.inl (Quiet.oneTimer h)
  | symmetricNat =>
    rw [hstate] at h
    exact Or.inl (Quiet.oneTimer h)

/-- Where nothing is open, no state but `echo_wait2` needs anything. -/
theorem Quiet.clean (h : Quiet s) (hstate : s.state ≠ .echoWait2) : Clean s := by
  unfold Clean
  split
  · exact h
  · exact h.oneTimer
  · exact h.oneSocket
  · exact Or.inl h.oneTimer
  · exact h
  · exact absurd ‹_› hstate
  · exact h
  · exact h

/-- The timer of the pending echo is the only thing that is open, so erasing it closes all. -/
theorem Clean.erase_timer (h : Clean s) {nonce : BitVec 32} (htimer : s.timers.lookup nonce ≠ none)
    (n : BitVec 32) : (s.timers.erase nonce).lookup n = none ∧ s.udps = ∅ := by
  rcases h.one with hone | hone
  · have hnonce : nonce = s.pending := by
      by_contra hne
      exact htimer (hone.1 nonce hne)
    refine ⟨?_, hone.2⟩
    by_cases hn : n = nonce
    · rw [hn, AList.lookup_erase]
    · rw [AList.lookup_erase_ne hn]
      exact hone.1 n (by rwa [← hnonce])
  · exact absurd (hone.1 nonce) htimer

/-- A socket is the only thing that is open. -/
theorem Clean.erase_udp (h : Clean s) {nonce : BitVec 32} (hin : nonce ∈ s.udps) :
    (∀ n, s.timers.lookup n = none) ∧ s.udps.erase nonce = ∅ := by
  rcases h.one with hone | hone
  · rw [hone.2] at hin
    exact absurd hin (Finset.notMem_empty nonce)
  · refine ⟨hone.1, ?_⟩
    have hcard := Finset.card_erase_add_one hin
    have hle := hone.2
    exact Finset.card_eq_zero.mp (by omega)

/-! ### The local events -/

/-- What an event that is not an answer does: nothing becomes `cone_nat`, and in `echo_wait2`
the slot is that of before, or it is new and empty. -/
structure Turns (s s' : Natdetector) : Prop where
  clean : Clean s'
  cone : s'.state = .coneNat → s.state = .coneNat
  wait2 : s'.state = .echoWait2 →
    (s.state = .echoWait2 ∧ s'.pending = s.pending ∧ s'.reply = s.reply) ∨
      (s.state ≠ .echoWait2 ∧ slot s' = 0)

theorem Turns.refl (h : Clean s) : Turns s s := ⟨h, id, fun hwait => Or.inl ⟨hwait, rfl, rfl⟩⟩

/-- A turn to a state in which nothing is open. -/
theorem Turns.quiet {s' : Natdetector} (h : Quiet s') (hcone : s'.state ≠ .coneNat)
    (hwait2 : s'.state ≠ .echoWait2) : Turns s s' :=
  ⟨h.clean hwait2, fun hs => absurd hs hcone, fun hs => absurd hs hwait2⟩

/-- Only the flag of the timer changes. -/
theorem Turns.flag {s' : Natdetector} (h : Turns s s') (timerNat : Bool) :
    Turns s { s' with timerNat } :=
  ⟨h.clean, h.cone, h.wait2⟩

theorem turns_global (h : Clean s) : Turns s { s with state := .global } :=
  ⟨h.one, nofun, nofun⟩

theorem turns_detectNat (h : Clean s) (dst : Option Saddr) (nonce : BitVec 32) :
    Turns s (s.detectNat dst nonce) := by
  unfold Natdetector.detectNat
  split
  · exact Turns.refl h
  · rename_i hstate
    have hquiet : Quiet s := by
      unfold Clean at h
      rwa [not_not.mp hstate] at h
    have htimers : ∀ n, n ≠ nonce → (s.timers.insert nonce .wait1).lookup n = none := by
      intro n hn
      rw [AList.lookup_insert_ne hn]
      exact hquiet.1 n
    unfold Natdetector.getEcho
    cases dst with
    | none => exact ⟨⟨htimers, hquiet.2⟩, nofun, nofun⟩
    | some dst => exact ⟨⟨htimers, hquiet.2⟩, nofun, nofun⟩

theorem turns_detectNatType (h : Clean s) (saddr1 saddr2 : Saddr) (nonce : BitVec 32) :
    Turns s (s.detectNatType saddr1 saddr2 nonce) := by
  unfold Natdetector.detectNatType
  split
  · exact Turns.refl h
  · rename_i hstate
    have hnat := not_not.mp hstate
    have hquiet : Quiet s := by
      unfold Clean at h
      rwa [hnat] at h
    have htimers : ∀ n, n ≠ nonce → (s.timers.insert nonce .wait2).lookup n = none := by
      intro n hn
      rw [AList.lookup_insert_ne hn]
      exact hquiet.1 n
    refine ⟨⟨⟨htimers, hquiet.2⟩, by simp⟩, nofun, fun _ => Or.inr ⟨by simp [hnat], ?_⟩⟩
    simp [slot]

theorem turns_onTimerNat (h : Clean s) (peers : List Inet) (nonce : BitVec 32) :
    Turns s (s.onTimerNat peers nonce) := by
  unfold Natdetector.onTimerNat
  split
  · exact (Turns.refl h).flag false
  · split
    · exact Turns.refl h
    · split
      · exact Turns.refl h
      · split
        · exact turns_detectNat h _ nonce
        · split
          · exact Turns.refl h
          · exact turns_detectNatType h _ _ nonce

theorem turns_detect (h : Clean s) (host : Option Saddr) (nonce : BitVec 32) :
    Turns s (s.detect host nonce) := by
  unfold Natdetector.detect
  split
  · exact turns_global h
  · split
    · exact Turns.refl h
    · exact (turns_detectNat h host nonce).flag true

theorem turns_receiverPacket (h : Clean s) {nonce : BitVec 32} (hin : nonce ∈ s.udps)
    (pbuf : List Byte) : Turns s (s.receiverPacket nonce pbuf) := by
  obtain ⟨htimers, hudps⟩ := h.erase_udp hin
  unfold Natdetector.receiverPacket
  split
  · split
    · unfold Natdetector.recvEchoRedirectReply
      split
      · exact Turns.quiet ⟨htimers, hudps⟩ nofun nofun
      · split
        · exact Turns.quiet ⟨htimers, hudps⟩ nofun nofun
        · exact Turns.quiet ⟨htimers, hudps⟩ nofun nofun
    · -- The state stays, and it is not `echo_wait2`, where no socket is open.
      have hwait2 : s.state ≠ .echoWait2 := by
        intro hstate
        unfold Clean at h
        rw [hstate] at h
        rw [h.1.2] at hin
        exact absurd hin (Finset.notMem_empty nonce)
      exact ⟨Quiet.clean ⟨htimers, hudps⟩ hwait2, id, fun hs => absurd hs hwait2⟩
  · exact Turns.quiet ⟨htimers, hudps⟩ nofun nofun

/-- One event that is not an answer. -/
theorem turns_handle (h : Clean s) {i : Natdetector.Input} (hlocal : NatNetwork.IsLocal i) :
    Turns s (s.handle i) := by
  cases i with
  | detect host nonce => exact turns_detect h host nonce
  | detectNat dst nonce => exact turns_detectNat h dst nonce
  | detectNatType saddr1 saddr2 nonce => exact turns_detectNatType h saddr1 saddr2 nonce
  | timerNat peers nonce =>
    dsimp only [Natdetector.handle]
    split
    · exact turns_onTimerNat h peers nonce
    · exact Turns.refl h
  | timerEcho nonce =>
    dsimp only [Natdetector.handle]
    split
    · exact Turns.refl h
    · rename_i htimer
      have hset : s.timers.lookup nonce ≠ none := by simp [htimer]
      have hall := h.erase_timer hset
      exact Turns.quiet ⟨fun n => (hall n).1, (hall 0).2⟩ nofun nofun
    · rename_i htimer
      have hset : s.timers.lookup nonce ≠ none := by simp [htimer]
      have hall := h.erase_timer hset
      exact Turns.quiet ⟨fun n => (hall n).1, (hall 0).2⟩ nofun nofun
  | receiverTimeout nonce =>
    dsimp only [Natdetector.handle]
    split
    · rename_i hin
      exact Turns.quiet (h.erase_udp hin) nofun nofun
    · exact Turns.refl h
  | receiverPacket nonce pbuf =>
    dsimp only [Natdetector.handle]
    split
    · rename_i hin
      exact turns_receiverPacket h hin.1 pbuf
    · exact Turns.refl h
  | recvEchoReply reply from_ nonce2 port => exact absurd hlocal id
  | setStateGlobal => exact turns_global h

/-! ### An answer -/

/-- In `echo_wait2` the only timer is that of the pending echo. -/
theorem Clean.nonce_eq (h : Clean s) (hstate : s.state = .echoWait2) {nonce : BitVec 32}
    (htimer : s.timers.lookup nonce ≠ none) : nonce = s.pending := by
  unfold Clean at h
  rw [hstate] at h
  by_contra hne
  exact htimer (h.1.1 nonce hne)

theorem Clean.armed (h : Clean s) (hstate : s.state = .echoWait2) :
    s.timers.lookup s.pending ≠ none := by
  unfold Clean at h
  rw [hstate] at h
  exact h.2

/-- Outside `echo_wait2` an answer opens a socket or changes nothing. -/
theorem recvEchoReply_other (h : Clean s) (hstate : s.state ≠ .echoWait2) (reply : MsgNatEchoReply)
    (from_ : Sockaddr) (nonce2 : BitVec 32) (port : BitVec 16) :
    Clean (s.recvEchoReply reply from_ nonce2 port) ∧
      (s.recvEchoReply reply from_ nonce2 port).state ≠ .echoWait2 := by
  unfold Natdetector.recvEchoReply
  by_cases hwait1 : s.state = .echoWait1
  · simp only [if_pos hwait1]
    unfold Natdetector.recvEchoReplyWait1
    split
    · exact ⟨h, hstate⟩
    · rename_i htimer
      have hset : s.timers.lookup reply.nonce ≠ none := by simpa using htimer
      have hall := h.erase_timer hset
      rw [if_neg nofun]
      refine ⟨⟨fun n => (hall n).1, ?_⟩, nofun⟩
      show (insert nonce2 s.udps).card ≤ 1
      rw [(hall 0).2]
      simp
  · simp only [if_neg hwait1, if_neg hstate]
    exact ⟨h, hstate⟩

/-- An answer in `echo_wait2` is one to another echo, or the first with a port, or has the port
that is kept, or another one. -/
theorem recvEchoReply_wait2 (h : Clean s) (hstate : s.state = .echoWait2)
    (reply : MsgNatEchoReply) (from_ : Sockaddr) (nonce2 : BitVec 32) (port : BitVec 16) :
    (reply.nonce ≠ s.pending ∧ s.recvEchoReply reply from_ nonce2 port = s) ∨
    (reply.nonce = s.pending ∧ slot s = 0 ∧ s.recvEchoReply reply from_ nonce2 port =
      { s with reply := s.reply.insert s.pending reply.port }) ∨
    (reply.nonce = s.pending ∧ slot s ≠ 0 ∧ slot s = reply.port ∧
      Clean (s.recvEchoReply reply from_ nonce2 port) ∧
      (s.recvEchoReply reply from_ nonce2 port).state = .coneNat) ∨
    (reply.nonce = s.pending ∧ slot s ≠ reply.port ∧
      Clean (s.recvEchoReply reply from_ nonce2 port) ∧
      (s.recvEchoReply reply from_ nonce2 port).state = .symmetricNat) := by
  have hrecv : s.recvEchoReply reply from_ nonce2 port = s.recvEchoReplyWait2 reply := by
    unfold Natdetector.recvEchoReply
    simp only [hstate, reduceCtorEq, if_false, if_true]
  rw [hrecv]
  unfold Natdetector.recvEchoReplyWait2
  by_cases hnonce : reply.nonce = s.pending
  · have htimer := h.armed hstate
    have hall := h.erase_timer htimer
    have hquiet : (∀ n, (s.timers.erase s.pending).lookup n = none) ∧ s.udps = ∅ :=
      ⟨fun n => (hall n).1, (hall 0).2⟩
    rw [hnonce, if_neg (by simpa using htimer)]
    dsimp only
    by_cases hslot : (s.reply.lookup s.pending).getD 0 = 0
    · -- The first port is kept until the second answer.
      rw [if_pos hslot]
      exact Or.inr (Or.inl ⟨rfl, hslot, rfl⟩)
    · rw [if_neg hslot]
      by_cases hport : (s.reply.lookup s.pending).getD 0 = reply.port
      · rw [if_pos hport]
        exact Or.inr (Or.inr (Or.inl ⟨rfl, hslot, hport, hquiet, rfl⟩))
      · rw [if_neg hport]
        exact Or.inr (Or.inr (Or.inr ⟨rfl, hport, hquiet, rfl⟩))
  · -- Of another echo no timer is left.
    have hnone : (s.timers.lookup reply.nonce).isNone := by
      by_contra htimer
      exact hnonce (h.nonce_eq hstate (by simpa using htimer))
    rw [if_pos hnone]
    exact Or.inl ⟨hnonce, rfl⟩

end

/-! ### The answers that have come -/

/-- The slot is the port of an answer to the pending echo that has come. All that came with a
port are of one server and have this port. -/
structure SlotHeard (s : NatNetwork) : Prop where
  some : slot s.node ≠ 0 → ∃ p ∈ s.heard, p.2.nonce = s.node.pending ∧ p.2.port = slot s.node
  port : ∀ p ∈ s.heard, p.2.nonce = s.node.pending → p.2.port ≠ 0 → p.2.port = slot s.node
  server : ∀ p ∈ s.heard, ∀ q ∈ s.heard, p.2.nonce = s.node.pending →
    q.2.nonce = s.node.pending → p.2.port ≠ 0 → q.2.port ≠ 0 → p.1 = q.1

/-- What holds in every state. -/
structure NetworkInv (s : NatNetwork) : Prop where
  clean : Clean s.node
  slot : s.node.state = .echoWait2 → SlotHeard s

section
variable {s : NatNetwork}

theorem networkInv_init (id : Id) (isInet6 : Bool) : NetworkInv (.init id isInet6) :=
  ⟨⟨fun n => AList.lookup_empty n, rfl⟩, nofun⟩

theorem networkInv_nodeStep (h : NetworkInv s) {node : Natdetector} (hturns : Turns s.node node) :
    NetworkInv (s.nodeStep node) := by
  refine ⟨hturns.clean, fun hwait => ?_⟩
  rcases hturns.wait2 hwait with ⟨hstate, hpending, hreply⟩ | ⟨hstate, hslot⟩
  · have hheard : (s.nodeStep node).heard = s.heard := if_neg fun hnew => hnew.1 hstate
    have hsame : slot node = slot s.node := by rw [slot, slot, hpending, hreply]
    have hold := h.slot hstate
    refine ⟨?_, ?_, ?_⟩
    · show slot node ≠ 0 → ∃ p ∈ (s.nodeStep node).heard, p.2.nonce = node.pending ∧
        p.2.port = slot node
      rw [hheard, hsame, hpending]
      exact hold.some
    · show ∀ p ∈ (s.nodeStep node).heard, p.2.nonce = node.pending → p.2.port ≠ 0 →
        p.2.port = slot node
      rw [hheard, hsame, hpending]
      exact hold.port
    · show ∀ p ∈ (s.nodeStep node).heard, ∀ q ∈ (s.nodeStep node).heard,
        p.2.nonce = node.pending → q.2.nonce = node.pending → p.2.port ≠ 0 → q.2.port ≠ 0 →
          p.1 = q.1
      rw [hheard, hpending]
      exact hold.server
  · -- New echoes were sent, and nothing has come.
    have hheard : (s.nodeStep node).heard = [] := if_pos ⟨hstate, hwait⟩
    refine ⟨fun hne => absurd hslot hne, ?_, ?_⟩
    · rw [hheard]
      exact nofun
    · rw [hheard]
      exact nofun

/-- An answer to another echo is not to the pending one. -/
theorem slotHeard_other (h : SlotHeard s) {server : Sockaddr} {reply : MsgNatEchoReply}
    (hnonce : reply.nonce ≠ s.node.pending) :
    SlotHeard { s with heard := s.heard ++ [(server, reply)] } := by
  have hold : ∀ p ∈ s.heard ++ [(server, reply)], p.2.nonce = s.node.pending → p ∈ s.heard := by
    intro p hp hpn
    rcases List.mem_append.mp hp with hp | hp
    · exact hp
    · rw [List.mem_singleton] at hp
      exact absurd hpn (by rw [hp]; exact hnonce)
  refine ⟨fun hne => ?_, ?_, ?_⟩
  · obtain ⟨p, hp, hport⟩ := h.some hne
    exact ⟨p, List.mem_append_left _ hp, hport⟩
  · intro p hp hpn hne
    exact h.port p (hold p hp hpn) hpn hne
  · intro p hp q hq hpn hqn hpne hqne
    exact h.server p (hold p hp hpn) q (hold q hq hqn) hpn hqn hpne hqne

/-- The first answer with a port is kept. -/
theorem slotHeard_first (h : SlotHeard s) (hslot : slot s.node = 0) {server : Sockaddr}
    {reply : MsgNatEchoReply} (hnonce : reply.nonce = s.node.pending) :
    SlotHeard { s with
      node := { s.node with reply := s.node.reply.insert s.node.pending reply.port }
      heard := s.heard ++ [(server, reply)] } := by
  have hkept : slot { s.node with reply := s.node.reply.insert s.node.pending reply.port } =
      reply.port := by simp [slot]
  -- Whatever came before has no port.
  have hlast : ∀ p ∈ s.heard ++ [(server, reply)], p.2.nonce = s.node.pending → p.2.port ≠ 0 →
      p = (server, reply) := by
    intro p hp hpn hne
    rcases List.mem_append.mp hp with hp | hp
    · exact absurd (h.port p hp hpn hne) (by rwa [hslot])
    · exact List.mem_singleton.mp hp
  refine ⟨fun _ => ⟨(server, reply), by simp, hnonce, hkept.symm⟩, ?_, ?_⟩
  · intro p hp hpn hne
    show p.2.port = slot { s.node with reply := s.node.reply.insert s.node.pending reply.port }
    rw [hkept, hlast p hp hpn hne]
  · intro p hp q hq hpn hqn hpne hqne
    rw [hlast p hp hpn hpne, hlast q hq hqn hqne]

/-- What a step does: nothing, or what its event says. -/
theorem step_cases {i : NatNetwork.Input} {s' : NatNetwork} (hstep : s.step i = .ok s') :
    s' = s ∨
    (∃ j, i = .node j ∧ NatNetwork.IsLocal j ∧ s' = s.nodeStep (s.node.handle j)) ∨
    (∃ server serverId nonce from_, i = .answer server serverId nonce from_ ∧
      s' = { s with replies := s.replies ++
        [(server, Natdetector.recvEcho serverId s.node.id nonce from_)] }) ∨
    (∃ server reply nonce2 port, i = .deliver server reply nonce2 port ∧
      (server, reply) ∈ s.replies ∧ nonce2 ∉ s.node.udps ∧
      s' = { s with
        node := s.node.recvEchoReply reply server nonce2 port
        heard := s.heard ++ [(server, reply)] }) := by
  cases i with
  | node j =>
    dsimp only [NatNetwork.step] at hstep
    split at hstep
    · rename_i hlocal
      exact Or.inr (Or.inl ⟨j, rfl, hlocal.1, (Except.ok.inj hstep).symm⟩)
    · exact Or.inl (Except.ok.inj hstep).symm
  | answer server serverId nonce from_ =>
    dsimp only [NatNetwork.step] at hstep
    split at hstep
    · exact Or.inr (Or.inr (Or.inl
        ⟨server, serverId, nonce, from_, rfl, (Except.ok.inj hstep).symm⟩))
    · exact Or.inl (Except.ok.inj hstep).symm
  | deliver server reply nonce2 port =>
    dsimp only [NatNetwork.step] at hstep
    split at hstep
    · rename_i hcomes
      exact Or.inr (Or.inr (Or.inr ⟨server, reply, nonce2, port, rfl, hcomes.1, hcomes.2,
        (Except.ok.inj hstep).symm⟩))
    · exact Or.inl (Except.ok.inj hstep).symm

theorem networkInv_deliver (h : NetworkInv s) (server : Sockaddr) (reply : MsgNatEchoReply)
    (nonce2 : BitVec 32) (port : BitVec 16) :
    NetworkInv { s with
      node := s.node.recvEchoReply reply server nonce2 port
      heard := s.heard ++ [(server, reply)] } := by
  by_cases hstate : s.node.state = .echoWait2
  · rcases recvEchoReply_wait2 h.clean hstate reply server nonce2 port with
      ⟨hnonce, hsame⟩ | ⟨hnonce, hslot, hfirst⟩ | ⟨-, -, -, hclean, hcone⟩ |
      ⟨-, -, hclean, hsymmetric⟩
    · rw [hsame]
      exact ⟨h.clean, fun hwait => slotHeard_other (h.slot hwait) hnonce⟩
    · rw [hfirst]
      exact ⟨h.clean, fun hwait => slotHeard_first (h.slot hwait) hslot hnonce⟩
    · exact ⟨hclean, fun hwait => by rw [hcone] at hwait; cases hwait⟩
    · exact ⟨hclean, fun hwait => by rw [hsymmetric] at hwait; cases hwait⟩
  · obtain ⟨hclean, hne⟩ := recvEchoReply_other h.clean hstate reply server nonce2 port
    exact ⟨hclean, fun hwait => absurd hwait hne⟩

/-- Every event keeps the invariant. -/
theorem networkInv_step (h : NetworkInv s) {i : NatNetwork.Input} {s' : NatNetwork}
    (hstep : s.step i = .ok s') : NetworkInv s' := by
  obtain rfl | ⟨j, -, hlocal, rfl⟩ | ⟨server, serverId, nonce, from_, -, rfl⟩ |
    ⟨server, reply, nonce2, port, -, -, -, rfl⟩ := step_cases hstep
  · exact h
  · exact networkInv_nodeStep h (turns_handle h.clean hlocal)
  · exact ⟨h.clean, fun hwait => ⟨(h.slot hwait).some, (h.slot hwait).port, (h.slot hwait).server⟩⟩
  · exact networkInv_deliver h server reply nonce2 port

/-- Only an answer to the pending echo with the port that is kept leads to `cone_nat`. -/
theorem cone_of_step (h : NetworkInv s) {i : NatNetwork.Input} {s' : NatNetwork}
    (hstep : s.step i = .ok s') (hstate : s.node.state = .echoWait2)
    (hcone : s'.node.state = .coneNat) :
    ∃ server reply nonce2 port, i = .deliver server reply nonce2 port ∧
      (server, reply) ∈ s.replies ∧ nonce2 ∉ s.node.udps ∧ reply.nonce = s.node.pending ∧
      slot s.node ≠ 0 ∧ slot s.node = reply.port := by
  have hnot : s.node.state ≠ .coneNat := by simp [hstate]
  obtain rfl | ⟨j, -, hlocal, rfl⟩ | ⟨server, serverId, nonce, from_, -, rfl⟩ |
    ⟨server, reply, nonce2, port, rfl, hcomes, hfresh, rfl⟩ := step_cases hstep
  · exact absurd hcone hnot
  · exact absurd ((turns_handle h.clean hlocal).cone hcone) hnot
  · exact absurd hcone hnot
  · rcases recvEchoReply_wait2 h.clean hstate reply server nonce2 port with
      ⟨-, hsame⟩ | ⟨-, -, hfirst⟩ | ⟨hnonce, hslot, hport, -, -⟩ | ⟨-, -, -, hsymmetric⟩
    · rw [hsame] at hcone
      exact absurd hcone hnot
    · rw [hfirst] at hcone
      exact absurd hcone hnot
    · exact ⟨server, reply, nonce2, port, rfl, hcomes, hfresh, hnonce, hslot, hport⟩
    · rw [hsymmetric] at hcone
      cases hcone

/-- An answer of a server that has not reported its port is the second observer. -/
theorem twoObservers_of_newObserver (h : NetworkInv s) {i : NatNetwork.Input} {s' : NatNetwork}
    (hok : NewObserver s i) (hstep : s.step i = .ok s') : TwoObservers s i s' := by
  intro hstate hcone
  obtain ⟨server, reply, nonce2, port, rfl, hcomes, hfresh, hnonce, hslot, hport⟩ :=
    cone_of_step h hstep hstate hcone
  obtain ⟨p, hp, hpn, hpp⟩ := (h.slot hstate).some hslot
  have hpn' : p.2.nonce = reply.nonce := hpn.trans hnonce.symm
  have hpp' : p.2.port = reply.port := hpp.trans hport
  have hne := hok hcomes hfresh hstate hnonce (by rwa [← hport]) p hp hpn' hpp'
  exact ⟨server, reply, nonce2, port, rfl, hnonce, p, hp, hne, hpn', hpp'⟩

/-- A second answer of the same server leads to `cone_nat`. -/
theorem sameObserver_breaks (h : NetworkInv s) {i : NatNetwork.Input} (hnot : ¬ NewObserver s i) :
    ∃ s', s.step i = .ok s' ∧ ¬ TwoObservers s i s' := by
  cases i with
  | node i => exact absurd trivial hnot
  | answer server serverId nonce from_ => exact absurd trivial hnot
  | deliver server reply nonce2 port =>
    simp only [NewObserver, not_forall, not_not] at hnot
    obtain ⟨hcomes, hfresh, hstate, hnonce, hne, p, hp, hpn, hpp, hserver⟩ := hnot
    refine ⟨_, by rw [NatNetwork.step, if_pos ⟨hcomes, hfresh⟩], fun htwo => ?_⟩
    have hheard := h.slot hstate
    have hslot : slot s.node = reply.port := by
      rw [← hpp]
      exact (hheard.port p hp (hpn.trans hnonce) (by rwa [hpp])).symm
    have hcone : (s.node.recvEchoReply reply server nonce2 port).state = .coneNat := by
      rcases recvEchoReply_wait2 h.clean hstate reply server nonce2 port with
        ⟨hother, -⟩ | ⟨-, hzero, -⟩ | ⟨-, -, -, -, hcone⟩ | ⟨-, hother, -, -⟩
      · exact absurd hnonce hother
      · exact absurd (hslot.symm.trans hzero) hne
      · exact hcone
      · exact absurd hslot hother
    obtain ⟨server', reply', nonce2', port', heq, -, q, hq, hqs, hqn, hqp⟩ := htwo hstate hcone
    cases heq
    -- All answers with a port are of the server of `p`.
    have hsame := hheard.server p hp q hq (hpn.trans hnonce) (hqn.trans hnonce) (by rwa [hpp])
      (by rwa [hqp])
    exact hqs (hsame.symm.trans hserver)

end

/-- A run concludes `cone_nat` from two servers only, exactly if no server gives its port a
second time for the pending nonce. -/
theorem twoObservers_iff (id : Id) (isInet6 : Bool) (inputs : List NatNetwork.Input) :
    Steps NatNetwork.step TwoObservers (.init id isInet6) inputs ↔
      Allowed NatNetwork.step NewObserver (.init id isInet6) inputs := by
  refine steps_iff_allowed NetworkInv ?_ ?_ (networkInv_init id isInet6) inputs
  · intro s i s' h hok hstep
    exact ⟨twoObservers_of_newObserver h hok hstep, networkInv_step h hstep⟩
  · intro s i h hnot
    exact sameObserver_breaks h hnot

/-- Two servers, and the node as the first of them sees it. The second would see another
port. -/
def server1 : Sockaddr := ⟨.inet 5 1, by decide⟩
def server2 : Sockaddr := ⟨.inet 5 2, by decide⟩
def seenBy1 : Sockaddr := ⟨.inet 7 3, by decide⟩

/-- The detector finds that it is behind a NAT, and sends two echoes. The first server
answers. -/
def answered : List NatNetwork.Input :=
  [.node (.detectNat (some server1.1) 1), .answer server1 2 1 seenBy1,
    .deliver server1 (Natdetector.recvEcho 2 1 1 seenBy1) 3 9, .node (.receiverTimeout 3),
    .node (.detectNatType server1.1 server2.1 4), .answer server1 2 4 seenBy1,
    .deliver server1 (Natdetector.recvEcho 2 1 4 seenBy1) 0 0]

/-- The same answer again. -/
def answeredAgain : NatNetwork.Input :=
  .deliver server1 (Natdetector.recvEcho 2 1 4 seenBy1) 0 0

/-- A duplicate of the first server's answer leads to `cone_nat`. -/
theorem cone_from_duplicate : ¬ ∀ (id : Id) (isInet6 : Bool) (inputs : List NatNetwork.Input),
    Steps NatNetwork.step TwoObservers (.init id isInet6) inputs := by
  intro h
  have hends : (do
      let s ← run NatNetwork.step (.init 1 false) answered
      let s' ← s.step answeredAgain
      return (s.node.state, s.heard.map Prod.fst, s'.node.state)) =
        .ok (.echoWait2, [server1], .coneNat) := by
    decide +kernel
  obtain ⟨s, hrun, hrest⟩ := bind_eq_ok hends
  obtain ⟨s', hstep, hvalues⟩ := bind_eq_ok hrest
  obtain ⟨hstate, hvalues⟩ := Prod.mk.inj (Except.ok.inj hvalues)
  obtain ⟨hheard, hcone⟩ := Prod.mk.inj hvalues
  obtain ⟨server, reply, nonce2, port, heq, -, p, hp, hne, -⟩ :=
    (h 1 false (answered ++ [answeredAgain])).of_run hrun hstep hstate hcone
  cases heq
  have hserver : p.1 ∈ s.heard.map Prod.fst := List.mem_map_of_mem hp
  rw [hheard] at hserver
  exact hne (List.mem_singleton.mp hserver)

/-! ### A NAT with a port for each server -/

section
variable {servers : Set Sockaddr} {natPort : Sockaddr → BitVec 16}

/-- A server that answers sees the port that the NAT has for it. -/
def Mapped (servers : Set Sockaddr) (natPort : Sockaddr → BitVec 16) : NatNetwork.Input → Prop
  | .answer server serverId nonce from_ => server ∈ servers ∧
      ∀ id, (Natdetector.recvEcho serverId id nonce from_).port = natPort server
  | _ => True

/-- Every answer has the port that the NAT has for its server. -/
def RepliesMapped (servers : Set Sockaddr) (natPort : Sockaddr → BitVec 16) (s : NatNetwork) :
    Prop :=
  ∀ p, p ∈ s.replies ∨ p ∈ s.heard → p.1 ∈ servers ∧ p.2.port = natPort p.1

theorem repliesMapped_step {s s' : NatNetwork} {i : NatNetwork.Input}
    (h : RepliesMapped servers natPort s) (hmapped : Mapped servers natPort i)
    (hstep : s.step i = .ok s') : RepliesMapped servers natPort s' := by
  obtain rfl | ⟨j, -, -, rfl⟩ | ⟨server, serverId, nonce, from_, rfl, rfl⟩ |
    ⟨server, reply, nonce2, port, rfl, hcomes, -, rfl⟩ := step_cases hstep
  · exact h
  · intro p hp
    rcases hp with hp | hp
    · exact h p (Or.inl hp)
    · -- A new round forgets the answers of the last one.
      by_cases hnew : s.node.state ≠ .echoWait2 ∧ (s.node.handle j).state = .echoWait2
      · rw [NatNetwork.nodeStep, if_pos hnew] at hp
        cases hp
      · rw [NatNetwork.nodeStep, if_neg hnew] at hp
        exact h p (Or.inr hp)
  · intro p hp
    rcases hp with hp | hp
    · rcases List.mem_append.mp hp with hp | hp
      · exact h p (Or.inl hp)
      · rw [List.mem_singleton.mp hp]
        exact ⟨hmapped.1, hmapped.2 _⟩
    · exact h p (Or.inr hp)
  · intro p hp
    rcases hp with hp | hp
    · exact h p (Or.inl hp)
    · rcases List.mem_append.mp hp with hp | hp
      · exact h p (Or.inr hp)
      · rw [List.mem_singleton.mp hp]
        -- What is heard was answered before.
        exact h _ (Or.inl hcomes)

/-- Behind a NAT that shows each server another port, such a run never leads from `echo_wait2`
to `cone_nat`. -/
theorem never_cone_of_ports (hports : Set.InjOn natPort servers) (id : Id) (isInet6 : Bool)
    {inputs : List NatNetwork.Input} (hok : Allowed NatNetwork.step
      (fun s i => NewObserver s i ∧ Mapped servers natPort i) (.init id isInet6) inputs) :
    Steps NatNetwork.step
      (fun s _ s' => s.node.state = .echoWait2 → s'.node.state ≠ .coneNat) (.init id isInet6)
      inputs := by
  have hinit : RepliesMapped servers natPort (.init id isInet6) := by
    intro p hp
    rcases hp with hp | hp
    · cases hp
    · cases hp
  refine steps_of_allowed (fun s => NetworkInv s ∧ RepliesMapped servers natPort s) ?_
    ⟨networkInv_init id isInet6, hinit⟩ hok
  rintro s i s' ⟨h, hreplies⟩ ⟨hnew, hmapped⟩ hstep
  refine ⟨fun hstate hcone => ?_, networkInv_step h hstep,
    repliesMapped_step hreplies hmapped hstep⟩
  obtain ⟨server, reply, nonce2, port, hcomes, hfresh, hnonce, hslot, hport⟩ :=
    cone_of_step h hstep hstate hcone
  obtain ⟨_, _, _, _, heq, -, p, hp, hne, -, hpp⟩ :=
    twoObservers_of_newObserver h hnew hstep hstate hcone
  subst hcomes
  cases heq
  have hfirst := hreplies p (Or.inr hp)
  have hsecond := hreplies _ (Or.inl hfresh)
  refine hne (hports hfirst.1 hsecond.1 ?_)
  rw [← hfirst.2, ← hsecond.2]
  exact hpp

end

end Libcage.Proofs.NatNetwork
