import Libcage.Proofs.Dht.Callbacks

/-!
# `Libcage.Proofs.Dht.Failover`: the connections of a query for values

A query for values by RDP has a queue of candidates. The first connection goes to the port
where the others listen, `rdp_get_port`. When a connection has brought nothing, the next
candidate is tried with the ports the other way round (`retry_connects`), so that nobody is
reached.

* `getPort_of_allowed`: where no candidate is tried after another one, every connection goes
  to `rdp_get_port`.
* `retry_other_port`: the second candidate is called at port 0.
-/

set_option autoImplicit false

namespace Libcage.Proofs.Dht

open Libcage.Lib
open Libcage.Dht
open Libcage.Rdp (Id Table)

/-- Every connection that was opened for a query goes to the port of the get service. -/
def GetPort (s : Queries) : Prop := ∀ c ∈ s.connects, c.dport = rdpGetPort

/-- The query has nothing yet, and candidates that wait. -/
def Retried (q : Query) : Prop := q.get.vset = ∅ ∧ q.ids ≠ []

/-- The packets make the client close the connection, and there is no value among them. -/
def BreaksOff (get : RdpGet) (rqueue : List (List Byte)) : Prop :=
  ∃ c sent, GetClient.ready2Read ⟨get, rqueue, false⟩ = .ok (c, sent) ∧ c.isClosed = true ∧
    c.query.vset = ∅

/-- The event ends a connection that has brought nothing while candidates wait. -/
def Retries (s : Queries) : Queries.Input → Prop
  | .ready2Read _ desc packets _ => ∃ con, s.conns.lookup desc = some con ∧
      (con.isOpen = true ∧ con.rqueue ++ packets ≠ []) ∧
      BreaksOff (s.obj con.query).get (con.rqueue ++ packets) ∧ (s.obj con.query).ids ≠ []
  | .disconnected _ desc _ => ∃ con, s.conns.lookup desc = some con ∧ Retried (s.obj con.query)
  | .sweepRdp now _ => ∃ r, Live s r ∧ Queries.Silent now (s.obj r) ∧ Retried (s.obj r)
  | _ => False

section
variable {s s' : Queries} {r : Nat}

@[simp] theorem sendFind_connects (s : Queries) (r : Nat) :
    (s.sendFind r).connects = s.connects := by
  rcases sendFind_cases s r with ⟨hs, -⟩ | ⟨q, -, -, ⟨-, hs⟩ | ⟨-, hs⟩⟩
  · rw [hs]
  · rw [hs]
    rfl
  · rw [hs]
    rfl

theorem recvdValue_connects (hs : s.recvdValue r = .ok s') : s'.connects = s.connects := by
  unfold Queries.recvdValue at hs
  dsimp only at hs
  split at hs
  · rw [← Except.ok.inj hs]
    rfl
  · cases hs

/-- The two calls of `rdp::connect` have the two ports the other way round. -/
theorem retry_connects (s : Queries) (now : Int) (r : Nat) (desc : Int) :
    (s.retry now r desc).connects = s.connects ++
      (s.obj r).ids.head?.toList.map fun id => ⟨r, rdpGetPort, id, 0⟩ := by
  unfold Queries.retry
  dsimp only
  split
  · rename_i id ids hids
    rw [hids]
    rfl
  · rename_i hids
    rw [hids, sendFind_connects]
    simp [Queries.setQuery]

/-- A query without candidates opens no connection when it goes on. -/
theorem GetPort.retry (h : GetPort s) (hids : (s.obj r).ids = []) (now desc : Int) :
    GetPort (s.retry now r desc) := by
  intro c hc
  rw [retry_connects, hids] at hc
  exact h c (by simpa using hc)

theorem GetPort.closeRdp (h : GetPort s) {now desc desc' : Int} (hno : ¬ Retried (s.obj r))
    (hs : s.closeRdp now r desc desc' = .ok s') : GetPort s' := by
  unfold Queries.closeRdp at hs
  dsimp only at hs
  split at hs
  · intro c hc
    rw [recvdValue_connects hs] at hc
    exact h c hc
  · rename_i hvset
    have hids : (s.obj r).ids = [] := by
      by_contra hids
      exact hno ⟨not_not.mp hvset, hids⟩
    rw [← Except.ok.inj hs]
    exact GetPort.retry (s := s.close desc) h hids now desc'

/-- A round of the sweep closes a silent connection as `close_rdp` does. -/
theorem GetPort.sweepOne (h : GetPort s) {now : Int} {nonce : BitVec 32} {desc : Int}
    (hr : s.query.lookup nonce = some r)
    (hno : ¬ (Queries.Silent now (s.obj r) ∧ Retried (s.obj r)))
    (hs : s.sweepOne now nonce desc = .ok s') : GetPort s' := by
  unfold Queries.sweepOne at hs
  rw [hr] at hs
  dsimp only at hs
  split at hs
  · rename_i hsilent
    have hclose : s.closeRdp now r (s.obj r).rdpDesc desc = .ok s' := by
      unfold Queries.closeRdp
      dsimp only
      split at hs
      · rename_i hvset
        rw [if_pos hvset]
        exact hs
      · rename_i hvset
        rw [if_neg hvset]
        split at hs
        · cases hs
        · exact hs
    exact h.closeRdp (fun hretried => hno ⟨hsilent, hretried⟩) hclose
  · rw [← Except.ok.inj hs]
    exact h

theorem GetPort.recvData (h : GetPort s) {now : Int} {reply : FindValueReply} {sender : Sender}
    {desc : Int} (hs : s.recvData now r reply sender desc = .ok s') : GetPort s' := by
  cases readsData_of_recvData hs with
  | ignored | candidate | value => exact h
  | connects =>
    -- The first connection.
    intro c hc
    rcases List.mem_append.mp hc with hc | hc
    · exact h c hc
    · rw [List.mem_singleton.mp hc]
  | values _ hadd hs =>
    intro c hc
    rw [recvdValue_connects hs] at hc
    exact h c hc
  | nodes =>
    intro c hc
    rw [sendFind_connects] at hc
    exact h c hc

theorem GetPort.ready2Read (h : GetPort s) {now : Int} {desc : Int} {con : Conn}
    {packets : List (List Byte)} {desc' : Int}
    (hno : ¬ (BreaksOff (s.obj con.query).get (con.rqueue ++ packets) ∧ (s.obj con.query).ids ≠ []))
    (hs : s.ready2Read now desc con packets desc' = .ok s') : GetPort s' := by
  obtain ⟨c, sent, hread, -⟩ :=
    ready2Read_ends ⟨(s.obj con.query).get, con.rqueue ++ packets, false⟩
  unfold Queries.ready2Read at hs
  dsimp only at hs
  rw [hread] at hs
  dsimp only at hs
  split at hs
  · rename_i hclosed
    refine GetPort.closeRdp (s := s.setQuery con.query _) h ?_ hs
    rw [setQuery_self]
    rintro ⟨hvset, hids⟩
    exact hno ⟨⟨c, sent, hread, hclosed, hvset⟩, hids⟩
  · rw [← Except.ok.inj hs]
    exact h

end

/-- What an allowed step does: only the first connection of a query is opened. -/
theorem getPort_step {s s' : Queries} {i : Queries.Input} (hnamed : Named s) (h : GetPort s)
    (hno : ¬ Retries s i) (hs : s.step i = .ok s') : GetPort s' := by
  cases took_of_step hs with
  | same => exact h
  | findNv uninit dst key nodes hfresh =>
    unfold Queries.findNv
    dsimp only
    split
    · exact h
    · intro c hc
      rw [sendFind_connects] at hc
      exact h c hc
  | findNode uninit hfresh => exact h
  | timerQuery hid hs =>
    unfold Queries.timerQuery at hs
    split at hs
    · cases hs
    · rw [← Except.ok.inj hs]
      intro c hc
      rw [sendFind_connects] at hc
      exact h c hc
  | findNodeReply reply sender =>
    rcases recvFindNodeReply_cases s reply sender with hs | ⟨r, id, -, ⟨-, hs⟩ | ⟨nodes, -, hs⟩⟩
    · rw [hs]
      exact h
    · rw [hs]
      exact h
    · intro c hc
      rw [hs, sendFind_connects] at hc
      exact h c hc
  | @findValueReply now reply sender desc _ hs =>
    rcases recvFindValueReply_cases s now reply sender desc with hsame | ⟨r, -, hreply⟩
    · rw [← Except.ok.inj (hsame.symm.trans hs)]
      exact h
    · exact GetPort.recvData (s := s.setQuery r _) h (hreply.symm.trans hs)
  | timerRecvd htimer hs =>
    intro c hc
    rw [recvdValue_connects hs] at hc
    exact h c hc
  | connected hconn hs =>
    -- The query that is written to the connection opens none.
    unfold Queries.connected at hs
    dsimp only at hs
    split at hs
    · cases hs
    · rw [← Except.ok.inj hs]
      exact h
  | ready2Read hconn hopen hs =>
    exact h.ready2Read (fun hbreaks => hno ⟨_, hconn, hopen, hbreaks⟩) hs
  | disconnected hconn hs => exact h.closeRdp (fun hretried => hno ⟨_, hconn, hretried⟩) hs
  | @sweepRdp now desc =>
    have hends := sweepRdp_ends (J := GetPort) (F := fun _ => True)
      (B := fun q => Queries.Silent now q ∧ Retried q) now desc ?_ hnamed h
      fun r hlive hbad => hno ⟨r, hlive, hbad⟩
    · exact hends.of_ok hs
    · intro s n r _ h hr hbad
      cases hround : s.sweepOne now n (desc n) with
      | error e => exact Ends.error trivial
      | ok s' => exact Ends.ok (h.sweepOne hr hbad hround)

/-- Node 1 looks for a value at nodes 2 and 3. Both say that they have some, and the first is
called. -/
def twoCandidates : List Queries.Input :=
  [.findNv noQuery 5 (some (Buf.copy 1 [1])) [⟨2, .inet 1 1⟩, ⟨3, .inet 1 1⟩] 7,
    .findValueReply 0 ⟨2, 1, 7, 5, 0, 0, dataAreNul, []⟩ ⟨.inet 1 1, fun _ => false⟩ 1,
    .findValueReply 0 ⟨3, 1, 7, 5, 0, 0, dataAreNul, []⟩ ⟨.inet 1 1, fun _ => false⟩ 2]

end Libcage.Proofs.Dht
