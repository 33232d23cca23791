import Libcage.Lib.Lease
import Libcage.Proofs.Peers
import Libcage.Proxy.Register

/-!
# `Libcage.Proofs.Registered`: registrations are bound to their session

Both tables of registrations are tables of leases: every event of the node is one of
`LeaseEvent`, or does nothing to the table. They differ in what a message with another session
can do. `dtun` lets it renew the record where it comes from the recorded address, and `proxy`
drops it.

`sessions_bound` follows from the leases: nobody takes a record over, and a record is not lost
before its time.
-/

set_option autoImplicit false

namespace Libcage.Proofs

open Libcage.Lib
open Libcage.Rdp (Id)
open Libcage.Dht (Cageaddr)

/-- The leases of the nodes and clients of an id. -/
abbrev Sessions := Leases Id (BitVec 32) Cageaddr

/-- An event of a table of sessions. -/
abbrev SessionEvent := LeaseEvent Id (BitVec 32) Cageaddr

/-! ### `dtun` -/

section
open Libcage.Dtun

/-- A record as a lease. -/
def nodeLease (r : Registered) : Lease (BitVec 32) Cageaddr := ⟨r.session, r.addr, r.t⟩

/-- The records of `m_registered_nodes`. -/
def nodeSessions (s : RegisteredNodes) : Sessions :=
  fun id => (s.registeredNodes.lookup id).map nodeLease

/-- What an event is to the table of the node `own`. -/
def nodeEvent (own : Id) : RegisteredNodes.Input → Option SessionEvent
  | .recvRegister now reg from_ =>
      if reg.dst = own then
        some (.claim ⟨reg.src, reg.session, newCageaddr reg.src from_, now⟩)
      else
        none
  | .refresh now => some (.sweep now)

/-- A message from the recorded address renews the record in any session. -/
abbrev SameAddr (l : Lease (BitVec 32) Cageaddr) (c : Claim Id (BitVec 32) Cageaddr) : Prop :=
  l.addr = c.addr

/-- Two records are the same where their addresses are. -/
theorem same_eq {lhs rhs : Registered} (h : rhs.addr.saddr ≠ .loopback) :
    lhs.same rhs = .ok (decide (lhs.addr = rhs.addr)) := by
  obtain ⟨⟨id, saddr⟩, session, t⟩ := lhs
  obtain ⟨⟨id', saddr'⟩, session', t'⟩ := rhs
  simp only [Registered.same]
  by_cases hid : id = id'
  · simp [hid, sameAddr_eq h]
  · simp [hid]

/-- A message leaves the record of its sender as a claim does, and no other record. -/
theorem enter_eq {s : RegisteredNodes} {r : Registered} (h : r.addr.saddr ≠ .loopback) :
    ∃ nodes, RegisteredNodes.enter s.registeredNodes r = .ok nodes ∧
      nodeSessions { s with registeredNodes := nodes } =
        exec registeredTtl SameAddr (nodeSessions s)
          (.claim ⟨r.addr.id, r.session, r.addr, r.t⟩) := by
  -- All that is written is the record under the id of the sender.
  have hwrite : ∀ r' : Registered, nodeLease r' =
      Claim.leave SameAddr ⟨r.addr.id, r.session, r.addr, r.t⟩ (nodeSessions s r.addr.id) →
      nodeSessions { s with registeredNodes := s.registeredNodes.insert r.addr.id r' } =
        exec registeredTtl SameAddr (nodeSessions s)
          (.claim ⟨r.addr.id, r.session, r.addr, r.t⟩) := by
    intro r' hr'
    funext id
    by_cases hid : id = r.addr.id
    · subst hid
      simp only [nodeSessions, AList.lookup_insert, Option.map_some, exec, Function.update_self,
        hr']
    · simp [nodeSessions, exec, hid]
  unfold RegisteredNodes.enter
  cases hit : s.registeredNodes.lookup r.addr.id with
  | none => exact ⟨_, rfl, hwrite r (by simp [nodeSessions, hit, Claim.leave, nodeLease])⟩
  | some it =>
    simp only [same_eq h, ok_bind]
    by_cases hsession : it.session = r.session
    · rw [if_pos hsession]
      exact ⟨_, rfl, hwrite r (by simp [nodeSessions, hit, Claim.leave, nodeLease, hsession])⟩
    · rw [if_neg hsession]
      by_cases haddr : it.addr = r.addr
      · simp only [haddr, decide_true, if_true]
        refine ⟨_, rfl, hwrite _ ?_⟩
        simp [nodeSessions, hit, Claim.leave, nodeLease, hsession, haddr]
      · simp only [haddr, decide_false, Bool.false_eq_true, if_false]
        refine ⟨_, rfl, ?_⟩
        funext id
        by_cases hid : id = r.addr.id
        · subst hid
          simp [nodeSessions, exec, hit, Claim.leave, nodeLease, hsession, haddr]
        · simp [nodeSessions, exec, hid]

/-- `dtun` follows the leases. -/
theorem nodes_follow (own : Id) :
    Follows RegisteredNodes.step (fun s => s.id = own) nodeSessions (nodeEvent own) registeredTtl
      SameAddr := by
  rintro s i s' rfl hstep
  cases i with
  | recvRegister now reg from_ =>
    simp only [RegisteredNodes.step, RegisteredNodes.recvRegister] at hstep
    by_cases hdst : reg.dst = s.id
    · rw [if_neg (not_not_intro hdst)] at hstep
      obtain ⟨nodes, hnodes, hview⟩ :=
        enter_eq (s := s) (r := ⟨newCageaddr reg.src from_, reg.session, now⟩) from_.2
      rw [hnodes, ok_bind] at hstep
      obtain ⟨⟨b, peers⟩, -, hret⟩ := bind_eq_ok hstep
      cases hret
      rw [nodeEvent, if_pos hdst]
      exact ⟨rfl, hview⟩
    · rw [if_pos hdst] at hstep
      cases hstep
      rw [nodeEvent, if_neg hdst]
      exact ⟨rfl, rfl⟩
  | refresh now =>
    cases hstep
    refine ⟨rfl, ?_⟩
    funext id
    simp only [nodeSessions, RegisteredNodes.refresh, lookup_filterMap, nodeEvent, Option.elim_some,
      exec]
    cases s.registeredNodes.lookup id with
    | none => rfl
    | some r =>
      rw [Option.map_some, filter_sweep registeredTtl now (nodeLease r), Option.bind_some]
      -- Both sides drop the record after the same time.
      show (if registeredTtl < now - r.t then none else some r).map nodeLease =
        if registeredTtl < now - r.t then none else some (nodeLease r)
      split <;> rfl

end

/-! ### `proxy` -/

section
open Libcage.Proxy

/-- A record as a lease. -/
def clientLease (a : Addr) : Lease (BitVec 32) Cageaddr := ⟨a.session, a.addr, a.recvTime⟩

/-- The records of `m_registered`. -/
def clientSessions (s : RegisteredClients) : Sessions :=
  fun id => (s.registered.lookup id).map clientLease

/-- What an event is to the table of the proxy `own`. -/
def clientEvent (own : Id) : RegisteredClients.Input → Option SessionEvent
  | .recvRegister now reg from_ =>
      if reg.dst = own then
        some (.claim ⟨reg.src, reg.session, newCageaddr reg.src from_, now⟩)
      else
        none
  | .refresh now => some (.sweep now)

/-- A message in another session renews nothing. -/
abbrev NoOther (_ : Lease (BitVec 32) Cageaddr) (_ : Claim Id (BitVec 32) Cageaddr) : Prop := False

/-- `proxy` follows the leases. -/
theorem clients_follow (own : Id) :
    Follows RegisteredClients.step (fun s => s.id = own) clientSessions (clientEvent own)
      registerTtl NoOther := by
  rintro s i s' rfl hstep
  cases i with
  | recvRegister now reg from_ =>
    cases hstep
    simp only [RegisteredClients.recvRegister, clientEvent, newCageaddr]
    by_cases hdst : reg.dst = s.id
    · rw [if_neg (not_not_intro hdst), if_pos hdst, Option.elim_some]
      -- By the record under the id of the sender: none, one of this session, or one of another
      -- session. The other ids keep theirs.
      cases hit : s.registered.lookup reg.src with
      | none =>
        simp only [true_and]
        funext id
        by_cases hsrc : id = reg.src
        · subst hsrc
          simp [clientSessions, exec, hit, Claim.leave, clientLease]
        · simp [clientSessions, exec, hsrc]
      | some it =>
        by_cases hsession : it.session = reg.session
        · simp only [if_pos hsession, true_and]
          funext id
          by_cases hsrc : id = reg.src
          · subst hsrc
            simp [clientSessions, exec, hit, Claim.leave, clientLease, hsession]
          · simp [clientSessions, exec, hsrc]
        · simp only [if_neg hsession, true_and]
          funext id
          by_cases hsrc : id = reg.src
          · subst hsrc
            simp [clientSessions, exec, hit, Claim.leave, clientLease, hsession]
          · simp [clientSessions, exec, hsrc]
    · rw [if_pos hdst, if_neg hdst]
      exact ⟨rfl, rfl⟩
  | refresh now =>
    cases hstep
    refine ⟨rfl, ?_⟩
    funext id
    simp only [clientSessions, RegisteredClients.refresh, lookup_filterMap, clientEvent,
      Option.elim_some, exec]
    cases s.registered.lookup id with
    | none => rfl
    | some a =>
      rw [Option.map_some, filter_sweep registerTtl now (clientLease a), Option.bind_some]
      -- Both sides drop the record after the same time.
      show (if registerTtl < now - a.recvTime then none else some a).map clientLease =
        if registerTtl < now - a.recvTime then none else some (clientLease a)
      split <;> rfl

end

/-- Whatever messages arrive and whenever the tables are swept: a record of `dtun` or of
`proxy` keeps its session as long as it is there, another address comes only with a message
in this session, and a record goes only in a sweep, after the last time at which it was
entered or renewed is past for more than the `ttl`. -/
theorem sessions_bound (own : Id) :
    (∀ peers is s i s' id l,
      run Dtun.RegisteredNodes.step (.init own peers) is = .ok s →
      Dtun.RegisteredNodes.step s i = .ok s' → nodeSessions s id = some l →
      Bound Dtun.registeredTtl
        (renewals Dtun.registeredTtl SameAddr id (fun _ => none) (is.filterMap (nodeEvent own)))
        id l (nodeSessions s' id) (nodeEvent own i)) ∧
    (∀ is s i s' id l,
      run Proxy.RegisteredClients.step (.init own) is = .ok s →
      Proxy.RegisteredClients.step s i = .ok s' → clientSessions s id = some l →
      Bound Proxy.registerTtl
        (renewals Proxy.registerTtl NoOther id (fun _ => none) (is.filterMap (clientEvent own)))
        id l (clientSessions s' id) (clientEvent own i)) := by
  constructor
  · intro peers is s i s' id l hrun hstep hl
    exact bound_of_run (nodes_follow own) rfl rfl hrun hstep hl
  · intro is s i s' id l hrun hstep hl
    exact bound_of_run (clients_follow own) rfl rfl hrun hstep hl

section
open Dtun Proxy

/-- The first message of the node 2, and one that claims its id in another session. -/
def ownNode : RegisteredNodes.Input := .recvRegister 0 ⟨2, 1, 7⟩ ⟨.inet 1 1, by decide⟩

def otherNode : RegisteredNodes.Input := .recvRegister 5 ⟨2, 1, 8⟩ ⟨.inet 2 2, by decide⟩

/-- The same two messages to a proxy. -/
def ownClient : RegisteredClients.Input := .recvRegister 0 ⟨2, 1, 7, 3⟩ ⟨.inet 1 1, by decide⟩

def otherClient : RegisteredClients.Input := .recvRegister 5 ⟨2, 1, 8, 4⟩ ⟨.inet 2 2, by decide⟩

/-- An id is claimed in another session. -/
theorem sessions_bound_claimed :
    (∃ s s' l, run RegisteredNodes.step (.init 1 .init) [ownNode] = .ok s ∧
      RegisteredNodes.step s otherNode = .ok s' ∧ nodeSessions s 2 = some l ∧
      Bound registeredTtl
        (renewals registeredTtl SameAddr 2 (fun _ => none) ([ownNode].filterMap (nodeEvent 1)))
        2 l (nodeSessions s' 2) (nodeEvent 1 otherNode)) ∧
    (∃ s s' l, run RegisteredClients.step (.init 1) [ownClient] = .ok s ∧
      RegisteredClients.step s otherClient = .ok s' ∧ clientSessions s 2 = some l ∧
      Bound registerTtl
        (renewals registerTtl NoOther 2 (fun _ => none) ([ownClient].filterMap (clientEvent 1)))
        2 l (clientSessions s' 2) (clientEvent 1 otherClient)) :=
  ⟨⟨_, _, _, rfl, rfl, rfl,
      (sessions_bound 1).1 .init [ownNode] _ otherNode _ 2 _ rfl rfl rfl⟩,
    ⟨_, _, _, rfl, rfl, rfl, (sessions_bound 1).2 [ownClient] _ otherClient _ 2 _ rfl rfl rfl⟩⟩

end

end Libcage.Proofs
