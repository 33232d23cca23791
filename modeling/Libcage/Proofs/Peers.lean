import Libcage.Peers

/-!
# `Libcage.Proofs.Peers`: fresh addresses and silent peers

`peers::add_node` has five results (`addNode_cases`). Where the id is in `m_map` with the same
session or none, `m_map.insert` does nothing: the old address stays, and so does its time
stamp. The guard in front of it names `domain_inet6` twice and refuses every IPv6 address.
`fresh_iff` says which calls do what they are for.

`peers::add_timeout` enters an id only where it is entered already. Nothing ever is
(`timeout_eq_empty`), and so no id is kept out after it failed to answer (`quarantine_iff`).
-/

set_option autoImplicit false

namespace Libcage.Proofs

open Libcage.Lib
open Libcage.Rdp (Id)
open Libcage.Dht (Saddr Cageaddr domainInet domainInet6 readNodesInet readNodesInet6)
open Libcage.Peers

variable {s s' : Peers} {id : Id} {now : Int} {addr : Cageaddr} {session : BitVec 32}

/-! ### The operations -/

/-- An insert does nothing under an id that is there. -/
theorem insert_cases {e : PeerEntry} (h : s.insert id e = .ok s') :
    ((s.map.lookup id).isSome ∧ s' = s) ∨
    (s.map.lookup id = none ∧ s' = { s with map := s.map.insert id e }) := by
  unfold Peers.insert at h
  split at h
  · rename_i hsome
    exact Or.inl ⟨hsome, (Except.ok.inj h).symm⟩
  · rename_i hnone
    split at h
    · cases h
    · exact Or.inr ⟨by simpa using hnone, (Except.ok.inj h).symm⟩

theorem insert_present {e it : PeerEntry} (h : s.map.lookup id = some it) :
    s.insert id e = .ok s := by
  simp [Peers.insert, h]

theorem insert_absent {e : PeerEntry} (h : s.map.lookup id = none) (he : e.addr ≠ .loopback) :
    s.insert id e = .ok { s with map := s.map.insert id e } := by
  simp [Peers.insert, h, Clashes, he]

/-- Two addresses of which one has a socket address can be compared. -/
theorem sameAddr_eq {lhs rhs : Saddr} (h : rhs ≠ .loopback) :
    sameAddr lhs rhs = .ok (lhs = rhs) := by
  cases rhs with
  | loopback => exact absurd rfl h
  | inet port a => cases lhs <;> rfl
  | inet6 port a => cases lhs <;> rfl

theorem sameAddr_cases {lhs rhs : Saddr} {b : Bool} (h : sameAddr lhs rhs = .ok b) :
    b = decide (lhs = rhs) := by
  by_cases hr : rhs = .loopback
  · subst hr
    cases lhs with
    | loopback => cases h
    | inet port a => exact (Except.ok.inj h).symm
    | inet6 port a => exact (Except.ok.inj h).symm
  · exact (Except.ok.inj ((sameAddr_eq hr).symm.trans h)).symm

/-- What `peers::add_node` can do with its address. -/
inductive Added (s : Peers) (now : Int) (addr : Cageaddr) (session : BitVec 32) :
    Bool → Peers → Prop where
  /-- The guard refuses it. -/
  | barred (hdomain : addr.domain = domainInet6) : Added s now addr session false s
  /-- The id is there with the same session or none. -/
  | kept (hdomain : addr.domain ≠ domainInet6) (it : PeerEntry)
      (hit : s.map.lookup addr.id = some it) (hsession : it.session = session ∨ it.session = 0) :
      Added s now addr session true (s.eraseTimeout addr.id)
  /-- The id is there with another session, at this address. -/
  | touched (hdomain : addr.domain ≠ domainInet6) (it : PeerEntry)
      (hit : s.map.lookup addr.id = some it) (hsession : ¬ (it.session = session ∨ it.session = 0))
      (haddr : it.addr = addr.saddr) :
      Added s now addr session true ((s.touch addr.id it now).eraseTimeout addr.id)
  /-- The id is there with another session, at another address. -/
  | taken (hdomain : addr.domain ≠ domainInet6) (it : PeerEntry)
      (hit : s.map.lookup addr.id = some it) (hsession : ¬ (it.session = session ∨ it.session = 0))
      (haddr : it.addr ≠ addr.saddr) : Added s now addr session false s
  /-- The id is new. -/
  | fresh (hdomain : addr.domain ≠ domainInet6) (hnone : s.map.lookup addr.id = none) :
      Added s now addr session true
        ({ s with map := s.map.insert addr.id ⟨now, session, addr.saddr⟩ }.eraseTimeout addr.id)

/-- The guard of `add_node` is true of the IPv6 addresses. -/
theorem barred_iff : (addr.domain ≠ domainInet ∧ addr.domain = domainInet6) ↔
    addr.domain = domainInet6 := by
  refine ⟨fun h => h.2, fun h => ⟨?_, h⟩⟩
  rw [h]
  decide

theorem addNode_cases {b : Bool} (h : s.addNode now addr session = .ok (b, s')) :
    Added s now addr session b s' := by
  unfold addNode at h
  simp only [barred_iff] at h
  -- By the branches of `add_node`: the domain, the entry, its session and its address.
  by_cases hdomain : addr.domain = domainInet6
  · rw [if_pos hdomain] at h
    cases h
    exact .barred hdomain
  · rw [if_neg hdomain] at h
    cases hit : s.map.lookup addr.id with
    | none =>
      simp only [hit] at h
      obtain ⟨t, ht, hret⟩ := bind_eq_ok h
      cases hret
      rcases insert_cases ht with ⟨hsome, -⟩ | ⟨-, rfl⟩
      · simp [hit] at hsome
      · exact .fresh hdomain hit
    | some it =>
      simp only [hit] at h
      split at h
      · rename_i hsession
        rw [insert_present hit, ok_bind] at h
        cases h
        exact .kept hdomain it hit hsession
      · rename_i hsession
        obtain ⟨same, hsame, hret⟩ := bind_eq_ok h
        have hiff := sameAddr_cases hsame
        by_cases haddr : it.addr = addr.saddr
        · simp only [hiff, haddr, decide_true, if_true] at hret
          cases hret
          exact .touched hdomain it hit hsession haddr
        · simp only [hiff, haddr, decide_false, if_false, Bool.false_eq_true] at hret
          cases hret
          exact .taken hdomain it hit hsession haddr

section
variable (now) (hdomain : addr.domain ≠ domainInet6)

/-- The guard refuses every IPv6 address. -/
theorem addNode_inet6 (h : addr.domain = domainInet6) :
    s.addNode now addr session = .ok (false, s) := by
  unfold addNode
  rw [if_pos (barred_iff.mpr h)]

include hdomain

/-- The insert does nothing, and the old entry stays. -/
theorem addNode_kept {it : PeerEntry} (hit : s.map.lookup addr.id = some it)
    (hsession : it.session = session ∨ it.session = 0) :
    s.addNode now addr session = .ok (true, s.eraseTimeout addr.id) := by
  unfold addNode
  rw [if_neg (mt barred_iff.mp hdomain)]
  simp only [hit, if_pos hsession, insert_present hit]
  rfl

variable (hsaddr : addr.saddr ≠ .loopback)
include hsaddr

theorem addNode_fresh (hnone : s.map.lookup addr.id = none) :
    s.addNode now addr session = .ok (true,
      { s with map := s.map.insert addr.id ⟨now, session, addr.saddr⟩ }.eraseTimeout addr.id) := by
  unfold addNode
  rw [if_neg (mt barred_iff.mp hdomain)]
  simp only [hnone, insert_absent (e := ⟨now, session, addr.saddr⟩) hnone hsaddr]
  rfl

/-- Under another session the address decides. -/
theorem addNode_other {it : PeerEntry} (hit : s.map.lookup addr.id = some it)
    (hsession : ¬ (it.session = session ∨ it.session = 0)) :
    s.addNode now addr session =
      .ok (if it.addr = addr.saddr then (true, (s.touch addr.id it now).eraseTimeout addr.id)
        else (false, s)) := by
  unfold addNode
  rw [if_neg (mt barred_iff.mp hdomain)]
  simp only [hit, if_neg hsession, sameAddr_eq hsaddr, ok_bind]
  by_cases haddr : it.addr = addr.saddr
  · simp only [haddr, decide_true, if_true]
    rfl
  · simp only [haddr, decide_false, Bool.false_eq_true, if_false]
    rfl

end

/-! ### An entry that is not removed -/

/-- A call of the `map_ttl` seconds from `now` on that removes neither the id nor its
address. -/
def Spares (now : Int) (id : Id) (addr : Saddr) : Input → Prop
  | .addNode t _ _ => now ≤ t ∧ t ≤ now + mapTtl
  | .addNodeForce t _ => now ≤ t ∧ t ≤ now + mapTtl
  | .removeId id' => id' ≠ id
  | .removeAddr addr' => addr' ≠ addr
  | .refresh t => now ≤ t ∧ t ≤ now + mapTtl
  | .addTimeout t id' => now ≤ t ∧ t ≤ now + mapTtl ∧ id' ≠ id

/-- The id is at this address, with a time stamp not before `now`. -/
def HasEntry (s : Peers) (now : Int) (id : Id) (addr : Saddr) : Prop :=
  ∃ e, s.map.lookup id = some e ∧ e.addr = addr ∧ now ≤ e.t

section
variable {a : Saddr}

/-- A change of the map under another id. -/
theorem HasEntry.insert_ne {id' : Id} {e : PeerEntry} (h : HasEntry s now id a) (hid : id ≠ id') :
    HasEntry { s with map := s.map.insert id' e } now id a := by
  obtain ⟨it, hit, hrest⟩ := h
  exact ⟨it, by rw [AList.lookup_insert_ne hid, hit], hrest⟩

theorem HasEntry.insert {id' : Id} {e : PeerEntry} (h : HasEntry s now id a)
    (hs' : s.insert id' e = .ok s') : HasEntry s' now id a := by
  rcases insert_cases hs' with ⟨-, rfl⟩ | ⟨hnone, rfl⟩
  · exact h
  · apply h.insert_ne
    rintro rfl
    obtain ⟨it, hit, -⟩ := h
    rw [hnone] at hit
    cases hit

theorem HasEntry.added {t : Int} {b : Bool} (h : HasEntry s now id a) (ht : now ≤ t)
    (hs' : Added s t addr session b s') : HasEntry s' now id a := by
  cases hs' with
  | barred | kept | taken => exact h
  | touched _ it hit _ haddr =>
    by_cases hid : id = addr.id
    · subst hid
      obtain ⟨e, he, hea, -⟩ := h
      obtain rfl : it = e := Option.some.inj (hit.symm.trans he)
      exact ⟨{ it with t := t }, AList.lookup_insert _, hea, ht⟩
    · exact h.insert_ne hid
  | fresh _ hnone =>
    apply HasEntry.insert_ne h
    rintro rfl
    obtain ⟨e, he, -⟩ := h
    rw [hnone] at he
    cases he

theorem HasEntry.step {i : Input} (h : HasEntry s now id a) (hi : Spares now id a i)
    (hs' : s.step i = .ok s') : HasEntry s' now id a := by
  cases i with
  | addNode t addr session =>
    obtain ⟨⟨b, u⟩, hadd, hret⟩ := bind_eq_ok hs'
    cases hret
    exact h.added hi.1 (addNode_cases hadd)
  | addNodeForce t addr =>
    simp only [Peers.step, addNodeForce] at hs'
    split at hs'
    · cases hs'
      exact h
    · exact h.insert hs'
  | removeId id' =>
    cases hs'
    obtain ⟨e, he, hrest⟩ := h
    exact ⟨e, by rw [removeId, AList.lookup_erase_ne (Ne.symm hi), he], hrest⟩
  | removeAddr addr' =>
    simp only [Peers.step, removeAddr] at hs'
    split at hs'
    · cases hs'
    · cases hs'
      obtain ⟨e, he, rfl, ht⟩ := h
      have hne : ¬ e.addr = addr' := fun heq => hi heq.symm
      exact ⟨e, by simp [he, hne], rfl, ht⟩
  | refresh t =>
    cases hs'
    obtain ⟨e, he, ha, ht⟩ := h
    -- The sweep comes before the entry is old enough.
    have hyoung : ¬ mapTtl < t - e.t := by
      have hend := hi.2
      omega
    exact ⟨e, by simp [refresh, he, hyoung], ha, ht⟩
  | addTimeout t id' =>
    cases hs'
    simp only [addTimeout]
    split
    · exact h
    · obtain ⟨e, he, hrest⟩ := h
      exact ⟨e, by rw [AList.lookup_erase_ne (Ne.symm hi.2.2), he], hrest⟩

/-- Calls that spare an entry leave it there. -/
theorem HasEntry.run {is : List Input} (h : HasEntry s now id a)
    (his : ∀ i ∈ is, Spares now id a i) (hs' : run Peers.step s is = .ok s') :
    HasEntry s' now id a :=
  inv_of_run (fun _ _ _ hInv hi hstep => HasEntry.step hInv hi hstep) h
    (allowed_of_all fun i hi _ => his i hi) hs'

end

/-! ### Fresh addresses -/

/-- What a call of `peers::add_node` is for. An address that is taken can be read back, has
the time of the call, and stays for `map_ttl` seconds. An address is refused for an id that is
bound to another session at another address. -/
structure FreshAdd (s : Peers) (now : Int) (addr : Cageaddr) (session : BitVec 32) : Prop where
  readBack : ∀ s', s.addNode now addr session = .ok (true, s') → s'.getAddr addr.id = some addr
  time : ∀ s', s.addNode now addr session = .ok (true, s') →
    (s'.map.lookup addr.id).map (·.t) = some now
  stays : ∀ s' is t, s.addNode now addr session = .ok (true, s') →
    (∀ i ∈ is, Spares now addr.id addr.saddr i) → run Peers.step s' is = .ok t →
      (t.map.lookup addr.id).isSome
  refused : ∀ s', s.addNode now addr session = .ok (false, s') →
    ∃ it, s.map.lookup addr.id = some it ∧ it.session ≠ session ∧ it.session ≠ 0 ∧
      it.addr ≠ addr.saddr

/-- `FreshAdd` of the calls with an IPv4 or IPv6 address. -/
def Fresh (s : Peers) : Input → Prop
  | .addNode now addr session =>
      addr.domain = domainInet ∨ addr.domain = domainInet6 → FreshAdd s now addr session
  | _ => True

/-- The calls that `peers::add_node` handles: an IPv4 address of an id that is new, or bound
to another session, or known at this address since this very second, and an IPv6 address that
is to be refused. -/
def Handled (s : Peers) : Input → Prop
  | .addNode now addr session =>
      match s.map.lookup addr.id with
      | none => addr.domain ≠ domainInet6
      | some it =>
          if addr.domain = domainInet6 then
            it.session ≠ session ∧ it.session ≠ 0 ∧ it.addr ≠ addr.saddr
          else
            addr.domain = domainInet → it.session = session ∨ it.session = 0 →
              it.addr = addr.saddr ∧ it.t = now
  | _ => True

/-- The address is taken, and its entry has the time of the call. -/
theorem FreshAdd.of_taken {e : PeerEntry} (h : s.addNode now addr session = .ok (true, s'))
    (he : s'.map.lookup addr.id = some e) (haddr : e.addr = addr.saddr) (ht : e.t = now) :
    FreshAdd s now addr session where
  readBack t hadd := by
    cases h.symm.trans hadd
    simp [getAddr, he, haddr]
  time t hadd := by
    cases h.symm.trans hadd
    simp [he, ht]
  stays t is u hadd his hrun := by
    cases h.symm.trans hadd
    have hentry : HasEntry s' now addr.id addr.saddr := ⟨e, he, haddr, ht.ge⟩
    obtain ⟨e', he', -⟩ := hentry.run his hrun
    simp [he']
  refused t hadd := nomatch h.symm.trans hadd

/-- The address is refused, as it should be. -/
theorem FreshAdd.of_refused {it : PeerEntry} (h : s.addNode now addr session = .ok (false, s'))
    (hit : s.map.lookup addr.id = some it) (hsession : it.session ≠ session ∧ it.session ≠ 0)
    (haddr : it.addr ≠ addr.saddr) : FreshAdd s now addr session where
  readBack _ hadd := nomatch h.symm.trans hadd
  time _ hadd := nomatch h.symm.trans hadd
  stays _ _ _ hadd := nomatch h.symm.trans hadd
  refused _ _ := ⟨it, hit, hsession.1, hsession.2, haddr⟩

/-- The domain of an address is the one of its socket address. -/
theorem saddr_ne_loopback (h : addr.domain = domainInet ∨ addr.domain = domainInet6) :
    addr.saddr ≠ .loopback := by
  intro hloop
  rw [Cageaddr.domain, hloop] at h
  exact absurd h (by decide)

theorem freshAdd_of_handled (hdomain : addr.domain = domainInet ∨ addr.domain = domainInet6)
    (h : Handled s (.addNode now addr session)) : FreshAdd s now addr session := by
  have hsaddr := saddr_ne_loopback hdomain
  simp only [Handled] at h
  cases hit : s.map.lookup addr.id with
  | none =>
    simp only [hit] at h
    exact .of_taken (addNode_fresh now h hsaddr hit) (AList.lookup_insert _) rfl rfl
  | some it =>
    simp only [hit] at h
    by_cases hinet6 : addr.domain = domainInet6
    · -- The guard refuses, and the entry says that it should.
      rw [if_pos hinet6] at h
      exact .of_refused (addNode_inet6 now hinet6) hit ⟨h.1, h.2.1⟩ h.2.2
    · rw [if_neg hinet6] at h
      by_cases hsession : it.session = session ∨ it.session = 0
      · -- The insert does nothing, so the old entry has to be the new one.
        obtain ⟨haddr, ht⟩ := h (hdomain.resolve_right hinet6) hsession
        exact .of_taken (addNode_kept now hinet6 hit hsession) hit haddr ht
      · have hadd := addNode_other now hinet6 hsaddr hit hsession
        by_cases haddr : it.addr = addr.saddr
        · rw [if_pos haddr] at hadd
          exact .of_taken hadd (AList.lookup_insert _) haddr rfl
        · rw [if_neg haddr] at hadd
          exact .of_refused hadd hit (not_or.mp hsession) haddr

theorem handled_of_freshAdd (h : FreshAdd s now addr session) :
    Handled s (.addNode now addr session) := by
  simp only [Handled]
  by_cases hinet6 : addr.domain = domainInet6
  · obtain ⟨it, hit, hne, hnz, haddr⟩ := h.refused s (addNode_inet6 now hinet6)
    simp only [hit, if_pos hinet6]
    exact ⟨hne, hnz, haddr⟩
  · cases hit : s.map.lookup addr.id with
    | none => exact hinet6
    | some it =>
      simp only [if_neg hinet6]
      intro _ hsession
      have hadd := addNode_kept now hinet6 hit hsession
      have hback := h.readBack _ hadd
      have htime := h.time _ hadd
      simp only [getAddr, eraseTimeout, hit, Option.map_some, Option.some.injEq] at hback htime
      exact ⟨by rw [← hback], htime⟩

/-- A run does for its addresses what it should where every call of `add_node` in it is one
that is handled. -/
theorem fresh_iff (is : List Input) :
    Allowed Peers.step Fresh init is ↔ Allowed Peers.step Handled init is := by
  have hpoint : ∀ s i, Fresh s i ↔ Handled s i := by
    intro s i
    cases i with
    | addNode now addr session =>
      constructor
      · intro h
        by_cases hdomain : addr.domain = domainInet ∨ addr.domain = domainInet6
        · exact handled_of_freshAdd (h hdomain)
        · -- A call with no address is not asked for anything.
          obtain ⟨hinet, hinet6⟩ := not_or.mp hdomain
          simp only [Handled]
          cases s.map.lookup addr.id with
          | none => exact hinet6
          | some it =>
            simp only [if_neg hinet6]
            exact fun h4 => absurd h4 hinet
      · exact fun h hdomain => freshAdd_of_handled hdomain h
    | _ => exact Iff.rfl
  simp only [allowed_iff, hpoint]

/-- A peer that has moved to another address: the second call returns true, and the first
address is read back. -/
theorem moved_is_stale : ¬ Allowed Peers.step Fresh init
    [.addNode 0 ⟨1, .inet 1 1⟩ 0, .addNode 10 ⟨1, .inet 2 2⟩ 0] := by
  intro h
  have hfresh := (h.2 _ rfl).1 (Or.inl rfl)
  have hback := hfresh.readBack _ rfl
  exact absurd hback (by decide +kernel)

/-! ### Silent peers -/

/-- `m_timeout` is empty at any time. -/
theorem timeout_eq_empty {is : List Input} (h : run Peers.step init is = .ok s) :
    s.timeout = ∅ := by
  refine run_inv (fun s => s.timeout = ∅) ?_ rfl h
  intro s i s' hs hstep
  have hinsert : ∀ {id e} {t t' : Peers}, t.timeout = ∅ → t.insert id e = .ok t' →
      t'.timeout = ∅ := by
    intro id e t t' ht ht'
    rcases insert_cases ht' with ⟨-, rfl⟩ | ⟨-, rfl⟩ <;> exact ht
  cases i with
  | addNode now addr session =>
    obtain ⟨⟨b, t⟩, hadd, hret⟩ := bind_eq_ok hstep
    cases hret
    cases addNode_cases hadd with
    | barred | taken => exact hs
    | kept | touched | fresh => simp [eraseTimeout, touch, hs]; rfl
  | addNodeForce now addr =>
    simp only [Peers.step, addNodeForce] at hstep
    split at hstep
    · cases hstep
      exact hs
    · exact hinsert hs hstep
  | removeId id =>
    cases hstep
    exact hs
  | removeAddr addr =>
    simp only [Peers.step, removeAddr] at hstep
    split at hstep
    · cases hstep
    · cases hstep
      exact hs
  | refresh now =>
    cases hstep
    simp [refresh, hs]
  | addTimeout now id =>
    -- The only insert stands behind the test that the id is there.
    cases hstep
    simp [addTimeout, hs]

/-- The id is kept out: it has no address, and no list of nodes that a peer sends, from
whatever address, brings it back. -/
structure Quarantined (s : Peers) (id : Id) : Prop where
  isTimeout : s.isTimeout id = true
  getAddr : s.getAddr id = none
  inet : ∀ saddr num bs, ∀ node ∈ readNodesInet ⟨saddr, s.isTimeout⟩ num bs, node.id ≠ id
  inet6 : ∀ saddr num bs, ∀ node ∈ readNodesInet6 ⟨saddr, s.isTimeout⟩ num bs, node.id ≠ id

/-- A call that leaves an id in quarantine: it comes before `timeout_ttl` is over, and it is
no `add_node` of this id that returns true. -/
def Leaves (t₀ : Int) (id : Id) (s : Peers) : Input → Prop
  | .addNode t addr session => t ≤ t₀ + timeoutTtl ∧
      (addr.id = id → ∀ s', s.addNode t addr session ≠ .ok (true, s'))
  | .addNodeForce t _ => t ≤ t₀ + timeoutTtl
  | .refresh t => t ≤ t₀ + timeoutTtl
  | .addTimeout t _ => t ≤ t₀ + timeoutTtl
  | _ => True

/-- In this run an id stays in quarantine from any call of `peers::add_timeout` on, as long as
the calls leave it there. -/
def Quarantine (is : List Input) : Prop :=
  ∀ before t₀ id during after s s', is = before ++ .addTimeout t₀ id :: (during ++ after) →
    run Peers.step init before = .ok s →
    Allowed Peers.step (Leaves t₀ id) (s.addTimeout t₀ id) during →
    run Peers.step (s.addTimeout t₀ id) during = .ok s' → Quarantined s' id

/-- A run keeps silent peers out only where no peer is reported as silent. -/
theorem quarantine_iff (is : List Input) :
    Quarantine is ↔ Allowed Peers.step (fun _ i => ∀ t id, i ≠ .addTimeout t id) init is := by
  rw [allowed_iff]
  constructor
  · rintro h before i after s his hrun t₀ id rfl
    -- Right after the call the id should be in `m_timeout`, and that is empty.
    have hquarantined := h before t₀ id [] after s _ his hrun trivial rfl
    have hempty := timeout_eq_empty hrun
    have hout : (s.addTimeout t₀ id).isTimeout id = false := by
      simp [addTimeout, isTimeout, hempty]
    exact absurd hquarantined.isTimeout (by simp [hout])
  · intro h before t₀ id during after s s' his hrun
    exact absurd rfl (h before _ _ s his hrun t₀ id)

/-- A peer is heard from and then reported as silent. -/
theorem silent_is_found : ¬ Quarantine [.addNode 0 ⟨1, .inet 1 1⟩ 0, .addTimeout 10 1] := by
  intro h
  have hquarantined := h [.addNode 0 ⟨1, .inet 1 1⟩ 0] 10 1 [] [] _ _ rfl rfl trivial rfl
  exact absurd hquarantined.getAddr (by decide +kernel)

end Libcage.Proofs
