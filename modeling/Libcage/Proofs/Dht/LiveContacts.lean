import Libcage.Proofs.Dht.Rttable

/-!
# `Libcage.Proofs.Dht.LiveContacts`: a contact that answers its ping

A contact at the front of a full row is pinged, and has two seconds to answer before another
one takes its place. `recv_ping_reply` compares the answer with the contact once for each
address family.

`WaitOk` is what every run keeps, also one in which a contact was removed or dropped in the
wrong place. It says that no other ping waits for a contact of the row. `liveKept_iff` says
which contacts stay when they answer.
-/

set_option autoImplicit false

namespace Libcage.Proofs.Dht

open Libcage.Lib
open Libcage.Dht
open Libcage.Rdp (Id Table)

/-- The answer of a contact ends its ping and moves it to the end of its row. No other answer
with the nonce and no other answer of the contact does anything. -/
structure LiveKept (t : Rttable) (nonce : BitVec 32) (ping : TimerPing) : Prop where
  answered : ∃ t', t.recvPingReply ping.addrOld nonce = .ok t' ∧
    t'.pingWait = t.pingWait.erase nonce ∧ t'.pingSend = t.pingSend.erase ping.i ∧
    t'.row ping.i = (t.row ping.i).tail ++ [ping.addrOld] ∧
    (∀ j, j ≠ ping.i → t'.row j = t.row j) ∧ t'.nodes = t.nodes ∧ t'.timerPing nonce = .ok t'
  others : ∀ src nonce', (src.id = ping.addrOld.id ∨ nonce' = nonce) →
    ¬ (src = ping.addrOld ∧ nonce' = nonce) → t.recvPingReply src nonce' = .ok t

/-! ### What every run keeps -/

/-- The contacts of a row have their row by their ids. -/
def InRows (own : Id) (table : Table Int (List Cageaddr)) : Prop :=
  ∀ i, ∀ a ∈ rowOf table i, id2i own a.id = i ∧ a.id ≠ own

/-- The rows and the pings that wait. -/
structure WaitOk (t : Rttable) : Prop where
  rows : InRows t.id t.table
  send : ∀ i, i ∈ t.pingSend ↔ ∃ nonce ping, t.pingWait.lookup nonce = some ping ∧ ping.i = i
  pings : PingsFit t.id t.pingWait

section
variable {own : Id} {table : Table Int (List Cageaddr)}

theorem InRows.insert (h : InRows own table) {i : Int} {row : List Cageaddr}
    (hrow : ∀ a ∈ row, id2i own a.id = i ∧ a.id ≠ own) : InRows own (table.insert i row) := by
  intro j a ha
  by_cases hj : j = i
  · subst hj
    rw [rowOf_insert_self] at ha
    exact hrow a ha
  · rw [rowOf_insert_ne hj] at ha
    exact h j a ha

theorem InRows.erase (h : InRows own table) (i : Int) : InRows own (table.erase i) := by
  intro j a ha
  by_cases hj : j = i
  · subst hj
    rw [rowOf_erase_self] at ha
    cases ha
  · rw [rowOf_erase_ne hj] at ha
    exact h j a ha

/-- Some contacts of a row and one more that belongs there. -/
theorem InRows.concat (h : InRows own table) {i : Int} {row : List Cageaddr} {addr : Cageaddr}
    (hrow : ∀ a ∈ row, a ∈ rowOf table i) (haddr : id2i own addr.id = i ∧ addr.id ≠ own) :
    InRows own (table.insert i (row ++ [addr])) := by
  apply h.insert
  intro a ha
  rcases List.mem_append.mp ha with ha | ha
  · exact h i a (hrow a ha)
  · rw [List.mem_singleton.mp ha]
    exact haddr

end

section
variable {t t' : Rttable}

theorem waitOk_init (id : Id) : WaitOk (.init id) := by
  have h := tableInv_init id
  exact ⟨fun i a ha => ⟨h.ok.rows.row i a ha, h.ok.rows.own i a ha⟩, h.ok.send, h.pings⟩

/-- A ping is sent to the front of a row that has none that waits. -/
theorem WaitOk.ping (h : WaitOk t) {i : Int} (hsend : i ∉ t.pingSend) {nonce : BitVec 32}
    (hnonce : t.pingWait.lookup nonce = none) {addrOld addrNew : Cageaddr}
    (hfits : PingFits t.id ⟨addrOld, addrNew, i⟩) :
    WaitOk { t with
      pingWait := t.pingWait.insert nonce ⟨addrOld, addrNew, i⟩
      pingSend := insert i t.pingSend } := by
  refine ⟨h.rows, fun j => ?_, h.pings.insert hfits fun n p hp hi => ?_⟩
  · rw [Finset.mem_insert, h.send]
    constructor
    · rintro (rfl | ⟨n, p, hp, hj⟩)
      · exact ⟨nonce, _, AList.lookup_insert .., rfl⟩
      · have hne : n ≠ nonce := by
          rintro rfl
          rw [hnonce] at hp
          cases hp
        exact ⟨n, p, lookup_insert_eq_some.mpr (Or.inr ⟨hne, hp⟩), hj⟩
    · rintro ⟨n, p, hp, hj⟩
      rcases lookup_insert_eq_some.mp hp with ⟨-, rfl⟩ | ⟨-, hp⟩
      · exact Or.inl hj.symm
      · exact Or.inr ⟨n, p, hp, hj⟩
  · exact hsend ((h.send i).mpr ⟨n, p, hp, hi⟩)

/-- A ping ends, and the front of its row makes room for one of its contacts. -/
theorem WaitOk.ended (h : WaitOk t) {nonce : BitVec 32} {ping : TimerPing}
    (hping : t.pingWait.lookup nonce = some ping) {front addr : Cageaddr} {rest : List Cageaddr}
    (hrow : t.row ping.i = front :: rest) (haddr : id2i t.id addr.id = ping.i ∧ addr.id ≠ t.id)
    (nodes : Finset Id) :
    WaitOk { t with
      table := t.table.insert ping.i (rest ++ [addr])
      pingSend := t.pingSend.erase ping.i
      nodes := nodes
      pingWait := t.pingWait.erase nonce } := by
  have hrest : ∀ a ∈ rest, a ∈ rowOf t.table ping.i := by
    intro a ha
    have hrow' : rowOf t.table ping.i = front :: rest := hrow
    rw [hrow']
    exact List.mem_cons_of_mem front ha
  exact ⟨h.rows.concat hrest haddr, send_erase h.send h.pings hping, h.pings.erase nonce⟩

theorem WaitOk.addToRow (h : WaitOk t) {rnd : List (BitVec 32)} {addr : Cageaddr}
    (hown : addr.id ≠ t.id) (hstep : t.addToRow rnd (id2i t.id addr.id) addr = .ok t') :
    WaitOk t' := by
  unfold Rttable.addToRow at hstep
  dsimp only at hstep
  split at hstep
  · obtain rfl := Except.ok.inj hstep
    exact ⟨h.rows.concat (fun a ha => List.mem_of_mem_eraseP ha) ⟨rfl, hown⟩, h.send, h.pings⟩
  · rename_i hany
    split at hstep
    · obtain rfl := Except.ok.inj hstep
      exact ⟨h.rows.concat (fun a ha => ha) ⟨rfl, hown⟩, h.send, h.pings⟩
    · split at hstep
      · obtain rfl := Except.ok.inj hstep
        exact h
      · rename_i hsend
        cases hrow : t.row (id2i t.id addr.id) with
        | nil =>
          rw [hrow] at hstep
          cases hstep
        | cons addrOld rest =>
          rw [hrow] at hstep hany
          obtain ⟨nonce, hnonce, hend⟩ := bind_eq_ok hstep
          obtain rfl := Except.ok.inj hend
          have hfree := (pickNonce_ends t.pingWait rnd).of_ok hnonce
          have hfront : addrOld ∈ rowOf t.table (id2i t.id addr.id) := by
            have hrow' : rowOf t.table (id2i t.id addr.id) = addrOld :: rest := hrow
            rw [hrow']
            exact List.mem_cons_self ..
          obtain ⟨hid, hne⟩ := h.rows _ addrOld hfront
          -- The new contact is not in the row.
          have hnew : addrOld.id ≠ addr.id := fun heq => hany (by simp [heq])
          exact h.ping hsend hfree ⟨hid, rfl, hnew, hown, hne⟩

theorem WaitOk.add (h : WaitOk t) {rnd : List (BitVec 32)} {addr : Cageaddr}
    (hstep : t.add rnd addr = .ok t') : WaitOk t' := by
  unfold Rttable.add at hstep
  dsimp only at hstep
  split at hstep
  · obtain rfl := Except.ok.inj hstep
    exact h
  · rename_i hown
    split at hstep
    · obtain rfl := Except.ok.inj hstep
      exact h
    · split at hstep
      · obtain rfl := Except.ok.inj hstep
        refine ⟨h.rows.insert fun a ha => ?_, h.send, h.pings⟩
        rw [List.mem_singleton.mp ha]
        exact ⟨rfl, hown⟩
      · exact h.addToRow hown hstep

theorem WaitOk.remove (h : WaitOk t) (id : Id) : WaitOk (t.remove id) := by
  unfold Rttable.remove
  dsimp only
  split
  · exact h
  · refine ⟨?_, h.send, h.pings⟩
    show InRows t.id (if _ then _ else _)
    split
    · exact h.rows.erase _
    · exact h.rows.insert fun a ha => h.rows _ a (List.mem_of_mem_eraseP ha)

/-- A contact of a ping that waits belongs to its row. -/
theorem WaitOk.old (h : WaitOk t) {nonce : BitVec 32} {ping : TimerPing}
    (hping : t.pingWait.lookup nonce = some ping) :
    id2i t.id ping.addrOld.id = ping.i ∧ ping.addrOld.id ≠ t.id :=
  ⟨(h.pings.fits nonce ping hping).old, (h.pings.fits nonce ping hping).own.2⟩

theorem WaitOk.timerPing (h : WaitOk t) {nonce : BitVec 32}
    (hstep : t.timerPing nonce = .ok t') : WaitOk t' := by
  unfold Rttable.timerPing at hstep
  cases hping : t.pingWait.lookup nonce with
  | none =>
    rw [hping] at hstep
    obtain rfl := Except.ok.inj hstep
    exact h
  | some ping =>
    rw [hping] at hstep
    dsimp only at hstep
    have hfits := h.pings.fits nonce ping hping
    cases hrow : t.row ping.i with
    | nil =>
      rw [hrow] at hstep
      cases hstep
    | cons front rest =>
      rw [hrow] at hstep
      obtain rfl := Except.ok.inj hstep
      exact h.ended hping hrow ⟨hfits.new, hfits.own.1⟩ _

theorem WaitOk.recvPingReply (h : WaitOk t) {src : Cageaddr} {nonce : BitVec 32}
    (hstep : t.recvPingReply src nonce = .ok t') : WaitOk t' := by
  unfold Rttable.recvPingReply at hstep
  cases hping : t.pingWait.lookup nonce with
  | none =>
    rw [hping] at hstep
    obtain rfl := Except.ok.inj hstep
    exact h
  | some ping =>
    rw [hping] at hstep
    dsimp only at hstep
    split at hstep
    · cases hrow : t.row ping.i with
      | nil =>
        rw [hrow] at hstep
        cases hstep
      | cons front rest =>
        rw [hrow] at hstep
        obtain rfl := Except.ok.inj hstep
        exact h.ended hping hrow (h.old hping) _
    · obtain rfl := Except.ok.inj hstep
      exact h

theorem WaitOk.step (h : WaitOk t) (input : Rttable.Input)
    (hstep : Rttable.step t input = .ok t') : WaitOk t' := by
  cases input with
  | add rnd addr => exact h.add hstep
  | remove id =>
    obtain rfl := Except.ok.inj hstep
    exact h.remove id
  | timerPing nonce => exact h.timerPing hstep
  | recvPingReply src nonce => exact h.recvPingReply hstep

theorem waitOk_of_run {id : Id} {inputs : List Rttable.Input}
    (hrun : run Rttable.step (.init id) inputs = .ok t) : WaitOk t :=
  run_inv WaitOk (fun _ i _ h hstep => h.step i hstep) (waitOk_init id) hrun

/-! ### Answers -/

/-- Only IPv4 addresses are found equal. -/
theorem answers_iff {src old : Cageaddr} :
    Rttable.answers src old = true ↔ src = old ∧ ∃ port addr, old.saddr = .inet port addr := by
  obtain ⟨id, saddr⟩ := src
  obtain ⟨id', saddr'⟩ := old
  cases saddr with
  | loopback => cases saddr' <;> simp [Rttable.answers]
  | inet port addr => cases saddr' <;> simp [Rttable.answers]
  | inet6 port addr => cases saddr' <;> simp [Rttable.answers]

theorem recvPingReply_none {src : Cageaddr} {nonce : BitVec 32}
    (h : t.pingWait.lookup nonce = none) : t.recvPingReply src nonce = .ok t := by
  unfold Rttable.recvPingReply
  rw [h]

theorem recvPingReply_other {src : Cageaddr} {nonce : BitVec 32} {ping : TimerPing}
    (hping : t.pingWait.lookup nonce = some ping) (h : Rttable.answers src ping.addrOld = false) :
    t.recvPingReply src nonce = .ok t := by
  unfold Rttable.recvPingReply
  rw [hping]
  dsimp only
  rw [if_neg (by simp [h])]

/-- A contact that stays when it answers has an IPv4 address. -/
theorem LiveKept.inet {nonce : BitVec 32} {ping : TimerPing} (h : LiveKept t nonce ping)
    (hping : t.pingWait.lookup nonce = some ping) :
    ∃ port addr, ping.addrOld.saddr = .inet port addr := by
  by_contra hnot
  obtain ⟨t', hreply, hwait, -⟩ := h.answered
  have hanswers : Rttable.answers ping.addrOld ping.addrOld = false := by
    rw [Bool.eq_false_iff]
    exact fun htrue => hnot (answers_iff.mp htrue).2
  rw [recvPingReply_other hping hanswers] at hreply
  obtain rfl := Except.ok.inj hreply
  -- The ping still waits.
  rw [hwait, AList.lookup_erase] at hping
  cases hping

/-- A contact with an IPv4 address that is still at the front of its row stays. -/
theorem liveKept_inet (h : WaitOk t) {nonce : BitVec 32} {ping : TimerPing} {rest : List Cageaddr}
    (hping : t.pingWait.lookup nonce = some ping) (hrow : t.row ping.i = ping.addrOld :: rest)
    (hinet : ∃ port addr, ping.addrOld.saddr = .inet port addr) : LiveKept t nonce ping := by
  refine ⟨?_, fun src nonce' hshares hdiffers => ?_⟩
  · have hreply : t.recvPingReply ping.addrOld nonce = .ok { t with
        table := t.table.insert ping.i (rest ++ [ping.addrOld])
        pingSend := t.pingSend.erase ping.i
        pingWait := t.pingWait.erase nonce } := by
      unfold Rttable.recvPingReply
      rw [hping]
      dsimp only
      rw [if_pos (answers_iff.mpr ⟨rfl, hinet⟩), hrow]
    refine ⟨_, hreply, rfl, rfl, ?_, fun j hj => rowOf_insert_ne hj _, rfl, ?_⟩
    · rw [hrow]
      exact rowOf_insert_self _ _
    · unfold Rttable.timerPing
      rw [AList.lookup_erase]
  · cases hping' : t.pingWait.lookup nonce' with
    | none => exact recvPingReply_none hping'
    | some ping' =>
      refine recvPingReply_other hping' ?_
      rw [Bool.eq_false_iff]
      intro hanswers
      obtain ⟨hsrc, -⟩ := answers_iff.mp hanswers
      -- Either way the answer would be for the one ping that waits for the row.
      have hnonce : nonce' = nonce := by
        rcases hshares with hid | hnonce
        · refine h.pings.unique _ _ _ _ hping' hping ?_
          rw [← (h.old hping').1, ← (h.old hping).1, ← hid, hsrc]
        · exact hnonce
      subst hnonce
      rw [hping] at hping'
      rw [← Option.some.inj hping'] at hsrc
      exact hdiffers ⟨hsrc, rfl⟩

/-- Of the contacts that answer a ping in time, those with an IPv4 address stay, and no
others. -/
theorem liveKept_iff (id : Id) (inputs : List Rttable.Input)
    (hrun : run Rttable.step (.init id) inputs = .ok t) (nonce : BitVec 32) (ping : TimerPing)
    (rest : List Cageaddr) (hping : t.pingWait.lookup nonce = some ping)
    (hrow : t.row ping.i = ping.addrOld :: rest) :
    LiveKept t nonce ping ↔ ∃ port addr, ping.addrOld.saddr = .inet port addr :=
  ⟨fun h => h.inet hping, fun hinet => liveKept_inet (waitOk_of_run hrun) hping hrow hinet⟩

end

/-- Contacts of one row, with the addresses of a family. -/
def fullRow (saddr : Saddr) : List Cageaddr :=
  (List.range 20).map fun k => ⟨.ofNat 160 (2 ^ 159 + k), saddr⟩

/-- The row is filled and one more contact makes the node ping the first. -/
def pingsFirst (saddr : Saddr) : List Rttable.Input :=
  (fullRow saddr).map (.add [1]) ++ [.add [1] (neighbour 20)]

/-- What is in the table then. -/
theorem pingsFirst_run (saddr : Saddr) (hinet : saddr = .inet 7 1 ∨ saddr = .inet6 7 1) :
    ∃ t ping, run Rttable.step (.init 0) (pingsFirst saddr) = .ok t ∧
      t.pingWait.lookup 1 = some ping ∧ ping.addrOld = ⟨.ofNat 160 (2 ^ 159), saddr⟩ ∧
      t.row ping.i = fullRow saddr := by
  have hrun : (do
      let t ← run Rttable.step (.init 0) (pingsFirst saddr)
      return ((t.pingWait.lookup 1).map fun (ping : TimerPing) => (ping.addrOld, ping.i),
        t.row 159)) =
      .ok (some (⟨.ofNat 160 (2 ^ 159), saddr⟩, 159), fullRow saddr) := by
    rcases hinet with rfl | rfl
    · decide +kernel
    · decide +kernel
  obtain ⟨t, ht, hend⟩ := bind_eq_ok hrun
  obtain ⟨hwait, hrow⟩ := Prod.mk.inj (Except.ok.inj hend)
  obtain ⟨ping, hping, hold⟩ := Option.map_eq_some_iff.mp hwait
  obtain ⟨hold, hi⟩ := Prod.mk.inj hold
  exact ⟨t, ping, ht, hping, hold, by rw [hi, hrow]⟩

/-- A contact with an IPv4 address answers. -/
theorem liveKept_iff_inet : ∃ t ping, t.pingWait.lookup 1 = some ping ∧ LiveKept t 1 ping := by
  obtain ⟨t, ping, hrun, hping, hold, hrow⟩ := pingsFirst_run (.inet 7 1) (Or.inl rfl)
  have hfront : t.row ping.i = ping.addrOld :: (fullRow (.inet 7 1)).tail := by
    rw [hrow, hold]
    rfl
  exact ⟨t, ping, hping, (liveKept_iff 0 _ hrun 1 ping _ hping hfront).mpr
    ⟨7, 1, congrArg Cageaddr.saddr hold⟩⟩

/-- A contact with an IPv6 address is at the front of a full row, and is dropped although it
answers. -/
theorem liveKept_not_inet6 : ¬ ∀ (id : Id) (inputs : List Rttable.Input) (t : Rttable)
    (nonce : BitVec 32) (ping : TimerPing) (rest : List Cageaddr),
    run Rttable.step (.init id) inputs = .ok t → t.pingWait.lookup nonce = some ping →
    t.row ping.i = ping.addrOld :: rest → LiveKept t nonce ping := by
  intro h
  obtain ⟨t, ping, hrun, hping, hold, hrow⟩ := pingsFirst_run (.inet6 7 1) (Or.inr rfl)
  have hfront : t.row ping.i = ping.addrOld :: (fullRow (.inet6 7 1)).tail := by
    rw [hrow, hold]
    rfl
  obtain ⟨port, addr, hinet⟩ := (h 0 _ t 1 ping _ hrun hping hfront).inet hping
  rw [hold] at hinet
  cases hinet

end Libcage.Proofs.Dht
