import Mathlib.Data.List.Nodup
import Libcage.Dht.Rttable
import Libcage.Lib.Index
import Libcage.Lib.Run

/-!
# `Libcage.Proofs.Dht.Rttable`: the rows, the ids and the pings agree

`TableOk` says what the redundant parts of a routing table have to do with each other.
`add` and `remove` keep it. The answer to a ping and its timeout take the front of the row
for the contact that was pinged, and a `remove` or an `add` in the two seconds between can
make that wrong. `tableOk_iff` says that it goes wrong exactly then.
-/

set_option autoImplicit false

namespace Libcage.Proofs.Dht

open Libcage.Lib
open Libcage.Dht
open Libcage.Rdp (Id Table)

/-! ### The invariant -/

/-- `m_table[i]`. -/
def rowOf (table : Table Int (List Cageaddr)) (i : Int) : List Cageaddr := (table.lookup i).getD []

/-- The rows and the set of ids. -/
structure RowsOk (own : Id) (table : Table Int (List Cageaddr)) (nodes : Finset Id) : Prop where
  row : ∀ i, ∀ a ∈ rowOf table i, id2i own a.id = i
  own : ∀ i, ∀ a ∈ rowOf table i, a.id ≠ own
  distinct : ∀ i, ((rowOf table i).map Cageaddr.id).Nodup
  apart : ∀ i j, i ≠ j → ∀ a ∈ rowOf table i, ∀ b ∈ rowOf table j, a.id ≠ b.id
  nodes : ∀ id, id ∈ nodes ↔ ∃ i, ∃ a ∈ rowOf table i, a.id = id
  size : ∀ i row, table.lookup i = some row → 1 ≤ row.length ∧ row.length ≤ 20

/-- What holds of a routing table between two calls. -/
structure TableOk (t : Rttable) : Prop where
  rows : RowsOk t.id t.table t.nodes
  send : ∀ i, i ∈ t.pingSend ↔ ∃ nonce ping, t.pingWait.lookup nonce = some ping ∧ ping.i = i

/-- A ping that waits: two contacts of one row. -/
structure PingFits (own : Id) (ping : TimerPing) : Prop where
  old : id2i own ping.addrOld.id = ping.i
  new : id2i own ping.addrNew.id = ping.i
  ne : ping.addrOld.id ≠ ping.addrNew.id
  own : ping.addrNew.id ≠ own ∧ ping.addrOld.id ≠ own

/-- The pings that wait are for different rows. -/
structure PingsFit (own : Id) (pingWait : Table (BitVec 32) TimerPing) : Prop where
  fits : ∀ nonce ping, pingWait.lookup nonce = some ping → PingFits own ping
  unique : ∀ nonce nonce' ping ping', pingWait.lookup nonce = some ping →
    pingWait.lookup nonce' = some ping' → ping.i = ping'.i → nonce = nonce'

/-- A timeout finds the silent contact at the front of its row and the new one not in the
table, or the new one at the front and the silent one gone. An answer finds the contact
that was pinged at the front of its row. -/
def FrontFits (t : Rttable) : Rttable.Input → Prop
  | .timerPing nonce => ∀ ping, t.pingWait.lookup nonce = some ping →
      ∃ front rest, t.row ping.i = front :: rest ∧
        (front.id = ping.addrOld.id ∧ ping.addrNew.id ∉ t.nodes ∨
          front.id = ping.addrNew.id ∧ ping.addrOld.id ∉ t.nodes)
  | .recvPingReply src nonce => ∀ ping, t.pingWait.lookup nonce = some ping →
      Rttable.answers src ping.addrOld = true →
      ∃ front rest, t.row ping.i = front :: rest ∧ front.id = ping.addrOld.id
  | .add .. => True
  | .remove .. => True

/-! ### Rows -/

section
variable {own : Id} {table : Table Int (List Cageaddr)} {nodes : Finset Id}

@[simp] theorem rowOf_insert_self (i : Int) (row : List Cageaddr) :
    rowOf (table.insert i row) i = row := by
  simp [rowOf]

theorem rowOf_insert_ne {i j : Int} (h : j ≠ i) (row : List Cageaddr) :
    rowOf (table.insert i row) j = rowOf table j := by
  rw [rowOf, AList.lookup_insert_ne h, rowOf]

@[simp] theorem rowOf_erase_self (i : Int) : rowOf (table.erase i) i = [] := by
  simp [rowOf]

theorem rowOf_erase_ne {i j : Int} (h : j ≠ i) : rowOf (table.erase i) j = rowOf table j := by
  rw [rowOf, AList.lookup_erase_ne h, rowOf]

theorem rowOf_of_lookup {i : Int} {row : List Cageaddr} (h : table.lookup i = some row) :
    rowOf table i = row := by
  rw [rowOf, h, Option.getD_some]

/-- The ids of other rows than `i`. -/
def ElseIn (table : Table Int (List Cageaddr)) (i : Int) (id : Id) : Prop :=
  ∃ j, j ≠ i ∧ ∃ a ∈ rowOf table j, a.id = id

/-- The ids of the table are those of a row and of the others. -/
theorem RowsOk.mem_nodes (h : RowsOk own table nodes) (i : Int) (id : Id) :
    id ∈ nodes ↔ (∃ a ∈ rowOf table i, a.id = id) ∨ ElseIn table i id := by
  rw [h.nodes]
  constructor
  · rintro ⟨j, hj⟩
    by_cases hij : j = i
    · subst hij
      exact Or.inl hj
    · exact Or.inr ⟨j, hij, hj⟩
  · rintro (hi | ⟨j, -, hj⟩)
    · exact ⟨i, hi⟩
    · exact ⟨j, hj⟩

/-- An id of row `i` is not in another row. -/
theorem RowsOk.not_elseIn (h : RowsOk own table nodes) {i : Int} {id : Id}
    (hid : id2i own id = i) : ¬ ElseIn table i id := by
  rintro ⟨j, hne, a, ha, rfl⟩
  exact hne ((h.row j a ha).symm.trans hid)

/-- A row is replaced by another one. -/
theorem RowsOk.insert (h : RowsOk own table nodes) {i : Int} {row : List Cageaddr}
    {nodes' : Finset Id} (hrow : ∀ a ∈ row, id2i own a.id = i) (hown : ∀ a ∈ row, a.id ≠ own)
    (hnodup : (row.map Cageaddr.id).Nodup) (hsize : 1 ≤ row.length ∧ row.length ≤ 20)
    (hnodes : ∀ id, id ∈ nodes' ↔ (∃ a ∈ row, a.id = id) ∨ ElseIn table i id) :
    RowsOk own (table.insert i row) nodes' := by
  -- Every contact is still in the row that its id says.
  have hnew : ∀ j, ∀ a ∈ rowOf (table.insert i row) j, id2i own a.id = j := by
    intro j a ha
    by_cases hj : j = i
    · subst hj
      rw [rowOf_insert_self] at ha
      exact hrow a ha
    · rw [rowOf_insert_ne hj] at ha
      exact h.row j a ha
  refine ⟨hnew, fun j a ha => ?_, fun j => ?_, fun j k hjk a ha b hb heq => ?_, fun id => ?_,
    fun j r hr => ?_⟩
  · by_cases hj : j = i
    · subst hj
      rw [rowOf_insert_self] at ha
      exact hown a ha
    · rw [rowOf_insert_ne hj] at ha
      exact h.own j a ha
  · by_cases hj : j = i
    · subst hj
      rw [rowOf_insert_self]
      exact hnodup
    · rw [rowOf_insert_ne hj]
      exact h.distinct j
  · -- The id says the row.
    exact hjk ((hnew j a ha).symm.trans (heq ▸ hnew k b hb))
  · rw [hnodes]
    constructor
    · rintro (⟨a, ha, rfl⟩ | ⟨j, hj, a, ha, rfl⟩)
      · exact ⟨i, a, by rwa [rowOf_insert_self], rfl⟩
      · exact ⟨j, a, by rwa [rowOf_insert_ne hj], rfl⟩
    · rintro ⟨j, a, ha, rfl⟩
      by_cases hj : j = i
      · subst hj
        rw [rowOf_insert_self] at ha
        exact Or.inl ⟨a, ha, rfl⟩
      · rw [rowOf_insert_ne hj] at ha
        exact Or.inr ⟨j, hj, a, ha, rfl⟩
  · rcases lookup_insert_eq_some.mp hr with ⟨-, rfl⟩ | ⟨-, hr⟩
    · exact hsize
    · exact h.size j r hr

/-- A row goes away. -/
theorem RowsOk.erase (h : RowsOk own table nodes) {i : Int} {nodes' : Finset Id}
    (hnodes : ∀ id, id ∈ nodes' ↔ ElseIn table i id) : RowsOk own (table.erase i) nodes' := by
  -- What is left is in other rows.
  have hsub : ∀ j, ∀ a ∈ rowOf (table.erase i) j, j ≠ i ∧ a ∈ rowOf table j := by
    intro j a ha
    by_cases hj : j = i
    · subst hj
      rw [rowOf_erase_self] at ha
      cases ha
    · rw [rowOf_erase_ne hj] at ha
      exact ⟨hj, ha⟩
  refine ⟨fun j a ha => h.row j a (hsub j a ha).2, fun j a ha => h.own j a (hsub j a ha).2,
    fun j => ?_, fun j k hjk a ha b hb => h.apart j k hjk a (hsub j a ha).2 b (hsub k b hb).2,
    fun id => ?_, fun j r hr => ?_⟩
  · by_cases hj : j = i
    · subst hj
      rw [rowOf_erase_self]
      exact List.nodup_nil
    · rw [rowOf_erase_ne hj]
      exact h.distinct j
  · rw [hnodes]
    constructor
    · rintro ⟨j, hj, a, ha, rfl⟩
      exact ⟨j, a, by rwa [rowOf_erase_ne hj], rfl⟩
    · rintro ⟨j, a, ha, rfl⟩
      exact ⟨j, (hsub j a ha).1, a, (hsub j a ha).2, rfl⟩
  · exact h.size j r (lookup_erase_eq_some.mp hr).2

end

/-! ### Lists of contacts -/

/-- With distinct ids, the contact with an id is removed and no other. -/
theorem mem_eraseP_id {row : List Cageaddr} {id : Id} (hnodup : (row.map Cageaddr.id).Nodup)
    {a : Cageaddr} : (a ∈ row.eraseP fun b => b.id = id) ↔ a ∈ row ∧ a.id ≠ id := by
  induction row with
  | nil => simp
  | cons b row ih =>
    rw [List.map_cons, List.nodup_cons] at hnodup
    obtain ⟨hb, hrow⟩ := hnodup
    by_cases hid : b.id = id
    · rw [List.eraseP_cons_of_pos (by simpa using hid), List.mem_cons]
      constructor
      · intro ha
        refine ⟨Or.inr ha, fun heq => hb ?_⟩
        rw [hid, ← heq]
        exact List.mem_map_of_mem ha
      · rintro ⟨rfl | ha, hne⟩
        · exact absurd hid hne
        · exact ha
    · rw [List.eraseP_cons_of_neg (by simpa using hid), List.mem_cons, List.mem_cons, ih hrow]
      constructor
      · rintro (rfl | ⟨ha, hne⟩)
        · exact ⟨Or.inl rfl, hid⟩
        · exact ⟨Or.inr ha, hne⟩
      · rintro ⟨rfl | ha, hne⟩
        · exact Or.inl rfl
        · exact Or.inr ⟨ha, hne⟩

/-- A contact with a new id at the end. -/
theorem nodup_concat {row : List Cageaddr} (hnodup : (row.map Cageaddr.id).Nodup) {addr : Cageaddr}
    (hnew : ∀ a ∈ row, a.id ≠ addr.id) : ((row ++ [addr]).map Cageaddr.id).Nodup := by
  rw [List.map_append, List.map_cons, List.map_nil, List.nodup_append]
  refine ⟨hnodup, List.nodup_singleton _, fun id hid id' hid' heq => ?_⟩
  obtain ⟨a, ha, rfl⟩ := List.mem_map.mp hid
  exact hnew a ha (heq.trans (List.mem_singleton.mp hid'))

/-! ### `add` and `remove` -/

theorem pickNonce_ends (pingWait : Table (BitVec 32) TimerPing) (rnd : List (BitVec 32)) :
    Ends (fun nonce => pingWait.lookup nonce = none) (· = .unfinished)
      (Rttable.pickNonce pingWait rnd) := by
  induction rnd with
  | nil => exact Ends.error rfl
  | cons nonce rnd ih =>
    rw [Rttable.pickNonce]
    split
    · exact Ends.ok (Option.isNone_iff_eq_none.mp ‹_›)
    · exact ih

/-- The table and its pings. -/
structure TableInv (t : Rttable) : Prop where
  ok : TableOk t
  pings : PingsFit t.id t.pingWait

theorem tableInv_init (id : Id) : TableInv (.init id) := by
  have hrow : ∀ i, rowOf (Rttable.init id).table i = [] := fun _ => rfl
  refine ⟨⟨⟨?_, ?_, ?_, ?_, ?_, ?_⟩, ?_⟩, ?_, ?_⟩
  · exact fun i a ha => nomatch ha
  · exact fun i a ha => nomatch ha
  · exact fun i => List.nodup_nil
  · exact fun i j _ a ha => nomatch ha
  · intro x
    constructor
    · exact fun hx => absurd hx (Finset.notMem_empty x)
    · rintro ⟨i, a, ha, -⟩
      cases ha
  · exact fun i row h => nomatch h
  · intro i
    constructor
    · exact fun hi => absurd hi (Finset.notMem_empty i)
    · rintro ⟨nonce, ping, h, -⟩
      cases h
  · exact fun nonce ping h => nomatch h
  · exact fun nonce nonce' ping ping' h => nomatch h

/-- A ping that was just sent waits for a row that had none. -/
theorem PingsFit.insert {own : Id} {pingWait : Table (BitVec 32) TimerPing} {nonce : BitVec 32}
    {ping : TimerPing} (h : PingsFit own pingWait) (hfits : PingFits own ping)
    (hfree : ∀ nonce' ping', pingWait.lookup nonce' = some ping' → ping'.i ≠ ping.i) :
    PingsFit own (pingWait.insert nonce ping) := by
  refine ⟨fun n p hp => ?_, fun n n' p p' hp hp' hi => ?_⟩
  · rcases lookup_insert_eq_some.mp hp with ⟨-, rfl⟩ | ⟨-, hp⟩
    · exact hfits
    · exact h.fits n p hp
  · rcases lookup_insert_eq_some.mp hp with ⟨hn, hnew⟩ | ⟨-, hold⟩
    · rcases lookup_insert_eq_some.mp hp' with ⟨hn', -⟩ | ⟨-, hold'⟩
      · rw [hn, hn']
      · rw [hnew] at hi
        exact absurd hi.symm (hfree n' p' hold')
    · rcases lookup_insert_eq_some.mp hp' with ⟨-, hnew'⟩ | ⟨-, hold'⟩
      · rw [hnew'] at hi
        exact absurd hi (hfree n p hold)
      · exact h.unique n n' p p' hold hold' hi

theorem PingsFit.erase {own : Id} {pingWait : Table (BitVec 32) TimerPing} (nonce : BitVec 32)
    (h : PingsFit own pingWait) : PingsFit own (pingWait.erase nonce) := by
  have hsub : ∀ n p, (pingWait.erase nonce).lookup n = some p → pingWait.lookup n = some p :=
    fun n p hp => (lookup_erase_eq_some.mp hp).2
  exact ⟨fun n p hp => h.fits n p (hsub n p hp),
    fun n n' p p' hp hp' => h.unique n n' p p' (hsub n p hp) (hsub n' p' hp')⟩

theorem TableInv.addToRow {t : Rttable} (h : TableInv t) (rnd : List (BitVec 32)) {addr : Cageaddr}
    (hown : addr.id ≠ t.id) (hnew : addr.id ∉ t.nodes) {row : List Cageaddr}
    (hlook : t.table.lookup (id2i t.id addr.id) = some row) :
    Ends TableInv (· = .unfinished) (t.addToRow rnd (id2i t.id addr.id) addr) := by
  have hrow : t.row (id2i t.id addr.id) = row := rowOf_of_lookup hlook
  have hmem : ∀ a ∈ row, a ∈ rowOf t.table (id2i t.id addr.id) := fun a ha => by
    rwa [rowOf_of_lookup hlook]
  -- The contact is in no row, as its id is not in the set.
  have hfresh : ∀ a ∈ row, a.id ≠ addr.id := by
    intro a ha heq
    exact hnew ((h.ok.rows.nodes addr.id).mpr ⟨_, a, hmem a ha, heq⟩)
  unfold Rttable.addToRow
  rw [hrow]
  dsimp only
  split
  · rename_i hany
    obtain ⟨a, ha, heq⟩ := List.any_eq_true.mp hany
    exact absurd (of_decide_eq_true heq) (hfresh a ha)
  · split
    · -- There is room.
      rename_i hroom
      refine Ends.ok ⟨⟨?_, h.ok.send⟩, h.pings⟩
      refine h.ok.rows.insert ?_ ?_ ?_ ?_ ?_
      · intro a ha
        rcases List.mem_append.mp ha with ha | ha
        · exact h.ok.rows.row _ a (hmem a ha)
        · rw [List.mem_singleton.mp ha]
      · intro a ha
        rcases List.mem_append.mp ha with ha | ha
        · exact h.ok.rows.own _ a (hmem a ha)
        · rw [List.mem_singleton.mp ha]
          exact hown
      · have hnodup := h.ok.rows.distinct (id2i t.id addr.id)
        rw [rowOf_of_lookup hlook] at hnodup
        exact nodup_concat hnodup hfresh
      · rw [List.length_append, List.length_singleton]
        exact ⟨Nat.le_add_left 1 _, hroom⟩
      · intro id
        rw [Finset.mem_insert, h.ok.rows.mem_nodes (id2i t.id addr.id), rowOf_of_lookup hlook]
        simp only [List.mem_append, List.mem_singleton, or_and_right, exists_or, exists_eq_left]
        rw [← or_assoc, or_comm (a := id = addr.id), eq_comm (a := id)]
    · split
      · exact Ends.ok h
      · -- The row is full: its front is pinged.
        rename_i hsend
        cases row with
        | nil => exact absurd (h.ok.rows.size _ _ hlook).1 (by simp)
        | cons addrOld rest =>
          refine (pickNonce_ends t.pingWait rnd).bind fun nonce hnone => Ends.ok ?_
          have hfree : ∀ n p, t.pingWait.lookup n = some p → p.i ≠ id2i t.id addr.id := by
            intro n p hp hi
            exact hsend ((h.ok.send _).mpr ⟨n, p, hp, hi⟩)
          have hold := hmem addrOld (List.mem_cons_self ..)
          refine ⟨⟨h.ok.rows, fun i => ?_⟩, h.pings.insert ⟨h.ok.rows.row _ _ hold, rfl,
            hfresh addrOld (List.mem_cons_self ..), hown, h.ok.rows.own _ _ hold⟩ hfree⟩
          rw [Finset.mem_insert, h.ok.send]
          constructor
          · rintro (rfl | ⟨n, p, hp, hi⟩)
            · exact ⟨nonce, _, AList.lookup_insert .., rfl⟩
            · have hne : n ≠ nonce := by
                rintro rfl
                rw [hnone] at hp
                cases hp
              refine ⟨n, p, ?_, hi⟩
              rw [AList.lookup_insert_ne hne]
              exact hp
          · rintro ⟨n, p, hp, hi⟩
            rcases lookup_insert_eq_some.mp hp with ⟨-, hnew⟩ | ⟨-, hp⟩
            · rw [hnew] at hi
              exact Or.inl hi.symm
            · exact Or.inr ⟨n, p, hp, hi⟩

/-- `add` keeps the invariant. -/
theorem TableInv.add {t : Rttable} (h : TableInv t) (rnd : List (BitVec 32)) (addr : Cageaddr) :
    Ends TableInv (· = .unfinished) (t.add rnd addr) := by
  unfold Rttable.add
  dsimp only
  split
  · exact Ends.ok h
  · rename_i hown
    split
    · exact Ends.ok h
    · rename_i hnot
      have hnew : addr.id ∉ t.nodes := fun hmem => hnot (Or.inr hmem)
      cases hlook : t.table.lookup (id2i t.id addr.id) with
      | some row =>
        rw [if_neg (by simp)]
        exact h.addToRow rnd hown hnew hlook
      | none =>
        rw [if_pos (by simp)]
        refine Ends.ok ⟨⟨?_, h.ok.send⟩, h.pings⟩
        refine h.ok.rows.insert ?_ ?_ ?_ ?_ ?_
        · intro a ha
          rw [List.mem_singleton.mp ha]
        · intro a ha
          rw [List.mem_singleton.mp ha]
          exact hown
        · exact List.nodup_singleton _
        · exact ⟨le_rfl, by simp⟩
        · intro id
          -- The row is new, and the contact is the first one in it.
          have hempty : rowOf t.table (id2i t.id addr.id) = [] := by rw [rowOf, hlook]; rfl
          rw [Finset.mem_insert, h.ok.rows.mem_nodes (id2i t.id addr.id), hempty]
          simp [eq_comm]

/-- `remove` keeps the invariant. -/
theorem TableInv.remove {t : Rttable} (h : TableInv t) (id : Id) : TableInv (t.remove id) := by
  unfold Rttable.remove
  dsimp only
  split
  · exact h
  · rename_i hmem
    have hnodup := h.ok.rows.distinct (id2i t.id id)
    -- The ids that are left are those of the shorter row and of the other rows.
    have hids : ∀ x, x ∈ t.nodes.erase id ↔
        (∃ a ∈ (t.row (id2i t.id id)).eraseP (fun a => a.id = id), a.id = x) ∨
          ElseIn t.table (id2i t.id id) x := by
      intro x
      rw [Finset.mem_erase, h.ok.rows.mem_nodes (id2i t.id id)]
      constructor
      · rintro ⟨hne, ⟨a, ha, rfl⟩ | helse⟩
        · exact Or.inl ⟨a, (mem_eraseP_id hnodup).mpr ⟨ha, hne⟩, rfl⟩
        · exact Or.inr helse
      · rintro (⟨a, ha, rfl⟩ | helse)
        · obtain ⟨ha, hne⟩ := (mem_eraseP_id hnodup).mp ha
          exact ⟨hne, Or.inl ⟨a, ha, rfl⟩⟩
        · refine ⟨?_, Or.inr helse⟩
          rintro rfl
          exact h.ok.rows.not_elseIn rfl helse
    refine ⟨⟨?_, h.ok.send⟩, h.pings⟩
    show RowsOk t.id (if _ then _ else _) _
    split
    · rename_i hempty
      refine h.ok.rows.erase fun x => ?_
      rw [hids, hempty]
      simp
    · rename_i hne
      have hsub : ∀ a ∈ (t.row (id2i t.id id)).eraseP (fun a => a.id = id),
          a ∈ t.row (id2i t.id id) := fun a ha => List.mem_of_mem_eraseP ha
      refine h.ok.rows.insert (fun a ha => h.ok.rows.row _ a (hsub a ha))
        (fun a ha => h.ok.rows.own _ a (hsub a ha)) ?_ ⟨?_, ?_⟩ hids
      · exact hnodup.sublist (List.eraseP_sublist.map _)
      · exact List.length_pos_iff_ne_nil.mpr hne
      · refine (List.eraseP_sublist.length_le).trans ?_
        -- The contact was in its row, so the row is in the table.
        obtain ⟨j, a, ha, rfl⟩ := (h.ok.rows.nodes id).mp (not_not.mp hmem)
        have hj := h.ok.rows.row j a ha
        rw [hj]
        cases hlook : t.table.lookup j with
        | none =>
          rw [rowOf, hlook] at ha
          cases ha
        | some row =>
          have hrow : t.row j = row := rowOf_of_lookup hlook
          rw [hrow]
          exact (h.ok.rows.size j row hlook).2

/-! ### The end of a ping -/

/-- The front of a row belongs there, and its id is in the set of ids. -/
theorem RowsOk.front {own : Id} {table : Table Int (List Cageaddr)} {nodes : Finset Id}
    (h : RowsOk own table nodes) {i : Int} {front : Cageaddr} {rest : List Cageaddr}
    (hrow : rowOf table i = front :: rest) :
    id2i own front.id = i ∧ front.id ∈ nodes ∧ front.id ∉ rest.map Cageaddr.id := by
  have hmem : front ∈ rowOf table i := by
    rw [hrow]
    exact List.mem_cons_self ..
  have hdistinct := h.distinct i
  rw [hrow, List.map_cons, List.nodup_cons] at hdistinct
  exact ⟨h.row i front hmem, (h.nodes _).mpr ⟨i, front, hmem, rfl⟩, hdistinct.1⟩

/-- The front of a row goes and a contact comes to its end. -/
theorem RowsOk.rotate {own : Id} {table : Table Int (List Cageaddr)} {nodes nodes' : Finset Id}
    (h : RowsOk own table nodes) {i : Int} {front addr : Cageaddr} {rest : List Cageaddr}
    (hlook : table.lookup i = some (front :: rest)) (haddr : id2i own addr.id = i)
    (hown : addr.id ≠ own) (hfresh : ∀ a ∈ rest, a.id ≠ addr.id)
    (hnodes : ∀ id, id ∈ nodes' ↔ id = addr.id ∨ id ∈ nodes ∧ id ≠ front.id) :
    RowsOk own (table.insert i (rest ++ [addr])) nodes' := by
  have hrow := rowOf_of_lookup hlook
  have hmem : ∀ a ∈ rest, a ∈ rowOf table i := by
    intro a ha
    rw [hrow]
    exact List.mem_cons_of_mem front ha
  have hdistinct := h.distinct i
  rw [hrow, List.map_cons, List.nodup_cons] at hdistinct
  obtain ⟨hfront, hrest⟩ := hdistinct
  obtain ⟨hid, -, -⟩ := h.front hrow
  refine h.insert ?_ ?_ (nodup_concat hrest hfresh) ?_ ?_
  · intro a ha
    rcases List.mem_append.mp ha with ha | ha
    · exact h.row i a (hmem a ha)
    · rw [List.mem_singleton.mp ha]
      exact haddr
  · intro a ha
    rcases List.mem_append.mp ha with ha | ha
    · exact h.own i a (hmem a ha)
    · rw [List.mem_singleton.mp ha]
      exact hown
  · rw [List.length_append, List.length_singleton]
    exact ⟨Nat.le_add_left 1 _, (h.size i _ hlook).2⟩
  · intro id
    -- The ids are those before, without the front and with the new contact.
    rw [hnodes, h.mem_nodes i, hrow]
    constructor
    · rintro (rfl | ⟨⟨a, ha, rfl⟩ | helse, hne⟩)
      · exact Or.inl ⟨addr, List.mem_append_right _ (List.mem_singleton_self addr), rfl⟩
      · rcases List.mem_cons.mp ha with rfl | ha
        · exact absurd rfl hne
        · exact Or.inl ⟨a, List.mem_append_left _ ha, rfl⟩
      · exact Or.inr helse
    · rintro (⟨a, ha, rfl⟩ | helse)
      · rcases List.mem_append.mp ha with ha | ha
        · refine Or.inr ⟨Or.inl ⟨a, List.mem_cons_of_mem front ha, rfl⟩, fun heq => hfront ?_⟩
          rw [← heq]
          exact List.mem_map_of_mem ha
        · rw [List.mem_singleton.mp ha]
          exact Or.inl rfl
      · refine Or.inr ⟨Or.inr helse, ?_⟩
        rintro rfl
        exact h.not_elseIn hid helse

/-- A front that is still in the set of ids came back at the end. -/
theorem RowsOk.front_eq {own : Id} {table : Table Int (List Cageaddr)} {nodes nodes' : Finset Id}
    (h : RowsOk own table nodes) {i : Int} {front addr : Cageaddr} {rest : List Cageaddr}
    (hrow : rowOf table i = front :: rest)
    (h' : RowsOk own (table.insert i (rest ++ [addr])) nodes') (hmem : front.id ∈ nodes') :
    front.id = addr.id := by
  obtain ⟨hid, -, hdistinct⟩ := h.front hrow
  rcases (h'.mem_nodes i front.id).mp hmem with ⟨a, ha, heq⟩ | helse
  · rw [rowOf_insert_self] at ha
    rcases List.mem_append.mp ha with ha | ha
    · refine absurd ?_ hdistinct
      rw [← heq]
      exact List.mem_map_of_mem ha
    · rw [← heq, List.mem_singleton.mp ha]
  · exact absurd helse (h'.not_elseIn hid)

/-- An id of the row that is not the front one is in the rest. -/
theorem RowsOk.mem_rest {own : Id} {table : Table Int (List Cageaddr)} {nodes : Finset Id}
    (h : RowsOk own table nodes) {i : Int} {front : Cageaddr} {rest : List Cageaddr}
    (hrow : rowOf table i = front :: rest) {id : Id} (hid : id2i own id = i) (hmem : id ∈ nodes)
    (hne : front.id ≠ id) : ∃ a ∈ rest, a.id = id := by
  rcases (h.mem_nodes i id).mp hmem with ⟨a, ha, heq⟩ | helse
  · rw [hrow] at ha
    rcases List.mem_cons.mp ha with rfl | ha
    · exact absurd heq hne
    · exact ⟨a, ha, heq⟩
  · exact absurd helse (h.not_elseIn hid)

/-- The contacts of the rest do not have the id of the front. -/
theorem RowsOk.rest_ne {own : Id} {table : Table Int (List Cageaddr)} {nodes : Finset Id}
    (h : RowsOk own table nodes) {i : Int} {front : Cageaddr} {rest : List Cageaddr}
    (hrow : rowOf table i = front :: rest) : ∀ a ∈ rest, a.id ≠ front.id := by
  intro a ha heq
  have hdistinct := h.distinct i
  rw [hrow, List.map_cons, List.nodup_cons] at hdistinct
  refine hdistinct.1 ?_
  rw [← heq]
  exact List.mem_map_of_mem ha

theorem lookup_of_row {t : Rttable} {i : Int} {front : Cageaddr} {rest : List Cageaddr}
    (hrow : t.row i = front :: rest) : t.table.lookup i = some (front :: rest) := by
  unfold Rttable.row at hrow
  cases hlook : t.table.lookup i with
  | none =>
    rw [hlook] at hrow
    cases hrow
  | some row =>
    rw [hlook, Option.getD_some] at hrow
    rw [hrow]

/-- A ping that ended was the only one of its row. -/
theorem send_erase {own : Id} {pingSend : Finset Int} {pingWait : Table (BitVec 32) TimerPing}
    (hsend : ∀ i, i ∈ pingSend ↔ ∃ n p, pingWait.lookup n = some p ∧ p.i = i)
    (hpings : PingsFit own pingWait) {nonce : BitVec 32} {ping : TimerPing}
    (hping : pingWait.lookup nonce = some ping) (i : Int) :
    i ∈ pingSend.erase ping.i ↔ ∃ n p, (pingWait.erase nonce).lookup n = some p ∧ p.i = i := by
  rw [Finset.mem_erase, hsend]
  constructor
  · rintro ⟨hne, n, p, hp, rfl⟩
    have hn : n ≠ nonce := by
      rintro rfl
      rw [hping] at hp
      exact hne (congrArg TimerPing.i (Option.some.inj hp.symm))
    exact ⟨n, p, by rwa [AList.lookup_erase_ne hn], rfl⟩
  · rintro ⟨n, p, hp, rfl⟩
    obtain ⟨hn, hp⟩ := lookup_erase_eq_some.mp hp
    exact ⟨fun hi => hn (hpings.unique n nonce p ping hp hping hi), n, p, hp, rfl⟩

/-- A timeout that finds the contacts where they have to be keeps the invariant. -/
theorem TableInv.timerPing {t : Rttable} (h : TableInv t) {nonce : BitVec 32}
    (hok : FrontFits t (.timerPing nonce)) :
    Ends TableInv (· = .unfinished) (t.timerPing nonce) := by
  unfold Rttable.timerPing
  cases hping : t.pingWait.lookup nonce with
  | none => exact Ends.ok h
  | some ping =>
    obtain ⟨front, rest, hrow, hfront⟩ := hok ping hping
    have hfits := h.pings.fits nonce ping hping
    have hlook := lookup_of_row hrow
    dsimp only
    rw [hrow]
    refine Ends.ok ⟨⟨?_, send_erase h.ok.send h.pings hping⟩, h.pings.erase nonce⟩
    rcases hfront with ⟨hold, hnew⟩ | ⟨hnew, hold⟩
    · -- The silent contact makes room for the new one.
      refine h.ok.rows.rotate hlook hfits.new hfits.own.1 ?_ ?_
      · intro a ha heq
        refine hnew ((h.ok.rows.nodes _).mpr ⟨ping.i, a, ?_, heq⟩)
        rw [rowOf_of_lookup hlook]
        exact List.mem_cons_of_mem front ha
      · intro id
        rw [Finset.mem_insert, Finset.mem_erase, hold, and_comm]
    · -- The new contact came by itself and has become the front.
      refine h.ok.rows.rotate hlook hfits.new hfits.own.1 ?_ ?_
      · rw [← hnew]
        exact h.ok.rows.rest_ne (rowOf_of_lookup hlook)
      · intro id
        rw [Finset.mem_insert, Finset.erase_eq_of_notMem hold, hnew]
        by_cases hid : id = ping.addrNew.id
        · simp [hid]
        · simp [hid]

/-- An answer that finds the contact at the front keeps the invariant. -/
theorem TableInv.recvPingReply {t : Rttable} (h : TableInv t) {src : Cageaddr} {nonce : BitVec 32}
    (hok : FrontFits t (.recvPingReply src nonce)) :
    Ends TableInv (· = .unfinished) (t.recvPingReply src nonce) := by
  unfold Rttable.recvPingReply
  cases hping : t.pingWait.lookup nonce with
  | none => exact Ends.ok h
  | some ping =>
    dsimp only
    split
    · rename_i hanswers
      obtain ⟨front, rest, hrow, hold⟩ := hok ping hping hanswers
      have hfits := h.pings.fits nonce ping hping
      have hlook := lookup_of_row hrow
      rw [hrow]
      refine Ends.ok ⟨⟨?_, send_erase h.ok.send h.pings hping⟩, h.pings.erase nonce⟩
      -- The front of the row answers, and goes to its back.
      refine h.ok.rows.rotate hlook hfits.old hfits.own.2 ?_ ?_
      · rw [← hold]
        exact h.ok.rows.rest_ne (rowOf_of_lookup hlook)
      · intro id
        have hmem : ping.addrOld.id ∈ t.nodes :=
          hold ▸ (h.ok.rows.front (rowOf_of_lookup hlook)).2.1
        rw [hold]
        -- It leaves the row and comes back, so the set of ids is the same.
        by_cases hid : id = ping.addrOld.id
        · simp [hid, hmem]
        · simp [hid]
    · exact Ends.ok h

/-- A timeout that does not find them there breaks it, or pops an empty row. -/
theorem timerPing_breaks {t : Rttable} (h : TableInv t) {nonce : BitVec 32}
    (hnot : ¬ FrontFits t (.timerPing nonce)) :
    Ends (fun t' => ¬ TableOk t') (fun e => ¬ e = .unfinished) (t.timerPing nonce) := by
  simp only [FrontFits, not_forall] at hnot
  obtain ⟨ping, hping, hnot⟩ := hnot
  have hfits := h.pings.fits nonce ping hping
  unfold Rttable.timerPing
  rw [hping]
  dsimp only
  cases hrow : t.row ping.i with
  | nil => exact Ends.error TableFault.noConfusion
  | cons front rest =>
    refine Ends.ok fun hok => hnot ⟨front, rest, hrow, ?_⟩
    have hrow' : rowOf t.table ping.i = front :: rest := hrow
    have hrows := hok.rows
    -- The new contact is not in the rest of the row.
    have hfresh : ∀ a ∈ rest, a.id ≠ ping.addrNew.id := by
      have hdistinct := hrows.distinct ping.i
      rw [rowOf_insert_self, List.map_append, List.nodup_append] at hdistinct
      exact fun a ha => hdistinct.2.2 _ (List.mem_map_of_mem ha) _ (List.mem_singleton_self _)
    by_cases hold : front.id = ping.addrOld.id
    · refine Or.inl ⟨hold, fun hmem => ?_⟩
      obtain ⟨a, ha, heq⟩ := h.ok.rows.mem_rest hrow' hfits.new hmem (hold ▸ hfits.ne)
      exact hfresh a ha heq
    · have hnew : front.id = ping.addrNew.id := by
        refine h.ok.rows.front_eq hrow' hrows ?_
        exact Finset.mem_insert_of_mem
          (Finset.mem_erase.mpr ⟨hold, (h.ok.rows.front hrow').2.1⟩)
      refine Or.inr ⟨hnew, fun hmem => ?_⟩
      -- The silent contact is still in the row, and its id is not in the set any more.
      obtain ⟨a, ha, heq⟩ := h.ok.rows.mem_rest hrow' hfits.old hmem hold
      have hgone : ping.addrOld.id ∈ insert ping.addrNew.id (t.nodes.erase ping.addrOld.id) := by
        refine (hrows.nodes _).mpr ⟨ping.i, a, ?_, heq⟩
        rw [rowOf_insert_self]
        exact List.mem_append_left _ ha
      rcases Finset.mem_insert.mp hgone with heq' | herased
      · exact hfits.ne heq'
      · exact (Finset.mem_erase.mp herased).1 rfl

/-- An answer that does not find the contact at the front loses another one. -/
theorem recvPingReply_breaks {t : Rttable} (h : TableInv t) {src : Cageaddr} {nonce : BitVec 32}
    (hnot : ¬ FrontFits t (.recvPingReply src nonce)) :
    Ends (fun t' => ¬ TableOk t') (fun e => ¬ e = .unfinished) (t.recvPingReply src nonce) := by
  simp only [FrontFits, not_forall] at hnot
  obtain ⟨ping, hping, hanswers, hnot⟩ := hnot
  unfold Rttable.recvPingReply
  rw [hping]
  dsimp only
  rw [if_pos hanswers]
  cases hrow : t.row ping.i with
  | nil => exact Ends.error TableFault.noConfusion
  | cons front rest =>
    refine Ends.ok fun hok => hnot ⟨front, rest, hrow, ?_⟩
    have hrow' : rowOf t.table ping.i = front :: rest := hrow
    exact h.ok.rows.front_eq hrow' hok.rows (h.ok.rows.front hrow').2.1

/-! ### Runs -/

theorem TableInv.step {t : Rttable} (h : TableInv t) (input : Rttable.Input)
    (hok : FrontFits t input) : Ends TableInv (· = .unfinished) (Rttable.step t input) := by
  cases input with
  | add rnd addr => exact h.add rnd addr
  | remove id => exact Ends.ok (h.remove id)
  | timerPing nonce => exact h.timerPing hok
  | recvPingReply src nonce => exact h.recvPingReply hok

theorem step_breaks {t : Rttable} (h : TableInv t) (input : Rttable.Input)
    (hnot : ¬ FrontFits t input) :
    Ends (fun t' => ¬ TableOk t') (fun e => ¬ e = .unfinished) (Rttable.step t input) := by
  cases input with
  | add rnd addr => exact absurd trivial hnot
  | remove id => exact absurd trivial hnot
  | timerPing nonce => exact timerPing_breaks h hnot
  | recvPingReply src nonce => exact recvPingReply_breaks h hnot

/-- A routing table stays consistent exactly as long as every ping ends with its contact at
the front of the row. -/
theorem tableOk_iff (id : Id) (inputs : List Rttable.Input) :
    Safe Rttable.step TableOk (· = .unfinished) (.init id) inputs ↔
      Allowed Rttable.step FrontFits (.init id) inputs :=
  safe_iff_allowed TableInv (fun _ h => h.ok) (fun _ i h hok => h.step i hok)
    (fun _ i h hnot => step_breaks h i hnot) (tableInv_init id) inputs

/-- Contacts of one row of the node with id 0. -/
def neighbour (k : Nat) : Cageaddr := ⟨.ofNat 160 (2 ^ 159 + k), .inet 7 (.ofNat 32 k)⟩

/-- Twenty contacts fill a row and one more makes the node ping the first. This contact is
removed before it answers, and two seconds later the second one is dropped in its place. -/
def dropsSecond : List Rttable.Input :=
  (List.range 21).map (fun k => .add [1] (neighbour k)) ++ [.remove (neighbour 0).id, .timerPing 1]

/-- The second contact is in the set of ids and in no row. -/
theorem removed_before_timeout :
    ¬ ∀ id inputs, Safe Rttable.step TableOk (· = .unfinished) (.init id) inputs := by
  intro h
  have hrun : (do
      let t ← run Rttable.step (.init 0) dropsSecond
      return (decide (t.id = 0 ∧ (neighbour 1).id ∈ t.nodes),
        (t.row 159).any fun a => a.id = (neighbour 1).id)) = .ok (true, false) := by
    decide +kernel
  obtain ⟨t, ht, hend⟩ := bind_eq_ok hrun
  obtain ⟨hmem, hrow⟩ := Prod.mk.inj (Except.ok.inj hend)
  obtain ⟨hid, hmem⟩ := of_decide_eq_true hmem
  have hrows := ((h 0 dropsSecond).of_run ht).rows
  rcases (hrows.mem_nodes 159 _).mp hmem with ⟨a, ha, heq⟩ | helse
  · rw [List.any_eq_false] at hrow
    exact hrow a ha (decide_eq_true heq)
  · refine hrows.not_elseIn ?_ helse
    rw [hid]
    decide +kernel

end Libcage.Proofs.Dht
