import Libcage.Dht.Sweep
import Libcage.Proofs.Dht.Callbacks

/-!
# `Libcage.Proofs.Dht.Sweep`: the sweep of the RDP connections

`SweptExactly` is what a sweep has to do, for any content of the four maps and any callback
functions that start queries. `sweptExactly_iff` has the condition. Two kinds of silent
queries stop the program: one that `send_find` takes out under the iterator, because nobody is
being asked and nobody is left to ask, and a query for nodes that has values, whose callback
function `recvd_value` cannot get.

The walk over `m_query` is `Walk`, with the nonces that are done and those that are ahead.
`Frame` is the frame of a step of it: callback functions put in new queries that have no
connection, and change nothing else. `Swept` is what a step does to its own query.
-/

set_option autoImplicit false

namespace Libcage.Proofs.Dht

open Libcage.Lib
open Libcage.Dht
open Libcage.Rdp (Id Table)

/-! ### The first three walks -/

section
variable {α : Type} {now : Int} {time : α → Int}

/-- One round: an idle entry is closed and erased. -/
theorem sweepIdleLoop_cons (desc : Int) (descs : List Int) (t : Table Int α) (closed : List Int) :
    sweepIdleLoop now time (desc :: descs) t closed =
      if (t.lookup desc).any (fun it => Idle now (time it)) then
        sweepIdleLoop now time descs (t.erase desc) (closed ++ [desc])
      else
        sweepIdleLoop now time descs t closed := by
  rw [sweepIdleLoop]
  cases hit : t.lookup desc with
  | none => rfl
  | some it => simp only [Option.any_some, decide_eq_true_eq]

theorem sweepIdleLoop_spec (descs : List Int) :
    ∀ (t : Table Int α) (closed : List Int), descs.Nodup →
      (∀ d, (sweepIdleLoop now time descs t closed).1.lookup d =
        if d ∈ descs then (t.lookup d).filter fun it => ¬ Idle now (time it) else t.lookup d) ∧
      (sweepIdleLoop now time descs t closed).2 =
        closed ++ descs.filter fun d => (t.lookup d).any fun it => Idle now (time it) := by
  induction descs with
  | nil =>
    intro t closed _
    simp [sweepIdleLoop]
  | cons desc descs ih =>
    intro t closed hnodup
    obtain ⟨hnot, hnodup⟩ := List.nodup_cons.mp hnodup
    rw [sweepIdleLoop_cons]
    by_cases hidle : (t.lookup desc).any (fun it => Idle now (time it)) = true
    · rw [if_pos hidle]
      obtain ⟨hlookup, hclosed⟩ := ih (t.erase desc) (closed ++ [desc]) hnodup
      -- The descriptors that are left are others.
      have hother : ∀ d ∈ descs, (t.erase desc).lookup d = t.lookup d := fun d hd =>
        AList.lookup_erase_ne fun heq => hnot (heq ▸ hd)
      refine ⟨fun d => ?_, ?_⟩
      · rw [hlookup]
        by_cases hd : d = desc
        · obtain ⟨it, hit, hidle⟩ := (Option.any_eq_true _ _).mp hidle
          rw [hd, if_neg hnot, if_pos (List.mem_cons_self ..), AList.lookup_erase, hit]
          simpa [Option.filter] using hidle
        · rw [AList.lookup_erase_ne hd]
          simp [hd]
      · rw [hclosed, List.filter_cons_of_pos (by exact hidle), List.append_assoc,
          List.singleton_append]
        congr 2
        exact List.filter_congr fun d hd => by rw [hother d hd]
    · rw [if_neg hidle]
      obtain ⟨hlookup, hclosed⟩ := ih t closed hnodup
      refine ⟨fun d => ?_, ?_⟩
      · rw [hlookup]
        by_cases hd : d = desc
        · rw [hd, if_neg hnot, if_pos (List.mem_cons_self ..)]
          cases hit : t.lookup desc with
          | none => rfl
          | some it =>
            rw [hit] at hidle
            simpa [Option.filter] using hidle
        · simp [hd]
      · rw [hclosed, List.filter_cons_of_neg (by exact hidle)]

/-- The descriptors of the entries that are idle. -/
def idleDescs (now : Int) (time : α → Int) (t : Table Int α) : List Int :=
  (Cursor.inOrder t).filter fun d => (t.lookup d).any fun it => Idle now (time it)

/-- A walk keeps the entries that are not idle, -/
theorem sweepIdle_lookup (t : Table Int α) (d : Int) : (sweepIdle now time t).1.lookup d =
    (t.lookup d).filter fun it => ¬ Idle now (time it) := by
  rw [sweepIdle, (sweepIdleLoop_spec _ t [] (Cursor.nodup_inOrder t)).1]
  split
  · rfl
  · rename_i hnot
    rw [Cursor.mem_inOrder, ← AList.lookup_isSome, Bool.not_eq_true,
      Option.isSome_eq_false_iff, Option.isNone_iff_eq_none] at hnot
    rw [hnot]
    rfl

/-- and closes the others once each, in order. -/
theorem sweepIdle_closed (t : Table Int α) :
    (sweepIdle now time t).2 = idleDescs now time t := by
  rw [sweepIdle, (sweepIdleLoop_spec _ t [] (Cursor.nodup_inOrder t)).2, List.nil_append]
  rfl

end

/-! ### Frames -/

/-- The calls of the callback function of a query. -/
def callsOf (s : Queries) (r : Nat) : List Called :=
  (s.called.filter fun c => c.1 = r).map (·.2)

/-- The calls of `rdp::connect` for a query. -/
def connectsOf (s : Queries) (r : Nat) : List Connect := s.connects.filter fun c => c.query = r

/-- What is left as it was, but for the queries in `touched`, and what has come. -/
structure Frame (touched : Nat → Prop) (s s' : Queries) : Prop where
  size : s.size ≤ s'.size
  obj : ∀ r, r < s.size → ¬ touched r → s'.obj r = s.obj r
  stays : ∀ n r, s.query.lookup n = some r → ¬ touched r → s'.query.lookup n = some r
  came : ∀ n r, s'.query.lookup n = some r →
    s.query.lookup n = some r ∨ s.size ≤ r ∧ (s'.obj r).isRdpCon = false
  calls : ∀ r, r < s.size → ¬ touched r → callsOf s' r = callsOf s r
  connects : ∀ r, r < s.size → ¬ touched r → connectsOf s' r = connectsOf s r
  named : Named s'

section
variable {s s' t : Queries} {r r' : Nat} {q : Query} {touched touched' : Nat → Prop}

theorem Frame.refl (touched : Nat → Prop) (h : Named s) : Frame touched s s where
  size := Nat.le_refl _
  obj _ _ _ := rfl
  stays _ _ hn _ := hn
  came _ _ hn := Or.inl hn
  calls _ _ _ := rfl
  connects _ _ _ := rfl
  named := h

theorem Frame.mono (h : Frame touched s s') (hsub : ∀ r, touched r → touched' r) :
    Frame touched' s s' where
  size := h.size
  obj r hr hnot := h.obj r hr fun ht => hnot (hsub r ht)
  stays n r hn hnot := h.stays n r hn fun ht => hnot (hsub r ht)
  came := h.came
  calls r hr hnot := h.calls r hr fun ht => hnot (hsub r ht)
  connects r hr hnot := h.connects r hr fun ht => hnot (hsub r ht)
  named := h.named

/-- The second part touches only queries that were there before the first. -/
theorem Frame.trans (h : Frame touched s t) (h' : Frame touched' t s')
    (hold : ∀ r, touched' r → r < s.size) :
    Frame (fun r => touched r ∨ touched' r) s s' where
  size := Nat.le_trans h.size h'.size
  obj r hr hnot := by
    rw [not_or] at hnot
    rw [h'.obj r (Nat.lt_of_lt_of_le hr h.size) hnot.2, h.obj r hr hnot.1]
  stays n r hn hnot := by
    rw [not_or] at hnot
    exact h'.stays n r (h.stays n r hn hnot.1) hnot.2
  came n r hn := by
    rcases h'.came n r hn with hn | ⟨hr, hcon⟩
    · rcases h.came n r hn with hn' | ⟨hr, hcon⟩
      · exact Or.inl hn'
      · have hnot : ¬ touched' r := fun ht => absurd (hold r ht) (Nat.not_lt.mpr hr)
        rw [← h'.obj r (h.named n r hn).1 hnot] at hcon
        exact Or.inr ⟨hr, hcon⟩
    · exact Or.inr ⟨Nat.le_trans h.size hr, hcon⟩
  calls r hr hnot := by
    rw [not_or] at hnot
    rw [h'.calls r (Nat.lt_of_lt_of_le hr h.size) hnot.2, h.calls r hr hnot.1]
  connects r hr hnot := by
    rw [not_or] at hnot
    rw [h'.connects r (Nat.lt_of_lt_of_le hr h.size) hnot.2, h.connects r hr hnot.1]
  named := h'.named

/-- Two steps on one query. -/
theorem Frame.then (h : Frame (· = r) s t) (h' : Frame (· = r) t s') (hr : r < s.size) :
    Frame (· = r) s s' :=
  (h.trans h' fun _ heq => heq ▸ hr).mono fun _ heq => heq.elim id id

/-- An operation on one query that leaves `m_query` and the calls alone. -/
theorem frame_setQuery (h : Named s) (hnonce : q.nonce = (s.obj r).nonce) :
    Frame (· = r) s (s.setQuery r q) where
  size := Nat.le_refl _
  obj _ _ hne := setQuery_other q hne
  stays _ _ hn _ := hn
  came _ _ hn := Or.inl hn
  calls _ _ _ := rfl
  connects _ _ _ := rfl
  named := (only_setQuery hnonce).named h

theorem callsOf_call (s : Queries) (r : Nat) (c : Called) (r' : Nat) :
    callsOf (s.call r c) r' = callsOf s r' ++ if r' = r then [c] else [] := by
  unfold callsOf Queries.call
  rw [List.filter_append, List.map_append]
  congr 1
  by_cases hr : r' = r
  · simp [hr]
  · simp [hr, Ne.symm hr]

theorem frame_call (h : Named s) (c : Called) : Frame (· = r) s (s.call r c) where
  size := Nat.le_refl _
  obj _ _ _ := rfl
  stays _ _ hn _ := hn
  came _ _ hn := Or.inl hn
  calls _ _ hne := by
    rw [callsOf_call, if_neg hne, List.append_nil]
  connects _ _ _ := rfl
  named := h

theorem connectsOf_connect (s : Queries) (r : Nat) (sport : BitVec 16) (did : Id)
    (dport : BitVec 16) (desc : Int) (r' : Nat) :
    connectsOf (s.connect r sport did dport desc) r' =
      connectsOf s r' ++ if r' = r then [⟨r, sport, did, dport⟩] else [] := by
  unfold connectsOf Queries.connect
  dsimp only
  rw [List.filter_append]
  congr 1
  by_cases hr : r' = r
  · simp [hr]
  · simp [hr, Ne.symm hr]

theorem frame_connect (h : Named s) (sport : BitVec 16) (did : Id) (dport : BitVec 16)
    (desc : Int) : Frame (· = r) s (s.connect r sport did dport desc) where
  size := Nat.le_refl _
  obj r' _ hne := (only_connect s r sport did dport desc).obj r' hne
  stays _ _ hn _ := hn
  came _ _ hn := Or.inl hn
  calls _ _ _ := rfl
  connects _ _ hne := by
    rw [connectsOf_connect, if_neg hne, List.append_nil]
  named := (only_connect s r sport did dport desc).named h

/-- A query that is in `m_query` is taken out. -/
theorem frame_removeQuery (h : Named s) (hlive : Live s r) :
    Frame (· = r) s (s.removeQuery r) where
  size := Nat.le_refl _
  obj r' _ hne := (only_removeQuery s r).obj r' hne
  stays n r' hn hne := by
    refine (AList.lookup_erase_ne ?_).trans hn
    rintro rfl
    exact hne (Option.some.inj (hn.symm.trans hlive))
  came n r' hn := Or.inl ((only_removeQuery s r).query n r' hn)
  calls _ _ _ := rfl
  connects _ _ _ := rfl
  named := (only_removeQuery s r).named h

/-- The query stays in `m_query`. -/
theorem Frame.live (h : Frame touched s s') (hlt : r < s.size) (hnot : ¬ touched r)
    (hlive : Live s r) : Live s' r := by
  unfold Live
  rw [h.obj r hlt hnot]
  exact h.stays _ r hlive hnot

/-! ### Callback functions -/

/-- What callback functions may do: new queries come, and the others are left alone. -/
def StartsQueries (react : Queries → Queries) : Prop :=
  ∀ s, Named s → Frame (fun _ => False) s (react s)

/-- What a query has asked for in `send_find`. -/
def asked (q : Query) : Query := Queries.sendFindLoop q.nodes q

theorem sendFindWith_cases (react : Queries → Queries) (s : Queries) (r : Nat)
    (hcon : (s.obj r).isRdpCon = false) :
    (asked (s.obj r)).numQuery ≠ 0 ∧ s.sendFindWith react r = s.setQuery r (asked (s.obj r)) ∨
      (asked (s.obj r)).numQuery = 0 ∧ s.sendFindWith react r =
        (react ((s.setQuery r (asked (s.obj r))).call r
          (Queries.failed (asked (s.obj r))))).removeQuery r := by
  unfold Queries.sendFindWith
  rw [if_neg (by simp [hcon])]
  dsimp only [asked]
  split
  · rename_i hzero
    exact Or.inr ⟨hzero, rfl⟩
  · rename_i hzero
    exact Or.inl ⟨hzero, rfl⟩

theorem StartsQueries.frame {react : Queries → Queries} (h : StartsQueries react) (hnamed : Named s)
    (r : Nat) : Frame (· = r) s (react s) :=
  (h s hnamed).mono fun _ hfalse => hfalse.elim

/-- A query is called back and taken out. -/
theorem frame_finish {react : Queries → Queries} (hreact : StartsQueries react) (h : Named s)
    (hlive : Live s r) (hlt : r < s.size) (c : Called) :
    Frame (· = r) s ((react (s.call r c)).removeQuery r) ∧
      ((react (s.call r c)).removeQuery r).obj r =
        { s.obj r with timers := ∅, timerRecvd := false } ∧
      callsOf ((react (s.call r c)).removeQuery r) r = callsOf s r ++ [c] ∧
      connectsOf ((react (s.call r c)).removeQuery r) r = connectsOf s r ∧
      ((react (s.call r c)).removeQuery r).query.lookup (s.obj r).nonce = none := by
  have hcall := frame_call (r := r) h c
  have hnew := hreact (s.call r c) hcall.named
  have hlive' : Live (react (s.call r c)) r := hnew.live hlt not_false hlive
  have hobj : (react (s.call r c)).obj r = s.obj r := hnew.obj r hlt not_false
  refine ⟨(hcall.then (hreact.frame hcall.named r) hlt).then
    (frame_removeQuery hnew.named hlive') hlt, ?_, ?_, ?_, ?_⟩
  · unfold Queries.removeQuery
    rw [hobj]
    exact setQuery_self _ _ _
  · refine (hnew.calls r hlt not_false).trans ?_
    rw [callsOf_call, if_pos rfl]
  · exact hnew.connects r hlt not_false
  · unfold Queries.removeQuery
    dsimp only
    rw [hobj, AList.lookup_erase]

/-- `send_find` on a query that is in `m_query`. -/
theorem frame_sendFindWith {react : Queries → Queries} (hreact : StartsQueries react) (h : Named s)
    (hlive : Live s r) (hlt : r < s.size) (hcon : (s.obj r).isRdpCon = false) :
    Frame (· = r) s (s.sendFindWith react r) ∧
      ((s.sendFindWith react r).obj r).isRdpCon = false := by
  have hsame := sendFindLoop_same (s.obj r).nodes (s.obj r)
  have hset : Frame (· = r) s (s.setQuery r (asked (s.obj r))) := frame_setQuery h hsame.nonce
  rcases sendFindWith_cases react s r hcon with ⟨-, hs⟩ | ⟨-, hs⟩
  · rw [hs]
    refine ⟨hset, ?_⟩
    rw [setQuery_self]
    exact hsame.isRdpCon.trans hcon
  · have hlive' : Live (s.setQuery r (asked (s.obj r))) r := (live_setQuery hsame.nonce).mpr hlive
    obtain ⟨hframe, hobj, -⟩ := frame_finish hreact hset.named hlive' hlt
      (Queries.failed (asked (s.obj r)))
    rw [hs]
    refine ⟨hset.then hframe hlt, ?_⟩
    rw [hobj, setQuery_self]
    exact hsame.isRdpCon.trans hcon

/-- A new query, and what happens to it at once. -/
theorem Frame.enter (hframe : Frame (· = s.size) (s.enter q) s') (h : Named s)
    (hfresh : s.query.lookup q.nonce = none) (hcon : (s'.obj s.size).isRdpCon = false) :
    Frame (fun _ => False) s s' where
  size := Nat.le_of_succ_le hframe.size
  obj r hr _ := by
    rw [hframe.obj r (Nat.lt_succ_of_lt hr) (Nat.ne_of_lt hr)]
    exact setQuery_other q (Nat.ne_of_lt hr)
  stays n r hn _ := by
    have hlt : r < s.size := (h n r hn).1
    refine hframe.stays n r ?_ (Nat.ne_of_lt hlt)
    refine (AList.lookup_insert_ne ?_).trans hn
    rintro rfl
    rw [hfresh] at hn
    cases hn
  came n r hn := by
    rcases hframe.came n r hn with hn | ⟨hr, hcon⟩
    · rcases lookup_insert_eq_some.mp (show (s.query.insert q.nonce s.size).lookup n = some r from
        hn) with ⟨-, rfl⟩ | ⟨-, hn⟩
      · exact Or.inr ⟨Nat.le_refl _, hcon⟩
      · exact Or.inl hn
    · exact Or.inr ⟨Nat.le_of_succ_le hr, hcon⟩
  calls r hr _ := hframe.calls r (Nat.lt_succ_of_lt hr) (Nat.ne_of_lt hr)
  connects r hr _ := hframe.connects r (Nat.lt_succ_of_lt hr) (Nat.ne_of_lt hr)
  named := hframe.named

/-- A query without nodes is called back and never put into `m_query`. -/
theorem frame_called (h : Named s) (q : Query) (c : Called) : Frame (fun _ => False) s
    { (s.setQuery s.size q).call s.size c with size := s.size + 1 } where
  size := Nat.le_succ _
  obj r hr _ := setQuery_other q (Nat.ne_of_lt hr)
  stays _ _ hn _ := hn
  came _ _ hn := Or.inl hn
  calls r hr _ := by
    have hcall := callsOf_call (s.setQuery s.size q) s.size c r
    rw [if_neg (Nat.ne_of_lt hr), List.append_nil] at hcall
    exact hcall
  connects _ _ _ := rfl
  named n r hn := by
    obtain ⟨hlt, hnonce⟩ := h n r hn
    refine ⟨Nat.lt_succ_of_lt hlt, ?_⟩
    have hobj : (s.setQuery s.size q).obj r = s.obj r := setQuery_other q (Nat.ne_of_lt hlt)
    exact (congrArg Query.nonce hobj).trans hnonce

/-- A new query is put into `m_query` and asks its nodes. -/
theorem frame_entered {react : Queries → Queries} (hreact : StartsQueries react) (h : Named s)
    (hfresh : s.query.lookup q.nonce = none) (hcon : q.isRdpCon = false) :
    Frame (fun _ => False) s ((s.enter q).sendFindWith react s.size) := by
  have hself : (s.enter q).obj s.size = q := setQuery_self s s.size q
  have hlive : Live (s.enter q) s.size := by
    unfold Live
    rw [hself]
    exact AList.lookup_insert _
  rw [← hself] at hcon
  obtain ⟨hframe, hcon'⟩ := frame_sendFindWith hreact (Named.enter h q) hlive
    (Nat.lt_succ_self _) hcon
  exact hframe.enter h hfresh hcon'

theorem frame_findNvWith {react : Queries → Queries} (hreact : StartsQueries react) (h : Named s)
    (start : Start) (hfresh : s.query.lookup start.nonce = none) :
    Frame (fun _ => False) s (s.findNvWith react start) := by
  unfold Queries.findNvWith
  dsimp only
  split
  · have hcalled := frame_called h
      (s.newQuery start.uninit start.dst start.nonce start.key.isSome start.nodes)
      (Queries.failed
        (s.newQuery start.uninit start.dst start.nonce start.key.isSome start.nodes))
    exact (hcalled.trans (hreact _ hcalled.named) fun _ hfalse => hfalse.elim).mono
      fun _ hfalse => hfalse.elim id id
  · -- With or without a key.
    cases start.key with
    | none => exact frame_entered hreact h hfresh rfl
    | some key => exact frame_entered hreact h hfresh rfl

/-- Whatever a callback function starts, it does nothing else. -/
theorem startsQueries_run (reaction : Reaction) : StartsQueries reaction.run := by
  induction reaction with
  | done => exact fun s h => Frame.refl _ h
  | start query called next ihCalled ihNext =>
    intro s h
    rw [Reaction.run]
    split
    · rename_i hfresh
      have hnew := frame_findNvWith ihCalled h query hfresh
      exact (hnew.trans (ihNext _ hnew.named) fun _ hfalse => hfalse.elim).mono
        fun _ hfalse => hfalse.elim id id
    · exact ihNext s h

/-! ### A round of the last walk -/

/-- The nodes that a query has not asked yet. -/
def unsent (q : Query) : Finset Id := (q.nodes.map (·.id)).toFinset \ q.sent

/-- The silent queries that stop the program: no callback function for values, or nobody who
is being asked and nobody left to ask. -/
def Stops (now : Int) (q : Query) : Prop :=
  Queries.Silent now q ∧ (q.get.vset ≠ ∅ ∧ q.isFindValue = false ∨
    q.get.vset = ∅ ∧ q.ids = [] ∧ q.numQuery + (unsent q).card = 0)

/-- What a sweep does to a query. A silent one is reported, connects to the next candidate or
resumes its lookup. -/
inductive Swept (now desc : Int) (s s' : Queries) (n : BitVec 32) (r : Nat) : Prop where
  | kept (hsilent : ¬ Queries.Silent now (s.obj r)) (hlookup : s'.query.lookup n = some r)
      (hobj : s'.obj r = s.obj r) (hcalls : callsOf s' r = callsOf s r)
      (hconnects : connectsOf s' r = connectsOf s r)
  | reported (hsilent : Queries.Silent now (s.obj r)) (hvset : (s.obj r).get.vset ≠ ∅)
      (hlookup : s'.query.lookup n ≠ some r)
      (hobj : s'.obj r = { s.obj r with timers := ∅, timerRecvd := false })
      (hcalls : callsOf s' r = callsOf s r ++ [.value true (some (s.obj r).get.vset)])
      (hconnects : connectsOf s' r = connectsOf s r)
  | connected (hsilent : Queries.Silent now (s.obj r)) (hvset : (s.obj r).get.vset = ∅)
      {id : Id} {ids : List Id} (hids : (s.obj r).ids = id :: ids)
      (hlookup : s'.query.lookup n = some r) {desc' : Int} (hdesc : desc' = desc ∨ desc' = -1)
      (hobj : s'.obj r = { s.obj r with ids := ids, rdpTime := now, rdpDesc := desc' })
      (hcalls : callsOf s' r = callsOf s r)
      (hconnects : connectsOf s' r = connectsOf s r ++ [⟨r, rdpGetPort, id, 0⟩])
  | resumed (hsilent : Queries.Silent now (s.obj r)) (hvset : (s.obj r).get.vset = ∅)
      (hids : (s.obj r).ids = []) (hlookup : s'.query.lookup n = some r)
      (hobj : s'.obj r = asked { s.obj r with isRdpCon := false })
      (hcalls : callsOf s' r = callsOf s r) (hconnects : connectsOf s' r = connectsOf s r)

/-- `send_find` ends a query exactly when it has nobody to wait for after asking. -/
theorem sendFindLoop_eq_zero (nodes : List Cageaddr) (q : Query) :
    (Queries.sendFindLoop nodes q).numQuery = 0 ↔
      q.numQuery + ((nodes.map (·.id)).toFinset \ q.sent).card = 0 := by
  induction nodes generalizing q with
  | nil => simp [Queries.sendFindLoop]
  | cons addr nodes ih =>
    rw [Queries.sendFindLoop]
    split
    · rename_i hmax
      unfold maxQuery at hmax
      -- A query is under way, so neither side is zero.
      constructor
      · intro hzero
        omega
      · intro hzero
        omega
    · split
      · rename_i hsent
        rw [ih, List.map_cons, List.toFinset_cons, Finset.insert_sdiff_of_mem _ hsent]
      · rename_i hsent
        -- The node is sent to now: one more query, and one less to send to.
        have hcard : ((((addr :: nodes).map (·.id)).toFinset \ q.sent).card : Int) =
            ((nodes.map (·.id)).toFinset \ insert addr.id q.sent).card + 1 := by
          rw [List.map_cons, List.toFinset_cons, Finset.insert_sdiff_of_notMem _ hsent,
            Finset.sdiff_insert, ← Finset.erase_insert_eq_erase]
          exact_mod_cast (Finset.card_erase_add_one (Finset.mem_insert_self addr.id _)).symm
        rw [ih, hcard]
        dsimp only
        omega

theorem asked_eq_zero (q : Query) :
    (asked { q with isRdpCon := false }).numQuery = 0 ↔ q.numQuery + (unsent q).card = 0 :=
  sendFindLoop_eq_zero q.nodes { q with isRdpCon := false }

theorem frame_close (h : Named s) (desc : Int) : Frame (· = r) s (s.close desc) :=
  { Frame.refl (· = r) h with named := (only_close s r desc).named h }

section
variable {now desc : Int} {n : BitVec 32}

/-- A silent query with values. -/
theorem round_report {react : Queries → Queries} (hreact : StartsQueries react) (h : Named s)
    (hn : s.query.lookup n = some r) (hsilent : Queries.Silent now (s.obj r))
    (hvset : (s.obj r).get.vset ≠ ∅) (hfind : (s.obj r).isFindValue = true) (old desc : Int) :
    ∃ s', (s.close old).recvdValueWith react r = .ok s' ∧ Frame (· = r) s s' ∧
      Swept now desc s s' n r := by
  obtain ⟨hlt, hnonce⟩ := h n r hn
  have hclosed : Frame (· = r) s (s.close old) := frame_close h old
  have hlive : Live (s.close old) r := by
    unfold Live
    exact (congrArg s.query.lookup hnonce).trans hn
  obtain ⟨hframe, hobj, hcalls, hconnects, hgone⟩ := frame_finish hreact hclosed.named hlive hlt
    (.value true (some ((s.close old).obj r).get.vset))
  refine ⟨_, ?_, hclosed.then hframe hlt, .reported hsilent hvset ?_ hobj hcalls hconnects⟩
  · unfold Queries.recvdValueWith
    exact if_pos hfind
  · rw [show ((s.close old).obj r).nonce = n from hnonce] at hgone
    rw [hgone]
    exact nofun

theorem retryWith_cons (react : Queries → Queries) {id : Id} {ids : List Id}
    (hids : (s.obj r).ids = id :: ids) : s.retryWith react now r desc =
      (s.setQuery r { s.obj r with ids := ids, rdpTime := now }).connect r rdpGetPort id 0
        desc := by
  unfold Queries.retryWith
  simp only [hids]

theorem retryWith_nil (react : Queries → Queries) (hids : (s.obj r).ids = []) :
    s.retryWith react now r desc =
      (s.setQuery r { s.obj r with isRdpCon := false }).sendFindWith react r := by
  unfold Queries.retryWith
  simp only [hids]

/-- `rdp_desc` is the new descriptor, or `-1`. -/
theorem obj_connect (s : Queries) (r : Nat) (sport : BitVec 16) (did : Id) (dport : BitVec 16)
    (desc : Int) : ∃ desc', (desc' = desc ∨ desc' = -1) ∧
      (s.connect r sport did dport desc).obj r = { s.obj r with rdpDesc := desc' } :=
  ⟨_, ite_eq_or_eq (0 < desc ∧ s.conns.lookup desc = none) desc (-1), setQuery_self _ _ _⟩

/-- A silent query without values that has another candidate. -/
theorem round_connect (react : Queries → Queries) (h : Named s)
    (hn : s.query.lookup n = some r) (hsilent : Queries.Silent now (s.obj r))
    (hvset : (s.obj r).get.vset = ∅) {id : Id} {ids : List Id} (hids : (s.obj r).ids = id :: ids)
    (old : Int) :
    Frame (· = r) s ((s.close old).retryWith react now r desc) ∧
      Swept now desc s ((s.close old).retryWith react now r desc) n r := by
  have hlt : r < s.size := (h n r hn).1
  have hclosed : Frame (· = r) s (s.close old) := frame_close h old
  have hset : Frame (· = r) (s.close old)
      ((s.close old).setQuery r { s.obj r with ids := ids, rdpTime := now }) :=
    frame_setQuery hclosed.named rfl
  have hconnect := frame_connect (r := r) hset.named rdpGetPort id 0 desc
  rw [retryWith_cons react (s := s.close old) hids]
  refine ⟨(hclosed.then hset hlt).then hconnect hlt, ?_⟩
  obtain ⟨desc', hdesc, hobj⟩ := obj_connect
    ((s.close old).setQuery r { s.obj r with ids := ids, rdpTime := now }) r rdpGetPort id 0 desc
  rw [setQuery_self] at hobj
  refine .connected hsilent hvset hids hn hdesc hobj rfl ?_
  rw [connectsOf_connect, if_pos rfl]
  rfl

/-- A silent query without values and candidates: `send_find` takes it out, or it stays. -/
theorem round_resume {react : Queries → Queries} (hreact : StartsQueries react) (h : Named s)
    (hn : s.query.lookup n = some r) (hsilent : Queries.Silent now (s.obj r))
    (hvset : (s.obj r).get.vset = ∅) (hids : (s.obj r).ids = []) (old desc : Int) :
    (s.obj r).numQuery + (unsent (s.obj r)).card = 0 ∧
        ((s.close old).retryWith react now r desc).query.lookup n = none ∨
      (s.obj r).numQuery + (unsent (s.obj r)).card ≠ 0 ∧
        Frame (· = r) s ((s.close old).retryWith react now r desc) ∧
        Swept now desc s ((s.close old).retryWith react now r desc) n r := by
  obtain ⟨hlt, hnonce⟩ := h n r hn
  let q : Query := { s.obj r with isRdpCon := false }
  have hclosed : Frame (· = r) s (s.close old) := frame_close h old
  have hset : Frame (· = r) (s.close old) ((s.close old).setQuery r q) :=
    frame_setQuery hclosed.named rfl
  have hself : ((s.close old).setQuery r q).obj r = q := setQuery_self _ _ _
  have hsame := sendFindLoop_same q.nodes q
  have hretry : (s.close old).retryWith react now r desc =
      ((s.close old).setQuery r q).sendFindWith react r :=
        retryWith_nil react (s := s.close old) hids
  rw [ne_eq, ← asked_eq_zero, hretry]
  have hcon : (((s.close old).setQuery r q).obj r).isRdpCon = false := by rw [hself]
  have hset' : Frame (· = r) ((s.close old).setQuery r q)
      (((s.close old).setQuery r q).setQuery r (asked q)) :=
    frame_setQuery hset.named (by rw [hself]; exact hsame.nonce)
  have hself' : (((s.close old).setQuery r q).setQuery r (asked q)).obj r = asked q :=
    setQuery_self _ _ _
  rcases sendFindWith_cases react _ r hcon with ⟨hne, hs⟩ | ⟨hzero, hs⟩
  · -- It is asking again, or still.
    rw [hself] at hne hs
    rw [hs]
    exact Or.inr ⟨hne, (hclosed.then hset hlt).then hset' hlt,
      .resumed hsilent hvset hids hn hself' rfl rfl⟩
  · -- Nobody is left to ask, so the callback function is called and the query taken out.
    rw [hself] at hzero hs
    have hnonce' : (asked q).nonce = n := hsame.nonce.trans hnonce
    have hlive : Live (((s.close old).setQuery r q).setQuery r (asked q)) r := by
      unfold Live
      rw [hself', hnonce']
      exact hn
    obtain ⟨-, -, -, -, hgone⟩ := frame_finish hreact hset'.named hlive hlt
      (Queries.failed (asked q))
    rw [hself', hnonce'] at hgone
    rw [hs]
    exact Or.inl ⟨hzero, hgone⟩

/-- A silent query without values stays, or is taken out under the iterator. -/
theorem round_retry {react : Queries → Queries} (hreact : StartsQueries react) (h : Named s)
    (hn : s.query.lookup n = some r) (hsilent : Queries.Silent now (s.obj r))
    (hvset : (s.obj r).get.vset = ∅) (old desc : Int) :
    ((s.obj r).ids = [] ∧ (s.obj r).numQuery + (unsent (s.obj r)).card = 0) ∧
        ((s.close old).retryWith react now r desc).query.lookup n = none ∨
      ¬ ((s.obj r).ids = [] ∧ (s.obj r).numQuery + (unsent (s.obj r)).card = 0) ∧
        Frame (· = r) s ((s.close old).retryWith react now r desc) ∧
        Swept now desc s ((s.close old).retryWith react now r desc) n r := by
  cases hids : (s.obj r).ids with
  | cons id ids =>
    refine Or.inr ⟨?_, round_connect react h hn hsilent hvset hids old⟩
    rintro ⟨hnil, -⟩
    cases hnil
  | nil =>
    rcases round_resume hreact h hn hsilent hvset hids old desc with
      ⟨hzero, hgone⟩ | ⟨hne, hround⟩
    · exact Or.inl ⟨⟨rfl, hzero⟩, hgone⟩
    · exact Or.inr ⟨fun hbad => hne hbad.2, hround⟩

end

/-! ### The walk over the queries -/

/-- A silent query without values stays in `m_query`. -/
theorem Swept.lookup {now desc : Int} {n : BitVec 32} (h : Swept now desc s s' n r)
    (hvset : (s.obj r).get.vset = ∅) : s'.query.lookup n = some r := by
  cases h with
  | kept _ hl _ _ _ => exact hl
  | reported _ hne _ _ _ _ => exact absurd hvset hne
  | connected _ _ _ hl _ _ _ _ => exact hl
  | resumed _ _ _ hl _ _ _ => exact hl

/-- What was swept is left alone later. -/
theorem Swept.frame {now desc : Int} {n : BitVec 32} (h : Swept now desc s t n r)
    (hframe : Frame touched t s') (hlt : r < t.size) (hnot : ¬ touched r) :
    Swept now desc s s' n r := by
  have hobj := hframe.obj r hlt hnot
  have hcalls := hframe.calls r hlt hnot
  have hconnects := hframe.connects r hlt hnot
  cases h with
  | kept hsilent hl ho hc hn =>
    exact .kept hsilent (hframe.stays n r hl hnot) (hobj.trans ho) (hcalls.trans hc)
      (hconnects.trans hn)
  | reported hsilent hvset hl ho hc hn =>
    refine .reported hsilent hvset (fun hcame => ?_) (hobj.trans ho) (hcalls.trans hc)
      (hconnects.trans hn)
    rcases hframe.came n r hcame with hthere | ⟨hle, -⟩
    · exact hl hthere
    · omega
  | connected hsilent hvset hids hl hdesc ho hc hn =>
    exact .connected hsilent hvset hids (hframe.stays n r hl hnot) hdesc (hobj.trans ho)
      (hcalls.trans hc) (hconnects.trans hn)
  | resumed hsilent hvset hids hl ho hc hn =>
    exact .resumed hsilent hvset hids (hframe.stays n r hl hnot) (hobj.trans ho)
      (hcalls.trans hc) (hconnects.trans hn)

/-- What is swept had been left alone before. -/
theorem Frame.swept {now desc : Int} {n : BitVec 32} (hframe : Frame touched s t)
    (hlt : r < s.size) (hnot : ¬ touched r) (h : Swept now desc t s' n r) :
    Swept now desc s s' n r := by
  have hobj := hframe.obj r hlt hnot
  have hcalls := hframe.calls r hlt hnot
  have hconnects := hframe.connects r hlt hnot
  -- Each way a query is swept only reads its object, its calls and its connections.
  cases h with
  | kept hsilent hl ho hc hn =>
    rw [hobj] at hsilent ho
    rw [hcalls] at hc
    rw [hconnects] at hn
    exact .kept hsilent hl ho hc hn
  | reported hsilent hvset hl ho hc hn =>
    rw [hobj] at hsilent hvset ho hc
    rw [hcalls] at hc
    rw [hconnects] at hn
    exact .reported hsilent hvset hl ho hc hn
  | connected hsilent hvset hids hl hdesc ho hc hn =>
    rw [hobj] at hsilent hvset hids ho
    rw [hcalls] at hc
    rw [hconnects] at hn
    exact .connected hsilent hvset hids hl hdesc ho hc hn
  | resumed hsilent hvset hids hl ho hc hn =>
    rw [hobj] at hsilent hvset hids ho
    rw [hcalls] at hc
    rw [hconnects] at hn
    exact .resumed hsilent hvset hids hl ho hc hn

/-- The walk is at `c`. The nonces `done` of its beginning are behind it and `ns` ahead. -/
structure Walk (now : Int) (descs : BitVec 32 → Int) (s₀ s : Queries)
    (done ns : List (BitVec 32)) (c : Option (BitVec 32)) : Prop where
  frame : Frame (fun r => ∃ n ∈ done, s₀.query.lookup n = some r) s₀ s
  swept : ∀ n ∈ done, ∀ r, s₀.query.lookup n = some r → Swept now (descs n) s₀ s n r
  ahead : Cursor.Ahead s.query c ns
  behind : ∀ n ∈ done, ∀ k, c = some k → n < k
  keys : Cursor.inOrder s₀.query = done ++ ns

/-- The descriptors of the silent queries among some nonces. -/
def silentDescs (now : Int) (s : Queries) (ns : List (BitVec 32)) : List Int :=
  ns.filterMap fun n => (s.query.lookup n).bind fun r =>
    if Queries.Silent now (s.obj r) then some (s.obj r).rdpDesc else none

/-- How the rest of a walk ends: a query that is ahead stops the program, or the walk comes to
the end. -/
def WalkEnds (now : Int) (descs : BitVec 32 → Int) (s₀ : Queries) (done ns : List (BitVec 32))
    (closed : List Int) (res : Except QueryFault (Queries × List Int)) : Prop :=
  ((∃ n ∈ ns, ∃ r, s₀.query.lookup n = some r ∧ Stops now (s₀.obj r)) ∧ ∃ e, res = .error e) ∨
    (∀ n ∈ ns, ∀ r, s₀.query.lookup n = some r → ¬ Stops now (s₀.obj r)) ∧
      ∃ s', res = .ok (s', closed ++ silentDescs now s₀ ns) ∧
        Walk now descs s₀ s' (done ++ ns) [] none

section
variable {now : Int} {descs : BitVec 32 → Int} {s₀ : Queries} {done ns : List (BitVec 32)}
  {k : BitVec 32} {closed : List Int} {res : Except QueryFault (Queries × List Int)}

theorem mem_query_iff {n : BitVec 32} : n ∈ s.query ↔ ∃ r, s.query.lookup n = some r := by
  rw [← AList.lookup_isSome, Option.isSome_iff_exists]

theorem WalkEnds.stop (hr : s₀.query.lookup k = some r) (hstops : Stops now (s₀.obj r))
    (e : QueryFault) : WalkEnds now descs s₀ done (k :: ns) closed (.error e) :=
  Or.inl ⟨⟨k, List.mem_cons_self .., r, hr, hstops⟩, e, rfl⟩

theorem WalkEnds.cons (hr : s₀.query.lookup k = some r) (hstops : ¬ Stops now (s₀.obj r))
    (h : WalkEnds now descs s₀ (done ++ [k]) ns
      (closed ++ if Queries.Silent now (s₀.obj r) then [(s₀.obj r).rdpDesc] else []) res) :
    WalkEnds now descs s₀ done (k :: ns) closed res := by
  rcases h with ⟨⟨n, hn, hbad⟩, he⟩ | ⟨hgood, s', hs', hwalk⟩
  · exact Or.inl ⟨⟨n, List.mem_cons_of_mem _ hn, hbad⟩, he⟩
  · refine Or.inr ⟨?_, s', ?_, ?_⟩
    · intro n hn r' hr'
      rcases List.mem_cons.mp hn with rfl | hn
      · rw [hr] at hr'
        rw [← Option.some.inj hr']
        exact hstops
      · exact hgood n hn r' hr'
    · rw [hs', List.append_assoc]
      congr 3
      unfold silentDescs
      rw [List.filterMap_cons, hr, Option.bind_some]
      split
      · rfl
      · rfl
    · rwa [List.append_assoc, List.singleton_append] at hwalk

/-- A key that is ahead is an entry of the beginning that has not been touched. -/
theorem Walk.entry (h : Walk now descs s₀ s done ns (some k)) (h₀ : Named s₀) (hk : k ∈ ns) :
    ∃ r, s₀.query.lookup k = some r ∧ s.query.lookup k = some r ∧ s.obj r = s₀.obj r ∧
      ¬ ∃ n ∈ done, s₀.query.lookup n = some r := by
  have hmem : k ∈ Cursor.inOrder s₀.query := by
    rw [h.keys]
    exact List.mem_append_right _ hk
  obtain ⟨r, hr⟩ := mem_query_iff.mp (Cursor.mem_inOrder.mp hmem)
  have hnot : ¬ ∃ n ∈ done, s₀.query.lookup n = some r := by
    rintro ⟨n, hn, hn'⟩
    have heq : n = k := (h₀ n r hn').2.symm.trans (h₀ k r hr).2
    exact absurd (h.behind n hn k rfl) (heq ▸ Std.lt_irrefl)
  exact ⟨r, hr, h.frame.stays k r hr hnot, h.frame.obj r (h₀ k r hr).1 hnot, hnot⟩

/-- An entry that came in on the way has no connection. -/
theorem Walk.newcomer (h : Walk now descs s₀ s done ns (some k)) (hk : k ∉ ns)
    (hr : s.query.lookup k = some r) : (s.obj r).isRdpCon = false := by
  rcases h.frame.came k r hr with hr₀ | ⟨-, hcon⟩
  · have hmem : k ∈ Cursor.inOrder s₀.query :=
      Cursor.mem_inOrder.mpr (mem_query_iff.mpr ⟨r, hr₀⟩)
    rw [h.keys] at hmem
    rcases List.mem_append.mp hmem with hdone | hns
    · exact absurd (h.behind k hdone k rfl) Std.lt_irrefl
    · exact absurd hns hk
  · exact hcon

/-- The walk passes an entry that came in on the way. -/
theorem Walk.pass (h : Walk now descs s₀ s done ns (some k)) (hk : k ∉ ns) :
    Walk now descs s₀ s done ns (Cursor.next s.query k) where
  frame := h.frame
  swept := h.swept
  ahead := Cursor.Ahead.move h.ahead.sorted (h.ahead.before hk) h.ahead.mem h.ahead.mem
    fun _ hnext => (Cursor.next_eq_some hnext).1
  behind n hn _ hk' := Std.lt_trans (h.behind n hn k rfl) (Cursor.next_eq_some hk').2.1
  keys := h.keys

/-- The walk moves on from an entry of the beginning. The iterator is counted up before or
after the round, in `m_query` as it is then. -/
theorem Walk.move (h : Walk now descs s₀ s done (k :: ns) (some k)) (h₀ : Named s₀)
    (hbefore : ∀ n ∈ ns, k < n) (hr : s₀.query.lookup k = some r)
    (hround : Frame (· = r) s s') (hswept : Swept now (descs k) s s' k r)
    {c : Option (BitVec 32)}
    (hc : c = Cursor.next s.query k ∨ c = Cursor.next s'.query k) :
    Walk now descs s₀ s' (done ++ [k]) ns c := by
  have hlt : r < s₀.size := (h₀ k r hr).1
  obtain ⟨r', hr', hlookup, -, hnot⟩ := h.entry h₀ (List.mem_cons_self ..)
  obtain rfl : r' = r := Option.some.inj (hr'.symm.trans hr)
  -- The other entries are of other queries.
  have hother : ∀ n r', n ≠ k → s.query.lookup n = some r' → s'.query.lookup n = some r' := by
    intro n r₁ hne hn
    refine hround.stays n r₁ hn ?_
    rintro rfl
    exact hne ((h.frame.named n _ hn).2.symm.trans (h.frame.named k _ hlookup).2)
  have hstays : ∀ n, n ≠ k → n ∈ s.query → n ∈ s'.query := by
    intro n hne hn
    obtain ⟨r₁, hr₁⟩ := mem_query_iff.mp hn
    exact mem_query_iff.mpr ⟨r₁, hother n r₁ hne hr₁⟩
  have hmem : ∀ n ∈ ns, n ∈ s.query := fun n hn => h.ahead.mem n (List.mem_cons_of_mem _ hn)
  have hmem' : ∀ n ∈ ns, n ∈ s'.query := fun n hn =>
    hstays n (Std.ne_of_lt (hbefore n hn)).symm (hmem n hn)
  have hsorted : ns.Pairwise (· < ·) := (List.pairwise_cons.mp h.ahead.sorted).2
  have hahead : Cursor.Ahead s'.query c ns ∧ ∀ k', c = some k' → k < k' := by
    rcases hc with rfl | rfl
    · refine ⟨Cursor.Ahead.move hsorted hbefore hmem hmem' ?_, ?_⟩
      · intro k' hk'
        obtain ⟨hthere, hgt, -⟩ := Cursor.next_eq_some hk'
        exact hstays k' (Std.ne_of_lt hgt).symm hthere
      · exact fun k' hk' => (Cursor.next_eq_some hk').2.1
    · exact ⟨Cursor.Ahead.move hsorted hbefore hmem' hmem' fun _ hk' =>
        (Cursor.next_eq_some hk').1, fun _ hk' => (Cursor.next_eq_some hk').2.1⟩
  constructor
  case frame =>
    refine (h.frame.trans hround fun _ heq => heq ▸ hlt).mono ?_
    rintro r₁ (⟨n, hn, hn'⟩ | rfl)
    · exact ⟨n, List.mem_append_left _ hn, hn'⟩
    · exact ⟨k, List.mem_append_right _ (List.mem_singleton_self k), hr⟩
  case swept =>
    intro n hn r₁ hr₁
    rcases List.mem_append.mp hn with hn | hn
    · have hlt₁ := Nat.lt_of_lt_of_le (h₀ n r₁ hr₁).1 h.frame.size
      exact (h.swept n hn r₁ hr₁).frame hround hlt₁ fun heq => hnot ⟨n, hn, heq ▸ hr₁⟩
    · obtain rfl := List.mem_singleton.mp hn
      obtain rfl : r₁ = r' := Option.some.inj (hr₁.symm.trans hr)
      exact h.frame.swept hlt hnot hswept
  case ahead => exact hahead.1
  case behind =>
    intro n hn k' hk'
    have hgt := hahead.2 k' hk'
    rcases List.mem_append.mp hn with hn | hn
    · exact Std.lt_trans (h.behind n hn k rfl) hgt
    · rwa [List.mem_singleton.mp hn]
  case keys => rw [h.keys, List.append_assoc, List.singleton_append]

/-- The nonces that a walk may still meet. -/
def room (c : Option (BitVec 32)) : Nat := c.elim 0 fun k => 2 ^ 32 - k.toNat

theorem room_next {t : Table (BitVec 32) Nat} : room (Cursor.next t k) < room (some k) := by
  unfold room
  cases hnext : Cursor.next t k with
  | none =>
    show 0 < 2 ^ 32 - k.toNat
    have hk := k.isLt
    omega
  | some k' =>
    show 2 ^ 32 - k'.toNat < 2 ^ 32 - k.toNat
    have hlt : k.toNat < k'.toNat := (Cursor.next_eq_some hnext).2.1
    have hk' := k'.isLt
    omega

/-- How the round of an entry of the beginning ends: the query stops the program, or the walk
goes on behind the entry. -/
def RoundEnds (now : Int) (descs : BitVec 32 → Int) (s₀ : Queries) (done ns : List (BitVec 32))
    (closed : List Int) (react : Nat → Reaction) (rounds : Nat) (k : BitVec 32) (q : Query)
    (res : Except QueryFault (Queries × List Int)) : Prop :=
  Stops now q ∧ (∃ e, res = .error e) ∨
    ¬ Stops now q ∧ ∃ (t : Table (BitVec 32) Nat) (s' : Queries),
      Walk now descs s₀ s' (done ++ [k]) ns (Cursor.next t k) ∧
      res = Queries.sweepQueriesLoop now react descs rounds (Cursor.next t k) s'
        (closed ++ if Queries.Silent now q then [q.rdpDesc] else [])

section
variable {react : Nat → Reaction} {rounds : Nat}

/-- A query that is not silent stays as it is. -/
theorem Walk.kept (h : Walk now descs s₀ s done (k :: ns) (some k)) (h₀ : Named s₀)
    (hr : s₀.query.lookup k = some r) (hsilent : ¬ Queries.Silent now (s₀.obj r)) :
    RoundEnds now descs s₀ done ns closed react rounds k (s₀.obj r)
      (Queries.sweepQueriesLoop now react descs (rounds + 1) (some k) s closed) := by
  obtain ⟨r', hr', hlookup, hobj, -⟩ := h.entry h₀ (List.mem_cons_self ..)
  obtain rfl : r' = r := Option.some.inj (hr'.symm.trans hr)
  have hbefore : ∀ n ∈ ns, k < n := (List.pairwise_cons.mp h.ahead.sorted).1
  have hsilent' : ¬ Queries.Silent now (s.obj r') := by rwa [hobj]
  have hkept : Swept now (descs k) s s k r' := .kept hsilent' hlookup rfl rfl rfl
  refine Or.inr ⟨fun hbad => hsilent hbad.1, s.query, s,
    h.move h₀ hbefore hr (Frame.refl _ h.frame.named) hkept (Or.inl rfl), ?_⟩
  rw [if_neg hsilent, List.append_nil, Queries.sweepQueriesLoop, hlookup]
  exact if_neg hsilent'

/-- The values of a silent query are reported, and the iterator has been counted up. Those of
a query for nodes stop the program. -/
theorem Walk.report (h : Walk now descs s₀ s done (k :: ns) (some k)) (h₀ : Named s₀)
    (hr : s₀.query.lookup k = some r) (hsilent : Queries.Silent now (s₀.obj r))
    (hvset : (s₀.obj r).get.vset ≠ ∅) :
    RoundEnds now descs s₀ done ns closed react rounds k (s₀.obj r)
      (Queries.sweepQueriesLoop now react descs (rounds + 1) (some k) s closed) := by
  obtain ⟨r', hr', hlookup, hobj, -⟩ := h.entry h₀ (List.mem_cons_self ..)
  obtain rfl : r' = r := Option.some.inj (hr'.symm.trans hr)
  have hbefore : ∀ n ∈ ns, k < n := (List.pairwise_cons.mp h.ahead.sorted).1
  rw [Queries.sweepQueriesLoop, hlookup]
  dsimp only
  rw [hobj, if_pos hsilent, if_pos hvset]
  cases hfind : (s₀.obj r').isFindValue with
  | false =>
    -- A query for nodes has no callback function for values.
    have hbad : (s.close (s₀.obj r').rdpDesc).recvdValueWith (react r').run r' =
        .error .badGet := by
      unfold Queries.recvdValueWith
      exact if_neg (by show ¬ (s.obj r').isFindValue = true; rw [hobj, hfind]; simp)
    rw [hbad, error_bind]
    exact Or.inl ⟨⟨hsilent, Or.inl ⟨hvset, hfind⟩⟩, _, rfl⟩
  | true =>
    obtain ⟨s', hs', hround, hswept⟩ := round_report (startsQueries_run (react r'))
      h.frame.named hlookup (by rwa [hobj]) (by rwa [hobj]) (by rwa [hobj]) (s₀.obj r').rdpDesc
      (descs k)
    have hgood : ¬ Stops now (s₀.obj r') := by
      rintro ⟨-, hbad | hbad⟩
      · rw [hfind] at hbad
        cases hbad.2
      · exact hvset hbad.1
    refine Or.inr ⟨hgood, s.query, s', h.move h₀ hbefore hr hround hswept (Or.inl rfl), ?_⟩
    rw [hs', ok_bind, if_pos hsilent]
    rfl

/-- A silent query without values connects to its next candidate or resumes its lookup, and
the iterator is counted up behind it. Where `send_find` has taken it out the program stops. -/
theorem Walk.retry (h : Walk now descs s₀ s done (k :: ns) (some k)) (h₀ : Named s₀)
    (hr : s₀.query.lookup k = some r) (hsilent : Queries.Silent now (s₀.obj r))
    (hvset : (s₀.obj r).get.vset = ∅) :
    RoundEnds now descs s₀ done ns closed react rounds k (s₀.obj r)
      (Queries.sweepQueriesLoop now react descs (rounds + 1) (some k) s closed) := by
  obtain ⟨r', hr', hlookup, hobj, -⟩ := h.entry h₀ (List.mem_cons_self ..)
  obtain rfl : r' = r := Option.some.inj (hr'.symm.trans hr)
  have hbefore : ∀ n ∈ ns, k < n := (List.pairwise_cons.mp h.ahead.sorted).1
  have hvset' : (s.obj r').get.vset = ∅ := by rwa [hobj]
  have hround := round_retry (startsQueries_run (react r')) h.frame.named
    hlookup (by rwa [hobj]) hvset' (s₀.obj r').rdpDesc (descs k)
  rw [hobj] at hround
  rw [Queries.sweepQueriesLoop, hlookup]
  dsimp only
  rw [hobj, if_pos hsilent, if_neg (not_not.mpr hvset)]
  rcases hround with ⟨hends, hgone⟩ | ⟨hends, hround, hswept⟩
  · -- The iterator points to an entry that is gone.
    rw [if_pos hgone]
    exact Or.inl ⟨⟨hsilent, Or.inr ⟨hvset, hends⟩⟩, _, rfl⟩
  · rw [if_neg (by rw [hswept.lookup hvset']; simp)]
    have hgood : ¬ Stops now (s₀.obj r') := by
      rintro ⟨-, hbad | hbad⟩
      · exact hbad.1 hvset
      · exact hends hbad.2
    refine Or.inr ⟨hgood, _, _, h.move h₀ hbefore hr hround hswept (Or.inr rfl), ?_⟩
    rw [if_pos hsilent]

/-- The round of an entry of the beginning. -/
theorem Walk.round (h : Walk now descs s₀ s done (k :: ns) (some k)) (h₀ : Named s₀)
    (hr : s₀.query.lookup k = some r) :
    RoundEnds now descs s₀ done ns closed react rounds k (s₀.obj r)
      (Queries.sweepQueriesLoop now react descs (rounds + 1) (some k) s closed) := by
  by_cases hsilent : Queries.Silent now (s₀.obj r)
  · by_cases hvset : (s₀.obj r).get.vset = ∅
    · exact h.retry h₀ hr hsilent hvset
    · exact h.report h₀ hr hsilent hvset
  · exact h.kept h₀ hr hsilent

/-- The round of an entry that a callback function has put in: it has no connection. -/
theorem Walk.skip (h : Walk now descs s₀ s done ns (some k)) (hk : k ∉ ns) :
    Queries.sweepQueriesLoop now react descs (rounds + 1) (some k) s closed =
      Queries.sweepQueriesLoop now react descs rounds (Cursor.next s.query k) s closed := by
  obtain ⟨r, hr⟩ := mem_query_iff.mp (h.ahead.cursor k rfl)
  have hcon := h.newcomer hk hr
  have hsilent : ¬ Queries.Silent now (s.obj r) := by
    rintro ⟨hsome, -⟩
    rw [hcon] at hsome
    cases hsome
  rw [Queries.sweepQueriesLoop, hr]
  exact if_neg hsilent

end

/-- The walk. The induction is on its rounds, and `Walk` has what they keep. -/
theorem sweepQueriesLoop_ends (h₀ : Named s₀) (react : Nat → Reaction) (rounds : Nat) :
    ∀ {c : Option (BitVec 32)} {s : Queries} {done ns : List (BitVec 32)} {closed : List Int},
      Walk now descs s₀ s done ns c → room c < rounds →
      WalkEnds now descs s₀ done ns closed
        (Queries.sweepQueriesLoop now react descs rounds c s closed) := by
  induction rounds with
  | zero =>
    intro c s done ns closed _ hrounds
    exact absurd hrounds (Nat.not_lt_zero _)
  | succ rounds ih =>
    intro c s done ns closed h hrounds
    cases c with
    | none =>
      -- The cursor is at the end, and no query is left.
      obtain rfl := h.ahead.done
      have hend : Queries.sweepQueriesLoop now react descs (rounds + 1) none s closed =
          .ok (s, closed ++ silentDescs now s₀ []) := by
        rw [show silentDescs now s₀ [] = [] from rfl, List.append_nil]
        rfl
      refine Or.inr ⟨?_, s, hend, ?_⟩
      · intro n hn
        cases hn
      · rwa [List.append_nil]
    | some k =>
      have hleft : ∀ t : Table (BitVec 32) Nat, room (Cursor.next t k) < rounds := fun t =>
        Nat.lt_of_lt_of_le room_next (Nat.le_of_lt_succ hrounds)
      by_cases hk : k ∈ ns
      · obtain ⟨r, hr, -⟩ := h.entry h₀ hk
        obtain ⟨ns, rfl, -⟩ := h.ahead.cons hk
        rcases h.round h₀ hr with ⟨hstops, e, hres⟩ | ⟨hgood, t, s', hwalk, hres⟩
        · rw [hres]
          exact .stop hr hstops e
        · rw [hres]
          exact .cons hr hgood (ih hwalk (hleft t))
      · -- A query that a callback function started: it is not silent.
        rw [h.skip hk]
        exact ih (h.pass hk) (hleft _)

end

end

/-! ### The sweep -/

/-- What a sweep does to the tables. -/
structure SweptExactly (now : Int) (descs : BitVec 32 → Int) (s s' : RdpTables) : Prop where
  recvStore : ∀ d, s'.recvStore.lookup d =
    (s.recvStore.lookup d).filter fun it => ¬ Idle now it.lastTime
  store : ∀ d, s'.store.lookup d = (s.store.lookup d).filter fun time => ¬ Idle now time
  recvGet : ∀ d, s'.recvGet.lookup d = (s.recvGet.lookup d).filter fun it => ¬ Idle now it.time
  queries : ∀ n r, s.queries.query.lookup n = some r →
    Swept now (descs n) s.queries s'.queries n r
  started : ∀ n r, s'.queries.query.lookup n = some r →
    s.queries.query.lookup n = some r ∨ s.queries.size ≤ r
  closed : s'.closed = s.closed ++ idleDescs now RecvStoreEntry.lastTime s.recvStore ++
    idleDescs now id s.store ++ idleDescs now RecvGetEntry.time s.recvGet ++
    silentDescs now s.queries (Cursor.inOrder s.queries.query)

/-- The walk over `m_query` from its beginning. -/
theorem sweepQueries_ends {s : Queries} (h : Named s) (now : Int) (react : Nat → Reaction)
    (descs : BitVec 32 → Int) : WalkEnds now descs s [] (Cursor.inOrder s.query) []
      (s.sweepQueries now react descs) := by
  have hwalk : Walk now descs s s [] (Cursor.inOrder s.query) (Cursor.start s.query) := by
    constructor
    case frame => exact Frame.refl _ h
    case swept =>
      intro n hn
      cases hn
    case ahead => exact Cursor.Ahead.start s.query
    case behind =>
      intro n hn
      cases hn
    case keys => rfl
  refine sweepQueriesLoop_ends h react _ hwalk ?_
  cases hc : Cursor.start s.query with
  | none => exact Nat.succ_pos _
  | some k =>
    show 2 ^ 32 - k.toNat < 2 ^ 32 + 1
    omega

/-- The four walks one after the other. -/
theorem sweepRdp_eq {s : RdpTables} {now : Int} {react : Nat → Reaction}
    {descs : BitVec 32 → Int} {queries : Queries} {closed : List Int}
    (hq : s.queries.sweepQueries now react descs = .ok (queries, closed)) :
    s.sweepRdp now react descs = .ok
      { recvStore := (sweepIdle now RecvStoreEntry.lastTime s.recvStore).1
        store := (sweepIdle now id s.store).1
        recvGet := (sweepIdle now RecvGetEntry.time s.recvGet).1
        queries := queries
        closed := s.closed ++ (sweepIdle now RecvStoreEntry.lastTime s.recvStore).2 ++
          (sweepIdle now id s.store).2 ++ (sweepIdle now RecvGetEntry.time s.recvGet).2 ++
          closed } := by
  have hsame : (((s.sweepRecvStore now).sweepStore now).sweepRecvGet now).queries = s.queries := rfl
  unfold RdpTables.sweepRdp
  dsimp only
  rw [hsame, hq]
  rfl

/-- A sweep is exact unless a silent query stops it. -/
theorem sweptExactly_iff (s : RdpTables) (h : Named s.queries) (now : Int)
    (react : Nat → Reaction) (descs : BitVec 32 → Int) :
    (∃ s', s.sweepRdp now react descs = .ok s' ∧ SweptExactly now descs s s') ↔
      ∀ n r, s.queries.query.lookup n = some r → ¬ Stops now (s.queries.obj r) := by
  have hends := sweepQueries_ends h now react descs
  have hall : ∀ n r, s.queries.query.lookup n = some r →
      n ∈ Cursor.inOrder s.queries.query := fun n r hr =>
    Cursor.mem_inOrder.mpr (mem_query_iff.mpr ⟨r, hr⟩)
  constructor
  · rintro ⟨s', hs', -⟩ n r hr hstops
    obtain ⟨⟨queries, closed⟩, hq, -⟩ := bind_eq_ok hs'
    rcases hends with ⟨-, e, he⟩ | ⟨hgood, -⟩
    · -- The walk did not stop the program, since the sweep came to its end.
      exact nomatch he.symm.trans hq
    · exact hgood n (hall n r hr) r hr hstops
  · intro hgood
    rcases hends with ⟨⟨n, -, r, hr, hstops⟩, -⟩ | ⟨-, queries, hq, hwalk⟩
    · exact absurd hstops (hgood n r hr)
    · rw [List.nil_append] at hwalk
      refine ⟨_, sweepRdp_eq hq, ?_⟩
      constructor
      case recvStore => exact fun d => sweepIdle_lookup s.recvStore d
      case store => exact fun d => sweepIdle_lookup s.store d
      case recvGet => exact fun d => sweepIdle_lookup s.recvGet d
      case queries => exact fun n r hr => hwalk.swept n (hall n r hr) r hr
      case started =>
        intro n r hr
        exact (hwalk.frame.came n r hr).imp_right fun h => h.1
      case closed =>
        dsimp only
        rw [sweepIdle_closed, sweepIdle_closed, sweepIdle_closed, List.nil_append]

/-- Node 1 looks for a value and asks node 2, which has some. -/
def hintedGet : List Queries.Input :=
  [.findNv noQuery 5 (some ⟨[1], by decide⟩) [⟨2, .inet 1 1⟩] 7,
    .findValueReply 0 ⟨2, 1, 7, 5, 0, 0, dataAreNul, []⟩ ⟨.inet 1 1, fun _ => false⟩ 1]

/-- The tables of a node that has nothing but queries. -/
def onlyQueries (queries : Queries) : RdpTables := ⟨∅, ∅, ∅, queries, []⟩

/-- Node 3 has some too. -/
def hintedTwice : List Queries.Input :=
  [.findNv noQuery 5 (some ⟨[1], by decide⟩) [⟨2, .inet 1 1⟩, ⟨3, .inet 1 2⟩] 7,
    .findValueReply 0 ⟨2, 1, 7, 5, 0, 0, dataAreNul, []⟩ ⟨.inet 1 1, fun _ => false⟩ 1,
    .findValueReply 0 ⟨3, 1, 7, 5, 0, 0, dataAreNul, []⟩ ⟨.inet 1 2, fun _ => false⟩ 1]

/-- The sweep connects to node 3. -/
theorem sweptExactly_iff_hintedTwice :
    ∃ s, run Queries.step (Queries.init 1 true noQuery) hintedTwice = .ok s ∧
      ∃ s', (onlyQueries s).sweepRdp 31 (fun _ => .done) (fun _ => 2) = .ok s' ∧
        SweptExactly 31 (fun _ => 2) (onlyQueries s) s' := by
  have hrun : (do
      let s ← run Queries.step (Queries.init 1 true noQuery) hintedTwice
      return (s.query.entries, (s.obj 0).ids, (s.obj 0).isFindValue)) =
        (.ok ([⟨7, 0⟩], [3], true) :
          Except QueryFault (List (Sigma fun _ : BitVec 32 => Nat) × List Id × Bool)) := by
    decide +kernel
  obtain ⟨s, hs, hend⟩ := bind_eq_ok hrun
  obtain ⟨hentries, hrest⟩ := Prod.mk.inj (Except.ok.inj hend)
  obtain ⟨hids, hfind⟩ := Prod.mk.inj hrest
  have hnamed : Named s := by
    refine run_inv Named (fun s i s' h hstep => ?_) ?_ hs
    · exact (named_step (J := fun _ => True) (fun _ _ _ _ _ => trivial)
        (fun _ _ _ _ _ _ _ => trivial) (fun _ _ _ _ => trivial) h trivial hstep).1
    · intro n r h
      cases h
  refine ⟨s, hs, (sweptExactly_iff (onlyQueries s) hnamed 31 (fun _ => .done) (fun _ => 2)).mpr ?_⟩
  rintro n r hr ⟨-, hstops⟩
  have hmem : (⟨n, r⟩ : Sigma fun _ : BitVec 32 => Nat) ∈ s.query.entries :=
    AList.mem_lookup_iff.mp hr
  rw [hentries, List.mem_singleton] at hmem
  obtain rfl : r = 0 := congrArg Sigma.snd hmem
  rcases hstops with ⟨-, hnode⟩ | ⟨-, hnil, -⟩
  · exact nomatch hfind.symm.trans hnode
  · exact nomatch hids.symm.trans hnil

/-- The connection is never opened. After 31 seconds nobody is left to ask, and the query is
taken out under the iterator. -/
theorem hintedGet_not_swept :
    ∃ s, run Queries.step (Queries.init 1 true noQuery) hintedGet = .ok s ∧
      ¬ ∃ s', (onlyQueries s).sweepRdp 31 (fun _ => .done) (fun _ => 2) = .ok s' ∧
        SweptExactly 31 (fun _ => 2) (onlyQueries s) s' := by
  have hrun : (do
      let s ← run Queries.step (Queries.init 1 true noQuery) hintedGet
      return ((onlyQueries s).sweepRdp 31 (fun _ => .done) (fun _ => 2)).isOk) =
        (.ok false : Except QueryFault Bool) := by
    decide +kernel
  obtain ⟨s, hs, hend⟩ := bind_eq_ok hrun
  refine ⟨s, hs, ?_⟩
  rintro ⟨s', hs', -⟩
  have hfault := Except.ok.inj hend
  rw [hs'] at hfault
  cases hfault

end Libcage.Proofs.Dht
