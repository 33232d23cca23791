import Libcage.Proofs.Dht.Callbacks

/-!
# `Libcage.Proofs.Dht.Reports`: the values that a query reports

Without RDP, a query for values puts what it receives into its set of values and waits for
the rest. `recvd_value` reports the set. `send_find` reports a failure when nobody is left to
ask, and does not look at the set (`GivesUp`).

* `reports_iff`: every value that has been received is reported, in the runs where no query
  with values gives up.
* `value_not_reported`: a value is received and a failure reported.
-/

set_option autoImplicit false

namespace Libcage.Proofs.Dht

open Libcage.Lib
open Libcage.Dht
open Libcage.Rdp (Id Table)

/-- What the callback function of a query says about the values that were received. -/
def ReportOk (q : Query) : Called → Prop
  | .nodes _ => True
  | .value false _ => q.get.vset = ∅
  | .value true vset => ∃ vs, vset = some vs ∧ vs ≠ ∅ ∧ q.get.vset ⊆ vs

/-- Every callback was told of the values there are. -/
def Reports (s : Queries) : Prop := ∀ p ∈ s.called, ReportOk (s.obj p.1) p.2

/-- A query for values has some, and nobody is left to ask. -/
def GivesUp (q : Query) : Prop := q.isFindValue = true ∧ q.get.vset ≠ ∅ ∧ Exhausted q

/-- The event leaves a query for values that has some with nobody to ask. -/
def Fails (s : Queries) : Queries.Input → Prop
  | .timerQuery r id => r < s.size ∧ id ∈ (s.obj r).timers ∧ GivesUp ((s.obj r).timedOut id)
  | .findValueReply _ reply sender _ => ∃ r, Takes s reply r ∧ reply.flag = dataAreNodes ∧
      4 ≤ reply.data.length ∧
      ∃ nodes, readNodes sender (rd16 reply.data 0) (byteAt reply.data 2) (reply.data.drop 4) =
        some nodes ∧ GivesUp ((Queries.stopTimer (s.obj r) reply.src).merge nodes)
  | _ => False

section
variable {s s' : Queries} {r : Nat} {q : Query}

/-- A query that has not been called back changes. -/
theorem Reports.setQuery (h : Reports s) (hcalled : r ∉ s.called.map Prod.fst) (q : Query) :
    Reports (s.setQuery r q) := by
  intro p hp
  have hr : p.1 ≠ r := fun heq => hcalled (heq ▸ List.mem_map_of_mem hp)
  rw [setQuery_other q hr]
  exact h p hp

/-- A query is called back and taken out. -/
theorem reports_finish (h : Reports s) (c : Called) :
    Reports ((s.call r c).removeQuery r) ↔ ReportOk (s.obj r) c := by
  -- The removal stops the timers and leaves what a report is about.
  have hobj : ∀ r', (((s.call r c).removeQuery r).obj r').get = (s.obj r').get := by
    intro r'
    by_cases hr : r' = r
    · subst hr
      simp [Queries.removeQuery, Queries.call, Queries.setQuery]
    · simp [Queries.removeQuery, Queries.call, Queries.setQuery, hr]
  have hreport : ∀ r' c', ReportOk (((s.call r c).removeQuery r).obj r') c' ↔
      ReportOk (s.obj r') c' := by
    intro r' c'
    cases c' with
    | nodes nodes => exact Iff.rfl
    | value result vset =>
      cases result with
      | false => simp only [ReportOk, hobj]
      | true => simp only [ReportOk, hobj]
  constructor
  · intro hs
    have hlast := hs (r, c) (List.mem_append_right _ (List.mem_singleton_self _))
    exact (hreport r c).mp hlast
  · intro hc p hp
    rw [hreport]
    rcases List.mem_append.mp hp with hp | hp
    · exact h p hp
    · rw [List.mem_singleton.mp hp]
      exact hc

/-- `send_find` tells the truth unless it gives up. -/
theorem reports_sendFind (hwired : Wired s) (hlive : Live s r)
    (hcon : (s.obj r).isRdpCon = false) (h : Reports s) :
    Reports (s.sendFind r) ↔ ¬ GivesUp (s.obj r) := by
  have hcount := Int.le_trans (Int.natCast_nonneg _) (hwired.query r hlive).count
  have hloop := sendFindLoop_zero (s.obj r).nodes (s.obj r) hcount
  have hsame := sendFindLoop_same (s.obj r).nodes (s.obj r)
  have hset := h.setQuery (hwired.not_called hlive)
    (Queries.sendFindLoop (s.obj r).nodes (s.obj r))
  rcases sendFind_cases s r with ⟨-, -, -, hwait⟩ | ⟨q, rfl, -, ⟨hzero, hs⟩ | ⟨hzero, hs⟩⟩
  · rw [hcon] at hwait
    cases hwait
  · -- Somebody is asked.
    have hno : ¬ GivesUp (s.obj r) := fun hup => hzero (hloop.mpr hup.2.2)
    rw [hs]
    exact ⟨fun _ => hno, fun _ => hset⟩
  · have hexhausted : Exhausted (s.obj r) := hloop.mp hzero
    rw [hs, reports_finish hset, setQuery_self]
    unfold Queries.failed
    rw [hsame.isFindValue]
    cases hkind : (s.obj r).isFindValue with
    | false => simp [ReportOk, GivesUp, hkind]
    | true => simp [ReportOk, GivesUp, hkind, hexhausted, hsame.get]

theorem Reports.recvdValue (h : Reports s) (hvset : (s.obj r).get.vset ≠ ∅)
    (hs : s.recvdValue r = .ok s') : Reports s' := by
  unfold Queries.recvdValue at hs
  dsimp only at hs
  split at hs
  · rw [← Except.ok.inj hs]
    exact (reports_finish h _).mpr ⟨_, rfl, hvset, Finset.Subset.refl _⟩
  · cases hs

/-- A query in `m_query` changes, and asks on. -/
theorem reports_ask (hwired : Wired s) (huse : s.isUseRdp = false) (hlive : Live s r)
    (h : Reports s) (hsame : SameButAsked (s.obj r) q)
    (hcount : (q.timers.card : Int) ≤ q.numQuery) :
    Reports ((s.setQuery r q).sendFind r) ↔ ¬ GivesUp q := by
  obtain ⟨hset, hlive'⟩ := hwired.ask hlive hsame hcount
  have hask := reports_sendFind hset hlive' (hset.isRdpCon_false huse hlive')
    (h.setQuery (hwired.not_called hlive) q)
  rw [setQuery_self] at hask
  exact hask

/-- A new query has no values. -/
theorem reports_findNv (hwired : Wired s) (huse : s.isUseRdp = false) (h : Reports s)
    (uninit : Query) (dst : Id) (key : Option Buf) (nodes : List Cageaddr) {nonce : BitVec 32}
    (hfresh : s.query.lookup nonce = none) : Reports (s.findNv uninit dst key nodes nonce) := by
  have hset : ∀ q, Reports (s.setQuery s.size q) := by
    intro q p hp
    rw [setQuery_other q (Nat.ne_of_lt (hwired.called p hp).1)]
    exact h p hp
  rcases findNv_cases s uninit dst key nodes nonce with ⟨q, rfl, hs⟩ | ⟨q, hnew, hs⟩
  · rw [hs]
    intro p hp
    rcases List.mem_append.mp hp with hp | hp
    · exact hset _ p hp
    · -- It is called back at once.
      rw [List.mem_singleton.mp hp]
      cases key with
      | none => trivial
      | some key =>
        simp [Queries.failed, Queries.newQuery, ReportOk, Queries.setQuery, Queries.call]
  · obtain ⟨hwired', hlive⟩ := hwired.enter (q := q) (hnew.nonce.symm ▸ hfresh) hnew.ok
    have hself : (s.enter q).obj s.size = q := setQuery_self ..
    rw [hs]
    refine (reports_sendFind hwired' hlive (hwired'.isRdpCon_false huse hlive) (hset q)).mpr ?_
    rw [hself]
    rintro ⟨-, hvset, -⟩
    exact hvset hnew.vset

theorem reports_findNode (hwired : Wired s) (h : Reports s) (uninit : Query) (nonce : BitVec 32) :
    Reports (s.findNode uninit nonce) := by
  intro p hp
  have hobj : (s.findNode uninit nonce).obj p.1 = s.obj p.1 :=
    setQuery_other _ (Nat.ne_of_lt (hwired.called p hp).1)
  rw [hobj]
  exact h p hp

theorem reports_recvFindNodeReply (hwired : Wired s) (huse : s.isUseRdp = false) (h : Reports s)
    (reply : FindNodeReply) (sender : Sender) : Reports (s.recvFindNodeReply reply sender) := by
  rcases recvFindNodeReply_cases s reply sender with hs | ⟨r, id, hreply, ⟨-, hs⟩ | ⟨nodes, -, hs⟩⟩
  · rw [hs]
    exact h
  · rw [hs]
    exact h.setQuery (hwired.not_called (hwired.live_of_lookup hreply.query)) _
  · have hlive := hwired.live_of_lookup hreply.query
    have hsame := (heard_same (s.obj r) id reply.src).trans (merge_same _ nodes)
    rw [hs]
    refine (reports_ask hwired huse hlive h hsame
      (card_erase_le hreply.timer (hwired.query r hlive).count)).mpr ?_
    -- A query for nodes reports no values.
    rintro ⟨hfind, -⟩
    rw [hsame.isFindValue, hreply.isFindValue] at hfind
    cases hfind

/-- The data of a reply: only nodes make a query give up. -/
theorem reports_recvData (hwired : Wired s) (huse : s.isUseRdp = false) (hlive : Live s r)
    (h : Reports s) {now : Int} {reply : FindValueReply} {sender : Sender} {desc : Int}
    (hs : s.recvData now r reply sender desc = .ok s') :
    Reports s' ↔ ¬ (reply.flag = dataAreNodes ∧ 4 ≤ reply.data.length ∧
      ∃ nodes, readNodes sender (rd16 reply.data 0) (byteAt reply.data 2) (reply.data.drop 4) =
        some nodes ∧ GivesUp ((s.obj r).merge nodes)) := by
  have hvaluesNot : reply.flag = dataAreValues → ¬ reply.flag = dataAreNodes := by
    intro hvalues
    rw [hvalues]
    decide
  cases readsData_of_recvData hs with
  | ignored hnot =>
    refine ⟨fun _ => ?_, fun _ => h⟩
    rintro ⟨hflag, hlong, nodes, hnodes, -⟩
    exact hnot (Or.inr (Or.inr ⟨hflag, hlong, by rw [hnodes]; rfl⟩))
  | candidate hcon =>
    -- Without RDP no query has a connection.
    have hrdp := ((hwired.query r hlive).rdp hcon).1
    exact nomatch huse.symm.trans hrdp
  | connects hrdp => exact nomatch huse.symm.trans hrdp
  | values hvalues hadd hs =>
    refine ⟨fun _ hbad => hvaluesNot hvalues.1 hbad.1, fun _ => ?_⟩
    refine (h.setQuery (hwired.not_called hlive) _).recvdValue ?_ hs
    rw [setQuery_self, (addValue_added hadd).vset]
    exact Finset.insert_ne_empty _ _
  | value hvalues hadd =>
    exact ⟨fun _ hbad => hvaluesNot hvalues.1 hbad.1,
      fun _ => h.setQuery (hwired.not_called hlive) _⟩
  | @nodes nodes hflag hlong hnodes =>
    rw [reports_ask hwired huse hlive h (merge_same (s.obj r) nodes) (hwired.query r hlive).count]
    simp only [hflag, hlong, hnodes, true_and, Option.some.injEq, exists_eq_left']

theorem reports_recvFindValueReply (hwired : Wired s) (huse : s.isUseRdp = false)
    (h : Reports s) {now : Int} {reply : FindValueReply} {sender : Sender} {desc : Int}
    (hs : s.recvFindValueReply now reply sender desc = .ok s') :
    Reports s' ↔ ¬ Fails s (.findValueReply now reply sender desc) := by
  rcases recvFindValueReply_cases s now reply sender desc with hsame | ⟨r, htakes, hreply⟩
  · obtain rfl := Except.ok.inj (hsame.symm.trans hs)
    refine ⟨fun _ hfails => ?_, fun _ => h⟩
    -- A reply that gives up changes the query.
    obtain ⟨r, htakes, hbad⟩ := hfails
    have hlive := hwired.live_of_lookup htakes.query
    have hstop := stopTimer_same (s.obj r) reply.src
    obtain ⟨hset, hlive'⟩ := hwired.ask hlive hstop
      (stopTimer_count reply.src (hwired.query r hlive).count)
    have hreply := recvFindValueReply_of_takes htakes now sender desc
    have hdata := reports_recvData hset huse hlive'
      (h.setQuery (hwired.not_called hlive) _) (hreply.symm.trans hs)
    rw [setQuery_self] at hdata
    exact hdata.mp h hbad
  · have hlive := hwired.live_of_lookup htakes.query
    have hstop := stopTimer_same (s.obj r) reply.src
    obtain ⟨hset, hlive'⟩ := hwired.ask hlive hstop
      (stopTimer_count reply.src (hwired.query r hlive).count)
    have hdata := reports_recvData hset huse hlive'
      (h.setQuery (hwired.not_called hlive) _) (hreply.symm.trans hs)
    rw [setQuery_self] at hdata
    rw [hdata, not_iff_not]
    constructor
    · intro hbad
      exact ⟨r, htakes, hbad⟩
    · rintro ⟨r', htakes', hbad⟩
      obtain rfl := Option.some.inj (htakes'.query.symm.trans htakes.query)
      exact hbad

/-- Nothing comes from connections where there are none. -/
theorem Wired.conns_none (hwired : Wired s) (huse : s.isUseRdp = false) (desc : Int) :
    s.conns.lookup desc = none := by
  cases hconn : s.conns.lookup desc with
  | none => rfl
  | some con =>
    obtain ⟨hlive, hcon, -⟩ := hwired.conns desc con hconn
    rw [hwired.isRdpCon_false huse hlive] at hcon
    cases hcon

theorem Wired.sweepRdp_idle (hwired : Wired s) (huse : s.isUseRdp = false) (now : Int)
    (desc : BitVec 32 → Int) : s.sweepRdp now desc = .ok s := by
  have hends := sweepRdp_ends (J := fun s' => s' = s) (F := fun _ => False)
    (B := fun _ => False) now desc ?_ hwired.live rfl fun _ _ hfalse => hfalse
  · cases hs : s.sweepRdp now desc with
    | ok s' =>
      have hsame := hends.of_ok hs
      rw [hsame]
    | error e => exact (hends.of_error hs).elim
  · rintro _ n r - rfl hr -
    have hcon := hwired.isRdpCon_false huse (hwired.live_of_lookup hr)
    unfold Queries.sweepOne
    rw [hr]
    dsimp only
    rw [if_neg fun hsilent => absurd (hcon.symm.trans hsilent.1) (by simp)]
    exact Ends.ok rfl

/-- After one event the reports are right, unless the event makes a query with values fail. -/
theorem reports_step (hwired : Wired s) (huse : s.isUseRdp = false) (h : Reports s)
    {i : Queries.Input} (hs : s.step i = .ok s') : Reports s' ↔ ¬ Fails s i := by
  cases i with
  | findNv uninit dst key nodes nonce =>
    refine ⟨fun _ => id, fun _ => ?_⟩
    simp only [Queries.step] at hs
    split at hs
    · rename_i hfresh
      rw [← Except.ok.inj hs]
      exact reports_findNv hwired huse h uninit dst key nodes hfresh
    · rw [← Except.ok.inj hs]
      exact h
  | findNode uninit nonce =>
    refine ⟨fun _ => id, fun _ => ?_⟩
    simp only [Queries.step] at hs
    split at hs
    · rw [← Except.ok.inj hs]
      exact reports_findNode hwired h uninit nonce
    · rw [← Except.ok.inj hs]
      exact h
  | timerQuery r id =>
    by_cases hid : r < s.size ∧ id ∈ (s.obj r).timers
    · have hlive := hwired.live_of_timer hid.1 hid.2
      have hask := reports_ask hwired huse hlive h (timedOut_same (s.obj r) id)
        (card_erase_le hid.2 (hwired.query r hlive).count)
      rw [← Except.ok.inj ((step_timerQuery hwired hid.1 hid.2).symm.trans hs), hask]
      simp only [Fails, hid, true_and]
    · simp only [Queries.step, if_neg hid] at hs
      rw [← Except.ok.inj hs]
      exact ⟨fun _ hfails => hid ⟨hfails.1, hfails.2.1⟩, fun _ => h⟩
  | findNodeReply reply sender =>
    rw [← Except.ok.inj hs]
    exact ⟨fun _ => id, fun _ => reports_recvFindNodeReply hwired huse h reply sender⟩
  | findValueReply now reply sender desc => exact reports_recvFindValueReply hwired huse h hs
  | timerRecvd r =>
    refine ⟨fun _ => id, fun _ => ?_⟩
    simp only [Queries.step] at hs
    split at hs
    · rename_i htimer
      -- The timers of a query that is gone are stopped.
      have hlive : Live s r := by
        by_contra hdead
        rw [(hwired.stopped r htimer.1 hdead).2] at htimer
        cases htimer.2
      refine (h.setQuery (hwired.not_called hlive) _).recvdValue ?_ hs
      rw [setQuery_self]
      exact ((hwired.query r hlive).timerRecvd htimer.2).2
    · rw [← Except.ok.inj hs]
      exact h
  | connected now desc =>
    simp only [Queries.step, hwired.conns_none huse] at hs
    rw [← Except.ok.inj hs]
    exact ⟨fun _ => id, fun _ => h⟩
  | ready2Read now desc packets desc' =>
    simp only [Queries.step, hwired.conns_none huse] at hs
    rw [← Except.ok.inj hs]
    exact ⟨fun _ => id, fun _ => h⟩
  | disconnected now desc desc' =>
    simp only [Queries.step, hwired.conns_none huse] at hs
    rw [← Except.ok.inj hs]
    exact ⟨fun _ => id, fun _ => h⟩
  | sweepRdp now desc =>
    have hidle := hwired.sweepRdp_idle huse now desc
    rw [← Except.ok.inj (hidle.symm.trans hs)]
    exact ⟨fun _ => id, fun _ => h⟩

theorem recvData_nodes {reply : FindValueReply} {sender : Sender} {nodes : List Cageaddr}
    (now desc : Int) (hflag : reply.flag = dataAreNodes) (hlong : 4 ≤ reply.data.length)
    (hnodes : readNodes sender (rd16 reply.data 0) (byteAt reply.data 2) (reply.data.drop 4) =
      some nodes) :
    s.recvData now r reply sender desc =
      .ok ((s.setQuery r ((s.obj r).merge nodes)).sendFind r) := by
  have hnul : ¬ (reply.flag = dataAreNul ∧ s.isUseRdp = true) := by
    rw [hflag]
    exact fun h => absurd h.1 (by decide)
  have hvalues : ¬ (reply.flag = dataAreValues ∧ ¬ s.isUseRdp = true) := by
    rw [hflag]
    exact fun h => absurd h.1 (by decide)
  unfold Queries.recvData
  dsimp only
  rw [if_neg hnul, if_neg hvalues, if_pos hflag, if_neg (Nat.not_lt.mpr hlong), hnodes]

/-- An event that makes a query fail does not stop the program. -/
theorem fails_step (hwired : Wired s) {i : Queries.Input} (hfails : Fails s i) :
    ∃ s', s.step i = .ok s' := by
  cases i with
  | timerQuery r id => exact ⟨_, step_timerQuery hwired hfails.1 hfails.2.1⟩
  | findValueReply now reply sender desc =>
    obtain ⟨r, htakes, hflag, hlong, nodes, hnodes, -⟩ := hfails
    have hreply := recvFindValueReply_of_takes htakes now sender desc
    exact ⟨_, hreply.trans (recvData_nodes now desc hflag hlong hnodes)⟩
  | _ => cases hfails

end

/-- Without RDP, every callback is told of the values that its query has received, in the runs
where no query for values that has some is left with nobody to ask. -/
theorem reports_iff (id : Id) (uninit : Query) (is : List Queries.Input) :
    Throughout Queries.step Reports (Queries.init id false uninit) is ↔
      Allowed Queries.step (fun s i => ¬ Fails s i) (Queries.init id false uninit) is := by
  apply throughout_iff_allowed (fun s => Wired s ∧ s.isUseRdp = false)
  · rintro s i s' ⟨hwired, huse⟩ hs
    refine ⟨?_, (isUseRdp_step hwired.live hs).trans huse⟩
    refine (wired_step hwired i ?_).of_ok hs
    intro hopens
    cases i with
    | findValueReply now reply sender desc =>
      obtain ⟨-, -, -, -, hrdp⟩ := hopens
      rw [huse] at hrdp
      cases hrdp
    | _ => cases hopens
  · rintro s i s' ⟨hwired, huse⟩ h hs hno
    exact (reports_step hwired huse h hs).mpr hno
  · rintro s i ⟨hwired, huse⟩ h hfails
    obtain ⟨s', hs'⟩ := fails_step hwired (not_not.mp hfails)
    exact ⟨s', hs', fun hgood => hfails ((reports_step hwired huse h hs').mp hgood)⟩
  · exact ⟨wired_init id false uninit, rfl⟩
  · intro p hp
    cases hp

/-! ### A value that is not reported -/

/-- Node 1 looks for a value at nodes 2 and 3. Node 2 sends the first of two values, and the
timer of node 3 is over. -/
def valueThenTimeout : List Queries.Input :=
  [.findNv noQuery 5 (some (Buf.copy 1 [1])) [⟨2, .inet 1 1⟩, ⟨3, .inet 1 1⟩] 7,
    .findValueReply 0 ⟨2, 1, 7, 5, 1, 2, dataAreValues, [0, 1, 0, 1, 1, 9]⟩
      ⟨.inet 1 1, fun _ => false⟩ 0,
    .timerQuery 0 3]

/-- The callback is told that there is no value. -/
theorem value_not_reported :
    ¬ ∀ (id : Id) (uninit : Query) (is : List Queries.Input),
      Throughout Queries.step Reports (Queries.init id false uninit) is := by
  intro h
  -- The only callback, and the values of its query.
  have hcalled : (do
      let s ← run Queries.step (Queries.init 1 false noQuery) valueThenTimeout
      return (s.called.map fun p => match p.2 with
        | .value result _ => (p.1, result)
        | .nodes _ => (p.1, true), (s.obj 0).get.vset)) =
        (.ok ([(0, false)], {Buf.copy 1 [9]}) :
          Except QueryFault (List (Nat × Bool) × Finset Buf)) := by
    decide +kernel
  obtain ⟨s, hrun, hs⟩ := bind_eq_ok hcalled
  obtain ⟨hlist, hvset⟩ := Prod.mk.inj (Except.ok.inj hs)
  have hgood := (h 1 noQuery valueThenTimeout).of_run hrun
  obtain ⟨⟨r, c⟩, hmem, hc⟩ := List.mem_map.mp (hlist ▸ List.mem_singleton_self (0, false))
  have hreport := hgood (r, c) hmem
  cases c with
  | nodes nodes => cases hc
  | value result vset =>
    obtain ⟨rfl, rfl⟩ := Prod.mk.inj hc
    rw [ReportOk, hvset] at hreport
    exact absurd hreport (by decide)

end Libcage.Proofs.Dht
