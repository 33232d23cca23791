import Libcage.Proofs.Dht.QuerySteps

/-!
# `Libcage.Proofs.Dht.Callbacks`: one callback for a query

The callback function of a query is called at most once, with what it takes, and a query is
in `m_query` until then. Replies are matched by nonce and id. The kind of the query is looked
at only where the timer of the sender runs, so that a query for nodes can be given a reply
for values by anyone else. `callbackOnce_iff` names the events where that is the end of it.

* `callbackOnce_iff`: a run is good where it has none of these events, and no sweep that
  erases the entry it stands on.
* `callback_not_once`: a query for nodes opens a connection.
-/

set_option autoImplicit false

namespace Libcage.Proofs.Dht

open Libcage.Lib
open Libcage.Dht
open Libcage.Rdp (Id Table)

/-- The kind of query that a callback function belongs to. -/
def IsKind (isFindValue : Bool) : Called → Prop
  | .nodes _ => isFindValue = false
  | .value _ _ => isFindValue = true

/-- No query has been called back twice or with what is not for it. A query that has been made
is in `m_query` as long as it has not been called back, and only queries for values have
opened connections. -/
structure CallbackOnce (s : Queries) : Prop where
  once : (s.called.map Prod.fst).Nodup
  kind : ∀ p ∈ s.called, IsKind (s.obj p.1).isFindValue p.2
  query : ∀ r, r < s.size →
    (s.query.lookup (s.obj r).nonce = some r ↔ r ∉ s.called.map Prod.fst)
  connects : ∀ c ∈ s.connects, (s.obj c.query).isFindValue = true

section
variable {s : Queries}

theorem CalledOk.isKind {q : Query} {c : Called} (h : CalledOk q c) : IsKind q.isFindValue c := by
  cases c with
  | nodes nodes => exact h
  | value result vset =>
    cases result with
    | false => exact h.1
    | true => exact h.1

theorem Wired.callbackOnce (h : Wired s) : CallbackOnce s :=
  ⟨h.nodup, fun p hp => (h.called p hp).2.isKind, h.once, fun c hc => (h.connects c hc).2⟩

/-- The query for nodes is the owner of the connection that is opened. -/
theorem opens_step (h : Wired s) {i : Queries.Input} (hopens : Opens s i) {s' : Queries}
    (hs : s.step i = .ok s') : ¬ CallbackOnce s' := by
  cases i with
  | findValueReply now reply sender desc =>
    obtain ⟨r, htakes, hnode, hflag, huse⟩ := hopens
    have hlive := h.live_of_lookup htakes.query
    have hcon : ¬ (s.obj r).isRdpCon = true := by
      intro hcon
      have hfind := ((h.query r hlive).rdp hcon).2
      rw [hnode] at hfind
      cases hfind
    have hreply := recvFindValueReply_of_takes htakes now sender desc
    rw [stopTimer_of_node htakes hnode, setQuery_obj] at hreply
    unfold Queries.recvData at hreply
    dsimp only at hreply
    rw [if_pos ⟨hflag, huse⟩, if_neg hcon] at hreply
    rw [← Except.ok.inj (hreply.symm.trans hs)]
    intro hgood
    have hfind := hgood.connects ⟨r, 0, reply.src, rdpGetPort⟩
      (List.mem_append_right _ (List.mem_singleton_self _))
    simp [Queries.connect, Queries.setQuery, hnode] at hfind
  | _ => cases hopens

end

/-- One callback for each query, of the right kind, in every state of a run. This holds where
no query for nodes takes a reply for values that opens a connection for it or gives it the
last value it waits for, no value timer of a query for nodes is over, and no sweep takes a
query out of `m_query` while it stands on its entry. -/
theorem callbackOnce_iff (id : Id) (isUseRdp : Bool) (uninit : Query) (is : List Queries.Input) :
    Always Queries.step CallbackOnce (Queries.init id isUseRdp uninit) is ↔
      Allowed Queries.step (fun s i => ¬ Opens s i ∧ ¬ Crashes s i)
        (Queries.init id isUseRdp uninit) is := by
  apply always_iff_allowed Wired (fun s h => h.callbackOnce)
  · intro s i h hok
    have hends := wired_step h i hok.1
    cases hstep : s.step i with
    | ok s' => exact ⟨s', rfl, hends.of_ok hstep⟩
    | error e => exact absurd (hends.of_error hstep) hok.2
  · intro s i s' h hbad hstep
    by_cases hopens : Opens s i
    · exact opens_step h hopens hstep
    · -- The other events that are not allowed have no next state.
      have hcrash : Crashes s i := by
        by_contra hcrash
        exact hbad ⟨hopens, hcrash⟩
      obtain ⟨e, he⟩ := crash_step h hcrash
      rw [he] at hstep
      cases hstep
  · exact wired_init id isUseRdp uninit

/-! ### A query for nodes that opens a connection -/

/-- What a new query holds in its fields before they are set. -/
def noQuery : Query where
  nodes := []
  timers := ∅
  sent := ∅
  dst := 0
  nonce := 0
  numQuery := 0
  isFindValue := false
  key := none
  keylen := 0
  valinfo := ∅
  get := ⟨.queryHdr, 0, [], ∅⟩
  ids := []
  isRdpCon := false
  rdpDesc := 0
  rdpTime := 0
  timerRecvd := false
  isTimerRecvdStarted := false

/-- Node 1 looks for the nodes close to 5 and asks node 2. Node 3, which has not been asked,
says that it has values. -/
def nulToFindNode : List Queries.Input :=
  [.findNv noQuery 5 none [⟨2, .inet 1 1⟩] 7,
    .findValueReply 0 ⟨3, 1, 7, 5, 0, 0, dataAreNul, []⟩ ⟨.inet 1 1, fun _ => false⟩ 1]

/-- The query for nodes has started an RDP transfer. -/
theorem callback_not_once :
    ¬ ∀ (id : Id) (isUseRdp : Bool) (uninit : Query) (is : List Queries.Input),
      Always Queries.step CallbackOnce (Queries.init id isUseRdp uninit) is := by
  intro h
  obtain ⟨s, hrun, hgood⟩ := (h 1 true noQuery nulToFindNode).ends
  have hconnects : (do
      let s ← run Queries.step (Queries.init 1 true noQuery) nulToFindNode
      return (s.connects, (s.obj 0).isFindValue)) =
        (.ok ([⟨0, 0, 3, rdpGetPort⟩], false) : Except QueryFault (List Connect × Bool)) := by
    decide +kernel
  rw [hrun, ok_bind] at hconnects
  obtain ⟨hconnects, hnode⟩ := Prod.mk.inj (Except.ok.inj hconnects)
  have hfind :=
    hgood.connects ⟨0, 0, 3, rdpGetPort⟩ (by rw [hconnects]; exact List.mem_singleton_self _)
  rw [hnode] at hfind
  cases hfind

end Libcage.Proofs.Dht
