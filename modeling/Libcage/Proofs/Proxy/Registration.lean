import Libcage.Proofs.Dtun.Queries
import Libcage.Proxy.Registration

/-!
# `Libcage.Proofs.Proxy.Registration`: a registration that does not end

`register_node` sets `m_is_registering`. The timer that takes it back is only set by
`register_func`, when the lookup of the own id has found another node. With the DTUN disabled
there is no lookup, and where it finds nobody else there is no timer. `neverWedged_iff` says
that the flag is left set exactly in these cases.
-/

set_option autoImplicit false

namespace Libcage.Proofs.Proxy

open Libcage.Lib
open Libcage.Proxy
open Libcage.Dtun (Queries Query Called)
open Libcage.Rdp (Id Table)
open Libcage.Dht (Cageaddr)

/-- The node is registering only while a lookup of `register_node` has not called back, or the
timer is set. -/
def NotWedged (s : Registration) : Prop :=
  s.isRegistering = true →
    (∃ n ∈ s.lookups, s.dtun.query.lookup n ≠ none) ∨ s.timerRegister = true

/-- Some node of a list is not the own one. -/
def HasOther (own : Id) (nodes : List Cageaddr) : Prop := ∃ addr ∈ nodes, addr.id ≠ own

/-- A registration starts with the DTUN enabled and another node in its table, and a lookup of
a registration that is going on ends with another node. Neither has to be so where another
lookup has not called back, or the timer is set from before. -/
def FindsOther (s : Registration) : Registration.Input → Prop
  | .registerNode nodes n _ _ => s.dtun.query.lookup n = none → s.isRegistering = false →
      (s.dtun.isEnabled = true ∧ HasOther s.id nodes) ∨ s.lookups.Nonempty ∨ s.timerRegister = true
  | .dtun input _ _ => ∀ dtun n nodes, s.dtun.step input = .ok dtun →
      dtun.called = s.dtun.called ++ [(n, .nodes nodes)] → n ∈ s.lookups → s.isRegistering = true →
      HasOther s.id nodes ∨ (s.lookups.erase n).Nonempty ∨ s.timerRegister = true
  | _ => True

/-! ### The queries of `dtun` -/

/-- A query that looks for nodes. -/
def IsFinding (s : Queries) (n : BitVec 32) : Prop :=
  ∃ q, s.query.lookup n = some q ∧ q.isFindValue = false

/-- The queries for nodes that were there are still there. -/
def KeepsQueries (s s' : Queries) : Prop :=
  s'.called = s.called ∧ ∀ m, IsFinding s m → IsFinding s' m

/-- One query ends with a call, and the others are still there. -/
def EndsQuery (s s' : Queries) : Prop :=
  ∃ n c, s'.called = s.called ++ [(n, c)] ∧ (IsFinding s n → ∃ nodes, c = .nodes nodes) ∧
    ∀ m, m ≠ n → IsFinding s m → IsFinding s' m

/-- What any event does to the queries. -/
structure Moves (s s' : Queries) : Prop where
  id : s'.id = s.id
  queries : KeepsQueries s s' ∨ EndsQuery s s'

section
variable {s : Queries} {n : BitVec 32} {q : Query}

theorem Moves.refl (s : Queries) : Moves s s := ⟨rfl, Or.inl ⟨rfl, fun _ h => h⟩⟩

theorem Moves.insert (h : IsFinding s n → q.isFindValue = false) :
    Moves s { s with query := s.query.insert n q } := by
  refine ⟨rfl, Or.inl ⟨rfl, fun m hm => ?_⟩⟩
  by_cases heq : m = n
  · subst heq
    exact ⟨q, AList.lookup_insert .., h hm⟩
  · obtain ⟨p, hp, hkind⟩ := hm
    exact ⟨p, (AList.lookup_insert_ne heq).trans hp, hkind⟩

theorem Moves.finish {c : Called} (h : IsFinding s n → ∃ nodes, c = .nodes nodes) :
    Moves s (s.finish n c) := by
  refine ⟨rfl, Or.inr ⟨n, c, rfl, h, fun m hm hlive => ?_⟩⟩
  obtain ⟨p, hp, hkind⟩ := hlive
  exact ⟨p, (AList.lookup_erase_ne hm).trans hp, hkind⟩

/-- `send_find` leaves the kind of a query. -/
theorem isFindValue_sendFindLoop (nodes : List Cageaddr) (q : Query) :
    (q.sendFindLoop nodes).isFindValue = q.isFindValue := by
  induction nodes generalizing q with
  | nil => rfl
  | cons addr nodes ih =>
    rw [Query.sendFindLoop]
    split
    · rfl
    · split
      · exact ih q
      · exact ih _

theorem failed_nodes (h : q.isFindValue = false) : ∃ nodes, q.failed = .nodes nodes := by
  rw [Query.failed, h]
  exact ⟨q.nodes, rfl⟩

theorem Moves.sendFind (h : IsFinding s n → q.isFindValue = false) :
    Moves s (s.sendFind n q) := by
  have hkind : IsFinding s n → (q.sendFindLoop q.nodes).isFindValue = false := by
    intro hn
    rw [isFindValue_sendFindLoop]
    exact h hn
  unfold Queries.sendFind
  dsimp only
  split
  · exact .finish fun hn => failed_nodes (hkind hn)
  · exact .insert hkind

/-- A nonce that is not in use is none of a query. -/
theorem not_isFinding (h : s.query.lookup n = none) : ¬ IsFinding s n := by
  rintro ⟨q, hq, -⟩
  rw [h] at hq
  cases hq

theorem Moves.findNv (h : s.query.lookup n = none) (dst : Id) (isFindValue : Bool)
    (nodes : List Cageaddr) : Moves s (s.findNv dst isFindValue nodes n) := by
  unfold Queries.findNv
  dsimp only
  split
  · exact ⟨rfl, Or.inr ⟨n, _, rfl, fun hn => absurd hn (not_isFinding h), fun m _ hm => hm⟩⟩
  · exact .sendFind fun hn => absurd hn (not_isFinding h)

/-- The kind of a query in `m_query`. -/
theorem IsFinding.kind (h : IsFinding s n) (hq : s.query.lookup n = some q) :
    q.isFindValue = false := by
  obtain ⟨p, hp, hkind⟩ := h
  rw [hq] at hp
  rwa [Option.some.inj hp]

theorem Moves.findNodeReply (s : Queries) (reply : Dht.FindNodeReply) (sender : Dht.Sender) :
    Moves s (s.recvFindNodeReply reply sender) := by
  unfold Queries.recvFindNodeReply
  split
  · exact .refl s
  · rename_i q hq
    have hkind : IsFinding s reply.nonce → q.isFindValue = false := fun hn => hn.kind hq
    split
    · exact .refl s
    · dsimp only
      generalize (if reply.src ∈ q.timers then reply.src else 0) = id
      split
      · exact .refl s
      · split
        · exact .insert hkind
        · exact .sendFind hkind

theorem Moves.findValueReply (s : Queries) (reply : Dtun.FindValueReply) (sender : Dht.Sender) :
    Moves s (s.recvFindValueReply reply sender) := by
  unfold Queries.recvFindValueReply
  split
  · exact .refl s
  · rename_i q hq
    split
    · exact .refl s
    · rename_i hours
      -- The query is one for a value.
      have hvalue : ¬ IsFinding s reply.nonce := by
        intro hn
        exact hours (Or.inr (Or.inr (by simp [hn.kind hq])))
      dsimp only
      split
      · exact .insert fun hn => absurd hn hvalue
      · split
        · split
          · exact .finish fun hn => absurd hn hvalue
          · exact .sendFind fun hn => absurd hn hvalue
        · exact .sendFind fun hn => absurd hn hvalue

/-- One event of `dtun`. -/
theorem Moves.step (s : Queries) (i : Queries.Input) : ∃ s', s.step i = .ok s' ∧ Moves s s' := by
  cases i with
  | findNv dst isFindValue nodes n =>
    rw [Queries.step]
    split
    · rename_i hnew
      exact ⟨_, rfl, .findNv hnew.2 dst isFindValue nodes⟩
    · exact ⟨s, rfl, .refl s⟩
  | findNode n =>
    rw [Queries.step]
    split
    · rename_i hnew
      exact ⟨_, rfl, .insert fun hn => absurd hn (not_isFinding hnew.2)⟩
    · exact ⟨s, rfl, .refl s⟩
  | timerQuery n id =>
    rw [Queries.step]
    split
    · exact ⟨s, rfl, .refl s⟩
    · rename_i q hq
      have hkind : IsFinding s n → q.isFindValue = false := fun hn => hn.kind hq
      split
      · exact ⟨_, rfl, .sendFind hkind⟩
      · exact ⟨s, rfl, .refl s⟩
  | findNodeReply reply sender => exact ⟨_, rfl, .findNodeReply s reply sender⟩
  | findValueReply reply sender => exact ⟨_, rfl, .findValueReply s reply sender⟩

/-- After an event without a call. -/
theorem Moves.live_of_same {s' : Queries} (h : Moves s s') (hsame : s'.called = s.called)
    {m : BitVec 32} (hm : IsFinding s m) : IsFinding s' m := by
  rcases h.queries with ⟨-, hlive⟩ | ⟨k, c, hcalled, -⟩
  · exact hlive m hm
  · rw [hsame] at hcalled
    simp at hcalled

/-- After an event with the call of the query `n`. -/
theorem Moves.live_of_called {s' : Queries} (h : Moves s s') {c : Called}
    (hcalled : s'.called = s.called ++ [(n, c)]) {m : BitVec 32} (hne : m ≠ n)
    (hm : IsFinding s m) : IsFinding s' m := by
  rcases h.queries with ⟨hsame, -⟩ | ⟨k, d, hother, -, hlive⟩
  · rw [hsame] at hcalled
    simp at hcalled
  · rw [hother] at hcalled
    have hk : k = n := congrArg Prod.fst (List.cons.inj (List.append_cancel_left hcalled)).1
    exact hlive m (hk ▸ hne) hm

/-- `send_find` has nobody to ask where all nodes have been asked. -/
theorem sendFindLoop_sent {nodes : List Cageaddr} (h : ∀ addr ∈ nodes, addr.id ∈ q.sent) :
    q.sendFindLoop nodes = q := by
  induction nodes with
  | nil => rfl
  | cons addr nodes ih =>
    rw [Query.sendFindLoop, if_pos (h addr (List.mem_cons_self ..))]
    split
    · rfl
    · exact ih fun a ha => h a (List.mem_cons_of_mem addr ha)

/-- `send_find` asks a node that has not been asked. -/
theorem sendFindLoop_asks {nodes : List Cageaddr} (hzero : q.numQuery = 0)
    (h : ∃ addr ∈ nodes, addr.id ∉ q.sent) : 0 < (q.sendFindLoop nodes).numQuery := by
  induction nodes with
  | nil =>
    obtain ⟨addr, hmem, -⟩ := h
    cases hmem
  | cons addr nodes ih =>
    rw [Query.sendFindLoop, if_neg (by rw [hzero]; decide)]
    split
    · rename_i hsent
      obtain ⟨a, ha, hnew⟩ := h
      rcases List.mem_cons.mp ha with rfl | ha
      · exact absurd hsent hnew
      · exact ih ⟨a, ha, hnew⟩
    · -- One node is asked, and the count does not go down again.
      have hmono : ∀ (nodes : List Cageaddr) (p : Query),
          p.numQuery ≤ (p.sendFindLoop nodes).numQuery := by
        intro nodes
        induction nodes with
        | nil => exact fun p => le_rfl
        | cons a nodes ih =>
          intro p
          rw [Query.sendFindLoop]
          split
          · exact le_rfl
          · split
            · exact ih p
            · exact le_trans (Int.le_add_one le_rfl) (ih _)
      exact lt_of_lt_of_le (by dsimp only; omega) (hmono nodes _)

/-- A lookup that starts without another node ends at once. -/
theorem findNv_alone (dst : Id) {nodes : List Cageaddr} (h : ¬ HasOther s.id nodes) :
    (s.findNv dst false nodes n).called = s.called ++ [(n, .nodes nodes)] := by
  have hsent : ∀ addr ∈ nodes, addr.id ∈ ({s.id} : Finset Id) := by
    intro addr ha
    by_contra hne
    exact h ⟨addr, ha, fun heq => hne (Finset.mem_singleton.mpr heq)⟩
  unfold Queries.findNv
  dsimp only
  split
  · rfl
  · unfold Queries.sendFind
    dsimp only
    rw [sendFindLoop_sent hsent]
    rfl

/-- A lookup that starts with another node goes on, or ends at once with it. -/
theorem findNv_other (dst : Id) {nodes : List Cageaddr} (h : HasOther s.id nodes) :
    (s.findNv dst false nodes n).called = s.called ++ [(n, .nodes nodes)] ∨
      (s.findNv dst false nodes n).called = s.called ∧
        IsFinding (s.findNv dst false nodes n) n := by
  unfold Queries.findNv
  dsimp only
  split
  · exact Or.inl rfl
  · right
    obtain ⟨addr, ha, hne⟩ := h
    have hpos := sendFindLoop_asks (q := ⟨nodes, ∅, {s.id}, dst, 0, false⟩) rfl
      ⟨addr, ha, fun hin => hne (Finset.mem_singleton.mp hin)⟩
    unfold Queries.sendFind
    dsimp only
    rw [if_neg (by omega)]
    exact ⟨rfl, _, AList.lookup_insert .., isFindValue_sendFindLoop _ _⟩

end

/-! ### The registration -/

/-- What holds of every run as long as the flag is not left set. -/
structure RegistrationInv (s : Registration) : Prop where
  id : s.dtun.id = s.id
  live : ∀ n ∈ s.lookups, IsFinding s.dtun n
  notWedged : s.isRegistering = true → s.lookups.Nonempty ∨ s.timerRegister = true

section
variable {s : Registration} {dtun : Queries} {rnd session n : BitVec 32} {nodes : List Cageaddr}

theorem RegistrationInv.safe (h : RegistrationInv s) : NotWedged s := by
  intro hreg
  rcases h.notWedged hreg with ⟨n, hn⟩ | htimer
  · obtain ⟨q, hq, -⟩ := h.live n hn
    exact Or.inl ⟨n, hn, by simp [hq]⟩
  · exact Or.inr htimer

theorem callBack_same (h : dtun.called = s.dtun.called) :
    s.callBack dtun rnd session = { s with dtun } := by
  rw [Registration.callBack, h, List.drop_length]
  rfl

theorem callBack_call {c : BitVec 32 × Called} (h : dtun.called = s.dtun.called ++ [c]) :
    s.callBack dtun rnd session = { s with dtun }.called rnd session c := by
  rw [Registration.callBack, h, List.drop_left]
  rfl

/-- `register_func` sets the timer where it is given another node. -/
theorem registerFunc_other (h : HasOther s.id nodes) :
    (s.registerFunc rnd session nodes).timerRegister = true := by
  obtain ⟨addr, ha, hne⟩ := h
  unfold Registration.registerFunc
  cases hfind : nodes.find? (·.id ≠ s.id) with
  | none => exact absurd (List.find?_eq_none.mp hfind addr ha) (by simpa using hne)
  | some a => rfl

theorem registerFunc_alone (h : ¬ HasOther s.id nodes) :
    s.registerFunc rnd session nodes = s := by
  unfold Registration.registerFunc
  cases hfind : nodes.find? (·.id ≠ s.id) with
  | none => rfl
  | some a =>
    have hne := List.find?_some hfind
    exact absurd ⟨a, List.mem_of_find?_eq_some hfind, by simpa using hne⟩ h

/-- `register_func` changes neither the lookups nor the flag, and does not stop the timer. -/
theorem registerFunc_keeps (s : Registration) (rnd session : BitVec 32) (nodes : List Cageaddr) :
    (s.registerFunc rnd session nodes).id = s.id ∧
      (s.registerFunc rnd session nodes).dtun = s.dtun ∧
      (s.registerFunc rnd session nodes).lookups = s.lookups ∧
      (s.registerFunc rnd session nodes).isRegistering = s.isRegistering ∧
      (s.timerRegister = true → (s.registerFunc rnd session nodes).timerRegister = true) := by
  unfold Registration.registerFunc
  split
  · exact ⟨rfl, rfl, rfl, rfl, fun h => h⟩
  · exact ⟨rfl, rfl, rfl, rfl, fun _ => rfl⟩

/-- A lookup that calls back is none any more. -/
theorem called_lookup (h : n ∈ s.lookups) :
    s.called rnd session (n, .nodes nodes) =
      { s with lookups := s.lookups.erase n }.registerFunc rnd session nodes := by
  rw [Registration.called, if_pos h]

/-- A call that is none of a lookup changes nothing. -/
theorem called_other {c : Called} (h : n ∉ s.lookups) : s.called rnd session (n, c) = s := by
  cases c with
  | nodes nodes => rw [Registration.called, if_neg h]
  | value result addrs => rfl

/-- The lookup `n` of a registration ends. -/
theorem inv_called_lookup (rnd session : BitVec 32) (hid : dtun.id = s.id)
    (hlive : ∀ m ∈ s.lookups, m ≠ n → IsFinding dtun m) (hn : n ∈ s.lookups)
    (hcalled : dtun.called = s.dtun.called ++ [(n, .nodes nodes)]) :
    (RegistrationInv (s.callBack dtun rnd session) ↔ (s.isRegistering = true →
      HasOther s.id nodes ∨ (s.lookups.erase n).Nonempty ∨ s.timerRegister = true)) ∧
    (NotWedged (s.callBack dtun rnd session) → s.isRegistering = true →
      HasOther s.id nodes ∨ (s.lookups.erase n).Nonempty ∨ s.timerRegister = true) := by
  rw [callBack_call hcalled, called_lookup (s := { s with dtun }) hn]
  obtain ⟨hid', hdtun', hlookups', hreg', htimer'⟩ := registerFunc_keeps
    { s with dtun, lookups := s.lookups.erase n } rnd session nodes
  have hsafe : NotWedged ({ s with dtun, lookups := s.lookups.erase n }.registerFunc rnd session
      nodes) → s.isRegistering = true →
        HasOther s.id nodes ∨ (s.lookups.erase n).Nonempty ∨ s.timerRegister = true := by
    intro h hreg
    -- A lookup that found only the own node sends nothing, so something else has to go on.
    by_cases hother : HasOther s.id nodes
    · exact Or.inl hother
    · rw [registerFunc_alone (s := { s with dtun, lookups := s.lookups.erase n }) hother] at h
      right
      rcases h hreg with ⟨m, hm, -⟩ | htimer
      · exact Or.inl ⟨m, hm⟩
      · exact Or.inr htimer
  refine ⟨⟨fun h => hsafe h.safe, fun h => ⟨?_, ?_, ?_⟩⟩, hsafe⟩
  · rw [hid', hdtun', hid]
  · intro m hm
    rw [hlookups'] at hm
    rw [hdtun']
    obtain ⟨hne, hm⟩ := Finset.mem_erase.mp hm
    exact hlive m hm hne
  · intro hreg
    rw [hreg'] at hreg
    rw [hlookups']
    -- A node was found, or another lookup or the timer is left.
    rcases h hreg with hother | hmore | htimer
    · exact Or.inr (registerFunc_other hother)
    · exact Or.inl hmore
    · exact Or.inr (htimer' htimer)

/-- What an event of `dtun` does to a registration. -/
theorem callBack_moves (h : RegistrationInv s) (hmoves : Moves s.dtun dtun)
    (rnd session : BitVec 32) :
    RegistrationInv (s.callBack dtun rnd session) ∨ ∃ n nodes, n ∈ s.lookups ∧
      dtun.called = s.dtun.called ++ [(n, .nodes nodes)] ∧
      ∀ m ∈ s.lookups, m ≠ n → IsFinding dtun m := by
  have hid : dtun.id = s.id := hmoves.id.trans h.id
  rcases hmoves.queries with ⟨hsame, hlive⟩ | ⟨n, c, hcalled, hkind, hlive⟩
  · left
    rw [callBack_same hsame]
    exact ⟨hid, fun m hm => hlive m (h.live m hm), h.notWedged⟩
  · by_cases hn : n ∈ s.lookups
    · obtain ⟨nodes, rfl⟩ := hkind (h.live n hn)
      exact Or.inr ⟨n, nodes, hn, hcalled, fun m hm hne => hlive m hne (h.live m hm)⟩
    · left
      rw [callBack_call hcalled, called_other (s := { s with dtun }) hn]
      refine ⟨hid, fun m hm => hlive m ?_ (h.live m hm), h.notWedged⟩
      rintro rfl
      exact hn hm

/-! ### One event -/

theorem dtun_step (h : RegistrationInv s) (input : Queries.Input) (rnd session : BitVec 32) :
    ∃ s', s.step (.dtun input rnd session) = .ok s' ∧
      (FindsOther s (.dtun input rnd session) → RegistrationInv s') ∧
      (¬ FindsOther s (.dtun input rnd session) → ¬ NotWedged s') := by
  obtain ⟨dtun, hdtun, hmoves⟩ := Moves.step s.dtun input
  have hstep : s.step (.dtun input rnd session) = .ok (s.callBack dtun rnd session) := by
    rw [Registration.step, hdtun]
    rfl
  refine ⟨_, hstep, fun hok => ?_, fun hnot hsafe => hnot ?_⟩
  · rcases callBack_moves h hmoves rnd session with hinv | ⟨n, nodes, hn, hcalled, hlive⟩
    · exact hinv
    · exact (inv_called_lookup rnd session (hmoves.id.trans h.id) hlive hn hcalled).1.mpr
        (hok dtun n nodes hdtun hcalled hn)
  · intro dtun' n nodes hdtun' hcalled hn
    obtain rfl := Except.ok.inj (hdtun.symm.trans hdtun')
    exact (inv_called_lookup rnd session (hmoves.id.trans h.id)
      (fun m hm hne => hmoves.live_of_called hcalled hne (h.live m hm)) hn hcalled).2 hsafe

/-- The registration has started the lookup `n`. -/
def looking (s : Registration) (n : BitVec 32) : Registration :=
  { s with isRegistering := true, lookups := insert n s.lookups }

/-- A registration that starts a lookup. -/
theorem looking_step (h : RegistrationInv s) (hnew : s.dtun.query.lookup n = none)
    (nodes : List Cageaddr) (rnd session : BitVec 32) :
    (HasOther s.id nodes ∨ s.lookups.Nonempty ∨ s.timerRegister = true →
      RegistrationInv ((looking s n).callBack (s.dtun.findNv s.id false nodes n) rnd session)) ∧
    (NotWedged ((looking s n).callBack (s.dtun.findNv s.id false nodes n) rnd session) →
      HasOther s.id nodes ∨ s.lookups.Nonempty ∨ s.timerRegister = true) := by
  have hmoves := Moves.findNv hnew s.id false nodes
  have hid : (s.dtun.findNv s.id false nodes n).id = (looking s n).id := hmoves.id.trans h.id
  have hn : n ∈ (looking s n).lookups := Finset.mem_insert_self ..
  have hfresh : n ∉ s.lookups := fun hn => not_isFinding hnew (h.live n hn)
  have hold : ∀ m ∈ (looking s n).lookups, m ≠ n → m ∈ s.lookups :=
    fun m hm hne => (Finset.mem_insert.mp hm).resolve_left hne
  -- The lookup ends at once, or goes on.
  by_cases hends : (s.dtun.findNv s.id false nodes n).called =
      (looking s n).dtun.called ++ [(n, .nodes nodes)]
  · have hresult := inv_called_lookup rnd session hid
      (fun m hm hne => hmoves.live_of_called hends hne (h.live m (hold m hm hne))) hn hends
    have herase : (looking s n).lookups.erase n = s.lookups := Finset.erase_insert hfresh
    rw [herase] at hresult
    exact ⟨fun hok => hresult.1.mpr fun _ => hok, fun hsafe => hresult.2 hsafe rfl⟩
  · have hother : HasOther s.id nodes := by
      by_contra halone
      exact hends (findNv_alone s.id (h.id.symm ▸ halone))
    rcases findNv_other (n := n) s.id (h.id.symm ▸ hother) with hcalled | ⟨hsame, hfinding⟩
    · exact absurd hcalled hends
    · refine ⟨fun _ => ?_, fun _ => Or.inl hother⟩
      rw [callBack_same (s := looking s n) hsame]
      refine ⟨hid, fun m hm => ?_, fun _ => Or.inl ⟨n, hn⟩⟩
      by_cases hne : m = n
      · rw [hne]
        exact hfinding
      · exact hmoves.live_of_same hsame (h.live m (hold m hm hne))

theorem registerNode_step (h : RegistrationInv s) (nodes : List Cageaddr)
    (n rnd session : BitVec 32) :
    ∃ s', s.step (.registerNode nodes n rnd session) = .ok s' ∧
      (FindsOther s (.registerNode nodes n rnd session) → RegistrationInv s') ∧
      (¬ FindsOther s (.registerNode nodes n rnd session) → ¬ NotWedged s') := by
  rw [Registration.step]
  by_cases hnew : s.dtun.query.lookup n = none
  · rw [if_pos hnew]
    refine ⟨_, rfl, ?_⟩
    unfold Registration.registerNode
    cases hreg : s.isRegistering with
    | true =>
      rw [if_pos rfl]
      refine ⟨fun _ => h, fun hnot => absurd ?_ hnot⟩
      intro _ hfalse
      rw [hreg] at hfalse
      cases hfalse
    | false =>
      rw [if_neg Bool.false_ne_true]
      cases henabled : s.dtun.isEnabled with
      | false =>
        -- There is no lookup, and whatever is left of an earlier one has to end this.
        rw [if_neg Bool.false_ne_true]
        refine ⟨fun hok => ⟨h.id, h.live, fun _ => ?_⟩, fun hnot hsafe => hnot fun _ _ => ?_⟩
        · refine (hok hnew hreg).resolve_left ?_
          rintro ⟨htrue, -⟩
          rw [henabled] at htrue
          cases htrue
        · rcases hsafe rfl with ⟨m, hm, -⟩ | htimer
          · exact Or.inr (Or.inl ⟨m, hm⟩)
          · exact Or.inr (Or.inr htimer)
      | true =>
        rw [if_pos rfl]
        obtain ⟨hgoes, hbreaks⟩ := looking_step h hnew nodes rnd session
        refine ⟨fun hok => hgoes ?_, fun hnot hsafe => hnot fun _ _ => ?_⟩
        · exact (hok hnew hreg).imp_left fun hfinds => hfinds.2
        · exact (hbreaks hsafe).imp_left fun hother => ⟨henabled, hother⟩
  · rw [if_neg hnew]
    refine ⟨s, rfl, fun _ => h, fun hnot => absurd ?_ hnot⟩
    exact fun hnone => absurd hnone hnew

theorem RegistrationInv.onTimerRegister (h : RegistrationInv s) :
    RegistrationInv s.onTimerRegister := by
  refine ⟨h.id, h.live, fun hreg => ?_⟩
  cases hreg

theorem RegistrationInv.recvRegisterReply (h : RegistrationInv s)
    (reply : MsgProxyRegisterReply) (from_ : Sockaddr) :
    RegistrationInv (s.recvRegisterReply reply from_) := by
  unfold Registration.recvRegisterReply
  split
  · exact h
  · refine ⟨h.id, h.live, fun hreg => ?_⟩
    cases hreg

theorem registrationInv_init (id : Id) (isEnabled : Bool) (nonce : BitVec 32) :
    RegistrationInv (.init id isEnabled nonce) := by
  refine ⟨rfl, fun n hn => ?_, fun hreg => ?_⟩
  · exact absurd hn (Finset.notMem_empty n)
  · cases hreg

/-- One event of the proxy, of `dtun` or of the timer. -/
theorem registration_step (h : RegistrationInv s) (i : Registration.Input) :
    ∃ s', s.step i = .ok s' ∧ (FindsOther s i → RegistrationInv s') ∧
      (¬ FindsOther s i → ¬ NotWedged s') := by
  cases i with
  | registerNode nodes n rnd session => exact registerNode_step h nodes n rnd session
  | dtun input rnd session => exact dtun_step h input rnd session
  | setEnabled flag =>
    exact ⟨_, rfl, fun _ => ⟨h.id, h.live, h.notWedged⟩, fun hnot => absurd trivial hnot⟩
  | timerRegister =>
    rw [Registration.step]
    split
    · exact ⟨_, rfl, fun _ => h.onTimerRegister, fun hnot => absurd trivial hnot⟩
    · exact ⟨_, rfl, fun _ => h, fun hnot => absurd trivial hnot⟩
  | recvRegisterReply reply from_ =>
    exact ⟨_, rfl, fun _ => h.recvRegisterReply reply from_, fun hnot => absurd trivial hnot⟩

end

end Libcage.Proofs.Proxy
