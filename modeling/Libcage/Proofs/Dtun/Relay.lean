import Libcage.Dtun.Relay
import Libcage.Proofs.Dtun.Requests

/-!
# `Libcage.Proofs.Dtun.Relay`: who answers a request

A request is answered by the node that was asked for, or by its proxy (`request_answered`),
whatever the lookups have found, whoever is registered where, and however the messages travel.
-/

set_option autoImplicit false

namespace Libcage.Proofs.DtunRelay

open Libcage.Lib
open Libcage.Dtun
open Libcage.Proxy (RegisteredClients Registering MsgProxyRegister)
open Libcage.Proofs.DtunRequest (withRecord)
open Libcage.Rdp (Id Table)
open Libcage.Dht (Saddr Cageaddr domainInet domainInet6 sizeofInet sizeofInet6)

/-! ### The requests of one node -/

/-- No request is answered, and none is made. -/
structure Unanswered (s s' : Requests) : Prop where
  id : s'.id = s.id
  made : s'.made = s.made
  sent : s.sent ⊆ s'.sent
  called : ∀ func addr, (func, some addr) ∈ s'.called → (func, some addr) ∈ s.called
  records : ∀ n q', s'.requests.lookup n = some q' →
    ∃ q, s.requests.lookup n = some q ∧ q.func = q'.func ∧ q.dst = q'.dst

section
variable {s s' s'' : Requests} {n : BitVec 32} {q q' : RequestQuery} {fv : RequestFindValue}
  {start : FindStart}

theorem Unanswered.refl (s : Requests) : Unanswered s s :=
  ⟨rfl, rfl, List.Subset.refl _, fun _ _ h => h, fun _ q h => ⟨q, h, rfl, rfl⟩⟩

theorem Unanswered.trans (h : Unanswered s s') (h' : Unanswered s' s'') : Unanswered s s'' where
  id := h'.id.trans h.id
  made := h'.made.trans h.made
  sent := List.Subset.trans h.sent h'.sent
  called func addr hmem := h.called func addr (h'.called func addr hmem)
  records n q hq := by
    obtain ⟨q', hq', hfunc, hdst⟩ := h'.records n q hq
    obtain ⟨q'', hq'', hfunc', hdst'⟩ := h.records n q' hq'
    exact ⟨q'', hq'', hfunc'.trans hfunc, hdst'.trans hdst⟩

/-- Nothing changes but lookups and timers. -/
theorem Unanswered.of_eq (hid : s'.id = s.id) (hmade : s'.made = s.made) (hsent : s'.sent = s.sent)
    (hcalled : s'.called = s.called) (hrequests : s'.requests = s.requests) : Unanswered s s' := by
  refine ⟨hid, hmade, ?_, ?_, ?_⟩
  · rw [hsent]
    exact List.Subset.refl _
  · rw [hcalled]
    exact fun _ _ h => h
  · rw [hrequests]
    exact fun _ q h => ⟨q, h, rfl, rfl⟩

theorem unanswered_finish (s : Requests) (n : BitVec 32) (q : RequestQuery) :
    Unanswered s (s.finish n q none) where
  id := rfl
  made := rfl
  sent := List.Subset.refl _
  called func addr h := by simpa [Requests.finish] using h
  records n' q' h := ⟨q', (lookup_erase_eq_some.mp h).2, rfl, rfl⟩

theorem unanswered_setRecord (hq : s.requests.lookup n = some q) (q' : RequestQuery)
    (hfunc : q.func = q'.func) (hdst : q.dst = q'.dst) :
    Unanswered s { s with requests := s.requests.insert n q' } where
  id := rfl
  made := rfl
  sent := List.Subset.refl _
  called _ _ h := h
  records n' q'' h := by
    rcases lookup_insert_eq_some.mp h with ⟨rfl, rfl⟩ | ⟨-, h⟩
    · exact ⟨q, hq, hfunc, hdst⟩
    · exact ⟨q'', h, rfl, rfl⟩

theorem unanswered_findValue (dst : Id) {failed : Requests → Requests}
    (hfailed : Unanswered s (failed s)) : Unanswered s (s.findValue dst fv start failed) := by
  rw [Requests.findValue]
  split
  · exact .refl s
  · split
    · exact hfailed
    · exact .of_eq rfl rfl rfl rfl rfl

theorem unanswered_lookupFailed (retry : Nat) (hq : s.requests.lookup fv.nonce = some q) :
    Unanswered s (Requests.lookupFailed fv q start retry s) := by
  -- By the tries that are left.
  induction retry generalizing s q with
  | zero => exact unanswered_finish s fv.nonce q
  | succ retry ih =>
    rw [Requests.lookupFailed]
    dsimp only
    have hset := unanswered_setRecord hq { q with retry } rfl rfl
    split
    · exact hset.trans (unanswered_findValue _ (ih (AList.lookup_insert _)))
    · exact hset.trans (unanswered_finish _ _ _)

/-- What an event does to the requests: it answers none, it makes one, or it answers one. -/
theorem requests_step {i : Requests.Input} (hs : s.step i = .ok s') :
    Unanswered s s' ∨
    (∃ dst nonce start, i = .request dst nonce start ∧
      Unanswered (withRecord s nonce ⟨s.made, dst, false, requestRetry⟩) s') ∨
    ∃ reply saddr q, i = .requestReply reply saddr ∧ reply.dst = s.id ∧
      s.requests.lookup reply.nonce = some q ∧ q.dst = reply.src ∧
      s' = { s with timers := s.timers.erase q.func }.finish reply.nonce q
        (some ⟨reply.src, saddr⟩) := by
  cases i with
  | setEnabled isEnabled =>
    rw [← Except.ok.inj hs]
    exact Or.inl (.of_eq rfl rfl rfl rfl rfl)
  | request dst nonce start =>
    rw [Requests.step] at hs
    split at hs
    · rw [← Except.ok.inj hs]
      -- The lookup may fail at once, and all its retries with it.
      refine Or.inr (Or.inl ⟨dst, nonce, start, rfl, ?_⟩)
      exact unanswered_findValue _ (unanswered_lookupFailed _ (AList.lookup_insert _))
    · rw [← Except.ok.inj hs]
      exact Or.inl (.refl s)
  | lookupEnds nonce result start =>
    rw [Requests.step] at hs
    split at hs
    · rw [← Except.ok.inj hs]
      exact Or.inl (.refl s)
    · rename_i fv hfv
      split at hs
      · left
        have hended : Unanswered s { s with query := s.query.erase nonce } :=
          .of_eq rfl rfl rfl rfl rfl
        refine hended.trans ?_
        rw [Requests.lookupEnds, Requests.requestFindValue] at hs
        split at hs
        · cases hs
        · rename_i q hq
          split at hs
          -- The lookup found nothing, and there is another one while tries are left.
          · rw [← Except.ok.inj hs]
            exact unanswered_lookupFailed _ hq
          -- The request goes out to what the lookup found.
          · rw [← Except.ok.inj hs]
            refine (unanswered_setRecord hq { q with finishedFindValue := true } rfl
              rfl).trans ⟨rfl, rfl, List.subset_append_left _ _, fun _ _ h => h,
                fun _ q h => ⟨q, h, rfl, rfl⟩⟩
      · rw [← Except.ok.inj hs]
        exact Or.inl (.refl s)
  | requestReply reply saddr =>
    have hs := Except.ok.inj hs
    rw [Requests.recvRequestReply] at hs
    split at hs
    -- The reply is for another node.
    · rw [← hs]
      exact Or.inl (.refl s)
    · rename_i hdst
      split at hs
      -- The request is gone.
      · rw [← hs]
        exact Or.inl (.refl s)
      · rename_i q hq
        split at hs
        -- The reply is not from the node that was asked for.
        · rw [← hs]
          exact Or.inl (.refl s)
        · rename_i hsrc
          exact Or.inr (Or.inr ⟨reply, saddr, q, rfl, not_not.mp hdst, hq, not_not.mp hsrc,
            hs.symm⟩)
  | timerRequest func =>
    rw [Requests.step] at hs
    split at hs
    · rw [← Except.ok.inj hs]
      exact Or.inl (.refl s)
    · rename_i nonce hnonce
      rw [Requests.timerRequest] at hs
      split at hs
      · cases hs
      · rename_i q hq
        split at hs
        · cases hs
        · rw [← Except.ok.inj hs]
          left
          have hstopped : Unanswered s { s with timers := s.timers.erase func } :=
            .of_eq rfl rfl rfl rfl rfl
          exact hstopped.trans (unanswered_finish _ _ _)

end

/-! ### What was asked for -/

/-- The ids that the requests of a node are for. -/
structure AskedFor (asked : List Id) (s : Requests) : Prop where
  length : asked.length = s.made
  records : ∀ n q, s.requests.lookup n = some q → asked[q.func]? = some q.dst
  called : ∀ func addr, (func, some addr) ∈ s.called → asked[func]? = some addr.id

section
variable {asked : List Id} {s s' : Requests} {n : BitVec 32}

theorem askedFor_init (id : Id) (isEnabled : Bool) : AskedFor [] (.init id isEnabled) where
  length := rfl
  records n q h := by simp [Requests.init] at h
  called func addr h := by simp [Requests.init] at h

theorem AskedFor.unanswered (h : AskedFor asked s) (hs : Unanswered s s') : AskedFor asked s' where
  length := h.length.trans hs.made.symm
  records n q' hq' := by
    obtain ⟨q, hq, hfunc, hdst⟩ := hs.records n q' hq'
    rw [← hfunc, ← hdst]
    exact h.records n q hq
  called func addr hmem := h.called func addr (hs.called func addr hmem)

theorem getElem?_concat {α : Type} {xs : List α} {k : Nat} {x : α} (h : xs[k]? = some x) (y : α) :
    (xs ++ [y])[k]? = some x := by
  obtain ⟨hk, -⟩ := List.getElem?_eq_some_iff.mp h
  rw [List.getElem?_append_left hk, h]

/-- A request is made. -/
theorem AskedFor.make (h : AskedFor asked s) (dst : Id) (retry : Nat) :
    AskedFor (asked ++ [dst]) (withRecord s n ⟨s.made, dst, false, retry⟩) where
  length := by
    rw [List.length_append, h.length]
    rfl
  records n' q hq := by
    rcases lookup_insert_eq_some.mp hq with ⟨-, rfl⟩ | ⟨-, hq⟩
    · rw [← h.length]
      exact List.getElem?_concat_length
    · exact getElem?_concat (h.records n' q hq) dst
  called func addr hmem := getElem?_concat (h.called func addr hmem) dst

/-- A request is answered by the node that it is for. -/
theorem AskedFor.answer (h : AskedFor asked s) {reply : RequestReply} {q : RequestQuery}
    (hq : s.requests.lookup reply.nonce = some q) (hdst : q.dst = reply.src) (saddr : Saddr)
    (timers : Table Nat (BitVec 32)) :
    AskedFor asked ({ s with timers }.finish reply.nonce q (some ⟨reply.src, saddr⟩)) where
  length := h.length
  records n q' hq' := h.records n q' (lookup_erase_eq_some.mp hq').2
  called func addr hmem := by
    rcases List.mem_append.mp hmem with hmem | hmem
    · exact h.called func addr hmem
    · obtain ⟨rfl, haddr⟩ := Prod.mk.inj (List.mem_singleton.mp hmem)
      rw [Option.some.inj haddr, ← hdst]
      exact h.records _ q hq

end

/-- An event of the requests changes the requests only, and keeps count of them. -/
structure RequestMoved (s s' : Relay) (i : Requests.Input) : Prop where
  isGlobal : s'.isGlobal = s.isGlobal
  nodes : s'.nodes = s.nodes
  clients : s'.clients = s.clients
  relayed : s'.relayed = s.relayed
  id : s'.requests.id = s.requests.id
  sent : s.requests.sent ⊆ s'.requests.sent
  asked : AskedFor s.asked s.requests → AskedFor s'.asked s'.requests
  called : ∀ func addr, (func, some addr) ∈ s'.requests.called →
    (func, some addr) ∈ s.requests.called ∨
      ∃ reply, i = .requestReply reply addr.saddr ∧ reply.dst = s.requests.id ∧ addr.id = reply.src

/-- Where no request is made, nothing is asked for. -/
theorem askedAfter_of_made (s : Relay) {requests : Requests} (i : Requests.Input)
    (h : requests.made = s.requests.made) : s.askedAfter requests i = s.asked := by
  cases i with
  | request dst nonce start =>
    show (if _ then _ else _) = s.asked
    rw [h, if_neg (Nat.lt_irrefl _)]
  | setEnabled | lookupEnds | requestReply | timerRequest => rfl

theorem requestMoved {s s' : Relay} {i : Requests.Input} (hs : s.requestStep i = .ok s') :
    RequestMoved s s' i := by
  obtain ⟨requests, hstep, hs⟩ := bind_eq_ok hs
  have hstep := mapError_eq_ok.mp hstep
  rw [← Except.ok.inj hs]
  rcases requests_step hstep with hmoved | ⟨dst, nonce, start, rfl, hmoved⟩ |
    ⟨reply, saddr, q, rfl, hdst, hq, hsrc, rfl⟩
  · refine ⟨rfl, rfl, rfl, rfl, hmoved.id, hmoved.sent, fun h => ?_, fun func addr hmem =>
      Or.inl (hmoved.called func addr hmem)⟩
    show AskedFor (s.askedAfter requests i) requests
    rw [askedAfter_of_made s i hmoved.made]
    exact h.unanswered hmoved
  · have hmade : s.requests.made < requests.made := by
      rw [hmoved.made]
      exact Nat.lt_succ_self _
    refine ⟨rfl, rfl, rfl, rfl, hmoved.id, hmoved.sent, fun h => ?_, fun func addr hmem =>
      Or.inl (hmoved.called func addr hmem)⟩
    show AskedFor (if _ then _ else _) requests
    rw [if_pos hmade]
    exact (h.make dst _).unanswered hmoved
  · refine ⟨rfl, rfl, rfl, rfl, rfl, List.Subset.refl _, fun h => h.answer hq hsrc _ _,
      fun func addr hmem => ?_⟩
    rcases List.mem_append.mp hmem with hmem | hmem
    · exact Or.inl hmem
    · obtain ⟨-, haddr⟩ := Prod.mk.inj (List.mem_singleton.mp hmem)
      obtain rfl := Option.some.inj haddr
      exact Or.inr ⟨reply, rfl, hdst, rfl⟩

/-! ### What a relay sends -/

/-- The id at the end of a message. -/
theorem rd160_end (pre : List Byte) (x : BitVec 160) : rd160 (pre ++ wr160 x) pre.length = x := by
  have hread := rd160_wr160 pre [] x
  rwa [List.append_nil] at hread

theorem length_wr160 (x : BitVec 160) : (wr160 x).length = 20 := by simp [wr160]

section
variable {own dst : Id} {nonce : BitVec 32}

/-- A `msg_inet` is read as it was written. -/
theorem sender_inet (id : Id) (port : BitVec 16) (sin : BitVec 32) :
    (MsgDtunRequestBy.mk own dst nonce domainInet
      (wr16 port ++ (wr16 0 ++ (wr32 sin ++ wr160 id)))).sender = some ⟨id, .inet port sin⟩ := by
  -- Each field is what its reader finds behind the fields in front of it.
  generalize hbs : wr16 port ++ (wr16 0 ++ (wr32 sin ++ wr160 id)) = bs
  have hport : rd16 bs 0 = port := by
    rw [← hbs]
    exact bytes16 port
  have hsin : rd32 bs 4 = sin := by
    rw [← hbs]
    simpa using rd32_wr32 (wr16 port ++ wr16 0) (wr160 id) sin
  have hid : rd160 bs 8 = id := by
    rw [← hbs]
    simpa using rd160_end (wr16 port ++ (wr16 0 ++ wr32 sin)) id
  have hlength : sizeofInet = bs.length := by
    simp [← hbs, sizeofInet, length_wr160]
  rw [MsgDtunRequestBy.sender, if_pos rfl, if_neg (not_not_intro hlength), hport, hsin, hid]

/-- A `msg_inet6` is read as it was written. -/
theorem sender_inet6 (id : Id) (port : BitVec 16) (sin : BitVec 128) :
    (MsgDtunRequestBy.mk own dst nonce domainInet6
      (wr16 port ++ (wr16 0 ++ (wr32 (sin.extractLsb' 96 32) ++ (wr32 (sin.extractLsb' 64 32) ++
        (wr32 (sin.extractLsb' 32 32) ++ (wr32 (sin.extractLsb' 0 32) ++ wr160 id))))))).sender =
      some ⟨id, .inet6 port sin⟩ := by
  conv_rhs => rw [← words128 sin]
  generalize sin.extractLsb' 96 32 = a₀, sin.extractLsb' 64 32 = a₁, sin.extractLsb' 32 32 = a₂,
    sin.extractLsb' 0 32 = a₃
  generalize hbs : wr16 port ++ (wr16 0 ++ (wr32 a₀ ++ (wr32 a₁ ++ (wr32 a₂ ++
    (wr32 a₃ ++ wr160 id))))) = bs
  have hport : rd16 bs 0 = port := by
    rw [← hbs]
    exact bytes16 port
  have h₀ : rd32 bs 4 = a₀ := by
    rw [← hbs]
    simpa using rd32_wr32 (wr16 port ++ wr16 0) (wr32 a₁ ++ (wr32 a₂ ++
      (wr32 a₃ ++ wr160 id))) a₀
  have h₁ : rd32 bs 8 = a₁ := by
    rw [← hbs]
    simpa using rd32_wr32 (wr16 port ++ (wr16 0 ++ wr32 a₀)) (wr32 a₂ ++
      (wr32 a₃ ++ wr160 id)) a₁
  have h₂ : rd32 bs 12 = a₂ := by
    rw [← hbs]
    simpa using rd32_wr32 (wr16 port ++ (wr16 0 ++ (wr32 a₀ ++ wr32 a₁)))
      (wr32 a₃ ++ wr160 id) a₂
  have h₃ : rd32 bs 16 = a₃ := by
    rw [← hbs]
    simpa using rd32_wr32 (wr16 port ++ (wr16 0 ++ (wr32 a₀ ++ (wr32 a₁ ++ wr32 a₂))))
      (wr160 id) a₃
  have hid : rd160 bs 20 = id := by
    rw [← hbs]
    simpa using rd160_end
      (wr16 port ++ (wr16 0 ++ (wr32 a₀ ++ (wr32 a₁ ++ (wr32 a₂ ++ wr32 a₃))))) id
  have hlength : sizeofInet6 = bs.length := by
    simp [← hbs, sizeofInet6, length_wr160]
  have hdomain : ¬ domainInet6 = domainInet := by decide
  rw [MsgDtunRequestBy.sender, if_neg hdomain, if_pos rfl, if_neg (not_not_intro hlength), hport,
    h₀, h₁, h₂, h₃, hid]

/-- The sender that a `msg_dtun_request_by` names is the one of the request. -/
theorem sender_of_requestBy {addr reg : Cageaddr} {out : Saddr × RelayMsg}
    (haddr : addr.saddr ≠ .loopback)
    (hout : RegisteredNodes.requestBy own addr reg nonce = some out) :
    ∃ req, out = (reg.saddr, .requestBy req) ∧ req.src = own ∧ req.dst = reg.id ∧
      req.nonce = nonce ∧ req.sender = some addr := by
  obtain ⟨id, saddr⟩ := addr
  cases saddr with
  | loopback => exact absurd rfl haddr
  | inet port sin => exact ⟨_, (Option.some.inj hout).symm, rfl, rfl, rfl, sender_inet id port sin⟩
  | inet6 port sin =>
    exact ⟨_, (Option.some.inj hout).symm, rfl, rfl, rfl, sender_inet6 id port sin⟩

/-- A `msg_dtun_request_by` is made where the addresses are of one family. -/
theorem requestBy_isSome (own : Id) {addr : Cageaddr} (haddr : addr.saddr ≠ .loopback)
    (reg : Cageaddr) (nonce : BitVec 32) :
    ∃ out, RegisteredNodes.requestBy own addr reg nonce = some out := by
  obtain ⟨id, saddr⟩ := addr
  cases saddr with
  | loopback => exact absurd rfl haddr
  | inet port sin => exact ⟨_, rfl⟩
  | inet6 port sin => exact ⟨_, rfl⟩

end

/-! ### Who is registered -/

/-- A node is registered under its own id. -/
def NodesOk (nodes : Table Id Registered) : Prop :=
  ∀ id reg, nodes.lookup id = some reg → reg.addr.id = id

theorem NodesOk.insert {nodes : Table Id Registered} (h : NodesOk nodes) (r : Registered) :
    NodesOk (nodes.insert r.addr.id r) := by
  intro id reg hreg
  rcases lookup_insert_eq_some.mp hreg with ⟨rfl, rfl⟩ | ⟨-, hreg⟩
  · rfl
  · exact h id reg hreg

theorem NodesOk.enter {nodes nodes' : Table Id Registered} (h : NodesOk nodes) {r : Registered}
    (henter : RegisteredNodes.enter nodes r = .ok nodes') : NodesOk nodes' := by
  rw [RegisteredNodes.enter] at henter
  split at henter
  · rw [← Except.ok.inj henter]
    exact h.insert r
  · rename_i it hit
    split at henter
    -- The same session may come from another address.
    · rw [← Except.ok.inj henter]
      exact h.insert r
    · obtain ⟨same, -, henter⟩ := bind_eq_ok henter
      split at henter
      · rw [← Except.ok.inj henter]
        have hid := h _ _ hit
        rw [← hid]
        exact h.insert { it with t := r.t }
      · rw [← Except.ok.inj henter]
        exact h

theorem nodesOk_step {s s' : RegisteredNodes} (h : NodesOk s.registeredNodes)
    {i : RegisteredNodes.Input} (hs : s.step i = .ok s') :
    s'.id = s.id ∧ NodesOk s'.registeredNodes := by
  cases i with
  | recvRegister now reg from_ =>
    rw [RegisteredNodes.step, RegisteredNodes.recvRegister] at hs
    split at hs
    · rw [← Except.ok.inj hs]
      exact ⟨rfl, h⟩
    · obtain ⟨nodes, hnodes, hs⟩ := bind_eq_ok hs
      obtain ⟨p, -, hs⟩ := bind_eq_ok hs
      rw [← Except.ok.inj hs]
      exact ⟨rfl, h.enter hnodes⟩
  | refresh now =>
    rw [← Except.ok.inj hs]
    refine ⟨rfl, fun id reg hreg => ?_⟩
    simp only [RegisteredNodes.refresh, lookup_filterMap, Option.bind_eq_some_iff] at hreg
    obtain ⟨r, hr, hreg⟩ := hreg
    split at hreg
    · cases hreg
    · rw [← Option.some.inj hreg]
      exact h id r hr

/-- A client has been registered with a proxy. -/
def Served (calls : List Registering) (id : Id) : Prop :=
  ∃ session, .registerNode id session ∈ calls

/-- Who is registered has been registered. -/
def ClientsOk (s : RegisteredClients) : Prop := ∀ id, s.isRegistered id → Served s.calls id

theorem clientsOk_recvRegister {s : RegisteredClients} (h : ClientsOk s) (now : Int)
    (reg : MsgProxyRegister) (from_ : Sockaddr) : ClientsOk (s.recvRegister now reg from_) := by
  have hmore : ∀ calls id, Served s.calls id → Served (s.calls ++ calls) id := by
    rintro calls id ⟨session, hsession⟩
    exact ⟨session, List.mem_append_left _ hsession⟩
  rw [RegisteredClients.recvRegister]
  split
  · exact h
  · dsimp only
    split
    -- A new client is registered with the DTUN.
    · intro id hid
      by_cases hsame : id = (newCageaddr reg.src from_).id
      · subst hsame
        exact ⟨reg.session, by simp⟩
      · apply hmore
        apply h
        simpa [RegisteredClients.isRegistered, AList.lookup_insert_ne hsame] using hid
    · rename_i it hit
      split
      -- A client that comes back was registered before.
      · intro id hid
        apply hmore
        apply h
        by_cases hsame : id = (newCageaddr reg.src from_).id
        · subst hsame
          simp [RegisteredClients.isRegistered, hit]
        · simpa [RegisteredClients.isRegistered, AList.lookup_insert_ne hsame] using hid
      · exact h

theorem clientsOk_refresh {s : RegisteredClients} (h : ClientsOk s) (now : Int) :
    ClientsOk (s.refresh now) := by
  intro id hid
  apply h
  simp only [RegisteredClients.isRegistered, RegisteredClients.refresh, lookup_filterMap] at hid ⊢
  cases hlookup : s.registered.lookup id with
  | none => simp [hlookup] at hid
  | some a => rfl

/-- No call to the DTUN is taken back. -/
theorem calls_recvRegister (s : RegisteredClients) (now : Int) (reg : MsgProxyRegister)
    (from_ : Sockaddr) : s.calls ⊆ (s.recvRegister now reg from_).calls := by
  rw [RegisteredClients.recvRegister]
  split
  · exact List.Subset.refl _
  · dsimp only
    split
    · exact List.subset_append_left _ _
    · split
      · exact List.subset_append_left _ _
      · exact List.Subset.refl _

/-! ### What the messages say -/

/-- A node with this id has sent a request. -/
def Requested {ν : Type} (W : Set (ν × Saddr × RelayMsg)) (src : Id) (nonce : BitVec 32)
    (id : Id) : Prop :=
  ∃ n saddr dst, (n, saddr, .request ⟨src, dst, nonce, id⟩) ∈ W

/-- The answer of a node, or of a proxy for its client. -/
def Serves (s : Relay) (id : Id) : Prop := id = s.nodes.id ∨ Served s.clients.calls id

/-- What a node sends for others goes back to a request. -/
def Relays {ν : Type} (W : Set (ν × Saddr × RelayMsg)) (s : Relay) : RelayMsg → Prop
  | .requestBy req => ∃ addr, req.sender = some addr ∧ Requested W addr.id req.nonce req.dst
  | .requestReply reply => Serves s reply.src ∧ Requested W reply.dst reply.nonce reply.src
  | _ => False

/-- A node has sent a reply to a request, from an address of its own. -/
def Replied {ν : Type} (owner : Saddr → Option ν) (W : Set (ν × Saddr × RelayMsg)) (dst : Id)
    (addr : Cageaddr) : Prop :=
  ∃ n saddr nonce, owner addr.saddr = some n ∧
    (n, saddr, .requestReply ⟨addr.id, dst, nonce⟩) ∈ W ∧ Requested W dst nonce addr.id

/-- The invariant of a node. -/
structure RelayInv {ν : Type} (owner : Saddr → Option ν) (id : ν → Id)
    (W : Set (ν × Saddr × RelayMsg)) (n : ν) (s : Relay) : Prop where
  requestsId : s.requests.id = id n
  nodesId : s.nodes.id = id n
  asked : AskedFor s.asked s.requests
  nodes : NodesOk s.nodes.registeredNodes
  clients : ClientsOk s.clients
  relayed : ∀ p ∈ s.relayed, Relays W s p.2
  called : ∀ func addr, (func, some addr) ∈ s.requests.called → Replied owner W (id n) addr

section
variable {ν : Type} {owner : Saddr → Option ν} {id : ν → Id} {W W' : Set (ν × Saddr × RelayMsg)}
  {n : ν} {s s' : Relay}

theorem Requested.mono {src x : Id} {nonce : BitVec 32} (hsub : W ⊆ W')
    (h : Requested W src nonce x) : Requested W' src nonce x := by
  obtain ⟨n, saddr, dst, hmem⟩ := h
  exact ⟨n, saddr, dst, hsub hmem⟩

theorem Relays.mono (hsub : W ⊆ W') {m : RelayMsg} (h : Relays W s m) : Relays W' s m := by
  cases m with
  | ping src dst => exact h
  | request req => exact h
  | requestBy req =>
    obtain ⟨addr, haddr, hreq⟩ := h
    exact ⟨addr, haddr, hreq.mono hsub⟩
  | requestReply reply => exact ⟨h.1, h.2.mono hsub⟩

theorem Replied.mono {dst : Id} {addr : Cageaddr} (hsub : W ⊆ W')
    (h : Replied owner W dst addr) : Replied owner W' dst addr := by
  obtain ⟨n, saddr, nonce, howner, hmem, hreq⟩ := h
  exact ⟨n, saddr, nonce, howner, hsub hmem, hreq.mono hsub⟩

theorem RelayInv.mono (hsub : W ⊆ W') (h : RelayInv owner id W n s) :
    RelayInv owner id W' n s where
  requestsId := h.requestsId
  nodesId := h.nodesId
  asked := h.asked
  nodes := h.nodes
  clients := h.clients
  relayed p hp := (h.relayed p hp).mono hsub
  called func addr hmem := (h.called func addr hmem).mono hsub

/-- A node serves whom it has served. -/
theorem Relays.of_serves {m : RelayMsg} (h : Relays W s m) (s' : Relay)
    (hid : s'.nodes.id = s.nodes.id) (hcalls : s.clients.calls ⊆ s'.clients.calls) :
    Relays W s' m := by
  cases m with
  | ping src dst => exact h
  | request req => exact h
  | requestBy req => exact h
  | requestReply reply =>
    refine ⟨?_, h.2⟩
    rcases h.1 with hown | ⟨session, hsession⟩
    · exact Or.inl (hown.trans hid.symm)
    · exact Or.inr ⟨session, hcalls hsession⟩

/-- An event of the requests of a node. A reply comes from a node that has sent it. -/
theorem RelayInv.requestStep (h : RelayInv owner id W n s) {i : Requests.Input}
    (hs : s.requestStep i = .ok s')
    (hreply : ∀ reply saddr, i = .requestReply reply saddr → reply.dst = s.requests.id →
      Replied owner W (id n) ⟨reply.src, saddr⟩) : RelayInv owner id W n s' := by
  obtain ⟨-, hnodes, hclients, hrelayed, hid, -, hasked, hcalled⟩ := requestMoved hs
  have hserves : ∀ m, Relays W s m → Relays W s' m := by
    intro m hm
    apply hm.of_serves s' (by rw [hnodes])
    rw [hclients]
    exact List.Subset.refl _
  refine ⟨hid.trans h.requestsId, ?_, hasked h.asked, ?_, ?_, ?_, ?_⟩
  · rw [hnodes]
    exact h.nodesId
  · rw [hnodes]
    exact h.nodes
  · rw [hclients]
    exact h.clients
  · rw [hrelayed]
    exact fun p hp => hserves _ (h.relayed p hp)
  · intro func addr hmem
    rcases hcalled func addr hmem with hmem | ⟨reply, hi, hdst, hsrc⟩
    · exact h.called func addr hmem
    · have hreplied := hreply reply addr.saddr hi hdst
      rw [← hsrc] at hreplied
      exact hreplied

/-- A reply in the network is one that its sender has relayed. -/
theorem mem_relayed_of_sent {p : Saddr × RelayMsg} (hp : p ∈ s.sent)
    (hother : ∀ r, Relay.sentMsg s.requests.id r ≠ p) : p ∈ s.relayed := by
  rcases List.mem_append.mp hp with hp | hp
  · obtain ⟨r, -, hr⟩ := List.mem_map.mp hp
    exact absurd hr (hother r)
  · exact hp

theorem sentMsg_ne_requestBy (own : Id) (r : RequestSent) (saddr : Saddr) (req : MsgDtunRequestBy) :
    Relay.sentMsg own r ≠ (saddr, .requestBy req) := by
  cases r <;> simp [Relay.sentMsg]

theorem sentMsg_ne_requestReply (own : Id) (r : RequestSent) (saddr : Saddr)
    (reply : RequestReply) : Relay.sentMsg own r ≠ (saddr, .requestReply reply) := by
  cases r <;> simp [Relay.sentMsg]

theorem sent_mono (hid : s'.requests.id = s.requests.id)
    (hsent : s.requests.sent ⊆ s'.requests.sent) (hrelayed : s.relayed ⊆ s'.relayed) :
    s.sent ⊆ s'.sent := by
  intro p hp
  rcases List.mem_append.mp hp with hp | hp
  · obtain ⟨r, hr, rfl⟩ := List.mem_map.mp hp
    apply List.mem_append_left
    rw [hid]
    exact List.mem_map_of_mem (hsent hr)
  · exact List.mem_append_right _ (hrelayed hp)

theorem RequestMoved.sent_mono {i : Requests.Input} (h : RequestMoved s s' i) :
    s.sent ⊆ s'.sent := by
  apply DtunRelay.sent_mono h.id h.sent
  rw [h.relayed]
  exact List.Subset.refl _

/-- What `recv_request` does. -/
theorem recvRequest_cases {s : RegisteredNodes} {isGlobal : Bool} {now : Int}
    {req : MsgDtunRequest} {from_ : Sockaddr} {s' : RegisteredNodes}
    {out : Option (Saddr × RelayMsg)}
    (hs : s.recvRequest isGlobal now req from_ = .ok (s', out)) :
    s'.id = s.id ∧ s'.registeredNodes = s.registeredNodes ∧
      (out = none ∨
        req.id = s.id ∧ out = some (from_.1, .requestReply ⟨s.id, req.src, req.nonce⟩) ∨
        ∃ reg, s.registeredNodes.lookup req.id = some reg ∧
          out = RegisteredNodes.requestBy s.id (newCageaddr req.src from_) reg.addr req.nonce) := by
  rw [RegisteredNodes.recvRequest] at hs
  split at hs
  · obtain ⟨rfl, rfl⟩ := Prod.mk.inj (Except.ok.inj hs)
    exact ⟨rfl, rfl, Or.inl rfl⟩
  · split at hs
    · obtain ⟨rfl, rfl⟩ := Prod.mk.inj (Except.ok.inj hs)
      exact ⟨rfl, rfl, Or.inl rfl⟩
    · obtain ⟨p, -, hs⟩ := bind_eq_ok hs
      dsimp only at hs
      split at hs
      -- The node itself is asked for.
      · rename_i hid
        obtain ⟨rfl, rfl⟩ := Prod.mk.inj (Except.ok.inj hs)
        exact ⟨rfl, rfl, Or.inr (Or.inl ⟨hid, rfl⟩)⟩
      · split at hs
        · obtain ⟨rfl, rfl⟩ := Prod.mk.inj (Except.ok.inj hs)
          exact ⟨rfl, rfl, Or.inl rfl⟩
        · rename_i reg hreg
          split at hs
          -- The two addresses are of different families.
          · obtain ⟨rfl, rfl⟩ := Prod.mk.inj (Except.ok.inj hs)
            exact ⟨rfl, rfl, Or.inl rfl⟩
          · obtain ⟨rfl, rfl⟩ := Prod.mk.inj (Except.ok.inj hs)
            exact ⟨rfl, rfl, Or.inr (Or.inr ⟨reg, hreg, rfl⟩)⟩

/-- What a node makes of a request goes back to it. -/
theorem relays_recvRequest (hnodes : NodesOk s.nodes.registeredNodes) {now : Int}
    {req : MsgDtunRequest} {from_ : Sockaddr} {nodes : RegisteredNodes} {p : Saddr × RelayMsg}
    (hs : s.nodes.recvRequest s.isGlobal now req from_ = .ok (nodes, some p))
    (hreq : Requested W req.src req.nonce req.id) : Relays W s p.2 := by
  obtain ⟨-, -, hout⟩ := recvRequest_cases hs
  rcases hout with hout | ⟨hid, hout⟩ | ⟨reg, hreg, hout⟩
  · cases hout
  · rw [Option.some.inj hout]
    rw [hid] at hreq
    exact ⟨Or.inl rfl, hreq⟩
  · obtain ⟨by_, rfl, -, hdst, hnonce, hsender⟩ := sender_of_requestBy from_.2 hout.symm
    refine ⟨_, hsender, ?_⟩
    rw [hdst, hnonce, hnodes _ _ hreg]
    exact hreq

/-- The source of a reply is the node that the message was for. -/
theorem source_eq (dst own : Id) : (if dst ≠ own then dst else own) = dst := by
  by_cases h : dst = own
  · simp [h]
  · simp [h]

/-- What a node makes of a `msg_dtun_request_by` goes back to a request. -/
theorem relays_recvRequestBy (hclients : ClientsOk s.clients) {req : MsgDtunRequestBy}
    {p : Saddr × RelayMsg}
    (hs : recvRequestBy s.nodes.id s.clients.isRegistered req = some p)
    (hreq : Relays W s' (.requestBy req)) : Relays W s p.2 := by
  obtain ⟨addr, haddr, hreq⟩ := hreq
  rw [recvRequestBy] at hs
  split at hs
  · cases hs
  · rename_i hmine
    dsimp only at hs
    rw [source_eq, haddr] at hs
    rw [← Option.some.inj hs]
    refine ⟨?_, hreq⟩
    by_cases hown : req.dst = s.nodes.id
    · exact Or.inl hown
    · exact Or.inr (hclients _ (by simpa [hown] using hmine))

theorem party_keeps : Relay.party.Keeps := by
  constructor
  · intro s i s' hs
    cases i with
    | natState isGlobal =>
      rw [← Except.ok.inj hs]
      exact List.Subset.refl _
    | requests i =>
      change (if _ then _ else _) = _ at hs
      split at hs
      · rw [← Except.ok.inj hs]
        exact List.Subset.refl _
      · exact (requestMoved hs).sent_mono
    | nodes i =>
      obtain ⟨nodes, -, hs⟩ := bind_eq_ok hs
      rw [← Except.ok.inj hs]
      exact List.Subset.refl _
    | clients i =>
      cases i with
      | recvRegister now reg from_ =>
        rw [← Except.ok.inj hs]
        exact List.Subset.refl _
      | refresh now =>
        rw [← Except.ok.inj hs]
        exact List.Subset.refl _
  · rintro s a ⟨saddr, m⟩ s' hs
    cases m with
    | ping src dst =>
      rw [← Except.ok.inj hs]
      exact List.Subset.refl _
    | request req =>
      obtain ⟨⟨nodes, out⟩, -, hs⟩ := bind_eq_ok hs
      rw [← Except.ok.inj hs]
      exact DtunRelay.sent_mono rfl (List.Subset.refl _) (List.subset_append_left _ _)
    | requestBy req =>
      rw [← Except.ok.inj hs]
      exact DtunRelay.sent_mono rfl (List.Subset.refl _) (List.subset_append_left _ _)
    | requestReply reply => exact (requestMoved hs).sent_mono

theorem relayInv_init (n : ν) (isEnabled : Bool) (peers : Peers) :
    RelayInv owner id W n (.init (id n) isEnabled peers) where
  requestsId := rfl
  nodesId := rfl
  asked := askedFor_init _ _
  nodes x reg h := by simp [Relay.init, RegisteredNodes.init] at h
  clients x h := by simp [Relay.init, RegisteredClients.init, RegisteredClients.isRegistered] at h
  relayed p h := by simp [Relay.init] at h
  called func addr h := by simp [Relay.init, Requests.init] at h

/-- The clients of a node change. -/
theorem RelayInv.setClients (h : RelayInv owner id W n s) {clients : RegisteredClients}
    (hok : ClientsOk clients) (hcalls : s.clients.calls ⊆ clients.calls) :
    RelayInv owner id W n { s with clients } :=
  { h with
    clients := hok
    relayed := fun p hp => (h.relayed p hp).of_serves { s with clients } rfl hcalls }

/-- A node sends something for others. -/
theorem RelayInv.relay (h : RelayInv owner id W n s) {nodes : RegisteredNodes}
    (hid : nodes.id = s.nodes.id) (hnodes : nodes.registeredNodes = s.nodes.registeredNodes)
    {out : Option (Saddr × RelayMsg)} (hout : ∀ p, out = some p → Relays W s p.2) :
    RelayInv owner id W n { s with nodes, relayed := s.relayed ++ out.toList } where
  requestsId := h.requestsId
  nodesId := hid.trans h.nodesId
  asked := h.asked
  nodes := by
    rw [hnodes]
    exact h.nodes
  clients := h.clients
  relayed p hp := by
    have hrelays : Relays W s p.2 := by
      rcases List.mem_append.mp hp with hp | hp
      · exact h.relayed p hp
      · exact hout p (Option.mem_toList.mp hp)
    exact hrelays.of_serves { s with nodes, relayed := s.relayed ++ out.toList } hid
      (List.Subset.refl _)
  called := h.called

theorem relayInv_act (h : RelayInv owner id W n s) {i : RelayInput} (hs : s.act i = .ok s') :
    RelayInv owner id W n s' := by
  cases i with
  | natState isGlobal =>
    rw [← Except.ok.inj hs]
    exact { h with
      relayed := fun p hp =>
        (h.relayed p hp).of_serves { s with isGlobal } rfl (List.Subset.refl _) }
  | requests i =>
    rw [Relay.act] at hs
    split at hs
    · rw [← Except.ok.inj hs]
      exact h
    · rename_i hlocal
      -- Replies come from the network only.
      refine h.requestStep hs fun reply saddr hi => ?_
      rw [hi] at hlocal
      exact absurd trivial hlocal
  | nodes i =>
    obtain ⟨nodes, hstep, hs⟩ := bind_eq_ok hs
    obtain ⟨hid, hok⟩ := nodesOk_step h.nodes (mapError_eq_ok.mp hstep)
    rw [← Except.ok.inj hs]
    exact { h with
      nodesId := hid.trans h.nodesId
      nodes := hok
      relayed := fun p hp =>
        (h.relayed p hp).of_serves { s with nodes } hid (List.Subset.refl _) }
  | clients i =>
    cases i with
    | recvRegister now reg from_ =>
      rw [← Except.ok.inj hs]
      exact h.setClients (clientsOk_recvRegister h.clients now reg from_)
        (calls_recvRegister s.clients now reg from_)
    | refresh now =>
      rw [← Except.ok.inj hs]
      exact h.setClients (clientsOk_refresh h.clients now) (List.Subset.refl _)

/-- A message comes to a node from another that keeps the invariant. -/
theorem relayInv_recv {src : ν} {t : Relay} {p : Saddr × RelayMsg} {a : Sockaddr × Int}
    (hsrc : RelayInv owner id W src t) (hp : p ∈ t.sent) (hreach : Relay.Reach owner src p n a)
    (h : RelayInv owner id W n s) (hs : s.recv a p.2 = .ok s') (hw : (src, p) ∈ W) :
    RelayInv owner id W n s' := by
  obtain ⟨saddr, m⟩ := p
  cases m with
  | ping src dst =>
    rw [← Except.ok.inj hs]
    exact h
  | request req =>
    obtain ⟨⟨nodes, out⟩, hrecv, hs⟩ := bind_eq_ok hs
    have hrecv := mapError_eq_ok.mp hrecv
    obtain ⟨hid, hnodes, -⟩ := recvRequest_cases hrecv
    rw [← Except.ok.inj hs]
    refine h.relay hid hnodes fun p hp => ?_
    subst hp
    exact relays_recvRequest h.nodes hrecv ⟨src, saddr, req.dst, hw⟩
  | requestBy req =>
    rw [← Except.ok.inj hs]
    have hrelays := hsrc.relayed _
      (mem_relayed_of_sent hp fun r => sentMsg_ne_requestBy _ r saddr req)
    exact h.relay rfl rfl fun p hp => relays_recvRequestBy h.clients hp hrelays
  | requestReply reply =>
    have hrelays := hsrc.relayed _
      (mem_relayed_of_sent hp fun r => sentMsg_ne_requestReply _ r saddr reply)
    refine h.requestStep hs fun reply' saddr' hi hdst => ?_
    obtain ⟨rfl, rfl⟩ := Requests.Input.requestReply.inj hi
    -- The address of the reply is where it came from, and that is an address of its sender.
    have hmine : reply.dst = id n := hdst.trans h.requestsId
    refine ⟨src, saddr, reply.nonce, hreach.2, ?_, ?_⟩
    · rw [← hmine]
      exact hw
    · rw [← hmine]
      exact hrelays.2

theorem relay_netInv : Party.NetInv Relay.party (Relay.Reach owner) (RelayInv owner id) where
  mono := RelayInv.mono
  act h hs _ := relayInv_act h hs
  recv hsrc hp hreach h hs hw _ := relayInv_recv hsrc hp hreach h hs hw

end

/-! ### The network -/

/-- A request that is answered was answered by the node that it was for or by its proxy, from an
address of this node and for a request that was sent. -/
theorem request_answered {ν : Type} [DecidableEq ν] (owner : Saddr → Option ν) (id : ν → Id)
    (hid : Function.Injective id) (isEnabled : ν → Bool) (peers : ν → Peers)
    (is : List (NetInput ν RelayInput (Saddr × RelayMsg) (Sockaddr × Int))) (nodes : ν → Relay)
    (hrun : run (Relay.party.step (Relay.Reach owner))
      (fun n => .init (id n) (isEnabled n) (peers n)) is = .ok nodes) :
    ∀ n func addr, (func, some addr) ∈ (nodes n).requests.called →
      (nodes n).asked[func]? = some addr.id ∧
        ∃ m dst nonce saddr dest, owner addr.saddr = some m ∧ Serves (nodes m) addr.id ∧
          (dest, .requestReply ⟨addr.id, id n, nonce⟩) ∈ (nodes m).relayed ∧
          .request dst addr.id nonce saddr ∈ (nodes n).requests.sent := by
  have hinv : Party.Holds Relay.party (RelayInv owner id) nodes := by
    apply Party.holds_run relay_netInv party_keeps ?_ hrun
    exact fun n => relayInv_init n (isEnabled n) (peers n)
  intro n func addr hmem
  refine ⟨(hinv n).asked.called func addr hmem, ?_⟩
  obtain ⟨m, dest, nonce, howner, hreply, k, saddr, dst, hreq⟩ := (hinv n).called func addr hmem
  have hrelayed : (dest, .requestReply ⟨addr.id, id n, nonce⟩) ∈ (nodes m).relayed :=
    mem_relayed_of_sent hreply fun r => sentMsg_ne_requestReply _ r dest _
  rcases List.mem_append.mp hreq with hreq | hreq
  · obtain ⟨r, hr, hsent⟩ := List.mem_map.mp hreq
    cases r with
    | ping dst' saddr' => simp [Relay.sentMsg] at hsent
    | request dst' x nonce' saddr' =>
      simp only [Relay.sentMsg, Prod.mk.injEq, RelayMsg.request.injEq, MsgDtunRequest.mk.injEq]
        at hsent
      obtain ⟨rfl, hsrc, rfl, rfl, rfl⟩ := hsent
      -- The source of the request is the id of node `n`.
      obtain rfl := hid ((hinv k).requestsId.symm.trans hsrc)
      refine ⟨m, _, _, _, dest, howner, ?_, hrelayed, hr⟩
      exact ((hinv m).relayed _ hrelayed).1
  · exact False.elim ((hinv k).relayed _ hreq)

/-- A node has the number of its id in its address. -/
def addressOf (id : BitVec 32) : Sockaddr × Int := (⟨.inet 9 id, fun h => Saddr.noConfusion h⟩, 0)

def ownerOf : Saddr → Option Id
  | .inet _ addr => some (addr.setWidth 160)
  | _ => none

/-- Node 5 is registered with node 2, and node 1 asks node 2 for it. -/
def asksForFive : List (NetInput Id RelayInput (Saddr × RelayMsg) (Sockaddr × Int)) :=
  [.act 2 (.natState true), .act 2 (.nodes (.recvRegister 0 ⟨5, 2, 7⟩ (addressOf 5).1)),
    .act 1 (.requests (.request 5 7 ⟨[⟨2, .inet 9 2⟩, ⟨3, .inet 9 3⟩], 11⟩)),
    .act 1 (.requests (.lookupEnds 11 (some (⟨5, .inet 9 5⟩, ⟨2, .inet 9 2⟩)) ⟨[], 12⟩))]

def byFive : MsgDtunRequestBy := ⟨2, 5, 7, domainInet, wr16 9 ++ (wr16 0 ++ (wr32 1 ++ wr160 1))⟩

/-- The three messages come. -/
def fiveAnswers : List (NetInput Id RelayInput (Saddr × RelayMsg) (Sockaddr × Int)) :=
  [.deliver 1 (.inet 9 2, .request ⟨1, 2, 7, 5⟩) 2 (addressOf 1),
    .deliver 2 (.inet 9 5, .requestBy byFive) 5 (addressOf 2),
    .deliver 5 (.inet 9 1, .requestReply ⟨5, 1, 7⟩) 1 (addressOf 5)]

theorem request_answered_five : ∃ nodes, run (Relay.party.step (Relay.Reach ownerOf))
      (fun n => .init n true .init) (asksForFive ++ fiveAnswers) = .ok nodes ∧
    (nodes 1).requests.called = [(0, some ⟨5, .inet 9 5⟩)] ∧
    ∀ n func addr, (func, some addr) ∈ (nodes n).requests.called →
      (nodes n).asked[func]? = some addr.id ∧
        ∃ m dst nonce saddr dest, ownerOf addr.saddr = some m ∧ Serves (nodes m) addr.id ∧
          (dest, .requestReply ⟨addr.id, n, nonce⟩) ∈ (nodes m).relayed ∧
          .request dst addr.id nonce saddr ∈ (nodes n).requests.sent := by
  have hcalled : (run (Relay.party.step (Relay.Reach ownerOf)) (fun n => .init n true .init)
      (asksForFive ++ fiveAnswers)).map (fun nodes => (nodes 1).requests.called) =
        .ok [(0, some ⟨5, .inet 9 5⟩)] := by decide +kernel
  obtain ⟨nodes, hrun, hcalled⟩ := map_eq_ok.mp hcalled
  exact ⟨nodes, hrun, hcalled, request_answered ownerOf (fun n => n) Function.injective_id
    (fun _ => true) (fun _ => .init) (asksForFive ++ fiveAnswers) nodes hrun⟩

/-! ### The way of a request -/

section
variable {s s' : Relay} {own : Id}

/-- A global node sends a request on to the node that is registered with it. -/
theorem recv_request (hown : s.nodes.id = own) (hglobal : s.isGlobal) {req : MsgDtunRequest}
    (hdst : req.dst = own) (hid : req.id ≠ own) {reg : Registered}
    (hreg : s.nodes.registeredNodes.lookup req.id = some reg) {a : Sockaddr × Int}
    (hdomain : reg.addr.domain = (newCageaddr req.src a.1).domain)
    (hs : s.recv a (.request req) = .ok s') {out : Saddr × RelayMsg}
    (hout : RegisteredNodes.requestBy own (newCageaddr req.src a.1) reg.addr req.nonce =
      some out) : out ∈ s'.relayed := by
  obtain ⟨⟨nodes, out'⟩, hrecv, hs⟩ := bind_eq_ok hs
  have hrecv := mapError_eq_ok.mp hrecv
  rw [← Except.ok.inj hs]
  rw [RegisteredNodes.recvRequest, if_neg (not_not_intro hglobal), hown,
    if_neg (not_not_intro hdst)] at hrecv
  obtain ⟨p, -, hrecv⟩ := bind_eq_ok hrecv
  dsimp only at hrecv
  rw [if_neg hid, hreg] at hrecv
  dsimp only at hrecv
  rw [if_neg (not_not_intro hdomain), hout] at hrecv
  obtain ⟨-, hout'⟩ := Prod.mk.inj (Except.ok.inj hrecv)
  rw [← hout']
  simp

/-- A node answers for itself and for the clients of its proxy. -/
theorem recv_requestBy (hown : s.nodes.id = own) {req : MsgDtunRequestBy}
    (hserves : req.dst = own ∨ s.clients.isRegistered req.dst) {addr : Cageaddr}
    (haddr : req.sender = some addr) {a : Sockaddr × Int}
    (hs : s.recv a (.requestBy req) = .ok s') :
    (addr.saddr, .requestReply ⟨req.dst, addr.id, req.nonce⟩) ∈ s'.relayed := by
  rw [← Except.ok.inj hs]
  have hout : recvRequestBy s.nodes.id s.clients.isRegistered req =
      some (addr.saddr, .requestReply ⟨req.dst, addr.id, req.nonce⟩) := by
    have hmine : ¬ (req.dst ≠ own ∧ ¬ s.clients.isRegistered req.dst) := by tauto
    rw [recvRequestBy, hown, if_neg hmine, haddr]
    dsimp only
    rw [source_eq]
    rfl
  simp [hout]

/-- The reply of the node that was asked for ends the request. -/
theorem recv_requestReply (hown : s.requests.id = own) (reply : RequestReply)
    (hdst : reply.dst = own) {q : RequestQuery}
    (hq : s.requests.requests.lookup reply.nonce = some q) (hsrc : q.dst = reply.src)
    (a : Sockaddr × Int) : ∃ s', s.recv a (.requestReply reply) = .ok s' ∧
      (q.func, some ⟨reply.src, a.1.1⟩) ∈ s'.requests.called := by
  have hrecv : s.requests.recvRequestReply reply a.1.1 =
      { s.requests with timers := s.requests.timers.erase q.func }.finish reply.nonce q
        (some ⟨reply.src, a.1.1⟩) := by
    rw [Requests.recvRequestReply, if_neg (not_not_intro (hdst.trans hown.symm)), hq]
    exact if_neg (not_not_intro hsrc)
  refine ⟨_, rfl, ?_⟩
  show _ ∈ (s.requests.recvRequestReply reply a.1.1).called
  rw [hrecv]
  simp [Requests.finish]

end

section
variable {ν : Type} [DecidableEq ν] {owner : Saddr → Option ν} {nodes nodes' : ν → Relay}

/-- What is delivered first in a run. -/
theorem deliver_first {src dst : ν} {p : Saddr × RelayMsg} {a : Sockaddr × Int}
    (hp : p ∈ (nodes src).sent) (hreach : Relay.Reach owner src p dst a)
    {is : List (NetInput ν RelayInput (Saddr × RelayMsg) (Sockaddr × Int))}
    (hrun : run (Relay.party.step (Relay.Reach owner)) nodes (.deliver src p dst a :: is) =
      .ok nodes') :
    ∃ s, (nodes dst).recv a p.2 = .ok s ∧ ∀ p ∈ s.sent, p ∈ (nodes' dst).sent := by
  obtain ⟨nodes₁, hstep, hrest⟩ := bind_eq_ok hrun
  rw [Party.step, if_pos ⟨hp, hreach⟩] at hstep
  obtain ⟨s, hs, hnodes⟩ := bind_eq_ok hstep
  refine ⟨s, hs, fun p hp => ?_⟩
  apply party_keeps.wire_run hrest (a := (dst, p))
  rw [← Except.ok.inj hnodes]
  show p ∈ (Function.update nodes dst s dst).sent
  rw [Function.update_self]
  exact hp

end

/-- However the messages travel and whatever happens in between: a request that was sent to a
global node where its node is registered is answered, if each message comes once in its turn,
the node or its proxy is still there for it, and the request has not been given up. -/
theorem request_delivered {ν : Type} [DecidableEq ν] (owner : Saddr → Option ν) (id : ν → Id)
    (isEnabled : ν → Bool) (peers : ν → Peers)
    (is₁ is₂ is₃ : List (NetInput ν RelayInput (Saddr × RelayMsg) (Sockaddr × Int)))
    (nodes₁ nodes₂ nodes₃ : ν → Relay) (i r j : ν) (dst : Id) (nonce : BitVec 32) (saddr : Saddr)
    (reg : Registered) (q : RequestQuery) (a₁ a₂ a₃ : Sockaddr × Int)
    (ha₁ : owner a₁.1.1 = some i) (ha₂ : owner a₂.1.1 = some r) (ha₃ : owner a₃.1.1 = some j)
    -- The request comes to node `r`, which knows an address of node `j` for it.
    (hrun₁ : run (Relay.party.step (Relay.Reach owner))
      (fun n => .init (id n) (isEnabled n) (peers n)) is₁ = .ok nodes₁)
    (hsent : .request (id r) dst nonce saddr ∈ (nodes₁ i).requests.sent)
    (hr : owner saddr = some r) (hglobal : (nodes₁ r).isGlobal) (hdst : dst ≠ id r)
    (hreg : (nodes₁ r).nodes.registeredNodes.lookup dst = some reg)
    (hdomain : reg.addr.domain = Cageaddr.domain ⟨id i, a₁.1.1⟩)
    (hj : owner reg.addr.saddr = some j) :
    ∃ req, RegisteredNodes.requestBy (id r) ⟨id i, a₁.1.1⟩ reg.addr nonce =
        some (reg.addr.saddr, .requestBy req) ∧
      (run (Relay.party.step (Relay.Reach owner)) nodes₁
          (.deliver i (saddr, .request ⟨id i, id r, nonce, dst⟩) r a₁ :: is₂) = .ok nodes₂ →
        -- The message comes to node `j`, which answers for the id.
        dst = id j ∨ (nodes₂ j).clients.isRegistered dst →
        run (Relay.party.step (Relay.Reach owner)) nodes₂
          (.deliver r (reg.addr.saddr, .requestBy req) j a₂ :: is₃) = .ok nodes₃ →
        -- The reply comes to node `i`, which still waits for it.
        (nodes₃ i).requests.requests.lookup nonce = some q → q.dst = dst →
        ∃ nodes₄, Relay.party.step (Relay.Reach owner) nodes₃
            (.deliver j (a₁.1.1, .requestReply ⟨dst, id i, nonce⟩) i a₃) = .ok nodes₄ ∧
          (q.func, some ⟨dst, a₃.1.1⟩) ∈ (nodes₄ i).requests.called) := by
  have hinv₁ : Party.Holds Relay.party (RelayInv owner id) nodes₁ :=
    Party.holds_run relay_netInv party_keeps
      (fun n => relayInv_init n (isEnabled n) (peers n)) hrun₁
  have haddr : (Cageaddr.mk (id i) a₁.1.1).saddr ≠ .loopback := a₁.1.2
  obtain ⟨out, hout⟩ := requestBy_isSome (id r) haddr reg.addr nonce
  obtain ⟨req, rfl, -, hreqdst, hreqnonce, hsender⟩ := sender_of_requestBy haddr hout
  refine ⟨req, hout, fun hrun₂ hserves hrun₃ hq hqdst => ?_⟩
  have hreqid : reg.addr.id = dst := (hinv₁ r).nodes dst reg hreg
  have hfirst : (saddr, .request ⟨id i, id r, nonce, dst⟩) ∈ (nodes₁ i).sent := by
    apply List.mem_append_left
    have hmem := List.mem_map_of_mem (f := Relay.sentMsg (nodes₁ i).requests.id) hsent
    rw [(hinv₁ i).requestsId] at hmem ⊢
    exact hmem
  have hsecond : (reg.addr.saddr, .requestBy req) ∈ (nodes₂ r).sent := by
    obtain ⟨s, hs, hkept⟩ := deliver_first hfirst ⟨hr, ha₁⟩ hrun₂
    apply hkept
    apply List.mem_append_right
    exact recv_request (hinv₁ r).nodesId hglobal rfl hdst hreg hdomain hs hout
  have hinv₂ := Party.holds_run relay_netInv party_keeps hinv₁ hrun₂
  have hthird : (a₁.1.1, .requestReply ⟨dst, id i, nonce⟩) ∈ (nodes₃ j).sent := by
    obtain ⟨s, hs, hkept⟩ := deliver_first hsecond ⟨hj, ha₂⟩ hrun₃
    apply hkept
    apply List.mem_append_right
    have hreply := recv_requestBy (hinv₂ j).nodesId (by rw [hreqdst, hreqid]; exact hserves)
      hsender hs
    rw [hreqdst, hreqid, hreqnonce] at hreply
    exact hreply
  have hinv₃ := Party.holds_run relay_netInv party_keeps hinv₂ hrun₃
  obtain ⟨s, hs, hcalled⟩ := recv_requestReply (hinv₃ i).requestsId ⟨dst, id i, nonce⟩ rfl hq
    hqdst a₃
  refine ⟨_, Party.step_deliver ⟨hthird, ⟨ha₁, ha₃⟩⟩ hs, ?_⟩
  rw [Function.update_self]
  exact hcalled

theorem request_delivered_five : ∃ nodes₁ nodes₂ nodes₃ q, ∃ req : MsgDtunRequestBy,
    run (Relay.party.step (Relay.Reach ownerOf)) (fun n => .init n true .init) asksForFive =
      .ok nodes₁ ∧
    run (Relay.party.step (Relay.Reach ownerOf)) nodes₁
      [.deliver 1 (.inet 9 2, .request ⟨1, 2, 7, 5⟩) 2 (addressOf 1)] = .ok nodes₂ ∧
    run (Relay.party.step (Relay.Reach ownerOf)) nodes₂
      [.deliver 2 (.inet 9 5, .requestBy req) 5 (addressOf 2)] = .ok nodes₃ ∧
    (nodes₃ 1).requests.requests.lookup 7 = some q ∧
    ∃ nodes₄, Relay.party.step (Relay.Reach ownerOf) nodes₃
        (.deliver 5 (.inet 9 1, .requestReply ⟨5, 1, 7⟩) 1 (addressOf 5)) = .ok nodes₄ ∧
      (q.func, some ⟨5, .inet 9 5⟩) ∈ (nodes₄ 1).requests.called := by
  have hasked : (run (Relay.party.step (Relay.Reach ownerOf)) (fun n => .init n true .init)
      asksForFive).map (fun nodes => (decide (.request 2 5 7 (.inet 9 2) ∈ (nodes 1).requests.sent),
        (nodes 2).isGlobal, (nodes 2).nodes.registeredNodes.lookup 5)) =
      .ok (true, true, some ⟨⟨5, .inet 9 5⟩, 7, 0⟩) := by decide +kernel
  have hlast : (run (Relay.party.step (Relay.Reach ownerOf)) (fun n => .init n true .init)
      (asksForFive ++ [.deliver 1 (.inet 9 2, .request ⟨1, 2, 7, 5⟩) 2 (addressOf 1),
        .deliver 2 (.inet 9 5, .requestBy byFive) 5 (addressOf 2)])).map
        (fun nodes => ((nodes 1).requests.requests.lookup 7).map (fun q => (q.func, q.dst))) =
      .ok (some (0, 5)) := by decide +kernel
  obtain ⟨nodes₁, hrun₁, hasked⟩ := map_eq_ok.mp hasked
  simp only [Prod.mk.injEq, decide_eq_true_eq] at hasked
  obtain ⟨hsent, hglobal, hreg⟩ := hasked
  obtain ⟨nodes₃, hrun, hlast⟩ := map_eq_ok.mp hlast
  rw [run_append hrun₁] at hrun
  obtain ⟨nodes₂, hstep, hrun₃⟩ := bind_eq_ok hrun
  have hrun₂ : run (Relay.party.step (Relay.Reach ownerOf)) nodes₁
      [.deliver 1 (.inet 9 2, .request ⟨1, 2, 7, 5⟩) 2 (addressOf 1)] = .ok nodes₂ := by
    rw [run, hstep]
    rfl
  obtain ⟨q, hq, hdst⟩ := Option.map_eq_some_iff.mp hlast
  obtain ⟨req, hreq, h⟩ := request_delivered ownerOf (fun n => n) (fun _ => true) (fun _ => .init)
    asksForFive [] [] nodes₁ nodes₂ nodes₃ 1 2 5 5 7 (.inet 9 2) ⟨⟨5, .inet 9 5⟩, 7, 0⟩ q
    (addressOf 1) (addressOf 2) (addressOf 5) rfl rfl rfl hrun₁ hsent rfl hglobal (by decide) hreg
    rfl rfl
  have hby : RegisteredNodes.requestBy 2 ⟨1, .inet 9 1⟩ ⟨5, .inet 9 5⟩ 7 =
      some (.inet 9 5, .requestBy byFive) := rfl
  obtain rfl : byFive = req := by simpa using hby.symm.trans hreq
  exact ⟨nodes₁, nodes₂, nodes₃, q, byFive, hrun₁, hrun₂, hrun₃, hq,
    h hrun₂ (Or.inl rfl) hrun₃ hq (Prod.mk.inj hdst).2⟩

end Libcage.Proofs.DtunRelay
