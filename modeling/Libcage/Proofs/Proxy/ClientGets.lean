import Libcage.Lib.Index
import Libcage.Lib.Ledger
import Libcage.Proxy.ClientGets

/-!
# `Libcage.Proofs.Proxy.ClientGets`: one callback for each get

A get that was put into `m_getdata` is owed a call of its callback function, and each end of a
get but one takes its record out of `m_getdata` with the call (`GetsInv.finish`). The reads of a
reply connection end after at most one such call (`read_ok`).

The exception is the end of the request connection. The entry of a get in `m_rdp_get` stays when
its answer arrives, and the default of `rdp_get_func::operator()` calls the function of that
entry whether the get is in `m_getdata` or not (`second_call`). The last loop of `sweep_rdp` uses
a record that it has not found. `oncePerGet_iff_inTime` says that nothing else goes wrong.
-/

set_option autoImplicit false

namespace Libcage.Proofs.ClientGets

open Libcage.Lib
open Libcage.Rdp (Id Table RdpEvent)
open Libcage.Proxy
open Libcage.Proxy.ClientGets

/-- The get whose record is under a nonce. -/
def owner (s : ClientGets) (nonce : BitVec 32) : Option Nat :=
  (s.getdata.lookup nonce).map GetData.func

/-- The gets whose callback functions have been called. -/
def calledGets (s : ClientGets) : List Nat := s.called.map Prod.fst

/-- No callback function has been called twice, and a get is in `m_getdata` exactly if its
callback function has not been called. -/
structure OncePerGet (s : ClientGets) : Prop where
  once : (calledGets s).Nodup
  kept : ∀ func, func < s.made → ((∃ nonce, owner s nonce = some func) ↔ func ∉ calledGets s)

/-- The last loop of `sweep_rdp` does not use a record of `m_getdata` that is not there. -/
def Sweepable (s : ClientGets) (desc : Int) : Prop :=
  ∀ con, s.recvGetReply.lookup desc = some con → rdpTimeout < con.time →
    con.ptr.state ≠ .rgrHdr → s.getdata.lookup con.ptr.nonce ≠ none

/-- The request connection of a get does not end after the callback function was called, and
`sweep_rdp` finds the gets of the reply connections that it closes. -/
def InTime (s : ClientGets) : Input → Prop
  | .request desc event =>
      event ≠ .connected → event ≠ .reset →
        ∀ p, s.rdpGet.lookup desc = some p → owner s p.nonce = some p.func
  | .sweepRdp => ∀ desc, Sweepable s desc
  | _ => True

/-! ### The invariant -/

/-- Every get has one record or one call. A timer finds the record of its get, and a request
does where there is one. -/
structure GetsInv (s : ClientGets) : Prop where
  ledger : Ledger (owner s) s.made (calledGets s)
  timers : ∀ func nonce, s.timers.lookup func = some nonce → owner s nonce = some func
  made : ∀ desc p, s.rdpGet.lookup desc = some p → p.func < s.made
  nonce : ∀ desc p, s.rdpGet.lookup desc = some p →
    ∀ nonce, owner s nonce = some p.func → nonce = p.nonce

theorem GetsInv.ok {s : ClientGets} (h : GetsInv s) : OncePerGet s :=
  ⟨h.ledger.once, h.ledger.kept⟩

theorem getsInv_init (id : Id) : GetsInv (.init id) := by
  constructor
  case ledger => exact Ledger.empty
  case timers => exact nofun
  case made => exact nofun
  case nonce => exact nofun

section
variable {s : ClientGets} {nonce : BitVec 32} {it : GetData} {desc : Int} {p : RdpGet}

theorem owner_of_lookup (h : s.getdata.lookup nonce = some it) :
    owner s nonce = some it.func := by
  rw [owner, h]
  rfl

theorem calledGets_call (func : Nat) (result : Bool) (vset : Finset Cells) :
    calledGets (s.call func result vset) = calledGets s ++ [func] := by
  simp [calledGets, call]

/-- The record of a get changes. -/
theorem GetsInv.setRecord (h : GetsInv s) (hown : owner s nonce = some it.func) :
    GetsInv { s with getdata := s.getdata.insert nonce it } := by
  have howner : owner { s with getdata := s.getdata.insert nonce it } = owner s := by
    calc owner { s with getdata := s.getdata.insert nonce it }
        = Function.update (owner s) nonce (some it.func) := map_lookup_insert ..
      _ = owner s := by rw [← hown, Function.update_eq_self]
  constructor
  case ledger =>
    rw [howner]
    exact h.ledger
  case timers =>
    rw [howner]
    exact h.timers
  case made => exact h.made
  case nonce =>
    rw [howner]
    exact h.nonce

/-- The record of a get is taken out, and its callback function is called. -/
theorem GetsInv.finish (h : GetsInv s) (hown : owner s nonce = some it.func) (result : Bool)
    (vset : Finset Cells) : GetsInv (s.finish nonce it result vset) := by
  have howner : owner (s.finish nonce it result vset) = Function.update (owner s) nonce none :=
    map_lookup_erase ..
  have hcalled : calledGets (s.finish nonce it result vset) = calledGets s ++ [it.func] :=
    calledGets_call it.func result vset
  -- No other record is touched.
  have hsub : ∀ n func, owner (s.finish nonce it result vset) n = some func →
      owner s n = some func := by
    intro n func hn
    rw [howner] at hn
    by_cases hne : n = nonce
    · simp [hne] at hn
    · rwa [Function.update_of_ne hne] at hn
  constructor
  case ledger =>
    rw [howner, hcalled]
    exact h.ledger.finish hown
  case timers =>
    intro func n hn
    obtain ⟨hfunc, hn⟩ := lookup_erase_eq_some.mp hn
    have hold := h.timers func n hn
    -- The timer that still runs is that of another get.
    have hne : n ≠ nonce := by
      rintro rfl
      exact hfunc (Option.some.inj (hold.symm.trans hown))
    rw [howner, Function.update_of_ne hne]
    exact hold
  case made => exact h.made
  case nonce =>
    intro desc p hp n hn
    exact h.nonce desc p hp n (hsub n p.func hn)

/-- An entry of `m_rdp_get` is erased. -/
theorem GetsInv.eraseRequest (h : GetsInv s) (desc : Int) :
    GetsInv { s with rdpGet := s.rdpGet.erase desc } := by
  constructor
  case ledger => exact h.ledger
  case timers => exact h.timers
  case made => exact fun d p hp => h.made d p (lookup_erase_eq_some.mp hp).2
  case nonce => exact fun d p hp => h.nonce d p (lookup_erase_eq_some.mp hp).2

theorem GetsInv.closeReply (h : GetsInv s) (desc : Int) : GetsInv (s.closeReply desc) :=
  { h with }

theorem GetsInv.setReply (h : GetsInv s) (desc : Int) (con : ReplyConn) :
    GetsInv (s.setReply desc con) :=
  { h with }

/-! ### Getting -/

theorem GetsInv.fail (h : GetsInv s) : GetsInv s.fail := by
  have hcalled : calledGets s.fail = calledGets s ++ [s.made] := calledGets_call s.made false ∅
  constructor
  case ledger =>
    rw [hcalled]
    exact h.ledger.atOnce
  case timers => exact h.timers
  case made => exact fun d p hp => Nat.lt_succ_of_lt (h.made d p hp)
  case nonce => exact h.nonce

theorem GetsInv.enter (h : GetsInv s) (hnew : s.getdata.lookup nonce = none) (isRdp : Bool)
    (desc : Int) : GetsInv (s.enter nonce isRdp desc) ∧
      ∀ n, owner (s.enter nonce isRdp desc) n = some s.made → n = nonce := by
  have howner : owner (s.enter nonce isRdp desc) =
      Function.update (owner s) nonce (some s.made) := map_lookup_insert ..
  have hnone : owner s nonce = none := by simp [owner, hnew]
  have hledger := h.ledger.make hnone
  have hself : owner (s.enter nonce isRdp desc) nonce = some s.made := by
    rw [howner, Function.update_self]
  refine ⟨?_, ?_⟩
  · constructor
    case ledger =>
      rw [howner]
      exact hledger
    case timers =>
      intro func n hn
      rcases lookup_insert_eq_some.mp hn with ⟨rfl, rfl⟩ | ⟨-, hn⟩
      · exact hself
      · have hold := h.timers func n hn
        have hne : n ≠ nonce := by
          rintro rfl
          exact nomatch hold.symm.trans hnone
        rw [howner, Function.update_of_ne hne]
        exact hold
    case made => exact fun d p hp => Nat.lt_succ_of_lt (h.made d p hp)
    case nonce =>
      intro d p hp n hn
      have hlt := h.made d p hp
      rw [howner] at hn
      -- The new record is not that of an older request.
      by_cases hne : n = nonce
      · rw [hne, Function.update_self] at hn
        have heq := Option.some.inj hn
        omega
      · rw [Function.update_of_ne hne] at hn
        exact h.nonce d p hp n hn
  · intro n hn
    rw [howner] at hn hself
    exact hledger.inj n nonce s.made hn hself

theorem GetsInv.getByRdp (h : GetsInv s) (hnew : s.getdata.lookup nonce = none) (desc : Int) :
    GetsInv (s.getByRdp nonce desc) := by
  obtain ⟨hinv, honly⟩ := h.enter hnew true desc
  constructor
  case ledger => exact hinv.ledger
  case timers => exact hinv.timers
  case made =>
    intro d p hp
    rcases lookup_insert_eq_some.mp hp with ⟨-, rfl⟩ | ⟨-, hp⟩
    · exact Nat.lt_succ_self s.made
    · exact hinv.made d p hp
  case nonce =>
    intro d p hp
    rcases lookup_insert_eq_some.mp hp with ⟨-, rfl⟩ | ⟨-, hp⟩
    · exact honly
    · exact hinv.nonce d p hp

theorem GetsInv.get (h : GetsInv s) (hnew : s.getdata.lookup nonce = none)
    (isRegistered isUseRdp : Bool) (keylen : BitVec 16) (desc : Int) :
    GetsInv (s.get isRegistered isUseRdp keylen nonce desc) := by
  unfold ClientGets.get
  split
  · exact h.fail
  · split
    · exact h.getByRdp hnew desc
    · split
      · exact h.fail
      · exact (h.enter hnew false desc).1

/-! ### The ends of a get -/

/-- A timer finds its record. -/
theorem GetsInv.timerGet (h : GetsInv s) {func : Nat} (hrun : s.timers.lookup func = some nonce) :
    ∃ s', { s with timers := s.timers.erase func }.timerGet func nonce = .ok s' ∧ GetsInv s' := by
  have hown := h.timers func nonce hrun
  obtain ⟨it, hit, rfl⟩ := Option.map_eq_some_iff.mp hown
  unfold ClientGets.timerGet
  simp only [hit]
  -- With a request connection its entry goes too. The values that came are reported.
  split
  · split
    · exact ⟨_, rfl, (h.finish hown true it.vset).eraseRequest it.desc⟩
    · exact ⟨_, rfl, (h.finish hown false ∅).eraseRequest it.desc⟩
  · split
    · exact ⟨_, rfl, h.finish hown true it.vset⟩
    · exact ⟨_, rfl, h.finish hown false ∅⟩

theorem GetsInv.recvGetReplyMsg (h : GetsInv s) (msg : List Byte) :
    GetsInv (s.recvGetReplyMsg msg) := by
  unfold ClientGets.recvGetReplyMsg
  split
  · exact h
  · split
    · exact h
    · dsimp only
      split
      · exact h
      · rename_i it hit
        have hown := owner_of_lookup hit
        split
        · -- The value is added, and the get ends where it was the last one.
          generalize (if it.total = 0 then (rd16 msg 74).toNat else it.total) = total
          split
          · exact h.finish hown true _
          · exact h.setRecord hown
        · exact h.finish hown false ∅

theorem GetsInv.clearDesc (h : GetsInv s) (p : RdpGet) : GetsInv (s.clearDesc p) := by
  unfold ClientGets.clearDesc
  split
  · exact h
  · rename_i it hit
    split
    · have hown := owner_of_lookup hit
      exact h.setRecord hown
    · exact h

theorem clearDesc_rdpGet : (s.clearDesc p).rdpGet = s.rdpGet := by
  unfold ClientGets.clearDesc
  split
  · rfl
  · split <;> rfl

/-- The request connection ends before the callback function was called. -/
theorem GetsInv.requestEnds (h : GetsInv s) (hown : owner s p.nonce = some p.func) :
    GetsInv (s.requestEnds desc p) := by
  obtain ⟨it, hit, hfunc⟩ := Option.map_eq_some_iff.mp hown
  have heq : s.requestEnds desc p =
      { s.finish p.nonce it false ∅ with rdpGet := s.rdpGet.erase desc } := by
    simp [ClientGets.requestEnds, ClientGets.finish, call, hit, hfunc]
  rw [heq]
  exact (h.finish (owner_of_lookup hit) false ∅).eraseRequest desc

/-- The request connection ends after the callback function was called. -/
theorem second_call (h : GetsInv s) (hp : s.rdpGet.lookup desc = some p)
    (hgone : owner s p.nonce ≠ some p.func) : ¬ OncePerGet (s.requestEnds desc p) := by
  -- The get has its record under this nonce or nowhere.
  have hnone : ∀ nonce, owner s nonce ≠ some p.func := by
    intro nonce hown
    rw [h.nonce desc p hp nonce hown] at hown
    exact hgone hown
  have hcalled : calledGets (s.requestEnds desc p) = calledGets s ++ [p.func] := by
    unfold ClientGets.requestEnds
    split <;> exact calledGets_call p.func false ∅
  intro hbad
  refine h.ledger.not_nodup (h.made desc p hp) hnone ?_
  rw [← hcalled]
  exact hbad.once

theorem GetsInv.rdpGetFunc (h : GetsInv s) {event : RdpEvent}
    (hok : InTime s (.request desc event)) : GetsInv (s.rdpGetFunc desc event) := by
  unfold ClientGets.rdpGetFunc
  split
  · exact h
  · rename_i p hp
    cases event with
    | connected => exact h
    | reset =>
      -- The server has read the request, and the reply is still to come.
      have hinv := (h.clearDesc p).eraseRequest desc
      rw [clearDesc_rdpGet] at hinv
      exact hinv
    | accepted | refused | failed | ready2read | broken =>
      exact h.requestEnds (hok nofun nofun p hp)

theorem GetsInv.closeRdp (h : GetsInv s) (desc : Int) (ptr : RdpRecvGetReply) :
    GetsInv (s.closeRdp desc ptr) := by
  unfold ClientGets.closeRdp
  split
  · exact h.closeReply desc
  · rename_i it hit
    exact (h.finish (owner_of_lookup hit) _ it.vset).closeReply desc

/-! ### The reads of a reply connection -/

/-- After a read that goes on, the entry is there with fewer packets than `n`. -/
structure ReadOk (desc : Int) (n : Nat) (r : Bool × ClientGets) : Prop where
  inv : GetsInv r.2
  goOn : r.1 = true → ∃ con, r.2.recvGetReply.lookup desc = some con ∧ con.rqueue.length < n

variable {con : ReplyConn} {now : Int}

theorem ReadOk.stop {n : Nat} (h : GetsInv s) : ReadOk desc n (false, s) := ⟨h, nofun⟩

theorem ReadOk.setReply {n : Nat} (h : GetsInv s) (hshort : con.rqueue.length < n) :
    ReadOk desc n (true, s.setReply desc con) :=
  ⟨h.setReply desc con, fun _ => ⟨con, AList.lookup_insert _, hshort⟩⟩

theorem readHdr_ok (h : GetsInv s) (uninit : List Byte) :
    ReadOk desc con.rqueue.length (readHdr uninit now desc con s) := by
  unfold readHdr
  dsimp only
  split
  · exact .stop (h.setReply ..)
  · rename_i hbytes
    have hshort := receive_length hbytes
    split
    · exact .stop (h.closeReply desc)
    · split
      · -- The flag `proxy_get_fail` ends the get.
        exact .stop (h.closeRdp desc _)
      · exact .setReply h hshort

theorem readValHdr_ok (h : GetsInv s) (uninit : List Byte) :
    ReadOk desc con.rqueue.length (readValHdr uninit now desc con s) := by
  unfold readValHdr
  split
  · exact .stop (h.closeReply desc)
  · dsimp only
    split
    · exact .stop (h.setReply ..)
    · rename_i hbytes
      exact .setReply h (receive_length hbytes)

theorem readValLoop_ok (h : GetsInv s) {rounds n : Nat} (hrounds : con.rqueue.length < rounds)
    (hn : con.rqueue.length ≤ n) (hown : owner s con.ptr.nonce = some it.func) :
    ∃ r, readValLoop now desc it rounds con s = .ok r ∧ ReadOk desc n r := by
  -- By the rounds. Each that goes on has read a packet, and keeps the nonce.
  induction rounds generalizing con with
  | zero => omega
  | succ rounds ih =>
    rw [readValLoop]
    dsimp only
    split
    · exact ⟨_, rfl, .stop (h.setReply ..)⟩
    · rename_i hbytes
      have hshort := receive_length hbytes
      split
      · refine ⟨_, rfl, ?_, fun _ => ⟨_, AList.lookup_insert _, Nat.lt_of_lt_of_le hshort hn⟩⟩
        exact (h.setReply ..).setRecord hown
      · refine ih ?_ ?_ hown
        · show (receive _ con.rqueue).2.length < rounds
          omega
        · exact Nat.le_trans (Nat.le_of_lt hshort) hn

theorem read_ok (h : GetsInv s) (uninit : List Byte) (now desc : Int) (con : ReplyConn) :
    ∃ r, ClientGets.read uninit now desc con s = .ok r ∧ ReadOk desc con.rqueue.length r := by
  unfold ClientGets.read
  split
  · exact ⟨_, rfl, readHdr_ok h uninit⟩
  · exact ⟨_, rfl, readValHdr_ok h uninit⟩
  · unfold readVal
    split
    · exact ⟨_, rfl, .stop (h.closeReply desc)⟩
    · rename_i it hit
      exact readValLoop_ok h (Nat.lt_succ_self _) (Nat.le_refl _) (owner_of_lookup hit)

theorem ready2ReadLoop_ok (h : GetsInv s) (uninit : List Byte) {rounds : Nat}
    (hcon : s.recvGetReply.lookup desc = some con) (hrounds : con.rqueue.length < rounds) :
    ∃ s', ready2ReadLoop uninit now desc rounds s = .ok s' ∧ GetsInv s' := by
  -- By the rounds. A read that goes on leaves the entry with fewer packets.
  induction rounds generalizing s con with
  | zero => omega
  | succ rounds ih =>
    obtain ⟨r, hread, hok⟩ := read_ok h uninit now desc con
    rw [ready2ReadLoop]
    simp only [hcon, hread, ok_bind]
    split
    · rename_i hgo
      obtain ⟨con', hcon', hshort⟩ := hok.goOn hgo
      exact ih hok.inv hcon' (by omega)
    · exact ⟨r.2, rfl, hok.inv⟩

theorem GetsInv.ready2Read (h : GetsInv s) (uninit : List Byte) (now desc : Int)
    (con : ReplyConn) (packets : List (List Byte)) :
    ∃ s', s.ready2Read uninit now desc con packets = .ok s' ∧ GetsInv s' := by
  unfold ClientGets.ready2Read
  dsimp only
  split
  · exact ⟨s, rfl, h⟩
  · exact ready2ReadLoop_ok (h.setReply ..) uninit (AList.lookup_insert _) (Nat.lt_succ_self _)

/-! ### The sweep -/

theorem Sweepable.closeReply (h : Sweepable s desc) (desc' : Int) :
    Sweepable (s.closeReply desc') desc := by
  intro con hcon
  exact h con (lookup_erase_eq_some.mp hcon).2

theorem Sweepable.of_closeReply {desc' : Int} (h : Sweepable (s.closeReply desc') desc)
    (hne : desc ≠ desc') : Sweepable s desc := by
  intro con hcon
  exact h con (lookup_erase_eq_some.mpr ⟨hne, hcon⟩)

/-- A round of the loop closes the connection or not. -/
theorem sweepOne_ok (h : Sweepable s desc) :
    s.sweepOne desc = .ok s ∨ s.sweepOne desc = .ok (s.closeReply desc) := by
  unfold sweepOne
  split
  · exact Or.inl rfl
  · rename_i con hcon
    split
    · rename_i htime
      split
      · exact Or.inr rfl
      · rename_i hstate
        split
        · rename_i hnone
          exact absurd hnone (h con hcon htime hstate)
        · exact Or.inr rfl
    · exact Or.inl rfl

theorem sweepOne_faults (h : ¬ Sweepable s desc) : s.sweepOne desc = .error .endDeref := by
  simp only [Sweepable, not_forall, not_not] at h
  obtain ⟨con, hcon, htime, hstate, hnone⟩ := h
  simp [sweepOne, hcon, htime, hstate, hnone]

theorem sweepLoop_ok (h : GetsInv s) {descs : List Int} (hok : ∀ desc ∈ descs, Sweepable s desc) :
    ∃ s', sweepLoop descs s = .ok s' ∧ GetsInv s' := by
  induction descs generalizing s with
  | nil => exact ⟨s, rfl, h⟩
  | cons desc descs ih =>
    rw [List.forall_mem_cons] at hok
    rw [sweepLoop]
    rcases sweepOne_ok hok.1 with heq | heq
    · rw [heq]
      exact ih h hok.2
    · rw [heq]
      exact ih (h.closeReply desc) fun d hd => (hok.2 d hd).closeReply desc

/-- Where the loop comes to its end, it found what it used. -/
theorem sweepable_of_sweepLoop {descs : List Int} {s' : ClientGets}
    (hsweep : sweepLoop descs s = .ok s') : ∀ desc ∈ descs, Sweepable s desc := by
  induction descs generalizing s with
  | nil => exact nofun
  | cons desc descs ih =>
    rw [sweepLoop] at hsweep
    have hfirst : Sweepable s desc := by
      by_contra hnot
      rw [sweepOne_faults hnot] at hsweep
      exact nomatch hsweep
    rw [List.forall_mem_cons]
    refine ⟨hfirst, ?_⟩
    intro d hd
    rcases sweepOne_ok hfirst with heq | heq
    · rw [heq] at hsweep
      exact ih hsweep d hd
    · rw [heq] at hsweep
      -- What the first round closed was looked at in the first round.
      by_cases hne : d = desc
      · rw [hne]
        exact hfirst
      · exact (ih hsweep d hd).of_closeReply hne

theorem sweepable_of_sweepRdp {s' : ClientGets} (hsweep : s.sweepRdp = .ok s') (desc : Int) :
    Sweepable s desc := by
  intro con hcon
  refine sweepable_of_sweepLoop hsweep desc ?_ con hcon
  rw [List.mem_mergeSort, ← AList.mem_keys, ← AList.lookup_isSome, hcon]
  rfl

/-! ### The events -/

/-- One event that is in time. -/
theorem GetsInv.step (h : GetsInv s) {i : Input} (hok : InTime s i) :
    ∃ s', s.step i = .ok s' ∧ GetsInv s' := by
  cases i with
  | get isRegistered isUseRdp keylen nonce desc =>
    dsimp only [ClientGets.step]
    split
    · rename_i hnew
      exact ⟨_, rfl, h.get (Option.isNone_iff_eq_none.mp hnew) isRegistered isUseRdp keylen _⟩
    · exact ⟨s, rfl, h⟩
  | timerGet func =>
    dsimp only [ClientGets.step]
    cases hrun : s.timers.lookup func with
    | none => exact ⟨s, rfl, h⟩
    | some nonce => exact h.timerGet hrun
  | recvGetReply msg =>
    refine ⟨_, rfl, ?_⟩
    split
    · exact h.recvGetReplyMsg msg
    · exact h
  -- `hok` says that the record is still there when the request is sent.
  | request desc event => exact ⟨_, rfl, h.rdpGetFunc hok⟩
  | accepted now desc valuelen valRead nonce =>
    refine ⟨_, rfl, ?_⟩
    split
    · exact h.setReply ..
    · exact h
  | ready2Read now desc packets uninit =>
    dsimp only [ClientGets.step]
    cases s.recvGetReply.lookup desc with
    | none => exact ⟨s, rfl, h⟩
    | some con => exact h.ready2Read uninit now desc con packets
  | replyEnds desc =>
    dsimp only [ClientGets.step]
    cases s.recvGetReply.lookup desc with
    | none => exact ⟨s, rfl, h⟩
    | some con => exact ⟨_, rfl, h.closeRdp desc con.ptr⟩
  | sweepRdp => exact sweepLoop_ok h fun desc _ => hok desc

/-- A late end of a request connection is a second call, and a sweep that is too late does not
come to its end. -/
theorem step_breaks (h : GetsInv s) {i : Input} (hnot : ¬ InTime s i) {s' : ClientGets}
    (hstep : s.step i = .ok s') : ¬ OncePerGet s' := by
  cases i with
  | get | timerGet | recvGetReply | accepted | ready2Read | replyEnds => exact absurd trivial hnot
  | request desc event =>
    simp only [InTime, not_forall] at hnot
    obtain ⟨hconnected, hreset, p, hp, hgone⟩ := hnot
    obtain rfl := Except.ok.inj hstep
    have heq : s.rdpGetFunc desc event = s.requestEnds desc p := by
      cases event with
      | connected => exact absurd rfl hconnected
      | reset => exact absurd rfl hreset
      | accepted | refused | failed | ready2read | broken => simp [rdpGetFunc, hp]
    rw [heq]
    exact second_call h hp hgone
  | sweepRdp =>
    -- Such a sweep has no next state.
    exact absurd (sweepable_of_sweepRdp hstep) hnot

end

/-- In all orders of events, a callback function is called once, when its get leaves `m_getdata`,
exactly where no request connection ends after that, and `sweep_rdp` finds the gets of the reply
connections that it closes. -/
theorem oncePerGet_iff_inTime (id : Id) (is : List Input) :
    Always ClientGets.step OncePerGet (.init id) is ↔
      Allowed ClientGets.step InTime (.init id) is := by
  refine always_iff_allowed GetsInv ?_ ?_ ?_ (getsInv_init id) is
  · intro s h
    exact h.ok
  · intro s i h hok
    exact h.step hok
  · intro s i s' h hnot hstep
    exact step_breaks h hnot hstep

/-- A get whose value is not found is answered over the reply connection 6, and then its request
connection 5 breaks. -/
def lateEnd : List Input :=
  [.get true true 3 7 5, .request 5 .connected, .accepted 40 6 0 0 0,
    .ready2Read 40 6 [MsgProxyRdpGetReply.encode ⟨7, 2, proxyGetFail⟩] [], .request 5 .broken]

/-- The callback function of the get is called a second time. -/
theorem late_end_calls_again : ¬ Always ClientGets.step OncePerGet (.init 1) lateEnd := by
  intro h
  obtain ⟨s', hrun, hok⟩ := h.ends
  have hcalled : (run ClientGets.step (.init 1) lateEnd).map calledGets = .ok [0, 0] := rfl
  rw [hrun] at hcalled
  have honce := hok.once
  rw [Except.ok.inj hcalled] at honce
  exact absurd honce (by decide)

end Libcage.Proofs.ClientGets
