import Mathlib
import Libcage.Proofs.Rdp.DeferredCloses

/-!
# `Libcage.Proofs.Rdp.TimerWalk`: the timer and callbacks that close connections

The timer goes to the next element of `m_desc2conn` before it calls a callback, and what the
callback closes is taken out when it returns. So the element that the timer goes on with may
be gone. `ClosesNext` says when that happens, and `tolerates_iff` that nothing else can go
wrong: the timer handles every connection once that is there at the beginning and stays.

`Handled` is what one round does to the connections, from the lemmas about events. `Round` is
a round, and `Walk` keeps what was handled so far. The fuel of `tick` is enough for any walk
(`tickLoop_reaches`): a round uses up an element, and a callback adds at most one element with
each of its calls.
-/

set_option autoImplicit false

namespace Libcage.Proofs.Rdp

open Libcage.Lib
open Libcage.Rdp
open Relation (ReflTransGen)

/-! ### The order of the elements -/

section
variable {r : Members} {p : Int → Bool} {desc : Int} {ptr : ConPtr}

theorem leastEntry_eq (r : Members) (p : Int → Bool) :
    r.leastEntry p = ((r.desc2conn.entries.filter fun e => p e.1).argmin Sigma.fst).map
      fun e => (e.1, e.2) := by
  show List.foldl _ (Option.map (fun e : Sigma fun _ : Int => ConPtr => (e.1, e.2)) none) _
    = Option.map _ (List.foldl _ none _)
  -- Both folds keep the least element so far.
  refine List.foldl_hom _ ?_
  intro best e
  cases best with
  | none => rfl
  | some b =>
    simp only [Option.map_some, List.argAux]
    split <;> rfl

/-- The element is there, and no other one that satisfies `p` comes before it. -/
theorem leastEntry_eq_some (h : r.leastEntry p = some (desc, ptr)) :
    r.desc2conn.lookup desc = some ptr ∧ p desc = true ∧
      ∀ d q, r.desc2conn.lookup d = some q → p d = true → desc ≤ d := by
  rw [leastEntry_eq] at h
  obtain ⟨⟨d₀, q₀⟩, hmin, heq⟩ := Option.map_eq_some_iff.mp h
  obtain ⟨rfl, rfl⟩ := Prod.mk.inj heq
  obtain ⟨hmem, hp⟩ := List.mem_filter.mp (List.argmin_mem hmin)
  refine ⟨AList.mem_lookup_iff.mpr hmem, hp, fun d q hlook hd => ?_⟩
  have hd' : (⟨d, q⟩ : Sigma fun _ : Int => ConPtr) ∈ r.desc2conn.entries.filter fun e => p e.1 :=
    List.mem_filter.mpr ⟨AList.mem_lookup_iff.mp hlook, hd⟩
  exact List.le_of_mem_argmin hd' hmin

theorem leastEntry_eq_none (h : r.leastEntry p = none) {d : Int} {q : ConPtr}
    (hlook : r.desc2conn.lookup d = some q) : p d = false := by
  rw [leastEntry_eq, Option.map_eq_none_iff, List.argmin_eq_none] at h
  have hnot := List.filter_eq_nil_iff.mp h _ (AList.mem_lookup_iff.mp hlook)
  simpa using hnot

/-- The first element is not behind any other. -/
theorem beginEntry_le {d : Int} {q : ConPtr} (hlook : r.desc2conn.lookup d = some q) :
    ∃ desc ptr, r.beginEntry = some (desc, ptr) ∧ desc ≤ d := by
  cases h : r.beginEntry with
  | none => cases leastEntry_eq_none h hlook
  | some e => exact ⟨e.1, e.2, rfl, (leastEntry_eq_some h).2.2 d q hlook rfl⟩

/-- The next element is not behind any other that comes after this one. -/
theorem nextEntry_le {d : Int} {q : ConPtr} (hlook : r.desc2conn.lookup d = some q)
    (hlt : desc < d) : ∃ desc' ptr', r.nextEntry desc = some (desc', ptr') ∧ desc' ≤ d := by
  cases h : r.nextEntry desc with
  | none =>
    have hfalse := leastEntry_eq_none h hlook
    simp [hlt] at hfalse
  | some e => exact ⟨e.1, e.2, rfl, (leastEntry_eq_some h).2.2 d q hlook (decide_eq_true hlt)⟩

theorem lt_nextEntry {desc' : Int} {ptr' : ConPtr} (h : r.nextEntry desc = some (desc', ptr')) :
    r.desc2conn.lookup desc' = some ptr' ∧ desc < desc' :=
  ⟨(leastEntry_eq_some h).1, of_decide_eq_true (leastEntry_eq_some h).2.1⟩

end

/-! ### A round -/

/-- The timer raises an event: an active handshake has run out of retries, or an open
connection has. -/
def Raises (w : World) (c : RdpCon) : Prop :=
  match c.state with
  | .synSent | .synRcvd => w.rdp.maxRetrans ≤ c.synTout ∧ c.isPasv = false
  | .opened => ∃ c' out, c.retransmit w.env.clock w.rdp.maxRetrans = .ok (false, c', out)
  | .closed | .listen | .closeWaitPasv | .closeWaitActive => False

/-- The round calls a callback. -/
def Calls (w : World) (desc : Int) (ptr : ConPtr) : Prop :=
  Raises w (w.rdp.con ptr) ∧ (w.rdp.desc2event.lookup desc).isSome = true

/-- The callback of the round closes a descriptor in one of the states CLOSED, SYN_SENT and
SYN_RCVD. -/
def CallbackCloses (w : World) (desc : Int) (ptr : ConPtr) (d : Int) (p : ConPtr) : Prop :=
  Calls w desc ptr ∧ Call.close d ∈ reaction w ∧ released (w.rdp.con p).state = true

/-- How many calls the callbacks to come make. -/
def pending (w : World) : Nat := (w.env.reactions.map List.length).sum

/-- What a round does to the connections other than its own. -/
structure Handled (desc : Int) (ptr : ConPtr) (w w' : World) : Prop where
  kept : ∀ {d p}, w.rdp.desc2conn.lookup d = some p → d ≠ desc →
    ¬ CallbackCloses w desc ptr d p → w'.rdp.desc2conn.lookup d = some p
  gone : ∀ {d p}, w.rdp.desc2conn.lookup d = some p → d ≠ desc → CallbackCloses w desc ptr d p →
    w'.rdp.desc2conn.lookup d = none
  entries_le : ∀ q, entries q w'.rdp + pending w' ≤ entries q w.rdp + pending w

section
variable {w w₁ w' : World} {desc : Int} {ptr : ConPtr}

/-- A round without an event changes the record. -/
theorem Still.handled (h : Still w w') (hnot : ¬ Raises w (w.rdp.con ptr)) :
    Handled desc ptr w w' where
  kept hlook _ _ := by rw [h.desc2conn, hlook]
  gone _ _ hcloses := absurd hcloses.1.1 hnot
  entries_le q := by
    rw [entries, h.desc2conn, pending, h.reactions]
    exact le_rfl

/-- A round without an event takes its connection out. -/
theorem handled_eraseCon (hnot : ¬ Raises w (w.rdp.con ptr)) (addr : RdpAddr) :
    Handled desc ptr w { w with rdp := w.rdp.eraseCon desc addr } where
  kept hlook hne _ := (AList.lookup_erase_ne hne).trans hlook
  gone _ _ hcloses := absurd hcloses.1.1 hnot
  entries_le q := by
    refine Nat.add_le_add_right ?_ _
    show ((w.rdp.desc2conn.erase desc).keys).countP q ≤ w.rdp.desc2conn.keys.countP q
    rw [AList.keys_erase]
    exact List.Sublist.countP_le List.erase_sublist

theorem reaction_add_pending (w : World) :
    (reaction w).length + (w.env.reactions.tail.map List.length).sum = pending w := by
  unfold reaction pending
  cases w.env.reactions with
  | nil => rfl
  | cons calls rest => simp

/-- A round with an event, after a change of its record. -/
theorem handled_event {event : RdpEvent} {c : RdpCon} {out : List Emitted} (h : Indexed w.rdp)
    (hrest : AtRest w.rdp) (hlook : w.rdp.desc2conn.lookup desc = some ptr)
    (hraises : Raises w (w.rdp.con ptr))
    (hrun : invokeEvent desc 0 event (conStep w ptr c out) = .ok ((), w'))
    (haddr : c.addr = (w.rdp.con ptr).addr) (hdesc : c.desc = (w.rdp.con ptr).desc) :
    Handled desc ptr w w' := by
  have h₁ : Indexed (conStep w ptr c out).rdp := h.setCon haddr hdesc
  have hinvoked := invokeEvent_invoked h₁ hrest hrun
  -- The other records are as they were.
  have hcon : ∀ {d p}, w.rdp.desc2conn.lookup d = some p → d ≠ desc →
      (conStep w ptr c out).rdp.con p = w.rdp.con p := by
    intro d p hd hne
    refine Function.update_of_ne ?_ _ _
    rintro rfl
    exact hne ((h.con_desc hd).symm.trans (h.con_desc hlook))
  have hcalls : Calls w desc ptr ↔
      ((conStep w ptr c out).rdp.desc2event.lookup desc).isSome = true :=
    ⟨And.right, fun hsome => ⟨hraises, hsome⟩⟩
  split at hinvoked
  · rename_i hsome
    refine ⟨fun hd hne hnot => ?_, fun hd hne hcloses => ?_, fun q => ?_⟩
    · refine hinvoked.kept hd fun hbad => hnot ⟨hcalls.mpr hsome, hbad.1, ?_⟩
      rw [← hcon hd hne]
      exact hbad.2
    · refine hinvoked.gone hd hcloses.2.1 ?_
      rw [hcon hd hne]
      exact hcloses.2.2
    · have hle : entries q w'.rdp ≤ entries q w.rdp + (reaction w).length := hinvoked.entries_le q
      have hpending : pending w' = (w.env.reactions.tail.map List.length).sum := by
        rw [pending, hinvoked.reactions]
        rfl
      have hsum := reaction_add_pending w
      omega
  · rename_i hnone
    subst hinvoked
    refine ⟨fun hd _ _ => hd, fun _ _ hcloses => ?_, fun _ => le_rfl⟩
    exact absurd (hcalls.mp hcloses.1) hnone

/-- What a round finds and leaves. -/
structure RoundSpec (desc : Int) (ptr : ConPtr) (next : Option (Int × ConPtr)) (w w' : World) :
    Prop where
  lookup : w.rdp.desc2conn.lookup desc = some ptr
  next : next = w.rdp.nextEntry desc
  handled : Handled desc ptr w w'

variable {next : Option (Int × ConPtr)}

theorem tickSyn_round (h : Indexed w.rdp) (hrest : AtRest w.rdp)
    (hlook : w.rdp.desc2conn.lookup desc = some ptr)
    (hraises : Raises w (w.rdp.con ptr) ↔
      w.rdp.maxRetrans ≤ (w.rdp.con ptr).synTout ∧ (w.rdp.con ptr).isPasv = false)
    (hrun : tickSyn desc ptr w = .ok (next, w')) : RoundSpec desc ptr next w w' := by
  unfold tickSyn at hrun
  rw [run_get_bind] at hrun
  obtain ⟨c, _, hcon, hrun⟩ := run_bind_eq_ok hrun
  obtain ⟨rfl, rfl⟩ := Prod.mk.inj (Except.ok.inj hcon)
  dsimp only at hrun
  by_cases htout : (w.rdp.con ptr).synTout ≥ w.rdp.maxRetrans
  · rw [if_pos htout] at hrun
    by_cases hpasv : (w.rdp.con ptr).isPasv = true
    · -- A passive handshake is given up without an event.
      rw [if_pos hpasv] at hrun
      obtain ⟨rfl, rfl⟩ := Prod.mk.inj (Except.ok.inj hrun)
      refine ⟨hlook, rfl, handled_eraseCon (fun hbad => ?_) _⟩
      rw [(hraises.mp hbad).2] at hpasv
      cases hpasv
    · rw [if_neg hpasv] at hrun
      obtain ⟨⟨⟩, w₁, hset, hrun⟩ := run_bind_eq_ok hrun
      rw [setCon_run] at hset
      obtain ⟨-, rfl⟩ := Prod.mk.inj (Except.ok.inj hset)
      obtain ⟨⟨⟩, w₂, hevent, hrun⟩ := run_bind_eq_ok hrun
      obtain ⟨rfl, rfl⟩ := Prod.mk.inj (Except.ok.inj hrun)
      exact ⟨hlook, rfl, handled_event h hrest hlook
        (hraises.mpr ⟨htout, Bool.eq_false_of_not_eq_true hpasv⟩) hevent rfl rfl⟩
  · have hnot : ¬ Raises w (w.rdp.con ptr) := fun hbad => htout (hraises.mp hbad).1
    rw [if_neg htout] at hrun
    by_cases hdiff : timeNull w.env.clock - (w.rdp.con ptr).synTime > (w.rdp.con ptr).synTout
    · rw [if_pos hdiff] at hrun
      obtain ⟨⟨⟩, w₁, hout, hrun⟩ := run_bind_eq_ok hrun
      obtain ⟨⟨⟩, w₂, hset, hrun⟩ := run_bind_eq_ok hrun
      obtain ⟨rfl, rfl⟩ := Prod.mk.inj (Except.ok.inj hrun)
      exact ⟨hlook, rfl, ((outputCon_still hout).trans (setCon_still hset)).handled hnot⟩
    · rw [if_neg hdiff] at hrun
      obtain ⟨rfl, rfl⟩ := Prod.mk.inj (Except.ok.inj hrun)
      exact ⟨hlook, rfl, (Still.refl w).handled hnot⟩

theorem tickRst_round (hlook : w.rdp.desc2conn.lookup desc = some ptr)
    (hnot : ¬ Raises w (w.rdp.con ptr)) (hrun : tickRst desc ptr w = .ok (next, w')) :
    RoundSpec desc ptr next w w' := by
  unfold tickRst at hrun
  rw [run_get_bind] at hrun
  obtain ⟨c, _, hcon, hrun⟩ := run_bind_eq_ok hrun
  obtain ⟨rfl, rfl⟩ := Prod.mk.inj (Except.ok.inj hcon)
  dsimp only at hrun
  by_cases htout : (w.rdp.con ptr).rstTout ≥ w.rdp.maxRetrans
  · rw [if_pos htout] at hrun
    by_cases hclosed : (w.rdp.con ptr).isClosed = true
    · -- The application has closed it, so the record goes.
      rw [if_pos hclosed] at hrun
      obtain ⟨rfl, rfl⟩ := Prod.mk.inj (Except.ok.inj hrun)
      exact ⟨hlook, rfl, handled_eraseCon hnot _⟩
    · rw [if_neg hclosed] at hrun
      obtain ⟨⟨⟩, w₁, hset, hrun⟩ := run_bind_eq_ok hrun
      obtain ⟨rfl, rfl⟩ := Prod.mk.inj (Except.ok.inj hrun)
      exact ⟨hlook, rfl, (setCon_still hset).handled hnot⟩
  · rw [if_neg htout] at hrun
    by_cases hdiff : timeNull w.env.clock - (w.rdp.con ptr).rstTime > (w.rdp.con ptr).rstTout
    · rw [if_pos hdiff] at hrun
      obtain ⟨⟨⟩, w₁, hset, hrun⟩ := run_bind_eq_ok hrun
      by_cases hretry : (w.rdp.con ptr).isRetryRst = true
      · rw [if_pos hretry] at hrun
        obtain ⟨⟨⟩, w₂, hout, hrun⟩ := run_bind_eq_ok hrun
        obtain ⟨rfl, rfl⟩ := Prod.mk.inj (Except.ok.inj hrun)
        exact ⟨hlook, rfl, ((setCon_still hset).trans (outputCon_still hout)).handled hnot⟩
      · rw [if_neg hretry] at hrun
        obtain ⟨rfl, rfl⟩ := Prod.mk.inj (Except.ok.inj hrun)
        exact ⟨hlook, rfl, (setCon_still hset).handled hnot⟩
    · rw [if_neg hdiff] at hrun
      obtain ⟨rfl, rfl⟩ := Prod.mk.inj (Except.ok.inj hrun)
      exact ⟨hlook, rfl, (Still.refl w).handled hnot⟩

theorem tickOpen_round (h : Indexed w.rdp) (hrest : AtRest w.rdp)
    (hlook : w.rdp.desc2conn.lookup desc = some ptr)
    (hraises : Raises w (w.rdp.con ptr) ↔ ∃ c' out,
      (w.rdp.con ptr).retransmit w.env.clock w.rdp.maxRetrans = .ok (false, c', out))
    (hrun : tickOpen desc ptr w = .ok (next, w')) : RoundSpec desc ptr next w w' := by
  unfold tickOpen at hrun
  rw [run_get_bind] at hrun
  obtain ⟨c, _, hcon, hrun⟩ := run_bind_eq_ok hrun
  obtain ⟨rfl, rfl⟩ := Prod.mk.inj (Except.ok.inj hcon)
  obtain ⟨alive, w₁, hretrans, hrun⟩ := run_bind_eq_ok hrun
  rw [onCon_run] at hretrans
  obtain ⟨⟨alive', c', out⟩, hresult, hend⟩ := bind_eq_ok hretrans
  obtain ⟨rfl, rfl⟩ := Prod.mk.inj (Except.ok.inj hend)
  obtain ⟨c₁, more, hout, hwork, hc⟩ :=
    (retransmit_ends w.env.clock w.rdp.maxRetrans (w.rdp.con ptr)).of_ok hresult
  dsimp only at hrun
  cases alive' with
  | false =>
    -- A segment has run out of retries.
    obtain rfl : c' = { c₁ with state := .closed } := hc
    rw [if_pos nofun] at hrun
    obtain ⟨⟨⟩, w₂, hevent, hrun⟩ := run_bind_eq_ok hrun
    obtain ⟨rfl, rfl⟩ := Prod.mk.inj (Except.ok.inj hrun)
    rw [h.con_desc hlook] at hevent
    exact ⟨hlook, rfl, handled_event h hrest hlook (hraises.mpr ⟨_, out, hresult⟩) hevent
      hwork.kept.addr hwork.kept.desc⟩
  | true =>
    have hnot : ¬ Raises w (w.rdp.con ptr) := by
      intro hbad
      obtain ⟨c₂, out₂, hfalse⟩ := hraises.mp hbad
      cases hresult.symm.trans hfalse
    have hstill := still_conStep w ptr c' out
    rw [if_neg (not_not.mpr rfl)] at hrun
    obtain ⟨c₂, _, hcon, hrun⟩ := run_bind_eq_ok hrun
    obtain ⟨rfl, rfl⟩ := Prod.mk.inj (Except.ok.inj hcon)
    split at hrun
    · obtain ⟨⟨⟩, w₂, hack, hrun⟩ := run_bind_eq_ok hrun
      obtain ⟨rfl, rfl⟩ := Prod.mk.inj (Except.ok.inj hrun)
      have hack' := still_of_traces (onCon_still _ _ _) hack
      exact ⟨hlook, rfl, (hstill.trans hack').handled hnot⟩
    · obtain ⟨rfl, rfl⟩ := Prod.mk.inj (Except.ok.inj hrun)
      exact ⟨hlook, rfl, hstill.handled hnot⟩

/-- What a round of the timer's loop does. -/
theorem tickEntry_round (h : Indexed w.rdp) (hrest : AtRest w.rdp)
    (hrun : tickEntry desc ptr w = .ok (next, w')) : RoundSpec desc ptr next w w' := by
  unfold tickEntry at hrun
  rw [run_get_bind] at hrun
  by_cases hlook : w.rdp.desc2conn.lookup desc = some ptr
  case neg =>
    -- The element has gone: the iterator is not valid.
    rw [if_pos hlook] at hrun
    cases hrun
  -- What a round does depends on the state only.
  rw [if_neg (not_not.mpr hlook)] at hrun
  cases hstate : (w.rdp.con ptr).state with
  | synSent =>
    rw [hstate] at hrun
    exact tickSyn_round h hrest hlook (by rw [Raises, hstate]) hrun
  | synRcvd =>
    rw [hstate] at hrun
    exact tickSyn_round h hrest hlook (by rw [Raises, hstate]) hrun
  | closeWaitActive =>
    rw [hstate] at hrun
    exact tickRst_round hlook (by rw [Raises, hstate]; exact id) hrun
  | closeWaitPasv =>
    rw [hstate] at hrun
    exact tickRst_round hlook (by rw [Raises, hstate]; exact id) hrun
  | opened =>
    rw [hstate] at hrun
    exact tickOpen_round h hrest hlook (by rw [Raises, hstate]) hrun
  | closed =>
    rw [hstate] at hrun
    obtain ⟨rfl, rfl⟩ := Prod.mk.inj (Except.ok.inj hrun)
    exact ⟨hlook, rfl, (Still.refl w).handled (by rw [Raises, hstate]; exact id)⟩
  | listen =>
    rw [hstate] at hrun
    obtain ⟨rfl, rfl⟩ := Prod.mk.inj (Except.ok.inj hrun)
    exact ⟨hlook, rfl, (Still.refl w).handled (by rw [Raises, hstate]; exact id)⟩

/-- The tables after a round are as they should be, and no close waits. -/
theorem tickEntry_started (h : Started w.rdp) (hrun : tickEntry desc ptr w = .ok (next, w')) :
    Started w'.rdp := by
  have hinv := (tickEntry_traces (r := w.rdp) (i := .tick) w h.indexed desc ptr).inv
    (fun w => Indexed w.rdp ∧ AtRest w.rdp)
    (fun _ _ h hstep => ⟨h.1.micro hstep, h.2.micro hstep⟩) ⟨h.indexed, h.atRest⟩ hrun
  exact ⟨hinv.1, hinv.2⟩

/-- A round on an element that is gone. -/
theorem tickEntry_dangling (hgone : w.rdp.desc2conn.lookup desc ≠ some ptr) :
    tickEntry desc ptr w = .error .dangling := by
  unfold tickEntry
  rw [run_get_bind, if_pos hgone]
  rfl

end

/-! ### The walk -/

/-- The timer on its way: the element it is at, and those it has handled. -/
structure Walk where
  world : World
  next : Option (Int × ConPtr)
  handled : List (Int × ConPtr)

/-- The beginning of the walk. -/
def Walk.start (r : Members) (env : Env) : Walk := ⟨.start r env, r.beginEntry, []⟩

/-- A round that runs to its end. -/
inductive Round : Walk → Walk → Prop
  | intro {w w' : World} {desc : Int} {ptr : ConPtr} {next : Option (Int × ConPtr)}
      {handled : List (Int × ConPtr)} (h : tickEntry desc ptr w = .ok (next, w')) :
      Round ⟨w, some (desc, ptr), handled⟩ ⟨w', next, handled ++ [(desc, ptr)]⟩

/-- The timer gets there. -/
def Reaches (r : Members) (env : Env) (s : Walk) : Prop := ReflTransGen Round (.start r env) s

/-- The element that the timer is at is in the table. -/
def Walk.Alive (s : Walk) : Prop :=
  ∀ desc ptr, s.next = some (desc, ptr) → s.world.rdp.desc2conn.lookup desc = some ptr

/-- The callback of the round closes the connection behind it, in one of the states CLOSED,
SYN_SENT and SYN_RCVD. -/
def Walk.ClosesNext (s : Walk) : Prop :=
  ∃ desc ptr d p, s.next = some (desc, ptr) ∧ s.world.rdp.nextEntry desc = some (d, p) ∧
    CallbackCloses s.world desc ptr d p

/-- The connection is there from the beginning of the walk to its end. -/
def Stays (r : Members) (env : Env) (desc : Int) (ptr : ConPtr) : Prop :=
  ∀ s, Reaches r env s → s.world.rdp.desc2conn.lookup desc = some ptr

/-- What the timer has to do. -/
structure Tolerates (r : Members) (env : Env) : Prop where
  alive : ∀ s, Reaches r env s → s.Alive
  once : ∀ s, Reaches r env s → s.next = none → ∀ desc ptr, Stays r env desc ptr →
    s.handled.count (desc, ptr) = 1

/-- No round that runs to its end closes the next element. -/
def SparesNext (r : Members) (env : Env) : Prop :=
  ∀ s s', Reaches r env s → Round s s' → ¬ s.ClosesNext

section
variable {r : Members} {env : Env} {s s' : Walk}

theorem started_of_reaches (hr : Started r) (h : Reaches r env s) : Started s.world.rdp := by
  induction h with
  | refl => exact hr
  | tail _ hround ih =>
    cases hround with
    | intro hrun => exact tickEntry_started ih hrun

/-- An element that the callback does not close is there when the timer comes to it. -/
theorem Round.alive (hround : Round s s') (hs : Started s.world.rdp) :
    s'.Alive ↔ ¬ s.ClosesNext := by
  cases hround with
  | @intro w w' desc ptr next handled hrun =>
    have hspec := tickEntry_round hs.indexed hs.atRest hrun
    constructor
    · rintro halive ⟨desc', ptr', d, p, heq, hnext, hcloses⟩
      obtain ⟨rfl, rfl⟩ := Prod.mk.inj (Option.some.inj heq)
      obtain ⟨hlook, hlt⟩ := lt_nextEntry hnext
      have hgone := hspec.handled.gone hlook (ne_of_gt hlt) hcloses
      have hthere := halive d p (hspec.next.trans hnext)
      rw [hgone] at hthere
      cases hthere
    · intro hspares d p hnext
      have hnext' : w.rdp.nextEntry desc = some (d, p) := hspec.next.symm.trans hnext
      obtain ⟨hlook, hlt⟩ := lt_nextEntry hnext'
      exact hspec.handled.kept hlook (ne_of_gt hlt) fun hcloses =>
        hspares ⟨desc, ptr, d, p, rfl, hnext', hcloses⟩

theorem alive_of_sparesNext (hr : Started r) (hspares : SparesNext r env) (h : Reaches r env s) :
    s.Alive := by
  -- By the rounds so far: the last one has spared the element that the timer is at.
  induction h with
  | refl =>
    intro desc ptr hnext
    have hbegin : r.leastEntry (fun _ => true) = some (desc, ptr) := hnext
    exact (leastEntry_eq_some hbegin).1
  | tail hreach hround _ =>
    exact (hround.alive (started_of_reaches hr hreach)).mpr (hspares _ _ hreach hround)

/-! ### Every connection once -/

/-- The connection is not handled yet and the timer is not past it, or it was handled once and
the timer is past it. -/
def Once (desc : Int) (ptr : ConPtr) (s : Walk) : Prop :=
  s.handled.count (desc, ptr) = 0 ∧ (∃ d p, s.next = some (d, p) ∧ d ≤ desc) ∨
    s.handled.count (desc, ptr) = 1 ∧ ∀ d p, s.next = some (d, p) → desc < d

theorem Round.once {desc : Int} {ptr : ConPtr} (hround : Round s s') (hs : Started s.world.rdp)
    (hlook : s.world.rdp.desc2conn.lookup desc = some ptr) (h : Once desc ptr s) :
    Once desc ptr s' := by
  cases hround with
  | @intro w w' d p next handled hrun =>
    have hspec := tickEntry_round hs.indexed hs.atRest hrun
    rcases h with ⟨hcount, d', p', heq, hle⟩ | ⟨hcount, hpast⟩
    · obtain ⟨rfl, rfl⟩ := Prod.mk.inj (Option.some.inj heq)
      rcases eq_or_lt_of_le hle with rfl | hlt
      · -- The timer is at the connection.
        obtain rfl : p = ptr := Option.some.inj (hspec.lookup.symm.trans hlook)
        refine Or.inr ⟨?_, fun d' p' hnext => ?_⟩
        · show (handled ++ [(d, p)]).count (d, p) = 1
          rw [List.count_append, hcount, List.count_singleton_self]
        · exact (lt_nextEntry (hspec.next.symm.trans hnext)).2
      · -- The timer goes on, and not past the connection.
        obtain ⟨d', p', hnext, hle'⟩ := nextEntry_le hlook hlt
        refine Or.inl ⟨?_, d', p', hspec.next.trans hnext, hle'⟩
        have hne : (d, p) ≠ (desc, ptr) := fun heq => ne_of_lt hlt (congrArg Prod.fst heq)
        show (handled ++ [(d, p)]).count (desc, ptr) = 0
        rw [List.count_append, hcount, List.count_singleton]
        simp [hne]
    · -- The timer is past the connection and stays there.
      have hlt := hpast d p rfl
      refine Or.inr ⟨?_, fun d' p' hnext => ?_⟩
      · have hne : (d, p) ≠ (desc, ptr) := fun heq => ne_of_gt hlt (congrArg Prod.fst heq)
        show (handled ++ [(d, p)]).count (desc, ptr) = 1
        rw [List.count_append, hcount, List.count_singleton]
        simp [hne]
      · exact hlt.trans (lt_nextEntry (hspec.next.symm.trans hnext)).2

theorem once_of_reaches (hr : Started r) {desc : Int} {ptr : ConPtr} (hstays : Stays r env desc ptr)
    (h : Reaches r env s) : Once desc ptr s := by
  induction h with
  | refl =>
    have hlook : r.desc2conn.lookup desc = some ptr := hstays (.start r env) .refl
    obtain ⟨d, p, hbegin, hle⟩ := beginEntry_le hlook
    exact Or.inl ⟨rfl, d, p, hbegin, hle⟩
  | tail hreach hround ih => exact hround.once (started_of_reaches hr hreach) (hstays _ hreach) ih

/-- The timer tolerates its callbacks exactly if none closes the next element. -/
theorem tolerates_iff_sparesNext (hr : Started r) : Tolerates r env ↔ SparesNext r env := by
  constructor
  · intro h s s' hreach hround
    exact (hround.alive (started_of_reaches hr hreach)).mp (h.alive s' (hreach.tail hround))
  · intro hspares
    refine ⟨fun s hreach => alive_of_sparesNext hr hspares hreach,
      fun s hreach hend desc ptr hstays => ?_⟩
    rcases once_of_reaches hr hstays hreach with ⟨-, d, p, hnext, -⟩ | ⟨hcount, -⟩
    · rw [hend] at hnext
      cases hnext
    · exact hcount

/-! ### The fuel of the loop -/

/-- The elements that the timer may still come to. -/
def Walk.ahead (s : Walk) : Nat :=
  match s.next with
  | none => 0
  | some (desc, _) => entries (fun d => desc ≤ d) s.world.rdp

/-- A round uses up one element or one call. -/
theorem Round.room (hround : Round s s') (hs : Started s.world.rdp) :
    s'.ahead + pending s'.world < s.ahead + pending s.world := by
  cases hround with
  | @intro w w' desc ptr next handled hrun =>
    have hspec := tickEntry_round hs.indexed hs.atRest hrun
    have hle := hspec.handled.entries_le fun d => desc < d
    -- The element itself is not behind itself.
    have hself : entries (fun d => desc < d) w.rdp < entries (fun d => desc ≤ d) w.rdp := by
      have hmem : desc ∈ w.rdp.desc2conn.keys := by
        rw [← AList.mem_keys, ← AList.lookup_isSome, hspec.lookup]
        rfl
      have hperm := List.perm_cons_erase hmem
      have hmono : (w.rdp.desc2conn.keys.erase desc).countP (fun d => desc < d)
          ≤ (w.rdp.desc2conn.keys.erase desc).countP fun d => desc ≤ d :=
        List.countP_mono_left fun d _ hd => decide_eq_true (le_of_lt (of_decide_eq_true hd))
      rw [entries, entries, hperm.countP_eq, hperm.countP_eq,
        List.countP_cons_of_neg (by simp), List.countP_cons_of_pos (by simp)]
      omega
    -- The next element is behind this one.
    have hahead : (⟨w', next, handled ++ [(desc, ptr)]⟩ : Walk).ahead
        ≤ entries (fun d => desc < d) w'.rdp := by
      cases next with
      | none => exact Nat.zero_le _
      | some e =>
        have hnext : w.rdp.nextEntry desc = some (e.1, e.2) := hspec.next.symm
        have hlt := (lt_nextEntry hnext).2
        exact List.countP_mono_left fun d _ hd =>
          decide_eq_true (hlt.trans_le (of_decide_eq_true hd))
    show _ < entries (fun d => desc ≤ d) w.rdp + pending w
    dsimp only at hle hahead ⊢
    omega

/-- The fuel that `tick` starts with. -/
def fuel (r : Members) (env : Env) : Nat :=
  r.desc2conn.entries.length + (env.reactions.map List.length).sum + 1

theorem tick_eq (r : Members) (env : Env) :
    tick (.start r env) = tickLoop (fuel r env) r.beginEntry (.start r env) := rfl

theorem handled_lt_fuel (hr : Started r) (h : Reaches r env s) :
    s.handled.length + (s.ahead + pending s.world) < fuel r env := by
  -- By the rounds so far. Each is paid for by `Round.room`.
  induction h with
  | refl =>
    have hahead : (Walk.start r env).ahead ≤ r.desc2conn.entries.length := by
      unfold Walk.ahead
      cases (Walk.start r env).next with
      | none => exact Nat.zero_le _
      | some e =>
        have hlength : r.desc2conn.keys.length = r.desc2conn.entries.length := List.length_map ..
        rw [← hlength]
        exact List.countP_le_length
    show 0 + ((Walk.start r env).ahead + (env.reactions.map List.length).sum) < fuel r env
    unfold fuel
    omega
  | tail hreach hround ih =>
    have hroom := hround.room (started_of_reaches hr hreach)
    cases hround with
    | @intro w w' desc ptr next handled hrun =>
      have hlength : (handled ++ [(desc, ptr)]).length = handled.length + 1 := by simp
      dsimp only at ih hroom ⊢
      omega

/-- The loop after some rounds. -/
theorem tick_eq_tickLoop (hr : Started r) (h : Reaches r env s) :
    tick (.start r env) = tickLoop (fuel r env - s.handled.length) s.next s.world := by
  induction h with
  | refl => exact tick_eq r env
  | tail hreach hround ih =>
    have hlt := handled_lt_fuel hr hreach
    cases hround with
    | @intro w w' desc ptr next handled hrun =>
      -- There is fuel for this round.
      obtain ⟨n, hn⟩ : ∃ n, fuel r env - handled.length = n + 1 :=
        ⟨fuel r env - handled.length - 1, by dsimp only at hlt; omega⟩
      have hrest : fuel r env - (handled ++ [(desc, ptr)]).length = n := by
        rw [List.length_append, List.length_singleton]
        omega
      rw [ih, hrest]
      show tickLoop (fuel r env - handled.length) (some (desc, ptr)) w = _
      rw [hn]
      show (tickEntry desc ptr w >>= fun r => tickLoop n r.1 r.2) = _
      rw [hrun, ok_bind]

/-- A loop that ends does so at the end of the walk. -/
theorem reaches_of_tickLoop (n : Nat) :
    ∀ {s : Walk} {w : World}, Reaches r env s → tickLoop n s.next s.world = .ok ((), w) →
      ∃ s', Reaches r env s' ∧ s'.next = none ∧ s'.world = w := by
  -- By the rounds left: the loop ended in time, so it never ran out of them.
  induction n with
  | zero =>
    intro s w hreach hrun
    cases hnext : s.next with
    | none =>
      rw [hnext] at hrun
      obtain ⟨-, rfl⟩ := Prod.mk.inj (Except.ok.inj hrun)
      exact ⟨s, hreach, hnext, rfl⟩
    | some e =>
      rw [hnext] at hrun
      cases hrun
  | succ n ih =>
    intro s w hreach hrun
    obtain ⟨world, next, handled⟩ := s
    cases next with
    | none =>
      obtain ⟨-, rfl⟩ := Prod.mk.inj (Except.ok.inj hrun)
      exact ⟨_, hreach, rfl, rfl⟩
    | some e =>
      obtain ⟨next', w', hentry, hrest⟩ := run_bind_eq_ok (m := tickEntry e.1 e.2) hrun
      have hround : Round ⟨world, some (e.1, e.2), handled⟩ ⟨w', next', handled ++ [(e.1, e.2)]⟩ :=
        .intro hentry
      exact ih (hreach.tail hround) hrest

/-- The timer ends where a walk does. -/
theorem tick_eq_ok_iff (hr : Started r) {w : World} :
    tick (.start r env) = .ok ((), w) ↔ ∃ s, Reaches r env s ∧ s.next = none ∧ s.world = w := by
  constructor
  · intro hrun
    rw [tick_eq] at hrun
    exact reaches_of_tickLoop (fuel r env) (s := .start r env) .refl hrun
  · rintro ⟨s, hreach, hend, rfl⟩
    rw [tick_eq_tickLoop hr hreach, hend]
    cases fuel r env - s.handled.length <;> rfl

/-- The timer stops where a walk comes to an element that is gone. -/
theorem tick_dangling (hr : Started r) (h : Reaches r env s) (hgone : ¬ s.Alive) :
    tick (.start r env) = .error .dangling := by
  unfold Walk.Alive at hgone
  push Not at hgone
  obtain ⟨desc, ptr, hnext, hlook⟩ := hgone
  have hlt := handled_lt_fuel hr h
  obtain ⟨n, hn⟩ : ∃ n, fuel r env - s.handled.length = n + 1 :=
    ⟨fuel r env - s.handled.length - 1, by omega⟩
  rw [tick_eq_tickLoop hr h, hn, hnext]
  show (tickEntry desc ptr s.world >>= fun r => tickLoop n r.1 r.2) = _
  rw [tickEntry_dangling hlook, error_bind]

end

/-- Take any connections in any states, with tables as they are between two inputs
(`started_of_run`), and any callbacks. The timer comes to no element that is gone, and handles
every connection once that stays, exactly if no callback closes the connection behind its own
while that is in one of the states CLOSED, SYN_SENT and SYN_RCVD. The timer ends where the walk
does. -/
theorem tolerates_iff (r : Members) (hr : Started r) (env : Env) :
    (Tolerates r env ↔ SparesNext r env) ∧
      ∀ w, tick.run (.start r env) = .ok ((), w) ↔
        ∃ s, Reaches r env s ∧ s.next = none ∧ s.world = w :=
  ⟨tolerates_iff_sparesNext hr, fun _ => tick_eq_ok_iff hr⟩

/-- Two handshakes under the descriptors 1 and 2, which give up after the first try. -/
def twoHandshakes : List (Env × Input) :=
  [(default, .call (.setMaxRetrans 1)),
   ({ (default : Env) with rnd := [1000, 1] }, .call (.connect 10 1 300 0)),
   ({ (default : Env) with rnd := [2000, 2] }, .call (.connect 11 1 300 0))]

/-- The record of such a handshake. -/
def dialing (sport : BitVec 16) (iss : BitVec 32) : RdpCon :=
  (RdpCon.new default).start ⟨1, 300, sport⟩ false .synSent iss 0

/-- The tables after one handshake has begun, and after both have. -/
def dialingOne : Members :=
  withEvent (withCon { Members.init default with maxRetrans := 1 } 1 (dialing 10 1000)) 1 0

def dialingBoth : Members := withEvent (withCon dialingOne 2 (dialing 11 2000)) 2 0

theorem machine_setMaxRetrans : machine (.init default) (default, .call (.setMaxRetrans 1))
    = .ok { Members.init default with maxRetrans := 1 } := rfl

theorem machine_dialingOne : machine { Members.init default with maxRetrans := 1 }
    ({ (default : Env) with rnd := [1000, 1] }, .call (.connect 10 1 300 0)) = .ok dialingOne := rfl

theorem run_twoHandshakes : run machine (.init default) twoHandshakes = .ok dialingBoth := by
  have hboth : machine dialingOne
      ({ (default : Env) with rnd := [2000, 2] }, .call (.connect 11 1 300 0))
        = .ok dialingBoth := rfl
  rw [twoHandshakes, Lib.run, machine_setMaxRetrans, ok_bind, Lib.run, machine_dialingOne, ok_bind,
    Lib.run, hboth,
    ok_bind, Lib.run]

/-- The callback of the first one closes its own descriptor. -/
def closesItself : Env := { (default : Env) with reactions := [[.close 1]] }

theorem started_dialingOne : Started dialingOne :=
  ((started_init default).machine machine_setMaxRetrans).machine machine_dialingOne

/-- With one handshake alone there is no other element to close. -/
theorem dialingOne_tolerates : Tolerates dialingOne closesItself := by
  have hnext : dialingOne.nextEntry 1 = none := rfl
  have hwalk : ∀ s, Reaches dialingOne closesItself s →
      s = .start dialingOne closesItself ∨ s.next = none := by
    intro s h
    induction h with
    | refl => exact Or.inl rfl
    | tail hreach hround ih =>
      cases hround with
      | intro hrun =>
        refine Or.inr ?_
        have hspec := tickEntry_round (started_of_reaches started_dialingOne hreach).indexed
          (started_of_reaches started_dialingOne hreach).atRest hrun
        rcases ih with heq | hend
        · obtain ⟨rfl, hentry, -⟩ := Walk.mk.inj heq
          obtain ⟨rfl, -⟩ := Prod.mk.inj (Option.some.inj hentry)
          exact hspec.next.trans hnext
        · cases hend
  refine (tolerates_iff dialingOne started_dialingOne closesItself).1.mpr fun s _ hreach _ => ?_
  rintro ⟨desc, ptr, d, p, hentry, hbehind, -⟩
  rcases hwalk s hreach with rfl | hend
  · obtain ⟨rfl, -⟩ := Prod.mk.inj (Option.some.inj hentry)
    rw [show (Walk.start dialingOne closesItself).world.rdp = dialingOne from rfl, hnext] at hbehind
    cases hbehind
  · rw [hend] at hentry
    cases hentry

/-- The callback of the first one closes the second. -/
def closesOther : Env := { (default : Env) with reactions := [[.close 2]] }

/-- The timer goes on with the element of the second, which is gone. -/
theorem twoHandshakes_not_tolerates :
    run machine (.init default) twoHandshakes = .ok dialingBoth ∧
      tick.run (.start dialingBoth closesOther) = .error .dangling ∧
      ¬ Tolerates dialingBoth closesOther := by
  have hround : ∃ s, Round (.start dialingBoth closesOther) s ∧ s.next = some (2, 1) ∧
      s.world.rdp.desc2conn.lookup 2 = none := ⟨_, .intro rfl, rfl, rfl⟩
  obtain ⟨s, hround, hnext, hgone⟩ := hround
  have hdead : ¬ s.Alive := by
    intro halive
    rw [halive 2 1 hnext] at hgone
    cases hgone
  have hreach : Reaches dialingBoth closesOther s := .single hround
  exact ⟨run_twoHandshakes, tick_dangling (started_of_run run_twoHandshakes) hreach hdead,
    fun h => hdead (h.alive s hreach)⟩

end Libcage.Proofs.Rdp
