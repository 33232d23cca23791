import Libcage.Proofs.Rdp.SimultaneousOpen

/-!
# `Libcage.Proofs.Rdp.DeferredCloses`: what a callback closes

While a callback of one descriptor runs, `rdp::close` takes no connection out. It marks the
descriptor, and `invoke_event` closes what is marked after the callback. `Deferring` is what
calls do in the callback, `Released` what the closes after it do, and `Invoked` is the whole
event: of the connections that were there, it takes out those that the callback closed in one
of the states CLOSED, SYN_SENT and SYN_RCVD, and no other.
-/

set_option autoImplicit false

namespace Libcage.Proofs.Rdp

open Libcage.Lib
open Libcage.Rdp

/-- The states in which `rdp::close` takes a connection out of the tables. -/
def released : RdpState → Bool
  | .closed | .synSent | .synRcvd => true
  | .listen | .opened | .closeWaitPasv | .closeWaitActive => false

/-- How many descriptors of connections satisfy `q`. -/
def entries (q : Int → Bool) (r : Members) : Nat := r.desc2conn.keys.countP q

/-! ### The state of a record -/

/-- No call brings a record to one of these states or out of them. -/
theorem CallCon.released {c c' : RdpCon} {out : List Emitted} (h : CallCon c c' out) :
    Rdp.released c'.state = Rdp.released c.state := by
  cases h with
  | work h => rw [h.state]
  | closeActive _ hfrom hto => rw [hfrom, hto]; rfl
  | drop _ hfrom hto =>
    -- SYN_SENT and SYN_RCVD are among the states, and so is CLOSED.
    rw [hto]
    rcases hfrom with hfrom | hfrom <;> rw [hfrom] <;> rfl
  | part => rfl
  | syn => rfl

/-- The records of `w` are still there, and closing them has the same effect. -/
def SameReleased (w w' : World) : Prop :=
  w.rdp.nextPtr ≤ w'.rdp.nextPtr ∧ ∀ ptr < w.rdp.nextPtr,
    released (w'.rdp.con ptr).state = released (w.rdp.con ptr).state

theorem CallStep.sameReleased {w w' : World} (h : CallStep w w') : SameReleased w w' := by
  cases h with
  | quiet hquiet =>
    rw [SameReleased, hquiet.rdp]
    exact ⟨le_rfl, fun _ _ => rfl⟩
  | @con p c out _ hcon =>
    refine ⟨le_rfl, fun ptr _ => ?_⟩
    show released (Function.update w.rdp.con p c ptr).state = _
    by_cases hp : ptr = p
    · rw [hp, Function.update_self]
      exact hcon.released
    · rw [Function.update_of_ne hp]
  | erase => exact ⟨le_rfl, fun _ _ => rfl⟩
  | event => exact ⟨le_rfl, fun _ _ => rfl⟩
  | listen =>
    unfold SameReleased withListening Members.insertListening
    split <;> exact ⟨le_rfl, fun _ _ => rfl⟩
  | unlisten => exact ⟨le_rfl, fun _ _ => rfl⟩
  | connect =>
    refine ⟨Nat.le_succ _, fun ptr hptr => ?_⟩
    show released (Function.update w.rdp.con w.rdp.nextPtr _ ptr).state = _
    rw [Function.update_of_ne (Nat.ne_of_lt hptr)]

/-- The same for a chain of steps. -/
theorem sameReleased_of_traces {α : Type} {m : M α} {w w' : World} {a : α}
    (hm : Traces CallStep DivFault m w) (hrun : m w = .ok (a, w')) : SameReleased w w' := by
  refine hm.inv (SameReleased w) (fun _ _ h hstep => ?_) ⟨le_rfl, fun _ _ => rfl⟩ hrun
  have hsame := hstep.sameReleased
  exact ⟨h.1.trans hsame.1, fun ptr hptr =>
    (hsame.2 ptr (Nat.lt_of_lt_of_le hptr h.1)).trans (h.2 ptr hptr)⟩

/-! ### Calls that close nothing -/

/-- The connections, the marks and the callbacks to come are the same. -/
structure Still (w w' : World) : Prop where
  desc2conn : w'.rdp.desc2conn = w.rdp.desc2conn
  descClosed : w'.rdp.descClosed = w.rdp.descClosed
  isInvoke : w'.rdp.isInvoke = w.rdp.isInvoke
  reactions : w'.env.reactions = w.env.reactions

theorem Still.refl (w : World) : Still w w := ⟨rfl, rfl, rfl, rfl⟩

theorem Still.trans {w w₁ w₂ : World} (h : Still w w₁) (h' : Still w₁ w₂) : Still w w₂ where
  desc2conn := h'.desc2conn.trans h.desc2conn
  descClosed := h'.descClosed.trans h.descClosed
  isInvoke := h'.isInvoke.trans h.isInvoke
  reactions := h'.reactions.trans h.reactions

/-- A chain of such steps is one. -/
theorem still_of_traces {α : Type} {m : M α} {w w' : World} {a : α} {F : World → Fault → Prop}
    (hm : Traces Still F m w) (hrun : m w = .ok (a, w')) : Still w w' :=
  hm.inv (Still w) (fun _ _ h hstep => h.trans hstep) (.refl w) hrun

theorem still_conStep (w : World) (ptr : ConPtr) (c : RdpCon) (out : List Emitted) :
    Still w (conStep w ptr c out) := ⟨rfl, rfl, rfl, rfl⟩

theorem still_withRnd (w : World) (rest : List (BitVec 32)) : Still w (withRnd w rest) :=
  ⟨rfl, rfl, rfl, rfl⟩

theorem setCon_still {ptr : ConPtr} {c : RdpCon} {w w' : World} {a : Unit}
    (hrun : setCon ptr c w = .ok (a, w')) : Still w w' := by
  obtain ⟨-, rfl⟩ := Prod.mk.inj (Except.ok.inj hrun)
  exact ⟨rfl, rfl, rfl, rfl⟩

theorem outputCon_still {ptr : ConPtr} {did : Id} {seg : List Byte} {w w' : World} {a : Unit}
    (hrun : outputCon ptr did seg w = .ok (a, w')) : Still w w' := by
  obtain ⟨-, rfl⟩ := Prod.mk.inj (Except.ok.inj hrun)
  exact ⟨rfl, rfl, rfl, rfl⟩

/-- A call on a record touches no table. -/
theorem onCon_still {α : Type} (ptr : ConPtr)
    (f : Int → RdpCon → Except Fault (α × RdpCon × List Emitted)) (w : World) :
    Traces Still (fun _ _ => True) (onCon ptr f) w := by
  refine onCon_traces ?_
  cases f w.env.clock (w.rdp.con ptr) with
  | ok r => exact Ends.ok (.single (still_conStep w ptr r.2.1 r.2.2))
  | error e => exact Ends.error trivial

theorem send_still {w w' : World} {desc : Int} {buf : List Byte} {n : Int}
    (hrun : send desc buf w = .ok (n, w')) : Still w w' := by
  have htraces : Traces Still (fun _ _ => True) (send desc buf) w := by
    refine Traces.get_bind ?_
    split
    · exact Traces.pure _
    · exact onCon_still _ _ w
  exact still_of_traces htraces hrun

theorem receive_still {w w' : World} {desc len : Int} {bytes : List Byte}
    (hrun : receive desc len w = .ok (bytes, w')) : Still w w' := by
  have htraces : Traces Still (fun _ _ => True) (receive desc len) w := by
    refine Traces.get_bind ?_
    split
    · exact Traces.pure _
    · exact onCon_still _ _ w
  exact still_of_traces htraces hrun

theorem listen_still {w w' : World} {sport : BitVec 16} {func : Callback} {desc : Int}
    (hrun : listen sport func w = .ok (desc, w')) : Still w w' := by
  have htraces : Traces Still (fun _ _ => True) (listen sport func) w := by
    refine Traces.get_bind (Traces.ite (fun _ => ?_) fun _ => Traces.pure _)
    refine generateDesc_bind (still_withRnd w) trivial fun desc rest _ _ => ?_
    refine Traces.modify_bind ?_ (Traces.pure _)
    dsimp only [Members.insertListening]
    split <;> exact ⟨rfl, rfl, rfl, rfl⟩
  exact still_of_traces htraces hrun

theorem setCallbackRdpEvent_still {w w' : World} {desc : Int} {func : Callback} {a : Unit}
    (hrun : setCallbackRdpEvent desc func w = .ok (a, w')) : Still w w' := by
  have htraces : Traces Still (fun _ _ => True) (setCallbackRdpEvent desc func) w := by
    refine Traces.get_bind (Traces.ite (fun _ => ?_) fun _ => Traces.pure _)
    exact Traces.modify ⟨rfl, rfl, rfl, rfl⟩
  exact still_of_traces htraces hrun

/-! ### `connect` -/

/-- At most one connection comes in, under a new descriptor. -/
structure Adds (w w' : World) : Prop where
  desc2conn : w'.rdp.desc2conn = w.rdp.desc2conn ∨
    ∃ desc ∉ w.rdp.descSet, ∃ ptr, w'.rdp.desc2conn = w.rdp.desc2conn.insert desc ptr
  descClosed : w'.rdp.descClosed = w.rdp.descClosed
  isInvoke : w'.rdp.isInvoke = w.rdp.isInvoke
  reactions : w'.env.reactions = w.env.reactions

theorem Still.adds {w w' : World} (h : Still w w') : Adds w w' :=
  ⟨Or.inl h.desc2conn, h.descClosed, h.isInvoke, h.reactions⟩

theorem connectTo_adds {w w' : World} {addr : RdpAddr} {func : Callback} {desc : Int}
    (h : connectTo addr func w = .ok (desc, w')) : Adds w w' := by
  obtain ⟨⟨iss, w₁⟩, hrnd, h⟩ := bind_eq_ok h
  obtain ⟨⟨desc', w₂⟩, hgen, h⟩ := bind_eq_ok h
  obtain ⟨rest, rfl⟩ := rnd_eq_ok hrnd
  obtain ⟨hfresh, rest', rfl⟩ := generateDesc_eq_ok hgen
  obtain ⟨-, rfl⟩ := Prod.mk.inj (Except.ok.inj h)
  exact ⟨Or.inr ⟨desc', hfresh, w.rdp.nextPtr, rfl⟩, rfl, rfl, rfl⟩

theorem connect_adds {w w' : World} {sport dport : BitVec 16} {did : Id} {func : Callback}
    {desc : Int} (h : connect sport did dport func w = .ok (desc, w')) : Adds w w' := by
  rw [connect_run] at h
  split at h
  · split at h
    · obtain ⟨-, rfl⟩ := Prod.mk.inj (Except.ok.inj h)
      exact (Still.refl w).adds
    · exact connectTo_adds h
  · obtain ⟨⟨addr, rest⟩, -, h⟩ := bind_eq_ok h
    have hadds : Adds (withRnd w rest) w' := connectTo_adds h
    exact ⟨hadds.desc2conn, hadds.descClosed, hadds.isInvoke, hadds.reactions⟩

/-- What is there stays. -/
theorem Adds.kept {w w' : World} (h : Adds w w') (hindex : Indexed w.rdp) {desc : Int}
    {ptr : ConPtr} (hlook : w.rdp.desc2conn.lookup desc = some ptr) :
    w'.rdp.desc2conn.lookup desc = some ptr := by
  rcases h.desc2conn with heq | ⟨d, hd, p, heq⟩
  · rw [heq, hlook]
  · have hne : desc ≠ d := by
      rintro rfl
      exact hd (hindex.con_mem hlook)
    rw [heq, AList.lookup_insert_ne hne, hlook]

theorem Adds.entries_le {w w' : World} (h : Adds w w') (q : Int → Bool) :
    entries q w'.rdp ≤ entries q w.rdp + 1 := by
  unfold entries
  rcases h.desc2conn with heq | ⟨d, -, p, heq⟩
  · rw [heq]
    exact Nat.le_succ _
  · -- `insert` erases the key before it puts it in front.
    have hkeys : w'.rdp.desc2conn.keys = d :: w.rdp.desc2conn.keys.erase d := by
      rw [heq, AList.keys_insert]
    have herase : (w.rdp.desc2conn.keys.erase d).countP q ≤ w.rdp.desc2conn.keys.countP q :=
      List.Sublist.countP_le List.erase_sublist
    rw [hkeys, List.countP_cons]
    split <;> omega

/-! ### `close` -/

/-- `rdp::close` takes the connection of a descriptor out, now or later. -/
def Closes (r : Members) (desc : Int) : Prop :=
  ∃ ptr, r.desc2conn.lookup desc = some ptr ∧ released (r.con ptr).state = true

/-- What `rdp::close` does. -/
inductive Closed (desc : Int) (w w' : World) : Prop
  | still (hnot : ¬ Closes w.rdp desc) (h : Still w w')
  | marked (hcloses : Closes w.rdp desc) (hinvoke : w.rdp.isInvoke = true)
      (desc2conn : w'.rdp.desc2conn = w.rdp.desc2conn)
      (descClosed : ∀ d, d ∈ w'.rdp.descClosed ↔ d = desc ∨ d ∈ w.rdp.descClosed)
      (isInvoke : w'.rdp.isInvoke = w.rdp.isInvoke) (reactions : w'.env.reactions = w.env.reactions)
  | erased (hcloses : Closes w.rdp desc) (hinvoke : w.rdp.isInvoke = false)
      (desc2conn : w'.rdp.desc2conn = w.rdp.desc2conn.erase desc)
      (descClosed : w'.rdp.descClosed = w.rdp.descClosed)
      (isInvoke : w'.rdp.isInvoke = w.rdp.isInvoke) (reactions : w'.env.reactions = w.env.reactions)

/-- A record that was changed before is closed. -/
theorem closeClosed_closed {desc : Int} {c : RdpCon} {w w₁ w' : World} (hstill : Still w w₁)
    (hcloses : Closes w.rdp desc) (hrun : closeClosed desc c w₁ = .ok ((), w')) :
    Closed desc w w' := by
  change (if ¬ w₁.rdp.isInvoke = true then _ else _ : M Unit) w₁ = _ at hrun
  split at hrun
  · rename_i hinvoke
    obtain ⟨-, rfl⟩ := Prod.mk.inj (Except.ok.inj hrun)
    refine .erased hcloses ?_ ?_ hstill.descClosed hstill.isInvoke hstill.reactions
    · rw [← hstill.isInvoke]
      simpa using hinvoke
    · show w₁.rdp.desc2conn.erase desc = _
      rw [hstill.desc2conn]
  · rename_i hinvoke
    obtain ⟨-, rfl⟩ := Prod.mk.inj (Except.ok.inj hrun)
    refine .marked hcloses ?_ hstill.desc2conn (fun d => ?_) hstill.isInvoke hstill.reactions
    · rw [← hstill.isInvoke]
      simpa using hinvoke
    · show d ∈ (w₁.rdp.descClosed.filter (· ≠ desc)).orderedInsert (· ≤ ·) desc ↔ _
      rw [List.mem_orderedInsert, List.mem_filter, hstill.descClosed]
      by_cases hd : d = desc <;> simp [hd]

theorem closeCon_closed {desc : Int} {ptr : ConPtr} {w w' : World}
    (hlook : w.rdp.desc2conn.lookup desc = some ptr)
    (hrun : closeCon desc ptr w = .ok ((), w')) : Closed desc w w' := by
  have hcloses : released (w.rdp.con ptr).state = true → Closes w.rdp desc :=
    fun hstate => ⟨ptr, hlook, hstate⟩
  have hnot : released (w.rdp.con ptr).state = false → ¬ Closes w.rdp desc := by
    rintro hstate ⟨ptr', hlook', hstate'⟩
    obtain rfl := Option.some.inj (hlook.symm.trans hlook')
    rw [hstate] at hstate'
    cases hstate'
  -- The record goes to state CLOSED, emits a reset, and is closed.
  have hdrop : released (w.rdp.con ptr).state = true → (do
      setCon ptr { w.rdp.con ptr with state := .closed }
      outputCon ptr (w.rdp.con ptr).addr.did
        (rstHead (w.rdp.con ptr).addr (flagRst ||| flagVer) (w.rdp.con ptr).sndNxt).encode
      closeClosed desc (w.rdp.con ptr) : M Unit) w = .ok ((), w') → Closed desc w w' := by
    intro hstate hdrop
    obtain ⟨⟨⟩, w₁, hset, hdrop⟩ := run_bind_eq_ok hdrop
    obtain ⟨⟨⟩, w₂, hout, hdrop⟩ := run_bind_eq_ok hdrop
    have hstill : Still w w₂ := (setCon_still hset).trans (outputCon_still hout)
    exact closeClosed_closed hstill (hcloses hstate) hdrop
  unfold closeCon at hrun
  rw [run_get_bind] at hrun
  obtain ⟨c, _, hcon, hrun⟩ := run_bind_eq_ok hrun
  obtain ⟨rfl, rfl⟩ := Prod.mk.inj (Except.ok.inj hcon)
  cases hstate : (w.rdp.con ptr).state with
  | opened =>
    -- An acknowledgement and a reset go out, and the timer waits for the answer.
    rw [hstate] at hrun
    refine .still (hnot (by rw [hstate]; rfl)) ?_
    obtain ⟨⟨⟩, w₁, hack, hrun⟩ := run_bind_eq_ok hrun
    have hstill : Still w w₁ := still_of_traces (onCon_still _ _ w) hack
    obtain ⟨c, _, hcon, hrun⟩ := run_bind_eq_ok hrun
    obtain ⟨rfl, rfl⟩ := Prod.mk.inj (Except.ok.inj hcon)
    obtain ⟨⟨⟩, w₂, hset, hout⟩ := run_bind_eq_ok hrun
    exact (hstill.trans (setCon_still hset)).trans (outputCon_still hout)
  | closeWaitPasv =>
    rw [hstate] at hrun
    exact .still (hnot (by rw [hstate]; rfl)) (setCon_still hrun)
  | closed =>
    rw [hstate] at hrun
    exact closeClosed_closed (.refl w) (hcloses (by rw [hstate]; rfl)) hrun
  | synSent =>
    rw [hstate] at hrun
    exact hdrop (by rw [hstate]; rfl) hrun
  | synRcvd =>
    rw [hstate] at hrun
    exact hdrop (by rw [hstate]; rfl) hrun
  | listen =>
    rw [hstate] at hrun
    obtain ⟨-, rfl⟩ := Prod.mk.inj (Except.ok.inj hrun)
    exact .still (hnot (by rw [hstate]; rfl)) (.refl w)
  | closeWaitActive =>
    rw [hstate] at hrun
    obtain ⟨-, rfl⟩ := Prod.mk.inj (Except.ok.inj hrun)
    exact .still (hnot (by rw [hstate]; rfl)) (.refl w)

theorem close_closed {desc : Int} {w w' : World} (h : Indexed w.rdp)
    (hrun : close desc w = .ok ((), w')) : Closed desc w w' := by
  unfold close at hrun
  rw [run_get_bind] at hrun
  split at hrun
  · -- A listening descriptor has no connection.
    rename_i hlisten
    obtain ⟨-, rfl⟩ := Prod.mk.inj (Except.ok.inj hrun)
    refine .still ?_ ⟨rfl, rfl, rfl, rfl⟩
    rintro ⟨ptr, hlook, -⟩
    rw [h.listening_free hlisten] at hlook
    cases hlook
  · cases hlook : w.rdp.desc2conn.lookup desc with
    | none =>
      rw [hlook] at hrun
      obtain ⟨-, rfl⟩ := Prod.mk.inj (Except.ok.inj hrun)
      refine .still ?_ (.refl w)
      rintro ⟨ptr, hlook', -⟩
      rw [hlook] at hlook'
      cases hlook'
    | some ptr =>
      rw [hlook] at hrun
      exact closeCon_closed hlook hrun

/-! ### While the callback runs -/

/-- What calls do while a callback of one descriptor runs. -/
structure Deferring (calls : List Call) (w w' : World) : Prop where
  isInvoke : w'.rdp.isInvoke = true
  reactions : w'.env.reactions = w.env.reactions
  kept : ∀ {desc ptr}, w.rdp.desc2conn.lookup desc = some ptr →
    w'.rdp.desc2conn.lookup desc = some ptr
  marked : ∀ {desc ptr}, w.rdp.desc2conn.lookup desc = some ptr →
    (desc ∈ w'.rdp.descClosed ↔ desc ∈ w.rdp.descClosed ∨
      Call.close desc ∈ calls ∧ released (w.rdp.con ptr).state = true)
  entries_le : ∀ q, entries q w'.rdp ≤ entries q w.rdp + calls.length

/-- A call that is no `close`. -/
theorem Adds.deferring {w w' : World} (h : Adds w w') (hindex : Indexed w.rdp)
    (hinvoke : w.rdp.isInvoke = true) {call : Call} (hcall : ∀ desc, call ≠ .close desc) :
    Deferring [call] w w' where
  isInvoke := h.isInvoke.trans hinvoke
  reactions := h.reactions
  kept hlook := h.kept hindex hlook
  marked := by
    intro desc ptr _
    rw [h.descClosed, List.mem_singleton]
    simp [(hcall desc).symm]
  entries_le := h.entries_le

theorem Closed.deferring {desc : Int} {w w' : World} (h : Closed desc w w')
    (hinvoke : w.rdp.isInvoke = true) : Deferring [.close desc] w w' := by
  have hmem : ∀ d, Call.close d ∈ [Call.close desc] ↔ d = desc := by simp
  cases h with
  | still hnot h =>
    refine ⟨h.isInvoke.trans hinvoke, h.reactions, fun hlook => ?_, fun {d ptr} hlook => ?_,
      h.adds.entries_le⟩
    · rw [h.desc2conn, hlook]
    · rw [h.descClosed, hmem]
      refine (or_iff_left ?_).symm
      rintro ⟨rfl, hstate⟩
      exact hnot ⟨ptr, hlook, hstate⟩
  | marked hcloses _ hconn hclosed hsame hreact =>
    refine ⟨hsame.trans hinvoke, hreact, fun hlook => ?_, fun {d ptr} hlook => ?_, fun q => ?_⟩
    · rw [hconn, hlook]
    · rw [hclosed, hmem, or_comm]
      refine or_congr_right ⟨?_, And.left⟩
      rintro rfl
      obtain ⟨p, hp, hstate⟩ := hcloses
      obtain rfl := Option.some.inj (hlook.symm.trans hp)
      exact ⟨rfl, hstate⟩
    · rw [entries, hconn]
      exact Nat.le_succ _
  -- `close` erases at once only outside a callback.
  | erased _ hfalse =>
    rw [hfalse] at hinvoke
    cases hinvoke

theorem runCall_deferring {call : Call} {w w' : World} (h : Indexed w.rdp)
    (hinvoke : w.rdp.isInvoke = true) (hrun : runCall call w = .ok ((), w')) :
    Deferring [call] w w' := by
  cases call with
  | listen sport func =>
    obtain ⟨desc, w₁, hlisten, hend⟩ := run_bind_eq_ok hrun
    obtain ⟨-, rfl⟩ := Prod.mk.inj (Except.ok.inj hend)
    exact (listen_still hlisten).adds.deferring h hinvoke nofun
  | connect sport did dport func =>
    obtain ⟨desc, w₁, hconnect, hend⟩ := run_bind_eq_ok hrun
    obtain ⟨-, rfl⟩ := Prod.mk.inj (Except.ok.inj hend)
    exact (connect_adds hconnect).deferring h hinvoke nofun
  -- The only call that may mark an element. The others add at most one.
  | close desc => exact (close_closed h hrun).deferring hinvoke
  | send desc buf =>
    obtain ⟨n, w₁, hsend, hend⟩ := run_bind_eq_ok hrun
    obtain ⟨-, rfl⟩ := Prod.mk.inj (Except.ok.inj hend)
    exact (send_still hsend).adds.deferring h hinvoke nofun
  | receive desc len =>
    obtain ⟨bytes, w₁, hreceive, hend⟩ := run_bind_eq_ok hrun
    obtain ⟨-, rfl⟩ := Prod.mk.inj (Except.ok.inj hend)
    exact (receive_still hreceive).adds.deferring h hinvoke nofun
  | setMaxRetrans sec =>
    obtain ⟨-, rfl⟩ := Prod.mk.inj (Except.ok.inj hrun)
    have hstill : Still w { w with rdp := { w.rdp with maxRetrans := sec } } := ⟨rfl, rfl, rfl, rfl⟩
    exact hstill.adds.deferring h hinvoke nofun
  | setCallbackRdpEvent desc func =>
    exact (setCallbackRdpEvent_still hrun).adds.deferring h hinvoke nofun

/-- The calls of a callback, one after the other. -/
theorem runCalls_deferring (calls : List Call) :
    ∀ {w w' : World}, Indexed w.rdp → w.rdp.isInvoke = true →
      runCalls calls w = .ok ((), w') → Deferring calls w w' := by
  -- By the calls that are left. Each finds `isInvoke` set and leaves it so.
  induction calls with
  | nil =>
    intro w w' _ hinvoke hrun
    obtain ⟨-, rfl⟩ := Prod.mk.inj (Except.ok.inj hrun)
    exact ⟨hinvoke, rfl, id, by simp, fun _ => le_rfl⟩
  | cons call calls ih =>
    intro w w' h hinvoke hrun
    obtain ⟨⟨⟩, w₁, hcall, hrest⟩ := run_bind_eq_ok hrun
    have hfirst := runCall_deferring h hinvoke hcall
    have hsame := sameReleased_of_traces (runCall_traces w h call) hcall
    have hrest' := ih (h.calls (runCall_traces w h call) hcall) hfirst.isInvoke hrest
    refine ⟨hrest'.isInvoke, hrest'.reactions.trans hfirst.reactions,
      fun hlook => hrest'.kept (hfirst.kept hlook), fun {desc ptr} hlook => ?_, fun q => ?_⟩
    · -- The state is still one of those in which a close takes the connection out, or still none.
      rw [hrest'.marked (hfirst.kept hlook), hfirst.marked hlook, hsame.2 ptr (h.con_lt hlook),
        List.mem_singleton, List.mem_cons]
      tauto
    · have hle := hfirst.entries_le q
      have hle' := hrest'.entries_le q
      simp only [List.length_cons, List.length_nil] at hle ⊢
      omega

/-! ### After the callback -/

/-- What the closes after a callback do. -/
structure Released (descs : List Int) (w w' : World) : Prop where
  isInvoke : w'.rdp.isInvoke = false
  reactions : w'.env.reactions = w.env.reactions
  kept : ∀ {desc ptr}, w.rdp.desc2conn.lookup desc = some ptr →
    ¬ (desc ∈ descs ∧ released (w.rdp.con ptr).state = true) →
    w'.rdp.desc2conn.lookup desc = some ptr
  gone : ∀ {desc ptr}, w.rdp.desc2conn.lookup desc = some ptr → desc ∈ descs →
    released (w.rdp.con ptr).state = true → w'.rdp.desc2conn.lookup desc = none
  absent : ∀ {desc}, w.rdp.desc2conn.lookup desc = none → w'.rdp.desc2conn.lookup desc = none
  entries_le : ∀ q, entries q w'.rdp ≤ entries q w.rdp

theorem Closed.released {desc : Int} {w w' : World} (h : Closed desc w w')
    (hinvoke : w.rdp.isInvoke = false) : Released [desc] w w' := by
  cases h with
  | still hnot h =>
    refine ⟨h.isInvoke.trans hinvoke, h.reactions, fun hlook _ => ?_,
      fun {d ptr} hlook hd hstate => ?_, fun hlook => ?_, fun q => ?_⟩
    · rw [h.desc2conn, hlook]
    · rw [List.mem_singleton.mp hd] at hlook
      exact absurd ⟨ptr, hlook, hstate⟩ hnot
    · rw [h.desc2conn, hlook]
    · rw [entries, h.desc2conn]
      exact le_rfl
  | marked _ htrue =>
    rw [hinvoke] at htrue
    cases htrue
  | erased hcloses _ hconn _ hsame hreact =>
    refine ⟨hsame.trans hinvoke, hreact, fun {d ptr} hlook hnot => ?_, fun {d ptr} hlook hd _ => ?_,
      fun {d} hlook => ?_, fun q => ?_⟩
    · -- An element that stays is not the one that was closed.
      have hne : d ≠ desc := by
        rintro rfl
        obtain ⟨p, hp, hstate⟩ := hcloses
        obtain rfl := Option.some.inj (hlook.symm.trans hp)
        exact hnot ⟨List.mem_singleton_self d, hstate⟩
      rw [hconn, AList.lookup_erase_ne hne, hlook]
    · rw [List.mem_singleton.mp hd, hconn, AList.lookup_erase]
    · rw [hconn]
      by_cases hd : d = desc
      · rw [hd, AList.lookup_erase]
      · rw [AList.lookup_erase_ne hd, hlook]
    · have hkeys : w'.rdp.desc2conn.keys = w.rdp.desc2conn.keys.erase desc := by
        rw [hconn, AList.keys_erase]
      rw [entries, hkeys]
      exact List.Sublist.countP_le List.erase_sublist

theorem closeAll_released (descs : List Int) :
    ∀ {w w' : World}, Indexed w.rdp → w.rdp.isInvoke = false →
      closeAll descs w = .ok ((), w') → Released descs w w' := by
  induction descs with
  | nil =>
    intro w w' _ hinvoke hrun
    obtain ⟨-, rfl⟩ := Prod.mk.inj (Except.ok.inj hrun)
    exact ⟨hinvoke, rfl, fun hlook _ => hlook, nofun, id, fun _ => le_rfl⟩
  | cons d descs ih =>
    intro w w' h hinvoke hrun
    obtain ⟨⟨⟩, w₁, hclose, hrest⟩ := run_bind_eq_ok hrun
    have hfirst := (close_closed h hclose).released hinvoke
    have hsame := sameReleased_of_traces (close_traces w h d) hclose
    have hrest' := ih (h.calls (close_traces w h d) hclose) hfirst.isInvoke hrest
    refine ⟨hrest'.isInvoke, hrest'.reactions.trans hfirst.reactions,
      fun {desc ptr} hlook hnot => ?_, fun {desc ptr} hlook hmem hstate => ?_,
      fun hlook => hrest'.absent (hfirst.absent hlook),
      fun q => (hrest'.entries_le q).trans (hfirst.entries_le q)⟩
    · -- Neither the first close nor the others take it out.
      have hlook₁ : w₁.rdp.desc2conn.lookup desc = some ptr :=
        hfirst.kept hlook fun hbad =>
          hnot ⟨List.mem_cons.mpr (Or.inl (List.mem_singleton.mp hbad.1)), hbad.2⟩
      refine hrest'.kept hlook₁ fun hbad => hnot ⟨List.mem_cons_of_mem _ hbad.1, ?_⟩
      rw [← hsame.2 ptr (h.con_lt hlook)]
      exact hbad.2
    · -- What the first close takes out does not come back.
      by_cases hd : desc = d
      · exact hrest'.absent (hfirst.gone hlook (List.mem_singleton.mpr hd) hstate)
      · have hlook₁ := hfirst.kept hlook fun hbad => hd (List.mem_singleton.mp hbad.1)
        refine hrest'.gone hlook₁ ((List.mem_cons.mp hmem).resolve_left hd) ?_
        rw [hsame.2 ptr (h.con_lt hlook)]
        exact hstate

/-! ### The whole event -/

/-- The calls that the next callback makes. -/
def reaction (w : World) : List Call := w.env.reactions.headD []

/-- What the event of one descriptor does to the connections that are there. -/
structure Invoked (w w' : World) : Prop where
  reactions : w'.env.reactions = w.env.reactions.tail
  kept : ∀ {desc ptr}, w.rdp.desc2conn.lookup desc = some ptr →
    ¬ (Call.close desc ∈ reaction w ∧ released (w.rdp.con ptr).state = true) →
    w'.rdp.desc2conn.lookup desc = some ptr
  gone : ∀ {desc ptr}, w.rdp.desc2conn.lookup desc = some ptr → Call.close desc ∈ reaction w →
    released (w.rdp.con ptr).state = true → w'.rdp.desc2conn.lookup desc = none
  entries_le : ∀ q, entries q w'.rdp ≤ entries q w.rdp + (reaction w).length

/-- The callback runs with the mark set, and what it marks is closed after it. -/
theorem invokeOther_eq (w : World) : invokeOther w = (runCalls (reaction w) { w with
      rdp := { w.rdp with isInvoke := true }
      env := { w.env with reactions := w.env.reactions.tail } } >>= fun r =>
    closeAll r.2.rdp.descClosed { r.2 with rdp := { r.2.rdp with isInvoke := false } } >>= fun r =>
    .ok ((), { r.2 with rdp := { r.2.rdp with descClosed := [] } })) := rfl

theorem invokeOther_invoked {w w' : World} (h : Indexed w.rdp) (hrest : AtRest w.rdp)
    (hrun : invokeOther w = .ok ((), w')) : Invoked w w' := by
  rw [invokeOther_eq] at hrun
  let w₀ : World := { w with
    rdp := { w.rdp with isInvoke := true }
    env := { w.env with reactions := w.env.reactions.tail } }
  obtain ⟨⟨⟨⟩, w₁⟩, hcallback, hrun⟩ := bind_eq_ok hrun
  have h₀ : Indexed w₀.rdp := { h with }
  have hdefer := runCalls_deferring (reaction w) h₀ rfl hcallback
  have hsame := sameReleased_of_traces (runCalls_traces (reaction w) w₀ h₀) hcallback
  have h₁ := h₀.calls (runCalls_traces (reaction w) w₀ h₀) hcallback
  let w₂ : World := { w₁ with rdp := { w₁.rdp with isInvoke := false } }
  obtain ⟨⟨⟨⟩, w₃⟩, hclose, hend⟩ := bind_eq_ok hrun
  have h₂ : Indexed w₂.rdp := { h₁ with }
  have hreleased := closeAll_released w₁.rdp.descClosed h₂ rfl hclose
  obtain ⟨-, rfl⟩ := Prod.mk.inj (Except.ok.inj hend)
  -- Nothing is marked before the callback, so the marks after it are its own.
  have hmarked : ∀ {desc ptr}, w.rdp.desc2conn.lookup desc = some ptr →
      (desc ∈ w₁.rdp.descClosed ↔
        Call.close desc ∈ reaction w ∧ released (w.rdp.con ptr).state = true) := by
    intro desc ptr hlook
    have hmark : desc ∈ w₁.rdp.descClosed ↔ desc ∈ w.rdp.descClosed ∨
        Call.close desc ∈ reaction w ∧ released (w.rdp.con ptr).state = true :=
      hdefer.marked (w := w₀) hlook
    rw [hmark, hrest.2]
    simp
  have hstate : ∀ {desc ptr}, w.rdp.desc2conn.lookup desc = some ptr →
      released (w₁.rdp.con ptr).state = released (w.rdp.con ptr).state :=
    fun hlook => hsame.2 _ (h.con_lt hlook)
  refine ⟨hreleased.reactions.trans hdefer.reactions, fun hlook hnot => ?_,
    fun hlook hmem hrel => ?_, fun q => ?_⟩
  · exact hreleased.kept (hdefer.kept hlook) fun hbad => hnot ((hmarked hlook).mp hbad.1)
  · refine hreleased.gone (hdefer.kept hlook) ((hmarked hlook).mpr ⟨hmem, hrel⟩) ?_
    exact (hstate hlook).trans hrel
  · exact (hreleased.entries_le q).trans (hdefer.entries_le q)

/-- An event of a descriptor without a callback does nothing. -/
theorem invokeEvent_invoked {desc : Int} {event : RdpEvent} {w w' : World} (h : Indexed w.rdp)
    (hrest : AtRest w.rdp) (hrun : invokeEvent desc 0 event w = .ok ((), w')) :
    if (w.rdp.desc2event.lookup desc).isSome = true then Invoked w w' else w' = w := by
  by_cases hnone : (w.rdp.desc2event.lookup desc).isNone = true
  · rw [invokeEvent_none hnone 0 event] at hrun
    obtain ⟨-, rfl⟩ := Prod.mk.inj (Except.ok.inj hrun)
    rw [Option.isNone_iff_eq_none.mp hnone, if_neg nofun]
  · rw [invokeEvent_some hnone 0 event, if_neg (Int.lt_irrefl 0)] at hrun
    obtain ⟨⟨⟩, w₁, hother, hend⟩ := run_bind_eq_ok hrun
    obtain ⟨-, rfl⟩ := Prod.mk.inj (Except.ok.inj hend)
    rw [if_pos (Option.isSome_iff_ne_none.mpr fun heq => hnone (by rw [heq]; rfl))]
    have hinvoked := invokeOther_invoked (w := { w with inCallback := true }) h hrest hother
    exact ⟨hinvoked.reactions, hinvoked.kept, hinvoked.gone, hinvoked.entries_le⟩

end Libcage.Proofs.Rdp
