import Libcage.Proofs.Dht.Sweep
import Libcage.Proofs.Proxy.ClientGets
import Libcage.Proxy.Sweep

/-!
# `Libcage.Proofs.Proxy.Sweep`: the sweep of the RDP connections of a proxy

`Exact` is what a sweep has to do, for any content of the five maps and of `m_getdata`.
The first four walks do it. The last one compares `m_time` itself, and never calls a callback
function: where the record of a get is missing it stops the program, and where it is there the
connection goes without a call. `sweepRdp_exact_iff` has the condition. In the year 2011 it
says that every reply connection is idle and has not got its header yet.

Before its header has come, a reply connection has no nonce: `m_nonce` is unset then, and
the `switch` leaves out that state.
-/

set_option autoImplicit false

namespace Libcage.Proofs.ProxySweep

open Libcage.Lib
open Libcage.Rdp (Table)
open Libcage.Dht (Idle sweepIdle)
open Libcage.Proofs.Dht (idleDescs sweepIdle_lookup sweepIdle_closed)
open Libcage.Proofs.ClientGets (Sweepable Sweepable.closeReply sweepable_of_sweepLoop)
open Libcage.Proxy

/-! ### The walk over the replies -/

/-- The test of the last walk. -/
def late (s : ProxyTables) (desc : Int) : Bool :=
  (s.gets.recvGetReply.lookup desc).any fun con => rdpTimeout < con.time

section
variable {s s' : ProxyTables} {desc : Int}

/-- A round closes what passes the test. -/
theorem sweepReply_ok (h : Sweepable s.gets desc) :
    s.sweepReply desc = .ok (if late s desc then s.closeReply desc else s) := by
  unfold ProxyTables.sweepReply late
  cases hcon : s.gets.recvGetReply.lookup desc with
  | none => rfl
  | some con =>
    by_cases htime : con.time > rdpTimeout
    · have hlate : rdpTimeout < con.time := htime
      simp only [if_pos htime, Option.any_some, decide_eq_true hlate, if_true]
      by_cases hstate : con.ptr.state = .rgrHdr
      · rw [hstate]
      · -- The record is found, and nothing is done with it.
        obtain ⟨it, hit⟩ := Option.ne_none_iff_exists'.mp (h con hcon hlate hstate)
        rw [hit]
        split <;> rfl
    · have hnot : ¬ rdpTimeout < con.time := htime
      simp [hnot]

/-- The gets change as in the sweep of a client. -/
theorem gets_sweepReply (s : ProxyTables) (desc : Int) :
    (s.sweepReply desc).map ProxyTables.gets = s.gets.sweepOne desc := by
  unfold ProxyTables.sweepReply ClientGets.sweepOne
  cases hcon : s.gets.recvGetReply.lookup desc with
  | none => rfl
  | some con =>
    by_cases htime : con.time > rdpTimeout
    · simp only [if_pos htime]
      cases hstate : con.ptr.state with
      | rgrHdr => rfl
      | rgrValHdr => cases s.gets.getdata.lookup con.ptr.nonce <;> rfl
      | rgrVal => cases s.gets.getdata.lookup con.ptr.nonce <;> rfl
    · simp only [if_neg htime]
      rfl

theorem sweepLoop_of_sweepReplies {descs : List Int}
    (h : ProxyTables.sweepReplies descs s = .ok s') :
    ClientGets.sweepLoop descs s.gets = .ok s'.gets := by
  induction descs generalizing s with
  | nil => exact congrArg _ (congrArg ProxyTables.gets (Except.ok.inj h))
  | cons desc descs ih =>
    obtain ⟨t, ht, hrest⟩ := bind_eq_ok h
    have hone : s.gets.sweepOne desc = .ok t.gets := by
      rw [← gets_sweepReply, ht]
      rfl
    rw [ClientGets.sweepLoop, hone]
    exact ih hrest

/-- A round for another connection does not change what the test says, -/
theorem late_closeReply {d : Int} (hne : d ≠ desc) : late (s.closeReply desc) d = late s d := by
  show ((s.gets.recvGetReply.erase desc).lookup d).any _ = _
  rw [AList.lookup_erase_ne hne]
  rfl

end

/-- The tables when some reply connections have been closed. -/
def closeReplies (s : ProxyTables) (descs : List Int) : ProxyTables :=
  descs.foldl ProxyTables.closeReply s

/-- Closing leaves everything else alone. -/
theorem closeReplies_eq (s : ProxyTables) (descs : List Int) :
    ∃ replies : Table Int ReplyConn, closeReplies s descs =
        { s with
          gets := { s.gets with recvGetReply := replies }
          closed := s.closed ++ descs } ∧
      ∀ d, replies.lookup d = if d ∈ descs then none else s.gets.recvGetReply.lookup d := by
  induction descs generalizing s with
  | nil => exact ⟨s.gets.recvGetReply, by simp [closeReplies], by simp⟩
  | cons desc descs ih =>
    obtain ⟨replies, heq, hlookup⟩ := ih (s.closeReply desc)
    refine ⟨replies, ?_, fun d => ?_⟩
    · rw [closeReplies, List.foldl_cons]
      refine heq.trans ?_
      simp [ProxyTables.closeReply, ClientGets.closeReply]
    · rw [hlookup]
      show (if d ∈ descs then none else (s.gets.recvGetReply.erase desc).lookup d) = _
      by_cases hd : d = desc
      · subst hd
        simp
      · simp [hd, AList.lookup_erase_ne hd]

/-- The walk closes what passes the test. -/
theorem sweepReplies_ok {s : ProxyTables} {descs : List Int} (hnodup : descs.Nodup)
    (h : ∀ d ∈ descs, Sweepable s.gets d) :
    ProxyTables.sweepReplies descs s = .ok (closeReplies s (descs.filter (late s))) := by
  induction descs generalizing s with
  | nil => rfl
  | cons desc descs ih =>
    obtain ⟨hnot, hnodup⟩ := List.nodup_cons.mp hnodup
    rw [List.forall_mem_cons] at h
    rw [ProxyTables.sweepReplies, sweepReply_ok h.1, ok_bind]
    cases hlate : late s desc with
    | false =>
      rw [List.filter_cons_of_neg (by simp [hlate])]
      exact ih hnodup h.2
    | true =>
      rw [List.filter_cons_of_pos hlate]
      refine (ih hnodup fun d hd => (h.2 d hd).closeReply desc).trans ?_
      congr 1
      rw [closeReplies, closeReplies, List.foldl_cons]
      congr 1
      exact List.filter_congr fun d hd => late_closeReply fun heq => hnot (heq ▸ hd)

/-! ### Exactly the idle ones -/

/-- A get whose reply connection is idle. The connection has the nonce of the get from its
header. -/
def Due (now : Int) (s : ClientGets) (nonce : BitVec 32) : Prop :=
  ∃ desc con, s.recvGetReply.lookup desc = some con ∧ Idle now con.time ∧
    con.ptr.state ≠ .rgrHdr ∧ con.ptr.nonce = nonce

open Classical in
/-- The calls that complete these gets: true with the values read so far if there are any. -/
noncomputable def completions (now : Int) (s : ClientGets) : List (Nat × Bool × Finset Cells) :=
  (s.getdata.entries.filter fun e => Due now s e.1).map fun e =>
    (e.2.func, decide (e.2.vset.card > 0), e.2.vset)

open Classical in
/-- What a sweep has to do: close and remove the connections that are idle, no others, and
complete each get that loses a connection once. -/
structure Exact (now : Int) (s s' : ProxyTables) : Prop where
  rdpStore : ∀ d, s'.rdpStore.lookup d = (s.rdpStore.lookup d).filter fun time => ¬ Idle now time
  rdpRecvStore : ∀ d, s'.rdpRecvStore.lookup d =
    (s.rdpRecvStore.lookup d).filter fun time => ¬ Idle now time
  rdpRecvGet : ∀ d, s'.rdpRecvGet.lookup d =
    (s.rdpRecvGet.lookup d).filter fun time => ¬ Idle now time
  rdpGetReply : ∀ d, s'.rdpGetReply.lookup d =
    (s.rdpGetReply.lookup d).filter fun time => ¬ Idle now time
  recvGetReply : ∀ d, s'.gets.recvGetReply.lookup d =
    (s.gets.recvGetReply.lookup d).filter fun con => ¬ Idle now con.time
  closed : s'.closed.Perm (s.closed ++ (idleDescs now id s.rdpStore ++
    (idleDescs now id s.rdpRecvStore ++ (idleDescs now id s.rdpRecvGet ++
      (idleDescs now id s.rdpGetReply ++ idleDescs now ReplyConn.time s.gets.recvGetReply)))))
  called : s'.gets.called.Perm (s.gets.called ++ completions now s.gets)
  getdata : ∀ nonce, s'.gets.getdata.lookup nonce =
    if Due now s.gets nonce then none else s.gets.getdata.lookup nonce
  timers : ∀ func, s'.gets.timers.lookup func =
    if ∃ nonce it, Due now s.gets nonce ∧ s.gets.getdata.lookup nonce = some it ∧ it.func = func
      then none else s.gets.timers.lookup func
  rdpGet : s'.gets.rdpGet = s.gets.rdpGet

/-- The reply connections for which the last walk does the right thing: those that it closes
exactly if they are idle, and that have not got their header where they are. -/
def SweepsRight (now : Int) (con : ReplyConn) : Prop :=
  (rdpTimeout < con.time ↔ Idle now con.time) ∧ (Idle now con.time → con.ptr.state = .rgrHdr)

/-- The first four walks. -/
def afterWalks (s : ProxyTables) (now : Int) : ProxyTables :=
  (((s.sweepStore now).sweepRecvStore now).sweepRecvGet now).sweepGetReply now

theorem closed_afterWalks (s : ProxyTables) (now : Int) : (afterWalks s now).closed =
    s.closed ++ (idleDescs now id s.rdpStore ++ (idleDescs now id s.rdpRecvStore ++
      (idleDescs now id s.rdpRecvGet ++ idleDescs now id s.rdpGetReply))) := by
  show s.closed ++ (sweepIdle now id s.rdpStore).2 ++ (sweepIdle now id s.rdpRecvStore).2 ++
    (sweepIdle now id s.rdpRecvGet).2 ++ (sweepIdle now id s.rdpGetReply).2 = _
  simp only [sweepIdle_closed, List.append_assoc]

/-- A sweep that comes to its end found the records that it looked for, -/
theorem sweepable_of_ok {s s' : ProxyTables} {now : Int} (h : s.sweepRdp now = .ok s') (d : Int) :
    Sweepable s.gets d := by
  intro con hcon
  refine sweepable_of_sweepLoop (sweepLoop_of_sweepReplies h) d ?_ con hcon
  rw [Cursor.mem_inOrder, ← AList.lookup_isSome]
  exact Option.isSome_of_eq_some hcon

/-- and then it closed what passes the test of the last walk. -/
theorem sweepRdp_ok {s : ProxyTables} (h : ∀ d, Sweepable s.gets d) (now : Int) :
    ∃ replies : Table Int ReplyConn,
      s.sweepRdp now = .ok { afterWalks s now with
        gets := { s.gets with recvGetReply := replies }
        closed := (afterWalks s now).closed ++
          (Cursor.inOrder s.gets.recvGetReply).filter (late s) } ∧
      ∀ d, replies.lookup d = (s.gets.recvGetReply.lookup d).filter fun con =>
        ¬ rdpTimeout < con.time := by
  have hrun : s.sweepRdp now = .ok (closeReplies (afterWalks s now)
      ((Cursor.inOrder s.gets.recvGetReply).filter (late s))) :=
    sweepReplies_ok (s := afterWalks s now) (Cursor.nodup_inOrder _) fun d _ => h d
  obtain ⟨replies, heq, hlookup⟩ := closeReplies_eq (afterWalks s now)
    ((Cursor.inOrder s.gets.recvGetReply).filter (late s))
  refine ⟨replies, by rw [hrun, heq]; rfl, fun d => ?_⟩
  rw [hlookup]
  show (if _ then none else s.gets.recvGetReply.lookup d) = _
  cases hcon : s.gets.recvGetReply.lookup d with
  | none => simp
  | some con =>
    have hmem : d ∈ s.gets.recvGetReply := by
      rw [← AList.lookup_isSome, hcon]
      rfl
    by_cases htime : rdpTimeout < con.time
    · simp [late, hcon, htime, Cursor.mem_inOrder, hmem, Option.filter]
    · simp [late, hcon, htime, Option.filter]

/-- A get that is due is completed by a sweep that is exact. -/
theorem completions_ne_nil {now : Int} {s : ClientGets} {nonce : BitVec 32} {it : GetData}
    (hdue : Due now s nonce) (hit : s.getdata.lookup nonce = some it) : completions now s ≠ [] := by
  have hmem : (⟨nonce, it⟩ : Sigma fun _ : BitVec 32 => GetData) ∈ s.getdata.entries :=
    AList.mem_lookup_iff.mp hit
  exact List.ne_nil_of_mem (List.mem_map_of_mem (List.mem_filter.mpr ⟨hmem, by simpa using hdue⟩))

theorem completions_of_not_due {now : Int} {s : ClientGets} (h : ∀ nonce, ¬ Due now s nonce) :
    completions now s = [] := by
  rw [completions, List.filter_eq_nil_iff.mpr fun e _ => by simpa using h e.1]
  rfl

/-- Where the last walk tests for what is idle, it closes what is idle. -/
theorem filter_late {now : Int} {s : ProxyTables}
    (h : ∀ desc con, s.gets.recvGetReply.lookup desc = some con → SweepsRight now con) :
    (Cursor.inOrder s.gets.recvGetReply).filter (late s) =
      idleDescs now ReplyConn.time s.gets.recvGetReply := by
  refine List.filter_congr fun d _ => ?_
  unfold late
  cases hcon : s.gets.recvGetReply.lookup d with
  | none => rfl
  | some con => simp only [Option.any_some, (h d con hcon).1]

/-- An exact sweep met only connections for which the last walk does the right thing. -/
theorem sweepsRight_of_exact {s s' : ProxyTables} {now : Int} (hs' : s.sweepRdp now = .ok s')
    (hexact : Exact now s s') {desc : Int} {con : ReplyConn}
    (hcon : s.gets.recvGetReply.lookup desc = some con) : SweepsRight now con := by
  have hsweepable := sweepable_of_ok hs'
  obtain ⟨replies, hrun, hlookup⟩ := sweepRdp_ok hsweepable now
  obtain rfl := Except.ok.inj (hrun.symm.trans hs')
  have hkeep := (hlookup desc).symm.trans (hexact.recvGetReply desc)
  have hiff : rdpTimeout < con.time ↔ Idle now con.time := by
    rw [hcon] at hkeep
    by_cases htime : rdpTimeout < con.time
    · by_cases hidle : Idle now con.time
      · exact iff_of_true htime hidle
      · simp [Option.filter, htime, hidle] at hkeep
    · by_cases hidle : Idle now con.time
      · simp [Option.filter, htime, hidle] at hkeep
      · exact iff_of_false htime hidle
  refine ⟨hiff, fun hidle => ?_⟩
  by_contra hstate
  -- The record is there, and the get is not completed.
  obtain ⟨it, hit⟩ := Option.ne_none_iff_exists'.mp
    (hsweepable desc con hcon (hiff.mpr hidle) hstate)
  have hnone : completions now s.gets = [] := by
    have hlength := hexact.called.length_eq
    rw [List.length_append] at hlength
    exact List.eq_nil_of_length_eq_zero (Nat.left_eq_add.mp hlength)
  exact completions_ne_nil ⟨desc, con, hcon, hidle, hstate, rfl⟩ hit hnone

/-- A sweep that meets only such connections is exact. -/
theorem exact_of_sweepsRight {s : ProxyTables} {now : Int}
    (hright : ∀ desc con, s.gets.recvGetReply.lookup desc = some con → SweepsRight now con) :
    ∃ s', s.sweepRdp now = .ok s' ∧ Exact now s s' := by
  have hnotDue : ∀ nonce, ¬ Due now s.gets nonce := by
    rintro nonce ⟨desc, con, hcon, hidle, hstate, -⟩
    exact hstate ((hright desc con hcon).2 hidle)
  have hsweepable : ∀ d, Sweepable s.gets d := by
    intro d con hcon htime hstate
    obtain ⟨hiff, hhdr⟩ := hright d con hcon
    exact absurd (hhdr (hiff.mp htime)) hstate
  obtain ⟨replies, hrun, hlookup⟩ := sweepRdp_ok hsweepable now
  refine ⟨_, hrun, ?_⟩
  constructor
  case rdpStore => exact sweepIdle_lookup s.rdpStore
  case rdpRecvStore => exact sweepIdle_lookup s.rdpRecvStore
  case rdpRecvGet => exact sweepIdle_lookup s.rdpRecvGet
  case rdpGetReply => exact sweepIdle_lookup s.rdpGetReply
  case recvGetReply =>
    intro d
    show replies.lookup d = _
    rw [hlookup]
    cases hcon : s.gets.recvGetReply.lookup d with
    | none => rfl
    | some con => simp [Option.filter, (hright d con hcon).1]
  case closed =>
    apply List.Perm.of_eq
    show (afterWalks s now).closed ++ _ = _
    rw [closed_afterWalks, filter_late hright]
    simp only [List.append_assoc]
  case called =>
    rw [completions_of_not_due hnotDue, List.append_nil]
  case getdata => exact fun nonce => (if_neg (hnotDue nonce)).symm
  case timers =>
    refine fun func => (if_neg ?_).symm
    rintro ⟨nonce, -, hdue, -⟩
    exact hnotDue nonce hdue
  case rdpGet => rfl

/-- Exactly the idle connections go, and their gets are completed, if and only if the reply
connections are such that the last walk does the right thing. -/
theorem sweepRdp_exact_iff (s : ProxyTables) (now : Int) :
    (∃ s', s.sweepRdp now = .ok s' ∧ Exact now s s') ↔
      ∀ desc con, s.gets.recvGetReply.lookup desc = some con → SweepsRight now con := by
  constructor
  · rintro ⟨s', hs', hexact⟩ desc con hcon
    exact sweepsRight_of_exact hs' hexact hcon
  · exact exact_of_sweepsRight

/-- In 2011, a client reads a value on connection 5 in the second of the sweep. -/
def liveTransfer : ProxyTables where
  rdpStore := ∅
  rdpRecvStore := ∅
  rdpRecvGet := ∅
  rdpGetReply := ∅
  gets :=
    { ClientGets.init 1 with
      getdata := AList.singleton 9 ⟨0, ∅, 0, true, 4⟩
      timers := AList.singleton 0 9
      recvGetReply := AList.singleton 5 ⟨⟨[], 3, 0, .rgrVal, 9⟩, 1300000000, []⟩
      made := 1 }
  closed := []

/-- The connection is closed under the client, and the get is not completed. -/
theorem not_exact : ¬ ∀ (s : ProxyTables) (now : Int), ∃ s', s.sweepRdp now = .ok s' ∧
    Exact now s s' := by
  intro h
  obtain ⟨s', hs', hexact⟩ := h liveTransfer 1300000000
  have hcon : liveTransfer.gets.recvGetReply.lookup 5 =
      some ⟨⟨[], 3, 0, .rgrVal, 9⟩, 1300000000, []⟩ := rfl
  have hright := sweepsRight_of_exact hs' hexact hcon
  exact absurd (hright.1.mp (by decide)) (by decide)

end Libcage.Proofs.ProxySweep
