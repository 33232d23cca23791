import Libcage.Lib.Index
import Libcage.Proofs.Proxy.Gets

/-!
# `Libcage.Proofs.Proxy.Lossless`: which values a get over a proxy brings

`GetReplyLossless` is the exchange without loss: however the packets come, it ends, and the
function of the get is then called once, with the values. That is so where each value is one
packet. An empty value stops the client or is missing at the end (`empty_lost`). Of a longer
value, the first packets can come alone. The client then holds a value with bytes that were
never written (`Tainted`), and no later event takes it away.
-/

set_option autoImplicit false

namespace Libcage.Proofs.ProxyGet

open Libcage.Lib
open Libcage.Rdp (Id Table)
open Libcage.Dht (Buf StoreFault sendPackets segmentData)
open Libcage.Proxy
open Libcage.Proofs.Dht (toNat_len mem_sendPackets flatten_sendPackets sendPackets_short
  sendPackets_ne_nil)

/-- The exchange ends, and then the client has reported the values. No event faults, the
events that are left are bounded in every state, and when nothing arrives any more, the
function of the get was called once, with exactly the values. -/
structure GetReplyLossless (uninit : List Byte) (nonce : BitVec 32) (id : Id) (vset : List Buf)
    (ptr : RdpRecvGetReply) : Prop where
  runs : ∀ inputs, ∃ s,
    run (GetReplyExchange.step uninit) (.init nonce id vset ptr) inputs = .ok s
  ends : ∀ inputs s,
    run (GetReplyExchange.step uninit) (.init nonce id vset ptr) inputs = .ok s →
      ∃ bound, ∀ more, Allowed (GetReplyExchange.step uninit) Moves s more → more.length ≤ bound
  exact : ∀ inputs s,
    run (GetReplyExchange.step uninit) (.init nonce id vset ptr) inputs = .ok s →
      (∀ i, ¬ Moves s i) → s.client.calls = [(true, values vset)]

/-- The gets of the client: the one with the nonce has no values yet. -/
theorem lookup_init (nonce : BitVec 32) :
    (AList.singleton nonce ∅ : Table (BitVec 32) (Finset Cells)).lookup nonce = some ∅ ∧
      ∀ n, n ≠ nonce →
        (AList.singleton nonce ∅ : Table (BitVec 32) (Finset Cells)).lookup n = none := by
  have hinsert : (AList.singleton nonce ∅ : Table (BitVec 32) (Finset Cells)) =
      (∅ : Table (BitVec 32) (Finset Cells)).insert nonce ∅ := rfl
  rw [hinsert]
  refine ⟨AList.lookup_insert _, fun n hn => ?_⟩
  rw [AList.lookup_insert_ne hn]
  rfl

section
variable {uninit : List Byte} {nonce : BitVec 32} {id : Id} {vset : List Buf}
  {ptr : RdpRecvGetReply}

/-- Values that are one packet each come through. -/
theorem lossless_of_served (hne : vset ≠ []) (h : ∀ value ∈ vset, Served value) :
    GetReplyLossless uninit nonce id vset ptr := by
  obtain ⟨hget, honly⟩ := lookup_init nonce
  have hinit : Phase nonce (values vset) (3 * vset.length + 3) (.init nonce id vset ptr) :=
    .opened rfl hget honly hne h rfl
  have hruns := run_of_moves (phase_moves uninit) phase_stays hinit
  refine ⟨fun inputs => ?_, fun inputs s hrun => ?_, fun inputs s hrun hrest => ?_⟩
  · obtain ⟨s, -, hrun, -, -⟩ := hruns inputs
    exact ⟨s, hrun⟩
  · obtain ⟨s', m, hrun', hphase, -⟩ := hruns inputs
    obtain rfl : s' = s := Except.ok.inj (hrun'.symm.trans hrun)
    refine ⟨m, fun more hmore => ?_⟩
    obtain ⟨t, k, -, -, hlen⟩ := run_of_moves (phase_moves uninit) phase_stays hphase more
    have hle := hlen hmore
    omega
  · obtain ⟨s', m, hrun', hphase, -⟩ := hruns inputs
    obtain rfl : s' = s := Except.ok.inj (hrun'.symm.trans hrun)
    exact phase_rests hphase hrest

/-! ### Up to the first value that is lost -/

/-- A value that is one packet is asked for, comes, and the next one is asked for. -/
theorem serve (uninit : List Byte) {c : GetReplyClient} {done : Finset Cells} {value : Buf}
    {vset : List Buf}
    (hwaits : Waits nonce done c) (hvalue : Served value) (hne : vset ≠ []) :
    ∃ c', run (GetReplyExchange.step uninit)
        ⟨c, ⟨true, true, value :: vset, []⟩, [proxyNext], []⟩ [.toServer 1, .toClient 2] =
        .ok ⟨c', ⟨true, true, vset, []⟩, [proxyNext], []⟩ ∧
      Waits nonce (insert (cells value.1) done) c' := by
  obtain ⟨c', harrive, hwaits'⟩ := arrive_value uninit hwaits hvalue.packets.symm
    (List.cons_ne_nil _ _) hvalue.mod
  rw [List.flatten_singleton, partialCells_all] at hwaits'
  refine ⟨c', ?_, hwaits'⟩
  have hasked : GetReplyExchange.step uninit
      ⟨c, ⟨true, true, value :: vset, []⟩, [proxyNext], []⟩ (.toServer 1) =
      .ok ⟨c, ⟨true, true, vset, []⟩, [], [valueHdr value, value.1]⟩ := by
    have hopen : decide (vset ≠ []) = true := decide_eq_true hne
    rw [step_toServer rfl (arrive_next value vset), hopen, value_eq, hvalue.packets]
    rfl
  have hcame : GetReplyExchange.step uninit
      ⟨c, ⟨true, true, vset, []⟩, [], [valueHdr value, value.1]⟩ (.toClient 2) =
      .ok ⟨c', ⟨true, true, vset, []⟩, [proxyNext], []⟩ := step_toClient rfl harrive
  rw [run, hasked, ok_bind, run, hcame, ok_bind, run]

theorem serve_all (uninit : List Byte) (value : Buf) (after before : List Buf) :
    ∀ {c : GetReplyClient} {done : Finset Cells}, Waits nonce done c →
      (∀ v ∈ before, Served v) →
      ∃ inputs c', run (GetReplyExchange.step uninit)
          ⟨c, ⟨true, true, before ++ value :: after, []⟩, [proxyNext], []⟩ inputs =
          .ok ⟨c', ⟨true, true, value :: after, []⟩, [proxyNext], []⟩ ∧
        Waits nonce (done ∪ values before) c' := by
  induction before with
  | nil =>
    intro c done hwaits hserved
    refine ⟨[], c, rfl, ?_⟩
    rw [values_nil, Finset.union_empty]
    exact hwaits
  | cons v before ih =>
    intro c done hwaits hserved
    obtain ⟨c', hrun, hwaits'⟩ := serve uninit hwaits
      (hserved v (List.mem_cons_self ..))
      (List.append_ne_nil_of_right_ne_nil before (List.cons_ne_nil value after))
    obtain ⟨inputs, c'', hrun', hwaits''⟩ :=
      ih hwaits' fun w hw => hserved w (List.mem_cons_of_mem _ hw)
    refine ⟨.toServer 1 :: .toClient 2 :: inputs, c'', ?_, ?_⟩
    · exact (run_append hrun).trans hrun'
    · rw [values_cons, Finset.union_insert, ← Finset.insert_union]
      exact hwaits''

/-- The values before some value come, and the packets of this one are on their way. -/
theorem reach_value (uninit : List Byte) (nonce : BitVec 32) (id : Id) (ptr : RdpRecvGetReply)
    {before : List Buf} (value : Buf) (after : List Buf) (h : ∀ v ∈ before, Served v) :
    ∃ inputs c, run (GetReplyExchange.step uninit) (.init nonce id (before ++ value :: after) ptr)
        inputs =
        .ok ⟨c, ⟨decide (after ≠ []), true, after, []⟩, [], GetReplyServer.value value⟩ ∧
      Waits nonce (values before) c := by
  obtain ⟨hget, honly⟩ := lookup_init nonce
  have hone : GetReplyServer.connected true nonce id =
      [MsgProxyRdpGetReply.encode ⟨nonce, id, proxyGetSuccess⟩] :=
    sendPackets_short (MsgProxyRdpGetReply.length_encode _) (by decide)
  have hstate : (RdpRecvGetReply.accepted ptr.valuelen ptr.valRead ptr.nonce).state = .rgrHdr := rfl
  obtain ⟨c, harrive, hwaits⟩ := arrive_hdr uninit hstate hget honly id
  rw [hone] at harrive
  have hhdr : GetReplyExchange.step uninit (.init nonce id (before ++ value :: after) ptr)
      (.toClient 1) =
      .ok ⟨c, ⟨true, true, before ++ value :: after, []⟩, [proxyNext], []⟩ := by
    unfold GetReplyExchange.init
    rw [hone]
    exact step_toClient rfl harrive
  -- First the header, then the values before, and then this one is asked for.
  obtain ⟨inputs, c', hrun, hwaits'⟩ := serve_all uninit value after
    before hwaits h
  rw [Finset.empty_union] at hwaits'
  refine ⟨.toClient 1 :: (inputs ++ [.toServer 1]), c', ?_, hwaits'⟩
  have hasked : GetReplyExchange.step uninit
      ⟨c', ⟨true, true, value :: after, []⟩, [proxyNext], []⟩ (.toServer 1) =
      .ok ⟨c', ⟨decide (after ≠ []), true, after, []⟩, [], GetReplyServer.value value⟩ :=
    step_toServer rfl (arrive_next value after)
  rw [run, hhdr, ok_bind, run_append hrun, run, hasked, ok_bind, run]

/-! ### An empty value -/

/-- The connection ends while the client waits for a value. -/
theorem reset_reads {done : Finset Cells} {value : Buf} {s : GetReplyClient}
    (h : Reads nonce done value s) :
    s.reset.calls = [(decide (done.card > 0), done)] ∧ s.reset.entry = none := by
  obtain ⟨entry, rqueue, getdata, calls⟩ := s
  obtain ⟨rfl, rfl, hget, honly, rfl⟩ := h
  simp only [GetReplyClient.reset, GetReplyClient.closeRdp, hget, GetReplyClient.close,
    List.nil_append, and_self]

/-- No value that is one packet is empty. -/
theorem nil_notMem_values {vset : List Buf} (h : ∀ value ∈ vset, Served value) :
    cells [] ∉ values vset := by
  intro hmem
  obtain ⟨value, hvalue, heq⟩ := List.mem_map.mp (List.mem_toFinset.mp hmem)
  exact (h value hvalue).1 (List.map_eq_nil_iff.mp heq)

/-- Nothing is on its way, and the end of the connection does not come. -/
theorem not_moves_of_empty {c : GetReplyClient} {server : GetReplyServer}
    (h : ¬ GetReplyExchange.Closes ⟨c, server, [], []⟩) (i : GetReplyExchange.Input) :
    ¬ Moves ⟨c, server, [], []⟩ i := by
  intro hi
  cases i with
  | toServer k => exact hi List.take_nil
  | toClient k => exact hi List.take_nil
  | closed => exact h hi

/-- Of an empty value nothing is read, and nothing is on its way after its header. -/
theorem reach_empty (uninit : List Byte) (nonce : BitVec 32) (id : Id) (ptr : RdpRecvGetReply)
    {before : List Buf} {value : Buf} (after : List Buf) (h : ∀ v ∈ before, Served v)
    (hempty : value.1 = []) :
    ∃ inputs c, run (GetReplyExchange.step uninit) (.init nonce id (before ++ value :: after) ptr)
        inputs = .ok ⟨c, ⟨decide (after ≠ []), true, after, []⟩, [], []⟩ ∧
      Reads nonce (values before) value c := by
  obtain ⟨inputs, c, hrun, hwaits⟩ := reach_value uninit nonce id ptr value after h
  obtain ⟨c', harrive, hreads⟩ := arrive_valueHdr uninit value hwaits
  have hpackets : GetReplyServer.value value = [valueHdr value] := by
    rw [value_eq, hempty]
    rfl
  rw [hpackets] at hrun
  have hhdr : GetReplyExchange.step uninit
      ⟨c, ⟨decide (after ≠ []), true, after, []⟩, [], [valueHdr value]⟩ (.toClient 1) =
      .ok ⟨c', ⟨decide (after ≠ []), true, after, []⟩, [], []⟩ := step_toClient rfl harrive
  exact ⟨inputs ++ [.toClient 1], c', by rw [run_append hrun, run, hhdr, ok_bind, run], hreads⟩

/-- Of an empty value nothing is read. The client waits for it for ever, or until the
connection ends. -/
theorem empty_lost {before after : List Buf} {value : Buf} (h : ∀ v ∈ before, Served v)
    (hempty : value.1 = []) :
    ¬ GetReplyLossless uninit nonce id (before ++ value :: after) ptr := by
  intro hlossless
  obtain ⟨inputs, c, hrun, hreads⟩ := reach_empty uninit nonce id ptr after h hempty
  by_cases hafter : after = []
  · -- The proxy has closed, and the value is missing.
    subst hafter
    obtain ⟨hcalls, hentry⟩ := reset_reads hreads
    have hcloses : GetReplyExchange.Closes ⟨c, ⟨false, true, [], []⟩, [], []⟩ := by
      refine ⟨rfl, rfl, ?_⟩
      rw [hreads.entry]
      rfl
    have hgone : ¬ GetReplyExchange.Closes ⟨c.reset, ⟨false, true, [], []⟩, [], []⟩ := by
      rintro ⟨-, -, hsome⟩
      rw [hentry] at hsome
      cases hsome
    have hend : run (GetReplyExchange.step uninit) (.init nonce id (before ++ [value]) ptr)
        (inputs ++ [.closed]) = .ok ⟨c.reset, ⟨false, true, [], []⟩, [], []⟩ := by
      have hfalse : decide (([] : List Buf) ≠ []) = false := rfl
      rw [hfalse] at hrun
      rw [run_append hrun, run, step_closed hcloses, ok_bind, run]
    have hexact := hlossless.exact _ _ hend (not_moves_of_empty hgone)
    have hsets : values before = values (before ++ [value]) := by
      have hcall := hcalls.symm.trans hexact
      exact (Prod.mk.inj (List.cons.inj hcall).1).2
    apply nil_notMem_values h
    rw [hsets, values, List.mem_toFinset, List.mem_map]
    exact ⟨value, by simp, by rw [hempty]⟩
  · -- Both ends wait.
    have hopen : ¬ GetReplyExchange.Closes
        ⟨c, ⟨decide (after ≠ []), true, after, []⟩, [], []⟩ :=
      fun hcloses => of_decide_eq_false hcloses.1 hafter
    have hexact := hlossless.exact _ _ hrun (not_moves_of_empty hopen)
    have hnone : c.calls = [] := hreads.calls
    rw [hnone] at hexact
    cases hexact

end

/-! ### A value that is longer than a packet -/

/-- A value is in every set that the client has or has reported. -/
structure Tainted (val : Cells) (s : GetReplyClient) : Prop where
  getdata : ∀ nonce vset, s.getdata.lookup nonce = some vset → val ∈ vset
  calls : ∀ call ∈ s.calls, val ∈ call.2

namespace Tainted

variable {val : Cells} {uninit : List Byte} {s : GetReplyClient} {ptr : RdpRecvGetReply}

/-- Only the gets and the calls count. -/
theorem congr {s' : GetReplyClient} (h : Tainted val s) (hget : s'.getdata = s.getdata)
    (hcalls : s'.calls = s.calls) : Tainted val s' := by
  refine ⟨?_, ?_⟩
  · rw [hget]
    exact h.getdata
  · rw [hcalls]
    exact h.calls

theorem closeRdp (h : Tainted val s) (ptr : RdpRecvGetReply) : Tainted val (s.closeRdp ptr) := by
  unfold GetReplyClient.closeRdp
  split
  · exact h.congr rfl rfl
  · rename_i vset hvset
    refine ⟨fun n vset' hn => ?_, fun call hcall => ?_⟩
    · exact h.getdata n vset' (lookup_erase_eq_some.mp hn).2
    · rcases List.mem_append.mp hcall with hcall | hcall
      · exact h.calls call hcall
      · rw [List.mem_singleton.mp hcall]
        exact h.getdata _ vset hvset

theorem reset (h : Tainted val s) : Tainted val s.reset := by
  unfold GetReplyClient.reset
  split
  · exact h.congr rfl rfl
  · exact h.closeRdp _

theorem readHdr (h : Tainted val s) : Tainted val (GetReplyClient.readHdr uninit ptr s).2.1 := by
  unfold GetReplyClient.readHdr
  simp only
  split
  · exact h.congr rfl rfl
  · split
    · exact h.congr rfl rfl
    · split
      · refine closeRdp ?_ _
        exact h.congr rfl rfl
      · exact h.congr rfl rfl

theorem readValHdr (h : Tainted val s) :
    Tainted val (GetReplyClient.readValHdr uninit ptr s).2.1 := by
  unfold GetReplyClient.readValHdr
  split
  · exact h.congr rfl rfl
  · simp only
    split
    · exact h.congr rfl rfl
    · exact h.congr rfl rfl

/-- A set that is written back has one value more. -/
theorem readValLoop (rounds : Nat) : ∀ {ptr : RdpRecvGetReply} {vset : Finset Cells}
    {s : GetReplyClient}, Tainted val s → val ∈ vset →
      ∀ r, GetReplyClient.readValLoop rounds ptr vset s = .ok r → Tainted val r.2.1 := by
  induction rounds with
  | zero =>
    intro ptr vset s h hval r hr
    cases hr
  | succ rounds ih =>
    intro ptr vset s h hval r hr
    rw [GetReplyClient.readValLoop] at hr
    simp only at hr
    split at hr
    · cases hr
      exact h.congr rfl rfl
    · split at hr
      · cases hr
        refine ⟨fun n vset' hn => ?_, h.calls⟩
        rcases lookup_insert_eq_some.mp hn with ⟨-, rfl⟩ | ⟨-, hn⟩
        · exact Finset.mem_insert_of_mem hval
        · exact h.getdata n vset' hn
      · refine ih ?_ hval r hr
        exact h.congr rfl rfl

theorem read (h : Tainted val s) {r : Bool × GetReplyClient × List (List Byte)}
    (hr : GetReplyClient.read uninit ptr s = .ok r) : Tainted val r.2.1 := by
  unfold GetReplyClient.read at hr
  split at hr
  · cases hr
    exact h.readHdr
  · cases hr
    exact h.readValHdr
  · unfold GetReplyClient.readVal at hr
    split at hr
    · cases hr
      exact h.congr rfl rfl
    · rename_i vset hvset
      exact readValLoop _ h (h.getdata _ vset hvset) r hr

theorem ready2ReadLoop (rounds : Nat) : ∀ {s : GetReplyClient} {sent : List (List Byte)},
    Tainted val s → ∀ r, GetReplyClient.ready2ReadLoop uninit rounds s sent = .ok r →
      Tainted val r.1 := by
  induction rounds with
  | zero =>
    intro s sent h r hr
    cases hr
  | succ rounds ih =>
    intro s sent h r hr
    rw [GetReplyClient.ready2ReadLoop] at hr
    split at hr
    · cases hr
    · obtain ⟨⟨goOn, s', sent'⟩, hread, hrest⟩ := bind_eq_ok hr
      have hs' : Tainted val s' := h.read hread
      cases goOn with
      | false =>
        cases hrest
        exact hs'
      | true => exact ih hs' r hrest

theorem arrive (h : Tainted val s) {packets : List (List Byte)}
    {r : GetReplyClient × List (List Byte)} (hr : s.arrive uninit packets = .ok r) :
    Tainted val r.1 := by
  unfold GetReplyClient.arrive at hr
  split at hr
  · cases hr
    exact h
  · simp only at hr
    split at hr
    · cases hr
      exact h.congr rfl rfl
    · refine ready2ReadLoop _ ?_ r hr
      exact h.congr rfl rfl

/-- No event takes a value away. -/
theorem step {s s' : GetReplyExchange} {i : GetReplyExchange.Input} (h : Tainted val s.client)
    (hstep : GetReplyExchange.step uninit s i = .ok s') : Tainted val s'.client := by
  cases i with
  | toServer k =>
    obtain ⟨⟨server, sent⟩, -, hs'⟩ := bind_eq_ok hstep
    cases hs'
    exact h
  | toClient k =>
    obtain ⟨⟨client, sent⟩, harrive, hs'⟩ := bind_eq_ok hstep
    cases hs'
    exact h.arrive harrive
  | closed =>
    cases hstep
    split
    · exact h.reset
    · exact h

end Tainted

/-- The client that waits holds the value. -/
theorem Waits.tainted {nonce : BitVec 32} {done : Finset Cells} {val : Cells}
    {s : GetReplyClient} (h : Waits nonce (insert val done) s) : Tainted val s := by
  refine ⟨fun n vset hn => ?_, fun call hcall => ?_⟩
  · by_cases hkey : n = nonce
    · rw [hkey, h.getdata] at hn
      cases hn
      exact Finset.mem_insert_self ..
    · rw [h.only n hkey] at hn
      cases hn
  · rw [h.calls] at hcall
    cases hcall

/-- All bytes of a value were sent. -/
theorem none_notMem_values {vset : List Buf} {val : Cells} (h : val ∈ values vset) :
    none ∉ val := by
  obtain ⟨value, -, rfl⟩ := List.mem_map.mp (List.mem_toFinset.mp h)
  simp [cells]

/-- The packets of a string, up to the second one. -/
theorem cut_two {n : Nat} {bs : List Byte} (hn : 0 < n) (hlong : n < bs.length) :
    ∃ packets, cut n bs = bs.take n :: (bs.drop n).take n :: packets := by
  obtain ⟨rounds, hrounds⟩ : ∃ rounds, bs.length = rounds + 2 := ⟨bs.length - 2, by omega⟩
  have hbs : bs ≠ [] := by
    intro hnil
    rw [hnil] at hlong
    exact absurd hlong (by simp)
  have hdrop : bs.drop n ≠ [] := by
    rw [ne_eq, List.drop_eq_nil_iff]
    omega
  refine ⟨cutLoop n rounds ((bs.drop n).drop n), ?_⟩
  rw [cut, hrounds, cutLoop, if_neg hbs, cutLoop, if_neg hdrop]

/-- Of a value longer than a packet, some packets can come alone: one of them, or two where
the length and a packet make 2 ^ 16 bytes. -/
theorem exists_part {value : Buf} (h : segmentData < value.1.length) :
    ∃ k, (sendPackets value.1).take k ≠ [] ∧
      ((sendPackets value.1).take k).flatten.length < value.1.length ∧
      (((sendPackets value.1).take k).flatten.length + value.1.length) % 2 ^ 16 ≠ 0 := by
  obtain ⟨packets, hpackets⟩ := cut_two (by decide) h
  have hone : ((sendPackets value.1).take 1).flatten.length = segmentData := by
    rw [sendPackets, hpackets]
    simp only [List.take_succ_cons, List.take_zero, List.flatten_singleton, List.length_take]
    omega
  have hne : ∀ k, (sendPackets value.1).take (k + 1) ≠ [] := by
    intro k
    rw [sendPackets, hpackets]
    exact List.cons_ne_nil _ _
  by_cases hmod : (segmentData + value.1.length) % 2 ^ 16 = 0
  · -- Then the value is longer than two packets, and two do not make such a sum.
    have htwo : ((sendPackets value.1).take 2).flatten.length = 2 * segmentData := by
      have hlen := value.2
      rw [sendPackets, hpackets]
      simp only [List.take_succ_cons, List.take_zero, List.flatten_cons, List.flatten_nil,
        List.append_nil, List.length_append, List.length_take, List.length_drop]
      unfold segmentData at h hmod ⊢
      omega
    have hlen := value.2
    refine ⟨2, hne 1, ?_, ?_⟩
    · rw [htwo]
      unfold segmentData at hmod ⊢
      omega
    · rw [htwo]
      unfold segmentData at hmod ⊢
      omega
  · refine ⟨1, hne 0, ?_, ?_⟩
    · rw [hone]
      exact h
    · rw [hone]
      exact hmod

section
variable {uninit : List Byte} {nonce : BitVec 32} {id : Id} {ptr : RdpRecvGetReply}

/-- The first packets of a long value are taken for the value. -/
theorem long_lost {before after : List Buf} {value : Buf} (h : ∀ v ∈ before, Served v)
    (hlong : segmentData < value.1.length) :
    ¬ GetReplyLossless uninit nonce id (before ++ value :: after) ptr := by
  intro hlossless
  obtain ⟨inputs, c, hrun, hwaits⟩ := reach_value uninit nonce id ptr value after h
  obtain ⟨k, hne, hshort, hmod⟩ := exists_part hlong
  obtain ⟨c', harrive, hwaits'⟩ := arrive_value uninit hwaits
    (List.take_append_drop k (sendPackets value.1)) hne hmod
  have htainted := hwaits'.tainted
  rw [value_eq] at hrun
  have hcame : GetReplyExchange.step uninit ⟨c, ⟨decide (after ≠ []), true, after, []⟩, [],
      valueHdr value :: sendPackets value.1⟩ (.toClient (k + 1)) =
      .ok ⟨c', ⟨decide (after ≠ []), true, after, []⟩, [proxyNext],
        (sendPackets value.1).drop k⟩ := step_toClient List.take_succ_cons harrive
  have hreached : run (GetReplyExchange.step uninit)
      (.init nonce id (before ++ value :: after) ptr) (inputs ++ [.toClient (k + 1)]) =
      .ok ⟨c', ⟨decide (after ≠ []), true, after, []⟩, [proxyNext],
        (sendPackets value.1).drop k⟩ := by
    rw [run_append hrun, run, hcame, ok_bind, run]
  -- From there the exchange ends, and what is reported has the value.
  obtain ⟨bound, hbound⟩ := hlossless.ends _ _ hreached
  have hruns : ∀ more, ∃ s', run (GetReplyExchange.step uninit)
      ⟨c', ⟨decide (after ≠ []), true, after, []⟩, [proxyNext], (sendPackets value.1).drop k⟩ more =
      .ok s' := by
    intro more
    obtain ⟨s', hs'⟩ := hlossless.runs (inputs ++ [.toClient (k + 1)] ++ more)
    rw [run_append hreached] at hs'
    exact ⟨s', hs'⟩
  obtain ⟨more, s', hs', hrest⟩ := exists_rest_of_bound hbound hruns
  have hend : run (GetReplyExchange.step uninit)
      (.init nonce id (before ++ value :: after) ptr) (inputs ++ [.toClient (k + 1)] ++ more) =
      .ok s' := by
    rw [run_append hreached]
    exact hs'
  have hs'' : Tainted (partialCells value ((sendPackets value.1).take k).flatten) s'.client :=
    run_inv (fun s => Tainted _ s.client) (fun s i s' hs hstep => hs.step hstep) htainted hs'
  have hmem := hs''.calls (true, values (before ++ value :: after)) (by
    rw [hlossless.exact _ _ hend hrest]
    exact List.mem_singleton_self _)
  apply none_notMem_values hmem
  rw [partialCells, List.mem_append]
  exact Or.inr (List.mem_replicate.mpr ⟨by omega, rfl⟩)

/-- The values come through, however their packets come, if and only if each of them is one
packet. -/
theorem getReplyLossless_iff (uninit : List Byte) (nonce : BitVec 32) (id : Id) (vset : List Buf)
    (ptr : RdpRecvGetReply) (hne : vset ≠ []) : GetReplyLossless uninit nonce id vset ptr ↔
      ∀ value ∈ vset, value.1 ≠ [] ∧ value.1.length ≤ segmentData := by
  refine ⟨fun hlossless => ?_, lossless_of_served hne⟩
  by_contra hnot
  have hlost : ∃ value ∈ vset, ¬ Served value := by
    by_contra hall
    exact hnot fun value hvalue => by_contra fun hlost => hall ⟨value, hvalue, hlost⟩
  obtain ⟨v, hv, hlost⟩ := hlost
  -- The first value that is not one packet.
  obtain ⟨value, before, after, hbefore, hvalue, rfl, -⟩ := List.exists_of_eraseP
    (p := fun value => decide (¬ Served value)) hv (decide_eq_true hlost)
  have hserved : ∀ w ∈ before, Served w := by
    intro w hw
    simpa using hbefore w hw
  have hvalue : ¬ Served value := of_decide_eq_true hvalue
  by_cases hempty : value.1 = []
  · exact empty_lost hserved hempty hlossless
  · have hlong : segmentData < value.1.length := by
      by_contra hle
      exact hvalue ⟨hempty, not_lt.mp hle⟩
    exact long_lost hserved hlong hlossless

end

theorem shortValue_fits : ([1] : List Byte).length < 2 ^ 16 := by decide

/-- A value of one byte. -/
def shortValue : Buf := ⟨[1], shortValue_fits⟩

theorem getReplyLossless_iff_short :
    GetReplyLossless [] 7 5 [shortValue] ⟨[], 0, 0, .rgrHdr, 0⟩ := by
  refine (getReplyLossless_iff [] 7 5 [shortValue] ⟨[], 0, 0, .rgrHdr, 0⟩
    (List.cons_ne_nil _ _)).mpr ?_
  intro value hvalue
  rw [List.mem_singleton.mp hvalue]
  decide

/-- A value of two packets. -/
def longValue : Buf := ⟨List.replicate 865 1, by rw [List.length_replicate]; decide⟩

/-- Of a value of two packets, the first one is taken for the value. -/
theorem long_value_cut : ¬ ∀ (uninit : List Byte) (nonce : BitVec 32) (id : Id) (vset : List Buf)
    (ptr : RdpRecvGetReply), vset ≠ [] → GetReplyLossless uninit nonce id vset ptr := by
  intro h
  have hnone : ∀ v ∈ ([] : List Buf), Served v := by
    intro v hv
    cases hv
  have hlong : segmentData < longValue.1.length := by
    rw [longValue, List.length_replicate]
    decide
  exact long_lost hnone hlong
    (h [] 7 5 [longValue] ⟨[], 0, 0, .rgrHdr, 0⟩ (List.cons_ne_nil _ _))

end Libcage.Proofs.ProxyGet
