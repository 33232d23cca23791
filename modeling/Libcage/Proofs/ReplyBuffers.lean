import Libcage.Dht.FindValueReply
import Libcage.Proofs.Dht.Expiry
import Libcage.Proxy.GetReply

/-!
# `Libcage.Proofs.ReplyBuffers`: the buffers of the replies

`recv_find_value` and `send_reply` compose their replies in buffers on the stack. The reply with
nodes has room for all that a lookup finds (`length_found`). A value gets into `m_stored` with
any 16-bit length, by the local store and by a store over RDP, and neither function asks
whether it fits. `repliesFit_iff` has the condition.

A length within the buffer is also one of 16 bits, so it is passed on as it is.
-/

set_option autoImplicit false

namespace Libcage.Proofs

open Libcage.Lib
open Libcage.Dht
open Libcage.Proxy (Addr GetReplyFunc sizeofGetReplyHead sizeofGetReplyBuf)
open Libcage.Proofs.Dht
open Libcage.Rdp (Id Table)

/-! ### The sizes -/

/-- A lookup finds ten contacts at most. -/
theorem length_found (t : Rttable) (rounds : Nat) (id : Id) :
    (t.found rounds id).length ≤ numFindNode := by
  unfold Rttable.found
  split
  · rename_i nodes hlookup
    obtain ⟨⟨n, is⟩, -, hrest⟩ := bind_eq_ok hlookup
    obtain rfl := Except.ok.inj hrest
    exact List.length_take_le ..
  · exact Nat.zero_le _

theorem length_writeNodes {write : Cageaddr → Option (List Byte)} {size : Nat}
    (hwrite : ∀ addr bytes, write addr = some bytes → bytes.length = size)
    (nodes : List Cageaddr) :
    ∀ {bytes : List Byte}, writeNodes write nodes = some bytes →
      bytes.length = size * nodes.length := by
  induction nodes with
  | nil =>
    intro bytes h
    obtain rfl := Option.some.inj h
    rfl
  | cons addr nodes ih =>
    intro bytes h
    obtain ⟨min, hmin, h⟩ := Option.bind_eq_some_iff.mp h
    obtain ⟨rest, hrest, h⟩ := Option.bind_eq_some_iff.mp h
    obtain rfl := Option.some.inj h
    rw [List.length_append, hwrite addr min hmin, ih hrest, List.length_cons, Nat.mul_succ,
      Nat.add_comm]

theorem length_msgInet (addr : Cageaddr) (bytes : List Byte) (h : addr.msgInet = some bytes) :
    bytes.length = sizeofInet := by
  unfold Cageaddr.msgInet at h
  split at h
  · obtain rfl := Option.some.inj h
    rfl
  · obtain rfl := Option.some.inj h
    rfl
  · cases h

theorem length_msgInet6 (addr : Cageaddr) (bytes : List Byte) (h : addr.msgInet6 = some bytes) :
    bytes.length = sizeofInet6 := by
  unfold Cageaddr.msgInet6 at h
  split at h
  · obtain rfl := Option.some.inj h
    rfl
  · obtain rfl := Option.some.inj h
    rfl
  · cases h

/-- The size that the source computes is that of the data. -/
theorem length_encode {data : ReplyData} {bytes : List Byte} (h : data.encode = some bytes) :
    bytes.length = data.size := by
  cases data with
  | nul =>
    obtain rfl := Option.some.inj h
    rfl
  | value key value =>
    obtain rfl := Option.some.inj h
    simp only [List.length_append, length_wr16, ReplyData.size]
    omega
  | nodes domain addrs =>
    obtain ⟨nodes, hnodes, rfl⟩ := Option.map_eq_some_iff.mp h
    -- The contacts of one family all have the same size.
    have hlength : nodes.length
        = (if domain = domainInet then sizeofInet else sizeofInet6) * addrs.length := by
      split at hnodes
      · rw [if_pos ‹_›]
        exact length_writeNodes length_msgInet addrs hnodes
      · rw [if_neg ‹_›]
        exact length_writeNodes length_msgInet6 addrs hnodes
    simp only [List.length_append, List.length_cons, length_wr16, ReplyData.size, hlength]
    omega

theorem length_draft {mId dst : Id} {reply : MsgDhtFindValueReply} {d : Draft 16}
    (h : reply.draft mId dst = some d) :
    d.bytes.length = sizeofFindValueReplyHead + reply.data.size ∧
      d.len = .ofNat 16 d.bytes.length := by
  obtain ⟨data, hdata, h⟩ := Option.bind_eq_some_iff.mp h
  obtain rfl := Option.some.inj h
  have hlength : ∀ hdr : MsgHdr, (hdr.encode ++ (wr32 reply.nonce ++ (wr160 reply.id ++
      (wr16 reply.index ++ (wr16 reply.total ++ (reply.flag :: 0 :: 0 :: 0 :: data)))))).length
        = sizeofFindValueReplyHead + reply.data.size := by
    intro hdr
    rw [← length_encode hdata]
    simp only [List.length_append, List.length_cons, MsgHdr.length_encode, length_wr16, length_wr32,
      wr160, sizeofHdr, sizeofFindValueReplyHead]
    omega
  exact ⟨hlength _, by rw [hlength]⟩

/-! ### The replies of `recv_find_value` -/

/-- A reply as the source composes it fits if its data does. -/
theorem draft_fits {mId dst : Id} {reply : MsgDhtFindValueReply} {d : Draft 16}
    (h : reply.draft mId dst = some d)
    (hsize : sizeofFindValueReplyHead + reply.data.size ≤ sizeofBuf) : d.Fits sizeofBuf := by
  obtain ⟨hlength, hlen⟩ := length_draft h
  rw [Draft.fits_iff (by decide) hlen, hlength]
  exact hsize

theorem valueReplies_sizes (req : MsgDhtFindValue) (total : BitVec 16) (its : List StoredData) :
    ∀ {replies : List MsgDhtFindValueReply}, valueReplies req total its = .ok replies →
      ∀ reply ∈ replies, sizeofFindValueReplyHead + reply.data.size ≤ sizeofBuf := by
  induction its with
  | nil =>
    intro replies h reply hmem
    obtain rfl := Except.ok.inj h
    cases hmem
  | cons it its ih =>
    intro replies h reply hmem
    rw [valueReplies] at h
    split at h
    · cases h
    · -- The source would have written behind the buffer otherwise.
      rename_i hfits
      obtain ⟨rest, hrest, h⟩ := bind_eq_ok h
      obtain rfl := Except.ok.inj h
      rcases List.mem_cons.mp hmem with rfl | hmem
      · simp only [ReplyData.size, sizeofFindValueReplyHead, sizeofValueHead] at hfits ⊢
        omega
      · exact ih hrest reply hmem

theorem nodesReply_sizes {lookup : Id → List Cageaddr} {req : MsgDhtFindValue}
    (hfound : (lookup req.id).length ≤ numFindNode) :
    ∀ reply ∈ nodesReply lookup req,
      sizeofFindValueReplyHead + reply.data.size ≤ sizeofBuf := by
  intro reply hmem
  unfold nodesReply at hmem
  split at hmem
  · obtain rfl := List.mem_singleton.mp hmem
    have hmax : (if req.domain = domainInet then sizeofInet else sizeofInet6)
        * (lookup req.id).length ≤ sizeofInet6 * numFindNode := by
      refine Nat.mul_le_mul ?_ hfound
      split <;> decide
    have hroom : sizeofFindValueReplyHead + (4 + sizeofInet6 * numFindNode) ≤ sizeofBuf := by decide
    simp only [ReplyData.size]
    omega
  · cases hmem

/-- What `recv_find_value` composes without leaving the buffer. -/
theorem recvFindValue_sizes {mId : Id} {stored : Stored} {lookup : Id → List Cageaddr}
    {req : MsgDhtFindValue} (hfound : (lookup req.id).length ≤ numFindNode)
    {replies : List MsgDhtFindValueReply} (h : recvFindValue mId stored lookup req = .ok replies) :
    ∀ reply ∈ replies, sizeofFindValueReplyHead + reply.data.size ≤ sizeofBuf := by
  have hnodes : ∀ reply ∈ nodesReply lookup req,
      sizeofFindValueReplyHead + reply.data.size ≤ sizeofBuf := nodesReply_sizes hfound
  have hnil : ∀ reply ∈ ([] : List MsgDhtFindValueReply),
      sizeofFindValueReplyHead + reply.data.size ≤ sizeofBuf := nofun
  unfold recvFindValue at h
  -- A request for another node or with a wrong length is dropped.
  split at h
  · obtain rfl := Except.ok.inj h
    exact hnil
  split at h
  · obtain rfl := Except.ok.inj h
    exact hnil
  -- Where the value is wanted by RDP, the reply says that the id is known or has nodes.
  split at h
  · split at h
    · obtain rfl := Except.ok.inj h
      intro reply hmem
      obtain rfl := List.mem_singleton.mp hmem
      exact (by decide : sizeofFindValueReplyHead + 0 ≤ sizeofBuf)
    · obtain rfl := Except.ok.inj h
      exact hnodes
  -- By UDP every value has a reply, or the nodes go out where there is none.
  split at h
  · split at h
    · obtain rfl := Except.ok.inj h
      exact hnodes
    · split at h
      · obtain rfl := Except.ok.inj h
        exact hnodes
      · exact valueReplies_sizes req _ _ h
  · obtain rfl := Except.ok.inj h
    exact hnil

/-- The record is one that the request asks for by UDP. -/
def Answers (mId : Id) (stored : Stored) (req : MsgDhtFindValue) (it : StoredData) : Prop :=
  AsksByUdp mId req (Buf.copy req.keylen req.key) ∧
    ∃ value, (stored.row req.id (Buf.copy req.keylen req.key)).lookup value = some it

/-- All replies to the request are written within the buffer, and go out with the length of what
is written. -/
def FindValueFits (mId : Id) (stored : Stored) (t : Rttable) (rounds : Nat)
    (req : MsgDhtFindValue) : Prop :=
  ∃ replies, recvFindValue mId stored (t.found rounds) req = .ok replies ∧
    ∀ reply ∈ replies, ∀ d, reply.draft mId req.src = some d → d.Fits sizeofBuf

/-- A request that asks for no value by UDP is answered in any case. -/
theorem recvFindValue_of_not_asks {mId : Id} (stored : Stored) (lookup : Id → List Cageaddr)
    {req : MsgDhtFindValue} (hnot : ¬ AsksByUdp mId req (Buf.copy req.keylen req.key)) :
    ∃ replies, recvFindValue mId stored lookup req = .ok replies := by
  unfold recvFindValue
  split
  · exact ⟨_, rfl⟩
  split
  · exact ⟨_, rfl⟩
  split
  · split <;> exact ⟨_, rfl⟩
  split
  · rename_i hdst hlen _ hflag
    exact absurd ⟨not_not.mp hdst, not_not.mp hlen, hflag, rfl⟩ hnot
  · exact ⟨_, rfl⟩

theorem findValueFits_iff (mId : Id) (stored : Stored) (t : Rttable) (rounds : Nat)
    (req : MsgDhtFindValue) :
    FindValueFits mId stored t rounds req ↔ ∀ it, Answers mId stored req it → FitsReply it := by
  have hends : ∀ {replies}, recvFindValue mId stored (t.found rounds) req = .ok replies →
      FindValueFits mId stored t rounds req := fun h =>
    ⟨_, h, fun reply hmem d hd =>
      draft_fits hd (recvFindValue_sizes (length_found t rounds req.id) h reply hmem)⟩
  constructor
  · rintro ⟨replies, hreplies, -⟩ it ⟨hasks, value, hit⟩
    exact ((recvFindValue_ends stored (t.found rounds) hasks).of_ok hreplies).1 value it hit
  · intro hall
    by_cases hasks : AsksByUdp mId req (Buf.copy req.keylen req.key)
    · cases hreplies : recvFindValue mId stored (t.found rounds) req with
      | ok replies => exact hends hreplies
      | error e =>
        obtain ⟨value, it, hit, hbig⟩ :=
          (recvFindValue_ends stored (t.found rounds) hasks).of_error hreplies
        exact absurd (hall it ⟨hasks, value, hit⟩) hbig
    · obtain ⟨replies, hreplies⟩ := recvFindValue_of_not_asks stored (t.found rounds) hasks
      exact hends hreplies

/-! ### The replies of `send_reply` -/

/-- All replies to the client are written within the buffer, and go out with the length of what
is written. -/
def GetReplyFits (func : GetReplyFunc) (mId : Id) (registered : Table Id Addr) (result : Bool)
    (vset : List Buf) : Prop :=
  ∃ sent, func.sendReply mId registered result vset = .ok sent ∧
    ∀ d ∈ sent, d.Fits sizeofGetReplyBuf

/-- The value fits into the buffer of `send_reply`. -/
def FitsGetReply (value : Buf) : Prop := sizeofGetReplyHead + value.1.length ≤ sizeofGetReplyBuf

theorem getReplyDraft_fits (func : GetReplyFunc) (mId dst : Id) (index total : BitVec 16)
    (flag : Byte) {value : List Byte}
    (hfits : sizeofGetReplyHead + value.length ≤ sizeofGetReplyBuf) :
    (func.draft mId dst index total flag value).Fits sizeofGetReplyBuf := by
  have hlength : (func.draft mId dst index total flag value).bytes.length
      = sizeofGetReplyHead + value.length := by
    simp only [GetReplyFunc.draft, List.length_append, List.length_cons, MsgHdr.length_encode,
      length_wr16, length_wr32, wr160, sizeofHdr, sizeofGetReplyHead]
    omega
  rw [Draft.fits_iff (by decide) (by rw [hlength]; rfl), hlength]
  exact hfits

theorem sendValues_ends (func : GetReplyFunc) (mId dst : Id) (total : BitVec 16)
    (vset : List Buf) :
    ∀ index, Ends (fun sent => (∀ value ∈ vset, FitsGetReply value) ∧
        ∀ d ∈ sent, d.Fits sizeofGetReplyBuf)
      (fun _ => ∃ value ∈ vset, ¬ FitsGetReply value)
      (func.sendValues mId dst total vset index) := by
  induction vset with
  | nil => exact fun _ => Ends.ok ⟨nofun, nofun⟩
  | cons it vset ih =>
    intro index
    rw [GetReplyFunc.sendValues]
    split
    · rename_i hbig
      exact Ends.error ⟨it, List.mem_cons_self .., Nat.not_le.mpr hbig⟩
    · -- The value fits, and what stops the loop is among the values behind it.
      rename_i hfits
      cases hrest : func.sendValues mId dst total vset (index + 1) with
      | error e =>
        obtain ⟨value, hmem, hbig⟩ := (ih (index + 1)).of_error hrest
        exact Ends.error ⟨value, List.mem_cons_of_mem _ hmem, hbig⟩
      | ok sent =>
        obtain ⟨hall, hsent⟩ := (ih (index + 1)).of_ok hrest
        have hit : FitsGetReply it := Nat.not_lt.mp hfits
        refine Ends.ok ⟨List.forall_mem_cons.mpr ⟨hit, hall⟩, List.forall_mem_cons.mpr ⟨?_, hsent⟩⟩
        exact getReplyDraft_fits func mId dst index total 1 hit

theorem getReplyFits_iff (func : GetReplyFunc) (mId : Id) (registered : Table Id Addr)
    (result : Bool) (vset : List Buf) :
    GetReplyFits func mId registered result vset ↔
      ((registered.lookup func.src).isSome = true → result = true →
        ∀ value ∈ vset, FitsGetReply value) := by
  unfold GetReplyFits GetReplyFunc.sendReply
  cases hclient : registered.lookup func.src with
  | none => exact ⟨fun _ h => (nomatch h), fun _ => ⟨[], rfl, nofun⟩⟩
  | some it =>
    cases result with
    | false =>
      -- The client is told that there is nothing.
      refine ⟨fun _ _ h => (nomatch h), fun _ => ⟨_, rfl, fun d hd => ?_⟩⟩
      obtain rfl := List.mem_singleton.mp hd
      exact getReplyDraft_fits func mId it.addr.id 0 0 0 (by decide)
    | true =>
      have hends := sendValues_ends func mId it.addr.id (.ofNat 16 vset.length) vset 1
      constructor
      · rintro ⟨sent, hsent, -⟩ _ _
        exact (hends.of_ok hsent).1
      · intro hall
        cases hsent : func.sendValues mId it.addr.id (.ofNat 16 vset.length) vset 1 with
        | ok sent => exact ⟨sent, hsent, (hends.of_ok hsent).2⟩
        | error e =>
          obtain ⟨value, hmem, hbig⟩ := hends.of_error hsent
          exact absurd (hall rfl rfl value hmem) hbig

/-- Take any content of `m_stored`, any routing table and any request, and any client, get and
values at a proxy. The replies to the request fit into their buffer exactly if every record it
asks for by UDP does. Those to the client fit exactly if the client is not registered, the get
found nothing, or every value fits. -/
theorem repliesFit_iff (mId : Id) (stored : Stored) (t : Rttable) (rounds : Nat)
    (req : MsgDhtFindValue) (func : GetReplyFunc) (registered : Table Id Addr) (result : Bool)
    (vset : List Buf) :
    (FindValueFits mId stored t rounds req ↔ ∀ it, Answers mId stored req it → FitsReply it) ∧
      (GetReplyFits func mId registered result vset ↔
        ((registered.lookup func.src).isSome = true → result = true →
          ∀ value ∈ vset, FitsGetReply value)) :=
  ⟨findValueFits_iff mId stored t rounds req, getReplyFits_iff func mId registered result vset⟩

/-- A value of zeros. -/
def zeros (n : Nat) (h : n < 2 ^ 16) : Buf :=
  ⟨List.replicate n 0, (List.length_replicate).trans_lt h⟩

/-- A store of 2000 bytes that arrives over RDP, for key 1 under id 5. -/
def longStore : RdpRecvStore := ⟨oneByte 1, zeros 2000 (by decide), 10, 5, 3, false⟩

/-- A client of the proxy. -/
def oneClient : Table Id Addr := AList.singleton 7 ⟨1, ⟨7, .inet 4000 1⟩, 0⟩

/-- A node takes the store, and the next request by UDP writes behind the buffer. So does a
proxy that has found a value of 5000 bytes. -/
theorem longStore_not_fits :
    (∃ s, run Store.step (.init 0 true) [.store2local 0 longStore] = .ok s ∧
      ∀ t rounds, ¬ FindValueFits 0 s.stored t rounds requestKey) ∧
      ¬ GetReplyFits ⟨5, 7, 9⟩ 0 oneClient true [zeros 5000 (by decide)] := by
  constructor
  · have hrun : (do
        let s ← run Store.step (.init 0 true) [.store2local 0 longStore]
        return (recvFindValue 0 s.stored (fun _ => []) requestKey).toOption.isNone) =
          .ok true := by
      decide +kernel
    obtain ⟨s, hs, hend⟩ := bind_eq_ok hrun
    refine ⟨s, hs, fun t rounds hfits => ?_⟩
    have hends := recvFindValue_ends s.stored (fun _ => []) requestKey_asks
    cases hreplies : recvFindValue 0 s.stored (fun _ => []) requestKey with
    | ok replies =>
      rw [hreplies] at hend
      cases hend
    | error e =>
      obtain ⟨value, it, hit, hbig⟩ := hends.of_error hreplies
      exact hbig ((findValueFits_iff 0 s.stored t rounds requestKey).mp hfits it
        ⟨requestKey_asks, value, hit⟩)
  · intro hfits
    have hvalue : FitsGetReply (zeros 5000 (by decide)) :=
      (getReplyFits_iff _ _ _ _ _).mp hfits rfl rfl _ (List.mem_singleton_self _)
    have hlength : (zeros 5000 (by decide)).1.length = 5000 := List.length_replicate
    unfold FitsGetReply at hvalue
    rw [hlength] at hvalue
    exact absurd hvalue (by decide)

end Libcage.Proofs
