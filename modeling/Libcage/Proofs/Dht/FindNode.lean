import Libcage.Proofs.Dht.Search
import Libcage.Proofs.NodeLists

/-!
# `Libcage.Proofs.Dht.FindNode`: a request and its answer

`Tells` is what the answer of a node is worth: the ids that the node has closest to the id it
was asked for. What `recv_find_node` sends tells them to the node that reads it
(`recvFindNode_tells`), whatever the family of the addresses, and so do the nodes that
`recv_find_value` sends where it has no value (`recvFindValue_tells`).
-/

set_option autoImplicit false

namespace Libcage.Proofs.Dht

open Libcage.Lib
open Libcage.Dht
open Libcage.Rdp (Id Table)

/-- The ids of the nodes that a table has closest to an id. -/
def Tells (t : Rttable) (id : Id) (ids : List Id) : Prop :=
  Closest (distance id) numFindNode (insert t.id t.nodes) ids

/-- A list that is written entry by entry has the length that its number says, and is read
with its ids. -/
theorem read_of_writeNodes {write : Cageaddr → Option (List Byte)}
    {read : Nat → List Byte → List Cageaddr} {size : Nat} (hnil : ∀ bs, read 0 bs = [])
    (nodes : List Cageaddr)
    (hnode : ∀ node ∈ nodes, ∀ min, write node = some min → min.length = size ∧
      ∀ num rest, ∃ back : Cageaddr,
        read (num + 1) (min ++ rest) = back :: read num rest ∧ back.id = node.id)
    {bytes : List Byte} (h : writeNodes write nodes = some bytes) :
    bytes.length = size * nodes.length ∧
      (read nodes.length bytes).map Cageaddr.id = nodes.map Cageaddr.id := by
  induction nodes generalizing bytes with
  | nil =>
    obtain rfl : [] = bytes := Option.some.inj h
    simp [hnil]
  | cons node nodes ih =>
    simp only [writeNodes, Option.bind_eq_bind, Option.bind_eq_some_iff] at h
    obtain ⟨min, hmin, rest, hrest, hbytes⟩ := h
    obtain rfl : min ++ rest = bytes := Option.some.inj hbytes
    obtain ⟨hlength, hread⟩ := hnode node (List.mem_cons_self ..) min hmin
    obtain ⟨hlengths, hids⟩ := ih (fun a ha => hnode a (List.mem_cons_of_mem _ ha)) hrest
    obtain ⟨back, hcons, hback⟩ := hread nodes.length rest
    constructor
    · rw [List.length_append, List.length_cons, hlength, hlengths]
      ring
    · rw [List.length_cons, hcons, List.map_cons, List.map_cons, hback, hids]

theorem readNodesInet_back {sender : Sender} {node : Cageaddr} {min : List Byte}
    (ht : sender.isTimeout node.id = false) (h : node.msgInet = some min) :
    min.length = sizeofInet ∧ ∀ num rest, ∃ back : Cageaddr,
      readNodesInet sender (num + 1) (min ++ rest) = back :: readNodesInet sender num rest ∧
        back.id = node.id := by
  obtain ⟨id, saddr⟩ := node
  cases saddr with
  | loopback =>
    obtain rfl := Option.some.inj h
    exact ⟨rfl, fun num rest => ⟨_, readNodesInet_entry ht 0 0 num rest, rfl⟩⟩
  | inet port addr =>
    obtain rfl := Option.some.inj h
    exact ⟨rfl, fun num rest => ⟨_, readNodesInet_entry ht port addr num rest, rfl⟩⟩
  | inet6 port addr => cases h

theorem readNodesInet6_back {sender : Sender} {node : Cageaddr} {min : List Byte}
    (ht : sender.isTimeout node.id = false) (h : node.msgInet6 = some min) :
    min.length = sizeofInet6 ∧ ∀ num rest, ∃ back : Cageaddr,
      readNodesInet6 sender (num + 1) (min ++ rest) = back :: readNodesInet6 sender num rest ∧
        back.id = node.id := by
  obtain ⟨id, saddr⟩ := node
  cases saddr with
  | loopback =>
    obtain rfl := Option.some.inj h
    exact ⟨rfl, fun num rest => ⟨_, readNodesInet6_entry ht 0 0 0 0 0 num rest, rfl⟩⟩
  | inet port addr => cases h
  | inet6 port addr =>
    obtain rfl := Option.some.inj h
    exact ⟨rfl, fun num rest => ⟨_, readNodesInet6_entry ht port _ _ _ _ num rest, rfl⟩⟩

/-- What is written for a domain is read with its ids. -/
theorem readNodes_writeNodesFor {domain : BitVec 16} {nodes : List Cageaddr} {bytes : List Byte}
    {sender : Sender} (h : writeNodesFor domain nodes = some bytes) (hlength : nodes.length < 256)
    (ht : ∀ node ∈ nodes, sender.isTimeout node.id = false) :
    ∃ back, readNodes sender domain (.ofNat 8 nodes.length) bytes = some back ∧
      back.map Cageaddr.id = nodes.map Cageaddr.id := by
  have hnum : (BitVec.ofNat 8 nodes.length).toNat = nodes.length := by
    rw [BitVec.toNat_ofNat, Nat.mod_eq_of_lt hlength]
  unfold writeNodesFor at h
  unfold readNodes
  rw [hnum]
  split at h
  · rename_i hinet
    obtain ⟨hsize, hids⟩ := read_of_writeNodes
      (show ∀ bs, readNodesInet sender 0 bs = [] from fun _ => rfl) nodes
      (fun node hnode min => readNodesInet_back (ht node hnode)) h
    rw [if_pos hinet, if_neg (not_not.mpr hsize.symm)]
    exact ⟨_, rfl, hids⟩
  · rename_i hinet
    split at h
    · rename_i hinet6
      obtain ⟨hsize, hids⟩ := read_of_writeNodes
        (show ∀ bs, readNodesInet6 sender 0 bs = [] from fun _ => rfl) nodes
        (fun node hnode min => readNodesInet6_back (ht node hnode)) h
      rw [if_neg hinet, if_pos hinet6, if_neg (not_not.mpr hsize.symm)]
      exact ⟨_, rfl, hids⟩
    · cases h

/-- A reply to `find_node`, where its receiver knows no node of the table as silent: it is read
as the closest ones of the table. -/
theorem recvFindNode_tells {t t' : Rttable} {rnd : List (BitVec 32)} {rounds : Nat}
    {domain : BitVec 16} {req : FindNode} {saddr : Saddr} {reply : FindNodeReply}
    (h : t.recvFindNode rnd rounds domain req saddr = .ok (t', some reply))
    (hrows : RowsOk t'.id t'.table t'.nodes) (hrounds : 160 < rounds) {sender : Sender}
    (ht : ∀ x ∈ insert t'.id t'.nodes, sender.isTimeout x = false) :
    reply.src = t'.id ∧ reply.dst = req.src ∧ reply.nonce = req.nonce ∧ reply.id = req.id ∧
      ∃ nodes, readNodes sender reply.domain reply.num reply.addrs = some nodes ∧
        Tells t' reply.id (nodes.map Cageaddr.id) := by
  unfold Rttable.recvFindNode at h
  split at h
  · cases h
  · split at h
    · cases h
    · obtain ⟨t₁, -, h⟩ := bind_eq_ok h
      obtain ⟨nodes, hlookup, h⟩ := bind_eq_ok h
      obtain ⟨rfl, hreply⟩ := Prod.mk.inj (Except.ok.inj h)
      obtain ⟨found, hfound, hclosest⟩ := lookup_closest hrows req.id hrounds
      rw [← Except.ok.inj (hlookup.symm.trans hfound)] at hclosest
      simp only [findNodeReply, Option.bind_eq_bind, Option.bind_eq_some_iff] at hreply
      obtain ⟨addrs, haddrs, hreply⟩ := hreply
      obtain rfl := Option.some.inj hreply
      have hlength : nodes.length < 256 := by
        have hle := hclosest.length
        rw [List.length_map, numFindNode] at hle
        omega
      obtain ⟨back, hback, hids⟩ := readNodes_writeNodesFor haddrs hlength fun node hnode =>
        ht _ (hclosest.mem _ (List.mem_map_of_mem hnode))
      exact ⟨rfl, rfl, rfl, rfl, back, hback, hids ▸ hclosest⟩

/-- What the receiver has of a reply to `find_value`. -/
structure ReadsReply (t : Rttable) (msg : MsgDhtFindValueReply) (reply : FindValueReply) :
    Prop where
  src : reply.src = t.id
  nonce : reply.nonce = msg.nonce
  id : reply.id = msg.id
  flag : reply.flag = msg.flag
  data : msg.data.encode = some reply.data

theorem flag_of_valueReplies {req : MsgDhtFindValue} {total : BitVec 16} {its : List StoredData} :
    ∀ {replies : List MsgDhtFindValueReply}, valueReplies req total its = .ok replies →
      ∀ msg ∈ replies, msg.flag = dataAreValues := by
  induction its with
  | nil =>
    intro replies h msg hmem
    obtain rfl := Except.ok.inj h
    cases hmem
  | cons it its ih =>
    intro replies h msg hmem
    rw [valueReplies] at h
    split at h
    · cases h
    · obtain ⟨rest, hrest, h⟩ := bind_eq_ok h
      obtain rfl := Except.ok.inj h
      rcases List.mem_cons.mp hmem with rfl | hmem
      · rfl
      · exact ih hrest msg hmem

/-- Nodes are sent by the end of `recv_find_value` only. -/
theorem mem_nodesReply {mId : Id} {stored : Stored} {lookup : Id → List Cageaddr}
    {req : MsgDhtFindValue} {replies : List MsgDhtFindValueReply} {msg : MsgDhtFindValueReply}
    (h : recvFindValue mId stored lookup req = .ok replies) (hmem : msg ∈ replies)
    (hflag : msg.flag = dataAreNodes) : msg ∈ nodesReply lookup req := by
  unfold recvFindValue at h
  split at h
  · obtain rfl := Except.ok.inj h
    cases hmem
  split at h
  · obtain rfl := Except.ok.inj h
    cases hmem
  split at h
  · split at h
    · obtain rfl := Except.ok.inj h
      rw [List.mem_singleton.mp hmem] at hflag
      exact absurd hflag (show dataAreNul ≠ dataAreNodes by decide)
    · obtain rfl := Except.ok.inj h
      exact hmem
  split at h
  · split at h
    · obtain rfl := Except.ok.inj h
      exact hmem
    · split at h
      · obtain rfl := Except.ok.inj h
        exact hmem
      · rw [flag_of_valueReplies h msg hmem] at hflag
        exact absurd hflag (by decide)
  · obtain rfl := Except.ok.inj h
    cases hmem

/-- A reply to `find_value` of a node without a value. -/
theorem recvFindValue_tells {t : Rttable} {stored : Stored} {rounds : Nat} {req : MsgDhtFindValue}
    {replies : List MsgDhtFindValueReply} {msg : MsgDhtFindValueReply} {reply : FindValueReply}
    (h : recvFindValue t.id stored (t.found rounds) req = .ok replies) (hmem : msg ∈ replies)
    (hflag : msg.flag = dataAreNodes) (hreply : ReadsReply t msg reply)
    (hrows : RowsOk t.id t.table t.nodes) (hrounds : 160 < rounds) {sender : Sender}
    (ht : ∀ x ∈ insert t.id t.nodes, sender.isTimeout x = false) :
    4 ≤ reply.data.length ∧ ∃ nodes,
      readNodes sender (rd16 reply.data 0) (byteAt reply.data 2) (reply.data.drop 4) =
        some nodes ∧ Tells t reply.id (nodes.map Cageaddr.id) := by
  have hmsg := mem_nodesReply h hmem hflag
  unfold nodesReply at hmsg
  split at hmsg
  · rename_i hdomain
    obtain rfl := List.mem_singleton.mp hmsg
    obtain ⟨found, hfound, hclosest⟩ := lookup_closest hrows req.id hrounds
    have hlookup : t.found rounds req.id = found := by
      rw [Rttable.found, hfound]
    rw [hreply.id]
    have hdata := hreply.data
    simp only [ReplyData.encode, hlookup, Option.map_eq_some_iff] at hdata
    obtain ⟨bytes, hbytes, hdata⟩ := hdata
    have hwrite : writeNodesFor req.domain found = some bytes := by
      rw [← hbytes, writeNodesFor]
      split
      · rfl
      · rename_i hinet
        rw [if_pos (hdomain.resolve_left hinet)]
    have hlength : found.length < 256 := by
      have hle := hclosest.length
      rw [List.length_map, numFindNode] at hle
      omega
    obtain ⟨back, hback, hids⟩ := readNodes_writeNodesFor hwrite hlength fun node hnode =>
      ht _ (hclosest.mem _ (List.mem_map_of_mem hnode))
    rw [← hdata]
    have hrd : rd16 (wr16 req.domain ++ (.ofNat 8 found.length :: 0 :: bytes)) 0 = req.domain :=
      rd16_wr16 [] _ req.domain
    refine ⟨by simp [wr16], back, ?_, hids ▸ hclosest⟩
    rw [hrd]
    exact hback
  · cases hmsg

end Libcage.Proofs.Dht
