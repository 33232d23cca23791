import Libcage.Dht.FindValueReply
import Libcage.Proofs.Bn.Routing
import Libcage.Proofs.Decoders

/-!
# `Libcage.Proofs.NodeLists`: lists of nodes in messages

What `write_nodes_inet` writes, `read_nodes_inet` reads back entry by entry, and
likewise for the other family (`nodeList_codec`). The own node is written as the
address zero and read as the address of the sender.

The entries hold ids as the 160-bit words that a `bn` denotes. `to_binary` writes
and `from_binary` reads these words (`Bn.toBinary_uint160`, `Bn.fromBinary_uint160`).
-/

set_option autoImplicit false

namespace Libcage

open Lib
open Libcage.Rdp (Id)
open Libcage.Dht (Saddr Cageaddr Sender writeNodes writeNodesInet writeNodesInet6 readNodesInet
  readNodesInet6 sizeofInet sizeofInet6)

/-- The own node, or an entry of the family `inet` whose port and address are not
both zero. -/
def InetEntry (node : Cageaddr) : Prop :=
  node.saddr = .loopback ∨ ∃ port addr, node.saddr = .inet port addr ∧ ¬ (port = 0 ∧ addr = 0)

/-- The own node, or an entry of the family `inet6` whose port and address are not
both zero. -/
def Inet6Entry (node : Cageaddr) : Prop :=
  node.saddr = .loopback ∨ ∃ port addr, node.saddr = .inet6 port addr ∧ ¬ (port = 0 ∧ addr = 0)

/-- What an entry is for the receiver: the own node is where the message came
from. -/
def receivedFrom (sender : Saddr) (node : Cageaddr) : Cageaddr :=
  if node.saddr = .loopback then ⟨node.id, sender⟩ else node

/-- A reader that takes what is written for a node off the front reads the whole
list back. -/
theorem read_writeNodes {write : Cageaddr → Option (List Byte)}
    {read : Nat → List Byte → List Cageaddr} {back : Cageaddr → Cageaddr}
    (hnil : ∀ bs, read 0 bs = []) (nodes : List Cageaddr)
    (hnode : ∀ node ∈ nodes, ∃ min, write node = some min ∧
      ∀ num rest, read (num + 1) (min ++ rest) = back node :: read num rest) :
    ∃ bytes, writeNodes write nodes = some bytes ∧
      read nodes.length bytes = nodes.map back := by
  induction nodes with
  | nil => exact ⟨[], rfl, hnil []⟩
  | cons node nodes ih =>
    obtain ⟨min, hmin, hread⟩ := hnode node (List.mem_cons_self)
    obtain ⟨bytes, hbytes, hrest⟩ := ih fun n hn => hnode n (List.mem_cons_of_mem node hn)
    refine ⟨min ++ bytes, by simp [writeNodes, hmin, hbytes], ?_⟩
    rw [List.length_cons, hread, hrest, List.map_cons]

/-- The `msg_inet` in front of a list is the first entry. -/
theorem readNodesInet_entry {sender : Sender} {id : Id} (ht : sender.isTimeout id = false)
    (port : BitVec 16) (addr : BitVec 32) (num : Nat) (rest : List Byte) :
    readNodesInet sender (num + 1)
        (wr16 port ++ (wr16 0 ++ (wr32 addr ++ wr160 id)) ++ rest) =
      ⟨id, if port = 0 ∧ addr = 0 then sender.saddr else .inet port addr⟩ ::
        readNodesInet sender num rest := by
  have hport : rd16 (wr16 port ++ (wr16 0 ++ (wr32 addr ++ wr160 id)) ++ rest) 0 = port :=
    rd16_wr16 [] (wr16 0 ++ (wr32 addr ++ wr160 id) ++ rest) port
  have haddr : rd32 (wr16 port ++ (wr16 0 ++ (wr32 addr ++ wr160 id)) ++ rest) 4 = addr :=
    rd32_wr32 (wr16 port ++ wr16 0) (wr160 id ++ rest) addr
  have hid : rd160 (wr16 port ++ (wr16 0 ++ (wr32 addr ++ wr160 id)) ++ rest) 8 = id :=
    rd160_wr160 (wr16 port ++ (wr16 0 ++ wr32 addr)) rest id
  have hdrop : (wr16 port ++ (wr16 0 ++ (wr32 addr ++ wr160 id)) ++ rest).drop sizeofInet = rest :=
    rfl
  rw [Proofs.Decoders.readNodesInet_succ, hport, haddr, hid, hdrop, if_neg (by simp [ht])]
  rfl

/-- The `msg_inet6` in front of a list is the first entry. -/
theorem readNodesInet6_entry {sender : Sender} {id : Id} (ht : sender.isTimeout id = false)
    (port : BitVec 16) (a₀ a₁ a₂ a₃ : BitVec 32) (num : Nat) (rest : List Byte) :
    readNodesInet6 sender (num + 1) (wr16 port ++ (wr16 0 ++ (wr32 a₀ ++ (wr32 a₁ ++ (wr32 a₂ ++
        (wr32 a₃ ++ wr160 id))))) ++ rest) =
      ⟨id, if port = 0 ∧ (a₀ ++ (a₁ ++ (a₂ ++ a₃)) : BitVec 128) = 0 then sender.saddr
        else .inet6 port (a₀ ++ (a₁ ++ (a₂ ++ a₃)))⟩ :: readNodesInet6 sender num rest := by
  generalize hbs : wr16 port ++ (wr16 0 ++ (wr32 a₀ ++ (wr32 a₁ ++ (wr32 a₂ ++
        (wr32 a₃ ++ wr160 id))))) ++ rest = bs
  have hport : rd16 bs 0 = port := hbs ▸ rd16_wr16 [] (wr16 0 ++ (wr32 a₀ ++ (wr32 a₁ ++
    (wr32 a₂ ++ (wr32 a₃ ++ wr160 id)))) ++ rest) port
  have h₀ : rd32 bs 4 = a₀ := hbs ▸ rd32_wr32 (wr16 port ++ wr16 0) _ a₀
  have h₁ : rd32 bs 8 = a₁ := hbs ▸ rd32_wr32 (wr16 port ++ (wr16 0 ++ wr32 a₀)) _ a₁
  have h₂ : rd32 bs 12 = a₂ :=
    hbs ▸ rd32_wr32 (wr16 port ++ (wr16 0 ++ (wr32 a₀ ++ wr32 a₁))) _ a₂
  have h₃ : rd32 bs 16 = a₃ :=
    hbs ▸ rd32_wr32 (wr16 port ++ (wr16 0 ++ (wr32 a₀ ++ (wr32 a₁ ++ wr32 a₂)))) _ a₃
  have hid : rd160 bs 20 = id :=
    hbs ▸ rd160_wr160 (wr16 port ++ (wr16 0 ++ (wr32 a₀ ++ (wr32 a₁ ++ (wr32 a₂ ++ wr32 a₃)))))
      rest id
  have hdrop : bs.drop sizeofInet6 = rest := hbs ▸ rfl
  rw [Proofs.Decoders.readNodesInet6_succ, hport, h₀, h₁, h₂, h₃, hid, hdrop, if_neg (by simp [ht])]
  rfl

/-- One node of the family `inet`. -/
theorem readNodesInet_msgInet {sender : Sender} {node : Cageaddr} (h : InetEntry node)
    (ht : sender.isTimeout node.id = false) :
    ∃ min, node.msgInet = some min ∧ ∀ num rest, readNodesInet sender (num + 1) (min ++ rest) =
      receivedFrom sender.saddr node :: readNodesInet sender num rest := by
  obtain ⟨id, saddr⟩ := node
  obtain rfl | ⟨port, addr, rfl, hne⟩ := h
  · refine ⟨_, rfl, fun num rest => ?_⟩
    rw [readNodesInet_entry ht, if_pos ⟨rfl, rfl⟩]
    rfl
  · refine ⟨_, rfl, fun num rest => ?_⟩
    rw [readNodesInet_entry ht, if_neg hne]
    rfl

/-- One node of the family `inet6`. -/
theorem readNodesInet6_msgInet6 {sender : Sender} {node : Cageaddr} (h : Inet6Entry node)
    (ht : sender.isTimeout node.id = false) :
    ∃ min, node.msgInet6 = some min ∧ ∀ num rest,
      readNodesInet6 sender (num + 1) (min ++ rest) =
        receivedFrom sender.saddr node :: readNodesInet6 sender num rest := by
  obtain ⟨id, saddr⟩ := node
  obtain rfl | ⟨port, addr, rfl, hne⟩ := h
  · refine ⟨_, rfl, fun num rest => ?_⟩
    rw [readNodesInet6_entry ht, if_pos ⟨rfl, rfl⟩]
    rfl
  · refine ⟨_, rfl, fun num rest => ?_⟩
    rw [readNodesInet6_entry ht, words128, if_neg hne]
    rfl

/-- The id of an entry goes through a `uint160_t`: `to_binary` writes its bytes and
`from_binary` reads it back. -/
def IdThroughBn (id : Id) : Prop :=
  ∀ u v : Bn 5, BitVec.ofNat 160 u.value = id →
    u.toBinary 20 = some (wr160 id) ∧ BitVec.ofNat 160 (v.fromBinary (wr160 id) 20).value = id

theorem id_through_bn (id : Id) : IdThroughBn id := by
  intro u v hu
  constructor
  · rw [Bn.toBinary_uint160, hu]
  · rw [Bn.fromBinary_uint160]
    have hread := rd160_wr160 [] [] id
    rw [List.nil_append, List.append_nil] at hread
    exact hread

/-- Both codecs: a list of nodes of one family is read back in its order and
with its ids, ports and addresses, the own node as the sender. -/
theorem nodeList_codec (nodes : List Cageaddr) (isTimeout : Id → Bool)
    (ht : ∀ node ∈ nodes, isTimeout node.id = false) :
    (∀ node ∈ nodes, IdThroughBn node.id) ∧
    (∀ port addr, (∀ node ∈ nodes, InetEntry node) →
      ∃ bytes, writeNodesInet nodes = some bytes ∧
        readNodesInet ⟨.inet port addr, isTimeout⟩ nodes.length bytes =
          nodes.map (receivedFrom (.inet port addr))) ∧
      ∀ port addr, (∀ node ∈ nodes, Inet6Entry node) →
        ∃ bytes, writeNodesInet6 nodes = some bytes ∧
          readNodesInet6 ⟨.inet6 port addr, isTimeout⟩ nodes.length bytes =
            nodes.map (receivedFrom (.inet6 port addr)) := by
  refine ⟨fun node _ => id_through_bn node.id, ?_, ?_⟩
  · intro port addr hnodes
    exact read_writeNodes (fun _ => rfl) nodes fun node hnode =>
      readNodesInet_msgInet (hnodes node hnode) (ht node hnode)
  · intro port addr hnodes
    exact read_writeNodes (fun _ => rfl) nodes fun node hnode =>
      readNodesInet6_msgInet6 (hnodes node hnode) (ht node hnode)

/-- The own node and a contact. -/
theorem nodeList_codec_pair :
    (∃ bytes, writeNodesInet [⟨7, .loopback⟩, ⟨9, .inet 80 0x0a000001⟩] = some bytes ∧
      readNodesInet ⟨.inet 5000 0x0a000002, fun _ => false⟩ 2 bytes =
        [⟨7, .inet 5000 0x0a000002⟩, ⟨9, .inet 80 0x0a000001⟩]) ∧
      ∃ bytes, writeNodesInet6 [⟨7, .loopback⟩, ⟨9, .inet6 80 1⟩] = some bytes ∧
        readNodesInet6 ⟨.inet6 5000 2, fun _ => false⟩ 2 bytes =
          [⟨7, .inet6 5000 2⟩, ⟨9, .inet6 80 1⟩] := by
  constructor
  · exact (nodeList_codec [⟨7, .loopback⟩, ⟨9, .inet 80 0x0a000001⟩] (fun _ => false)
      (by simp)).2.1 5000 0x0a000002 (by simp [InetEntry])
  · exact (nodeList_codec [⟨7, .loopback⟩, ⟨9, .inet6 80 1⟩] (fun _ => false)
      (by simp)).2.2 5000 2 (by simp [Inet6Entry])

end Libcage
