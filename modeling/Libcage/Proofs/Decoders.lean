import Libcage.Decoders
import Libcage.Proofs.Proxy.Store

/-!
# `Libcage.Proofs.Decoders`: the handlers read inside the message

The dispatcher asks for a length, and a handler reads its fixed part without asking again.
`needs_le` says that the first is enough for the second, for every type of message. What
follows the fixed part is read after a comparison of the length with the one that the message
names. In `dht::recv_find_value` this is a comparison of 16-bit numbers, and a length that wraps
around is below what the dispatcher lets through.

`receive_inside` says this of every datagram. `dispatch_eq` and `readNodesAt_eq` connect what
is read here with the dispatcher and with the lists of nodes of `Libcage.Dht.Query`.
-/

set_option autoImplicit false

namespace Libcage.Proofs.Decoders

open Libcage.Lib
open Libcage.Rdp (Id)
open Libcage.Dht (Cageaddr Buf Sender domainInet domainInet6 sizeofInet sizeofInet6 getByUdp
  getByRdp)
open Libcage.Proxy (ReadFault inside readWord readId readBuf)

universe u v

/-! ### Rules -/

/-- A program that does not leave the message. -/
def Reads {α : Type u} (x : Except ReadFault α) : Prop := ∃ a, x = .ok a

section
variable {α β : Type} {x y : Except ReadFault α} {f : α → Except ReadFault β}

theorem Reads.pure (a : α) : Reads (Except.ok a : Except ReadFault α) := ⟨a, rfl⟩

theorem Reads.bind (h : Reads x) (hf : ∀ a, Reads (f a)) : Reads (x >>= f) := by
  obtain ⟨a, rfl⟩ := h
  exact hf a

theorem Reads.ite {c : Prop} [Decidable c] (hx : c → Reads x) (hy : ¬ c → Reads y) :
    Reads (if c then x else y) := by
  by_cases hc : c
  · rw [if_pos hc]
    exact hx hc
  · rw [if_neg hc]
    exact hy hc

/-- The handler returns, or goes on. -/
theorem Reads.guard {c : Prop} [Decidable c] {a : α} (hy : ¬ c → Reads y) :
    Reads (if c then Pure.pure a else y) :=
  Reads.ite (fun _ => Reads.pure a) hy

theorem Reads.discard (h : Reads x) : Reads (discard x) := by
  obtain ⟨a, rfl⟩ := h
  exact Reads.pure ()

end

section
variable {msg : List Byte} {off : Nat}

theorem reads_inside {α : Type} {n : Nat} (a : α) (h : off + n ≤ msg.length) :
    Reads (inside msg off n a) :=
  ⟨a, inside_eq h⟩

theorem reads_byte (h : off + 1 ≤ msg.length) : Reads (readByte msg off) := reads_inside _ h

theorem reads_word (h : off + 2 ≤ msg.length) : Reads (readWord msg off) := reads_inside _ h

theorem reads_long (h : off + 4 ≤ msg.length) : Reads (readLong msg off) := reads_inside _ h

theorem reads_id (h : off + 20 ≤ msg.length) : Reads (readId msg off) := reads_inside _ h

theorem reads_addr6 (h : off + 16 ≤ msg.length) : Reads (readAddr6 msg off) := reads_inside _ h

theorem reads_buf {len : BitVec 16} (h : off + len.toNat ≤ msg.length) :
    Reads (readBuf msg off len) :=
  reads_inside _ h

end

/-! ### Nodes -/

section
variable {sender : Sender} {msg : List Byte}

theorem byteAt_drop (bs : List Byte) (n off : Nat) :
    byteAt (bs.drop n) off = byteAt bs (n + off) := by
  rw [byteAt, byteAt, List.getD_eq_getElem?_getD, List.getD_eq_getElem?_getD, List.getElem?_drop]

theorem rd16_drop (bs : List Byte) (n off : Nat) : rd16 (bs.drop n) off = rd16 bs (n + off) := by
  simp only [rd16, byteAt_drop, Nat.add_assoc]

theorem rd32_drop (bs : List Byte) (n off : Nat) : rd32 (bs.drop n) off = rd32 bs (n + off) := by
  simp only [rd32, byteAt_drop, Nat.add_assoc]

theorem rd160_drop (bs : List Byte) (n off : Nat) :
    rd160 (bs.drop n) off = rd160 bs (n + off) := by
  simp only [rd160, rd32_drop, Nat.add_assoc]

theorem filterMap_range_succ {α : Type} (f : Nat → Option α) (n : Nat) :
    (List.range (n + 1)).filterMap f =
      (f 0).toList ++ (List.range n).filterMap fun i => f (i + 1) := by
  rw [List.range_succ_eq_map, List.filterMap_cons, List.filterMap_map]
  cases f 0 with
  | none => rfl
  | some a => rfl

/-- A node in a list: it is passed over, or has the address of the sender or its own. -/
theorem toList_node {c d : Prop} [Decidable c] [Decidable d] (id : Id) (saddr own : Dht.Saddr) :
    (if c then none else if d then some ⟨id, saddr⟩ else some ⟨id, own⟩ :
        Option Cageaddr).toList =
      if c then [] else [⟨id, if d then saddr else own⟩] := by
  split
  · rfl
  · split <;> rfl

/-- The first node of a list, and the others. -/
theorem readNodesInet_succ (num : Nat) (bs : List Byte) :
    Dht.readNodesInet sender (num + 1) bs =
      (if sender.isTimeout (rd160 bs 8) then
        []
      else
        [⟨rd160 bs 8, if rd16 bs 0 = 0 ∧ rd32 bs 4 = 0 then sender.saddr
          else .inet (rd16 bs 0) (rd32 bs 4)⟩]) ++
      Dht.readNodesInet sender num (bs.drop sizeofInet) := by
  have hnext : ∀ i, sizeofInet * (i + 1) = sizeofInet + sizeofInet * i := by
    intro i
    rw [Nat.mul_succ, Nat.add_comm]
  unfold Dht.readNodesInet
  rw [filterMap_range_succ]
  simp only [hnext, rd160_drop, rd16_drop, rd32_drop, Nat.add_assoc, Nat.mul_zero, Nat.zero_add,
    toList_node]

/-- `read_nodes_inet` stays in a message that is long enough. -/
theorem readNodesInetAt_eq (num : Nat) : ∀ min, min + sizeofInet * num ≤ msg.length →
    readNodesInetAt sender msg num min = .ok (Dht.readNodesInet sender num (msg.drop min)) := by
  induction num with
  | zero =>
    intro min _
    rfl
  | succ num ih =>
    intro min hlen
    unfold sizeofInet at hlen
    have hrest := ih (min + sizeofInet) (by unfold sizeofInet; omega)
    have hid : readId msg (min + 8) = .ok (rd160 msg (min + 8)) := inside_eq (by omega)
    have hport : readWord msg min = .ok (rd16 msg min) := inside_eq (by omega)
    have haddr : readLong msg (min + 4) = .ok (rd32 msg (min + 4)) := inside_eq (by omega)
    rw [readNodesInet_succ, List.drop_drop, rd160_drop, rd16_drop, rd32_drop, Nat.add_zero,
      readNodesInetAt, hid, ok_bind]
    by_cases htimeout : sender.isTimeout (rd160 msg (min + 8)) = true
    · rw [if_pos htimeout, if_pos htimeout, hrest, List.nil_append]
    · rw [if_neg htimeout, if_neg htimeout, hport, ok_bind, haddr, ok_bind, hrest]
      rfl

/-- The first node of a list, and the others. -/
theorem readNodesInet6_succ (num : Nat) (bs : List Byte) :
    Dht.readNodesInet6 sender (num + 1) bs =
      (if sender.isTimeout (rd160 bs 20) then
        []
      else
        [⟨rd160 bs 20, if rd16 bs 0 = 0 ∧
            (rd32 bs 4 ++ (rd32 bs 8 ++ (rd32 bs 12 ++ rd32 bs 16)) : BitVec 128) = 0 then
          sender.saddr
        else
          .inet6 (rd16 bs 0) (rd32 bs 4 ++ (rd32 bs 8 ++ (rd32 bs 12 ++ rd32 bs 16)))⟩]) ++
      Dht.readNodesInet6 sender num (bs.drop sizeofInet6) := by
  have hnext : ∀ i, sizeofInet6 * (i + 1) = sizeofInet6 + sizeofInet6 * i := by
    intro i
    rw [Nat.mul_succ, Nat.add_comm]
  unfold Dht.readNodesInet6
  rw [filterMap_range_succ]
  simp only [hnext, rd160_drop, rd16_drop, rd32_drop, Nat.add_assoc, Nat.mul_zero, Nat.zero_add,
    toList_node]

/-- `read_nodes_inet6` stays in a message that is long enough. -/
theorem readNodesInet6At_eq (num : Nat) : ∀ min6, min6 + sizeofInet6 * num ≤ msg.length →
    readNodesInet6At sender msg num min6 =
      .ok (Dht.readNodesInet6 sender num (msg.drop min6)) := by
  induction num with
  | zero =>
    intro min6 _
    rfl
  | succ num ih =>
    intro min6 hlen
    unfold sizeofInet6 at hlen
    have hrest := ih (min6 + sizeofInet6) (by unfold sizeofInet6; omega)
    have hid : readId msg (min6 + 20) = .ok (rd160 msg (min6 + 20)) := inside_eq (by omega)
    have hport : readWord msg min6 = .ok (rd16 msg min6) := inside_eq (by omega)
    have haddr : readAddr6 msg (min6 + 4) = .ok (rd32 msg (min6 + 4) ++ (rd32 msg (min6 + 8) ++
        (rd32 msg (min6 + 12) ++ rd32 msg (min6 + 16)))) := inside_eq (by omega)
    rw [readNodesInet6_succ, List.drop_drop]
    simp only [rd160_drop, rd16_drop, rd32_drop, Nat.add_zero]
    rw [readNodesInet6At, hid, ok_bind]
    by_cases htimeout : sender.isTimeout (rd160 msg (min6 + 20)) = true
    · rw [if_pos htimeout, if_pos htimeout, hrest, List.nil_append]
    · rw [if_neg htimeout, if_neg htimeout, hport, ok_bind, haddr, ok_bind, hrest]
      rfl

/-- The nodes that are read are those of the list at the end of the message. -/
theorem readNodesAt_eq {num addrs : Nat} (hnum : num < msg.length) (haddrs : addrs ≤ msg.length)
    (domain : BitVec 16) : readNodesAt sender msg domain num addrs =
      .ok (Dht.readNodes sender domain (byteAt msg num) (msg.drop addrs)) := by
  have hread : readByte msg num = .ok (byteAt msg num) := inside_eq (by omega)
  unfold readNodesAt Dht.readNodes
  rw [hread, List.length_drop]
  simp only [ok_bind]
  by_cases hinet : domain = domainInet
  · rw [if_pos hinet, if_pos hinet]
    by_cases hsize : addrs + sizeofInet * (byteAt msg num).toNat = msg.length
    · rw [if_neg (by omega), if_neg (by omega), readNodesInetAt_eq _ addrs (by omega)]
      rfl
    · rw [if_pos (by omega), if_pos (by omega)]
      rfl
  · rw [if_neg hinet, if_neg hinet]
    by_cases hinet6 : domain = domainInet6
    · rw [if_pos hinet6, if_pos hinet6]
      by_cases hsize : addrs + sizeofInet6 * (byteAt msg num).toNat = msg.length
      · rw [if_neg (by omega), if_neg (by omega), readNodesInet6At_eq _ addrs (by omega)]
        rfl
      · rw [if_pos (by omega), if_pos (by omega)]
        rfl
    · rw [if_neg hinet6, if_neg hinet6]
      rfl

/-- The same for the reply to a `find_value`. -/
theorem readValueNodesAt_eq (h : 76 ≤ msg.length) (domain : BitVec 16) :
    readValueNodesAt sender msg domain =
      .ok (Dtun.readValueNodes sender domain (byteAt msg 74) (msg.drop 76)) := by
  unfold readValueNodesAt
  rw [readNodesAt_eq (by omega) h]
  unfold Dtun.readValueNodes Dht.readNodes
  by_cases hinet : domain = domainInet
  · rw [if_pos (Or.inl hinet), if_pos hinet, if_pos hinet]
  · rw [if_neg hinet, if_neg hinet]
    by_cases hinet6 : domain = domainInet6
    · rw [if_pos (Or.inr hinet6), if_pos hinet6, if_pos hinet6]
    · rw [if_neg fun h => h.elim hinet hinet6, if_neg hinet6]

theorem reads_nodes {num addrs : Nat} (hnum : num < msg.length) (haddrs : addrs ≤ msg.length)
    (domain : BitVec 16) : Reads (readNodesAt sender msg domain num addrs) :=
  ⟨_, readNodesAt_eq hnum haddrs domain⟩

theorem reads_valueNodes (h : 76 ≤ msg.length) (domain : BitVec 16) :
    Reads (readValueNodesAt sender msg domain) :=
  ⟨_, readValueNodesAt_eq h domain⟩

end

/-! ### The handlers of `dtun` -/

section
variable {s : Node} {sender : Sender} {msg : List Byte}

theorem reads_dtunRecvPing (h : 52 ≤ msg.length) : Reads (s.dtunRecvPing msg) := by
  unfold Node.dtunRecvPing
  refine Reads.guard fun _ => ?_
  refine Reads.bind (reads_id (by omega)) fun dst => Reads.guard fun _ => ?_
  refine Reads.bind (reads_id (by omega)) fun src => ?_
  exact Reads.bind (reads_long (by omega)) fun nonce => Reads.pure _

theorem reads_dtunRecvPingReply (h : 52 ≤ msg.length) : Reads (s.dtunRecvPingReply msg) := by
  unfold Node.dtunRecvPingReply
  refine Reads.bind (reads_id (by omega)) fun dst => Reads.guard fun _ => ?_
  refine Reads.bind (reads_id (by omega)) fun src => ?_
  exact Reads.bind (reads_long (by omega)) fun nonce => Reads.pure _

theorem reads_dtunRecvFindNode (h : 76 ≤ msg.length) : Reads (s.dtunRecvFindNode msg) := by
  unfold Node.dtunRecvFindNode
  refine Reads.guard fun _ => ?_
  refine Reads.bind (reads_id (by omega)) fun dst => Reads.guard fun _ => ?_
  refine Reads.bind (reads_word (by omega)) fun domain => Reads.guard fun _ => ?_
  refine Reads.bind (reads_id (by omega)) fun id => Reads.guard fun _ => ?_
  refine Reads.bind (reads_id (by omega)) fun src => ?_
  refine Reads.bind (reads_long (by omega)) fun nonce => ?_
  exact Reads.bind (reads_word (by omega)) fun state => Reads.pure _

theorem reads_dtunRecvFindNodeReply (h : 76 ≤ msg.length) :
    Reads (s.dtunRecvFindNodeReply sender msg) := by
  unfold Node.dtunRecvFindNodeReply
  refine Reads.bind (reads_long (by omega)) fun nonce => ?_
  cases s.dtunQuery.lookup nonce with
  | none => exact Reads.pure _
  | some q =>
    refine Reads.bind (reads_id (by omega)) fun dst => Reads.guard fun _ => ?_
    refine Reads.bind (reads_id (by omega)) fun id => Reads.guard fun _ => ?_
    refine Reads.bind (reads_id (by omega)) fun src => Reads.guard fun _ => ?_
    refine Reads.bind (reads_word (by omega)) fun domain => ?_
    refine Reads.bind (reads_nodes (by omega) h domain) fun nodes => ?_
    cases nodes with
    | none => exact Reads.pure _
    | some nodes => exact Reads.pure _

theorem reads_dtunRecvRegister (h : 52 ≤ msg.length) : Reads (s.dtunRecvRegister msg) := by
  unfold Node.dtunRecvRegister
  refine Reads.bind (reads_id (by omega)) fun dst => Reads.guard fun _ => ?_
  refine Reads.bind (reads_id (by omega)) fun src => ?_
  exact Reads.bind (reads_long (by omega)) fun session => Reads.pure _

theorem reads_dtunRecvFindValue (h : 76 ≤ msg.length) : Reads (s.dtunRecvFindValue msg) := by
  unfold Node.dtunRecvFindValue
  refine Reads.guard fun _ => ?_
  refine Reads.bind (reads_id (by omega)) fun dst => Reads.guard fun _ => ?_
  refine Reads.bind (reads_word (by omega)) fun domain => Reads.guard fun _ => ?_
  refine Reads.bind (reads_id (by omega)) fun src => ?_
  refine Reads.bind (reads_long (by omega)) fun nonce => ?_
  refine Reads.bind (reads_id (by omega)) fun id => ?_
  exact Reads.bind (reads_word (by omega)) fun state => Reads.pure _

theorem reads_dtunRecvFindValueReply (h : 76 ≤ msg.length) :
    Reads (s.dtunRecvFindValueReply sender msg) := by
  unfold Node.dtunRecvFindValueReply
  refine Reads.bind (reads_long (by omega)) fun nonce => ?_
  cases s.dtunQuery.lookup nonce with
  | none => exact Reads.pure _
  | some q =>
    refine Reads.bind (reads_id (by omega)) fun dst => Reads.guard fun _ => ?_
    refine Reads.bind (reads_id (by omega)) fun id => Reads.guard fun _ => ?_
    refine Reads.bind (reads_id (by omega)) fun src => ?_
    refine Reads.bind (reads_word (by omega)) fun domain => ?_
    refine Reads.bind (reads_valueNodes h domain) fun nodes => ?_
    cases nodes with
    | none => exact Reads.pure _
    | some nodes => exact Reads.bind (reads_byte (by omega)) fun flag => Reads.pure _

theorem reads_dtunRecvRequest (domain : BitVec 16) (h : 72 ≤ msg.length) :
    Reads (s.dtunRecvRequest domain msg) := by
  unfold Node.dtunRecvRequest
  refine Reads.guard fun _ => ?_
  refine Reads.bind (reads_id (by omega)) fun dst => Reads.guard fun _ => ?_
  refine Reads.bind (reads_id (by omega)) fun src => ?_
  refine Reads.bind (reads_id (by omega)) fun id => ?_
  refine Reads.ite (fun _ => ?_) fun _ => ?_
  · exact Reads.bind (reads_long (by omega)) fun nonce => Reads.pure _
  · cases s.registeredNodes.lookup id with
    | none => exact Reads.pure _
    | some reg =>
      refine Reads.guard fun _ => ?_
      exact Reads.bind (reads_long (by omega)) fun nonce => Reads.pure _

/-- The address is read where the length is the one that its domain makes. -/
theorem reads_dtunRecvRequestBy (h : 54 ≤ msg.length) : Reads (s.dtunRecvRequestBy msg) := by
  unfold Node.dtunRecvRequestBy sizeofInet sizeofInet6
  refine Reads.bind (reads_id (by omega)) fun dst => Reads.guard fun _ => ?_
  refine Reads.bind (reads_long (by omega)) fun nonce => ?_
  refine Reads.bind (reads_word (by omega)) fun domain => ?_
  refine Reads.ite (fun _ => ?_) fun _ => Reads.ite (fun _ => ?_) fun _ => Reads.pure _
  · refine Reads.guard fun hsize => ?_
    refine Reads.bind (reads_id (by omega)) fun id => ?_
    refine Reads.bind (reads_word (by omega)) fun port => ?_
    exact Reads.bind (reads_long (by omega)) fun addr => Reads.pure _
  · refine Reads.guard fun hsize => ?_
    refine Reads.bind (reads_id (by omega)) fun id => ?_
    refine Reads.bind (reads_word (by omega)) fun port => ?_
    exact Reads.bind (reads_addr6 (by omega)) fun addr => Reads.pure _

theorem reads_dtunRecvRequestReply (h : 52 ≤ msg.length) :
    Reads (s.dtunRecvRequestReply msg) := by
  unfold Node.dtunRecvRequestReply
  refine Reads.bind (reads_id (by omega)) fun dst => Reads.guard fun _ => ?_
  refine Reads.bind (reads_long (by omega)) fun nonce => ?_
  cases s.request.lookup nonce with
  | none => exact Reads.pure _
  | some q =>
    exact Reads.bind (reads_id (by omega)) fun src => Reads.guard fun _ => Reads.pure _

/-! ### The handlers of `dht` -/

theorem reads_dhtRecvFindNode (h : 76 ≤ msg.length) : Reads (s.dhtRecvFindNode msg) := by
  unfold Node.dhtRecvFindNode
  refine Reads.bind (reads_id (by omega)) fun dst => Reads.guard fun _ => ?_
  refine Reads.bind (reads_word (by omega)) fun domain => Reads.guard fun _ => ?_
  refine Reads.bind (reads_id (by omega)) fun src => ?_
  refine Reads.bind (reads_id (by omega)) fun id => ?_
  exact Reads.bind (reads_long (by omega)) fun nonce => Reads.pure _

theorem reads_dhtRecvFindNodeReply (h : 76 ≤ msg.length) :
    Reads (s.dhtRecvFindNodeReply sender msg) := by
  unfold Node.dhtRecvFindNodeReply
  refine Reads.bind (reads_long (by omega)) fun nonce => ?_
  cases s.dhtQuery.lookup nonce with
  | none => exact Reads.pure _
  | some q =>
    refine Reads.bind (reads_id (by omega)) fun dst => Reads.guard fun _ => ?_
    refine Reads.bind (reads_id (by omega)) fun id => Reads.guard fun _ => ?_
    refine Reads.bind (reads_id (by omega)) fun src => Reads.guard fun _ => ?_
    refine Reads.bind (reads_word (by omega)) fun domain => ?_
    refine Reads.bind (reads_nodes (by omega) h domain) fun nodes => ?_
    cases nodes with
    | none => exact Reads.pure _
    | some nodes => exact Reads.pure _

/-- The key and the value are the rest of the message. -/
theorem reads_dhtRecvStore (h : 96 ≤ msg.length) : Reads (s.dhtRecvStore msg) := by
  unfold Node.dhtRecvStore
  refine Reads.bind (reads_id (by omega)) fun dst => Reads.guard fun _ => ?_
  refine Reads.bind (reads_word (by omega)) fun keylen => ?_
  refine Reads.bind (reads_word (by omega)) fun valuelen => ?_
  refine Reads.bind (reads_word (by omega)) fun ttl => Reads.guard fun hsize => ?_
  refine Reads.bind (reads_id (by omega)) fun src => ?_
  refine Reads.bind (reads_id (by omega)) fun id => ?_
  refine Reads.bind (reads_id (by omega)) fun origin => ?_
  refine Reads.bind (reads_buf (by omega)) fun key => ?_
  refine Reads.bind (reads_buf (by omega)) fun value => ?_
  exact Reads.bind (reads_byte (by omega)) fun flags => Reads.pure _

theorem reads_dhtAnswer (h : 80 ≤ msg.length) (src id : Id) :
    Reads (Node.dhtAnswer msg src id) := by
  unfold Node.dhtAnswer
  refine Reads.bind (reads_word (by omega)) fun domain => Reads.guard fun _ => ?_
  exact Reads.bind (reads_long (by omega)) fun nonce => Reads.pure _

/-- A 16-bit sum that is a length from 80 on has not wrapped around. -/
theorem keylen_le {n : Nat} (h : 80 ≤ n) {keylen : BitVec 16}
    (hsize : (80 + keylen.toNat) % 2 ^ 16 = n) : 80 + keylen.toNat ≤ n := by
  have hlt := keylen.isLt
  omega

theorem reads_dhtRecvFindValue (h : 80 ≤ msg.length) : Reads (s.dhtRecvFindValue msg) := by
  unfold Node.dhtRecvFindValue
  refine Reads.bind (reads_id (by omega)) fun dst => Reads.guard fun _ => ?_
  refine Reads.bind (reads_word (by omega)) fun keylen => Reads.guard fun hsize => ?_
  have hkey := keylen_le h (not_not.mp hsize)
  refine Reads.bind (reads_id (by omega)) fun src => ?_
  refine Reads.bind (reads_id (by omega)) fun id => ?_
  refine Reads.bind (reads_byte (by omega)) fun flag => ?_
  refine Reads.ite (fun _ => ?_) fun _ => Reads.ite (fun _ => ?_) fun _ => Reads.pure _
  · cases s.stored.lookup id with
    | none => exact reads_dhtAnswer h src id
    | some keys => exact Reads.bind (reads_long (by omega)) fun nonce => Reads.pure _
  · refine Reads.bind (reads_buf hkey) fun key => ?_
    refine Reads.ite (fun _ => ?_) fun _ => reads_dhtAnswer h src id
    exact Reads.bind (reads_long (by omega)) fun nonce => Reads.pure _

theorem reads_dhtReadValue (q : Dht.Query) (src : Id) : Reads (Node.dhtReadValue q src msg) := by
  unfold Node.dhtReadValue
  refine Reads.guard fun hlen => ?_
  refine Reads.bind (reads_word (by omega)) fun keylen => ?_
  refine Reads.bind (reads_word (by omega)) fun valuelen => ?_
  refine Reads.guard fun hsize => Reads.guard fun _ => ?_
  refine Reads.bind (reads_buf (by omega)) fun key => Reads.guard fun _ => ?_
  refine Reads.bind (reads_word (by omega)) fun index => ?_
  refine Reads.bind (reads_word (by omega)) fun total => Reads.guard fun _ => ?_
  exact Reads.bind (reads_buf (by omega)) fun value => Reads.pure _

theorem reads_dhtRecvFindValueReply (h : 80 ≤ msg.length) :
    Reads (s.dhtRecvFindValueReply sender msg) := by
  unfold Node.dhtRecvFindValueReply
  refine Reads.bind (reads_id (by omega)) fun dst => Reads.guard fun _ => ?_
  refine Reads.bind (reads_long (by omega)) fun nonce => ?_
  cases s.dhtQuery.lookup nonce with
  | none => exact Reads.pure _
  | some q =>
    refine Reads.bind (reads_id (by omega)) fun id => Reads.guard fun _ => ?_
    refine Reads.bind (reads_id (by omega)) fun src => Reads.guard fun _ => ?_
    refine Reads.bind (reads_byte (by omega)) fun flag => Reads.guard fun _ => ?_
    refine Reads.ite (fun _ => ?_) fun _ => Reads.ite (fun _ => ?_) fun _ => Reads.pure _
    · exact Reads.bind (reads_dhtReadValue q src) fun data => Reads.pure _
    · refine Reads.guard fun hlen => ?_
      refine Reads.bind (reads_word (by omega)) fun domain => ?_
      exact Reads.bind (reads_nodes (by omega) (by omega) domain) fun nodes => Reads.pure _

end

/-! ### The dispatcher -/

/-- The dispatcher that reads byte by byte is the one of `Libcage.Cage`. -/
theorem dispatch_eq (msg : List Byte) : Node.dispatch msg = .ok (udpReceiver msg) := by
  unfold Node.dispatch udpReceiver
  by_cases hshort : msg.length < sizeofHdr
  · rw [if_pos hshort, if_pos hshort]
    rfl
  · unfold sizeofHdr at hshort ⊢
    have hmagic : readWord msg 0 = .ok (MsgHdr.decode msg).magic := inside_eq (by omega)
    have hver : readByte msg 2 = .ok (MsgHdr.decode msg).ver := inside_eq (by omega)
    have htype : readByte msg 3 = .ok (MsgHdr.decode msg).type := inside_eq (by omega)
    rw [if_neg hshort, if_neg hshort, hmagic, ok_bind]
    dsimp only
    by_cases hm : (MsgHdr.decode msg).magic = magicNumber
    · rw [if_neg (not_not_intro hm), hver, ok_bind]
      by_cases hv : (MsgHdr.decode msg).ver = cageVersion
      · rw [if_neg (not_not_intro hv), htype, ok_bind, if_neg (by simp [hm, hv])]
        cases route (MsgHdr.decode msg).type with
        | none => rfl
        | some r => rfl
      · rw [if_pos hv, if_pos (Or.inr hv)]
        rfl
    · rw [if_pos hm, if_pos (Or.inl hm)]
      rfl

/-- The least length of an extent. -/
def least : Extent → Nat
  | .exactly n => n
  | .atLeast n => n

theorem least_le {extent : Extent} {len : Nat} (h : extent.Has len) : least extent ≤ len := by
  cases extent with
  | exactly n => exact Nat.le_of_eq h.symm
  | atLeast n => exact h

/-- The bytes that a handler of `dht` or `dtun` reads without asking for the length. -/
def needs : Handler → Nat
  | .dtunRecvPing => 52
  | .dtunRecvPingReply => 52
  | .dtunRecvFindNode => 76
  | .dtunRecvFindNodeReply => 76
  | .dtunRecvRegister => 52
  | .dtunRecvFindValue => 76
  | .dtunRecvFindValueReply => 76
  | .dtunRecvRequest => 72
  | .dtunRecvRequestBy => 54
  | .dtunRecvRequestReply => 52
  | .dhtRecvFindNode => 76
  | .dhtRecvFindNodeReply => 76
  | .dhtRecvStore => 96
  | .dhtRecvFindValue => 80
  | .dhtRecvFindValueReply => 80
  | _ => 0

/-- The dispatcher asks for enough. -/
theorem needs_le : ∀ r ∈ routes, needs r.2.2 ≤ least r.2.1 := by decide

theorem needs_le_length {msg : List Byte} {handler : Handler}
    (h : udpReceiver msg = some handler) : needs handler ≤ msg.length := by
  obtain ⟨extent, hmem, hhas⟩ := udpReceiver_eq_some h
  exact (needs_le _ hmem).trans (least_le hhas)

theorem handle_reads (s : Node) (sender : Sender) {msg : List Byte} {handler : Handler}
    (h : needs handler ≤ msg.length) : Reads (s.handle sender msg handler) := by
  cases handler with
  | dtunRecvPing => exact (reads_dtunRecvPing h).discard
  | dtunRecvPingReply => exact (reads_dtunRecvPingReply h).discard
  | dtunRecvFindNode => exact (reads_dtunRecvFindNode h).discard
  | dtunRecvFindNodeReply => exact (reads_dtunRecvFindNodeReply h).discard
  | dtunRecvRegister => exact (reads_dtunRecvRegister h).discard
  | dtunRecvFindValue => exact (reads_dtunRecvFindValue h).discard
  | dtunRecvFindValueReply => exact (reads_dtunRecvFindValueReply h).discard
  | dtunRecvRequest => exact (reads_dtunRecvRequest _ h).discard
  | dtunRecvRequestBy => exact (reads_dtunRecvRequestBy h).discard
  | dtunRecvRequestReply => exact (reads_dtunRecvRequestReply h).discard
  | dhtRecvFindNode => exact (reads_dhtRecvFindNode h).discard
  | dhtRecvFindNodeReply => exact (reads_dhtRecvFindNodeReply h).discard
  | dhtRecvStore => exact (reads_dhtRecvStore h).discard
  | dhtRecvFindValue => exact (reads_dhtRecvFindValue h).discard
  | dhtRecvFindValueReply => exact (reads_dhtRecvFindValueReply h).discard
  | natRecvEcho => exact Reads.pure ()
  | natRecvEchoReply => exact Reads.pure ()
  | natRecvEchoRedirect => exact Reads.pure ()
  | dgramRecvDgram => exact Reads.pure ()
  | proxyRecvRegister => exact Reads.pure ()
  | proxyRecvRegisterReply => exact Reads.pure ()
  | proxyRecvStore => exact Reads.pure ()
  | proxyRecvGet => exact Reads.pure ()
  | proxyRecvGetReply => exact Reads.pure ()
  | proxyRecvDgram => exact Reads.pure ()
  | proxyRecvForwarded => exact Reads.pure ()
  | advertiseRecvAdvertise => exact Reads.pure ()
  | advertiseRecvAdvertiseReply => exact Reads.pure ()

/-- The dispatcher and the handlers of `dht` and `dtun` read inside every datagram, whatever the
state of the node. -/
theorem receive_inside (s : Node) (sender : Sender) (msg : List Byte) :
    s.receive sender msg = .ok () := by
  have hreads : Reads (s.receive sender msg) := by
    unfold Node.receive
    rw [dispatch_eq, ok_bind]
    cases hhandler : udpReceiver msg with
    | none => exact Reads.pure ()
    | some handler => exact handle_reads s sender (needs_le_length hhandler)
  obtain ⟨_, hreceive⟩ := hreads
  exact hreceive

end Libcage.Proofs.Decoders
