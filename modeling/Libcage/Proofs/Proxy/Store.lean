import Libcage.Proofs.Dht.Packets
import Libcage.Proxy.Store

/-!
# `Libcage.Proofs.Proxy.Store`: what the proxy stores for a client

`recv_store` looks for the value `keylen` words behind the key and not `keylen` bytes. The
read ends `3 * keylen` bytes behind the message, so it stays inside only where there is
nothing to skip or nothing to copy (`value_inside_iff`). `recvStore_eq` says what the proxy
does with a message that the dispatcher lets through, and `storeCodec_iff` what becomes of the
messages of a client.
-/

set_option autoImplicit false

namespace Libcage.Proofs

open Libcage.Lib
open Libcage.Rdp (Id)
open Libcage.Dht (Buf dhtFlagUnique)
open Libcage.Proxy

variable {msg : List Byte} {s : RegisteredClients}

/-! ### Reading -/

theorem inside_eq {α : Type} {off n : Nat} {a : α} (h : off + n ≤ msg.length) :
    inside msg off n a = .ok a := by
  rw [inside, if_pos (Or.inr h)]

/-- The lengths that a message names make up its size. -/
abbrev HasSize (msg : List Byte) : Prop :=
  Proxy.sizeofStoreHead + (rd16 msg 68).toNat + (rd16 msg 70).toNat = msg.length

/-- The message is copied from: it has its size, is for this node, and comes from a client. -/
structure Copied (s : RegisteredClients) (msg : List Byte) : Prop where
  size : HasSize msg
  dst : rd160 msg 28 = s.id
  src : s.isRegistered (rd160 msg 8) = true

instance : Decidable (Copied s msg) :=
  decidable_of_iff (HasSize msg ∧ rd160 msg 28 = s.id ∧ s.isRegistered (rd160 msg 8) = true)
    ⟨fun h => ⟨h.1, h.2.1, h.2.2⟩, fun h => ⟨h.size, h.dst, h.src⟩⟩

/-- The value lies in the message where the key or the value is empty. -/
theorem value_inside_iff (h : HasSize msg) :
    ((rd16 msg 70).toNat = 0 ∨
      Proxy.sizeofStoreHead + 4 * (rd16 msg 68).toNat + (rd16 msg 70).toNat ≤ msg.length) ↔
    rd16 msg 68 = 0 ∨ rd16 msg 70 = 0 := by
  have hzero : ∀ w : BitVec 16, w = 0 ↔ w.toNat = 0 := by
    intro w
    rw [← BitVec.toNat_inj]
    rfl
  rw [hzero, hzero]
  unfold HasSize at h
  omega

/-- The call of `dht::store` for a message. -/
def calls (msg : List Byte) : DhtStore where
  func := {
    id := rd160 msg 48
    key := .copy (rd16 msg 68) (msg.drop Proxy.sizeofStoreHead)
    value := .copy (rd16 msg 70) (msg.drop (Proxy.sizeofStoreHead + 4 * (rd16 msg 68).toNat))
    ttl := rd16 msg 72
    isUnique := byteAt msg 74 &&& dhtFlagUnique ≠ 0 }
  src := rd160 msg 8

/-- A message that has room for the head is dropped, or handed on, or read past its end. -/
theorem recvStore_eq (h : Proxy.sizeofStoreHead ≤ msg.length) :
    s.recvStore msg =
      if Copied s msg then
        if rd16 msg 68 = 0 ∨ rd16 msg 70 = 0 then .ok (some (calls msg)) else .error .outside
      else
        .ok none := by
  have hhead : ∀ {α : Type} (off n : Nat) (a : α), off + n ≤ Proxy.sizeofStoreHead →
      inside msg off n a = .ok a := fun off n a hle => inside_eq (hle.trans h)
  unfold RegisteredClients.recvStore
  simp only [readWord, readId, readBuf, ok_bind,
    hhead 68 2 _ (by decide), hhead 70 2 _ (by decide), hhead 28 20 _ (by decide),
    hhead 8 20 _ (by decide), hhead 48 20 _ (by decide), hhead 74 1 _ (by decide),
    hhead 72 2 _ (by decide)]
  by_cases hsize : HasSize msg
  · rw [if_neg (not_not_intro hsize)]
    by_cases hdst : rd160 msg 28 = s.id
    · rw [if_neg (not_not_intro hdst)]
      by_cases hsrc : s.isRegistered (rd160 msg 8) = true
      · rw [if_neg (not_not_intro hsrc), if_pos ⟨hsize, hdst, hsrc⟩]
        have hkey : Proxy.sizeofStoreHead + (rd16 msg 68).toNat ≤ msg.length := by
          unfold HasSize at hsize
          omega
        rw [inside_eq hkey, ok_bind, inside]
        simp only [value_inside_iff hsize]
        -- The value is looked for too far behind the key, inside just where one of them is empty.
        by_cases hempty : rd16 msg 68 = 0 ∨ rd16 msg 70 = 0
        · simp only [if_pos hempty]
          rfl
        · simp only [if_neg hempty]
          rfl
      · rw [if_pos hsrc, if_neg fun hc => hsrc hc.src]
        rfl
    · rw [if_pos hdst, if_neg fun hc => hdst hc.dst]
      rfl
  · rw [if_pos hsize, if_neg fun hc => hsize hc.size]
    rfl

/-- The reads of `recv_store` on this datagram stay inside it. -/
def ReadsInside (s : RegisteredClients) (msg : List Byte) : Prop :=
  ∃ call, s.receiveStore msg = .ok call

/-- The dispatcher lets only messages through that have room for the head. -/
theorem length_of_proxyRecvStore (h : udpReceiver msg = some .proxyRecvStore) :
    Proxy.sizeofStoreHead ≤ msg.length := by
  obtain ⟨extent, hmem, hhas⟩ := udpReceiver_eq_some h
  have htable : ∀ r ∈ routes, r.2.2 = .proxyRecvStore →
      r.2.1 = .atLeast Proxy.sizeofStoreHead := by decide
  have hextent : extent = .atLeast Proxy.sizeofStoreHead := htable _ hmem rfl
  rw [hextent] at hhas
  exact hhas

theorem readsInside_iff : ReadsInside s msg ↔
    (udpReceiver msg = some .proxyRecvStore → Copied s msg →
      rd16 msg 68 = 0 ∨ rd16 msg 70 = 0) := by
  unfold ReadsInside RegisteredClients.receiveStore
  by_cases hroute : udpReceiver msg = some .proxyRecvStore
  · rw [if_pos hroute, recvStore_eq (length_of_proxyRecvStore hroute)]
    by_cases hcopied : Copied s msg
    · rw [if_pos hcopied]
      by_cases hempty : rd16 msg 68 = 0 ∨ rd16 msg 70 = 0
      · rw [if_pos hempty]
        exact ⟨fun _ _ _ => hempty, fun _ => ⟨_, rfl⟩⟩
      · rw [if_neg hempty]
        refine ⟨?_, fun h => absurd (h hroute hcopied) hempty⟩
        rintro ⟨call, hcall⟩
        cases hcall
    · rw [if_neg hcopied]
      exact ⟨fun _ _ hc => absurd hc hcopied, fun _ => ⟨_, rfl⟩⟩
  · rw [if_neg hroute]
    exact ⟨fun _ hr => absurd hr hroute, fun _ => ⟨_, rfl⟩⟩

/-! ### The messages of a client -/

section
variable {client : Client} {func : Stores}

/-- A message of `proxy::store` is its header and what it stores. -/
theorem store_eq_some (h : client.store func = some msg) :
    msg = (sendMsg 0 (Proxy.sizeofStoreHead + func.key.1.length + func.value.1.length)
      typeProxyStore client.server.id client.id).encode ++ func.encode := by
  simp only [Client.store] at h
  split at h
  · cases h
  · split at h
    · cases h
    · exact (Option.some.inj h).symm

/-- What the proxy reads from a message of `proxy::store`. -/
structure Carries (client : Client) (func : Stores) (msg : List Byte) : Prop where
  route : udpReceiver msg = some .proxyRecvStore
  src : rd160 msg 8 = client.id
  dst : rd160 msg 28 = client.server.id
  id : rd160 msg 48 = func.id
  keylen : rd16 msg 68 = func.key.len
  valuelen : rd16 msg 70 = func.value.len
  ttl : rd16 msg 72 = func.ttl
  flags : byteAt msg 74 = if func.isUnique then dhtFlagUnique else 0
  data : msg.drop Proxy.sizeofStoreHead = func.key.1 ++ func.value.1

theorem carries_of_store (h : client.store func = some msg) : Carries client func msg := by
  have hmsg := store_eq_some h
  generalize hhdr : sendMsg 0 _ typeProxyStore client.server.id client.id = hdr at hmsg
  have hdecode : MsgHdr.decode msg = hdr := by rw [hmsg, MsgHdr.decode_encode]
  have hsrc : rd160 msg 8 = hdr.src := congrArg MsgHdr.src hdecode
  have hdst : rd160 msg 28 = hdr.dst := congrArg MsgHdr.dst hdecode
  have hlen : Proxy.sizeofStoreHead ≤ sizeofHdr + func.encode.length := by
    show 76 ≤ 48 + ((func.key.1 ++ func.value.1).length + 28)
    omega
  have hroute : udpReceiver msg = some .proxyRecvStore := by
    rw [hmsg, udpReceiver_encode (by rw [← hhdr]; rfl) (by rw [← hhdr]; rfl), ← hhdr]
    exact if_pos hlen
  subst hmsg
  exact
    { route := hroute
      src := by rw [hsrc, ← hhdr]; rfl
      dst := by rw [hdst, ← hhdr]; rfl
      id := rd160_wr160 hdr.encode _ func.id
      keylen := bytes16 _
      valuelen := bytes16 _
      ttl := bytes16 _
      flags := rfl
      data := rfl }

/-- The message is copied from, as it was made for this proxy by a client of its own. -/
theorem Carries.copied (h : Carries client func msg) (hserver : client.server.id = s.id)
    (hclient : s.isRegistered client.id = true) : Copied s msg where
  size := by
    have hlen := congrArg List.length h.data
    rw [List.length_drop, List.length_append] at hlen
    rw [HasSize, h.keylen, h.valuelen, Dht.toNat_len, Dht.toNat_len]
    have hhead := length_of_proxyRecvStore h.route
    omega
  dst := by rw [h.dst, hserver]
  src := by rw [h.src, hclient]

/-- Where nothing is read past the end, the call is the one that was asked for. -/
theorem Carries.calls_eq (h : Carries client func msg)
    (hempty : func.key.1 = [] ∨ func.value.1 = []) : calls msg = ⟨func, client.id⟩ := by
  have hvalue : Buf.copy func.value.len
      (msg.drop (Proxy.sizeofStoreHead + 4 * func.key.1.length)) = func.value := by
    rcases hempty with hkey | hvalue
    · rw [hkey, List.length_nil, Nat.mul_zero, Nat.add_zero, h.data, hkey, List.nil_append]
      exact Dht.copy_len_self _
    · apply Subtype.ext
      show List.take func.value.len.toNat _ = func.value.1
      rw [Dht.toNat_len, hvalue, List.length_nil, List.take_zero]
  have hunique : decide (byteAt msg 74 &&& dhtFlagUnique ≠ 0) = func.isUnique := by
    rw [h.flags]
    cases func.isUnique <;> rfl
  simp only [calls, h.id, h.keylen, h.valuelen, h.ttl, h.src, h.data, hunique, Dht.toNat_len,
    Dht.copy_len, hvalue]

end

/-- The proxy does for a client what was asked for. -/
def StoresFor (s : RegisteredClients) (client : Client) (func : Stores) (msg : List Byte) : Prop :=
  s.receiveStore msg = .ok (some ⟨func, client.id⟩)

/-- The message of a registered client is handed to `dht::store` as it was meant where its key
or its value is empty. Of all messages, those that are copied from are read inside where the
key or the value is. -/
theorem storeCodec_iff (s : RegisteredClients) :
    (∀ client func msg, client.store func = some msg → client.server.id = s.id →
      s.isRegistered client.id = true →
      (StoresFor s client func msg ↔ func.key.1 = [] ∨ func.value.1 = [])) ∧
    (∀ msg, ReadsInside s msg ↔ (udpReceiver msg = some .proxyRecvStore → Copied s msg →
      rd16 msg 68 = 0 ∨ rd16 msg 70 = 0)) := by
  refine ⟨?_, fun msg => readsInside_iff⟩
  intro client func msg hstore hserver hclient
  have hcarries := carries_of_store hstore
  have hcopied := hcarries.copied hserver hclient
  -- The lengths in the message are zero just where the buffers are empty.
  have hiff : rd16 msg 68 = 0 ∨ rd16 msg 70 = 0 ↔ func.key.1 = [] ∨ func.value.1 = [] := by
    rw [hcarries.keylen, hcarries.valuelen]
    constructor
    · intro h
      by_contra hne
      obtain ⟨hkey, hvalue⟩ := not_or.mp hne
      exact h.elim (Dht.len_ne_zero hkey) (Dht.len_ne_zero hvalue)
    · rintro (h | h)
      · exact Or.inl (by rw [Buf.len, h]; rfl)
      · exact Or.inr (by rw [Buf.len, h]; rfl)
  unfold StoresFor RegisteredClients.receiveStore
  rw [if_pos hcarries.route, recvStore_eq (length_of_proxyRecvStore hcarries.route),
    if_pos hcopied]
  by_cases hempty : func.key.1 = [] ∨ func.value.1 = []
  · rw [if_pos (hiff.mpr hempty), hcarries.calls_eq hempty]
    simp [hempty]
  · rw [if_neg (mt hiff.mp hempty)]
    simp [hempty]

/-- The node 1 is a client of the proxy 2. -/
def proxyOfOne : RegisteredClients :=
  ⟨2, AList.singleton 1 ⟨7, ⟨1, .inet 1 1⟩, 0⟩, []⟩

def clientOne : Client := ⟨1, true, ⟨2, .inet 2 2⟩, false⟩

/-- A key of one byte: the proxy reads behind the message. -/
theorem keyed_value_outside : ∃ msg,
    clientOne.store ⟨5, ⟨[1], by decide⟩, ⟨[2], by decide⟩, 300, true⟩ = some msg ∧
    ¬ StoresFor proxyOfOne clientOne ⟨5, ⟨[1], by decide⟩, ⟨[2], by decide⟩, 300, true⟩ msg ∧
    ¬ ReadsInside proxyOfOne msg := by
  refine ⟨_, rfl, ?_⟩
  have houtside : proxyOfOne.receiveStore
      ((sendMsg 0 78 typeProxyStore 2 1).encode ++
        Stores.encode ⟨5, ⟨[1], by decide⟩, ⟨[2], by decide⟩, 300, true⟩) = .error .outside := by
    decide +kernel
  constructor
  · intro h
    cases houtside.symm.trans h
  · rintro ⟨call, h⟩
    cases houtside.symm.trans h

/-- A value under the empty key. -/
theorem storeCodec_iff_noKey : ∃ msg,
    clientOne.store ⟨5, ⟨[], by decide⟩, ⟨[2], by decide⟩, 300, true⟩ = some msg ∧
    (StoresFor proxyOfOne clientOne ⟨5, ⟨[], by decide⟩, ⟨[2], by decide⟩, 300, true⟩ msg ↔
      ([] : List Byte) = [] ∨ [(2 : Byte)] = []) :=
  ⟨_, rfl, (storeCodec_iff proxyOfOne).1 clientOne
    ⟨5, ⟨[], by decide⟩, ⟨[2], by decide⟩, 300, true⟩ _ rfl rfl (by decide +kernel)⟩

end Libcage.Proofs
