import Libcage.Proxy.Relay

/-!
# `Libcage.Proofs.Proxy.Relay`: datagrams that go over a proxy

Down, `recv_forwarded` hands the payload to the datagram callback, but the whole message to
`rdp::input_dgram`: the 68 bytes in front of an RDP segment stay on. The dispatcher drops what
is shorter than a `msg_proxy_get`, and with it every payload below 8 bytes
(`downlink_iff`).

Up, the buffer of a message that was received has no room in front of its first byte. So
`dgram::send_msg` has no place for a header and drops the message (`sendMsg_received`). No
datagram of a client leaves its proxy (`uplink_lost`).
-/

set_option autoImplicit false

namespace Libcage.Proofs

open Libcage.Lib
open Libcage.Rdp (Id)
open Libcage.Dht (Saddr Cageaddr)
open Libcage.Proxy

/-! ### Clients -/

/-- The record of an id has this id and an address to send to. -/
theorem registered_self {server : Id} {is : List RegisteredClients.Input} {s : RegisteredClients}
    (hrun : run RegisteredClients.step (.init server) is = .ok s) :
    ∀ id a, s.registered.lookup id = some a → a.addr.id = id ∧ a.addr.saddr ≠ .loopback := by
  refine run_inv (fun s => ∀ id a, s.registered.lookup id = some a →
    a.addr.id = id ∧ a.addr.saddr ≠ .loopback) ?_ (by intro id a h; cases h) hrun
  intro s i s' hs hstep
  cases i with
  | recvRegister now reg from_ =>
    cases hstep
    -- All that is written is a record under the id of the sender.
    have hwrite : ∀ session t id a,
        (s.registered.insert reg.src ⟨session, newCageaddr reg.src from_, t⟩).lookup id = some a →
        a.addr.id = id ∧ a.addr.saddr ≠ .loopback := by
      intro session t id a ha
      rcases lookup_insert_eq_some.mp ha with ⟨rfl, rfl⟩ | ⟨-, ha⟩
      · exact ⟨rfl, from_.2⟩
      · exact hs id a ha
    simp only [RegisteredClients.recvRegister]
    split
    · exact hs
    · split
      · exact hwrite _ _
      · split
        · exact hwrite _ _
        · exact hs
  | refresh now =>
    cases hstep
    intro id a ha
    simp only [RegisteredClients.refresh, lookup_filterMap] at ha
    obtain ⟨a', ha', hkeep⟩ := Option.bind_eq_some_iff.mp ha
    split at hkeep
    · cases hkeep
    · cases hkeep
      exact hs id _ ha'

/-! ### Down -/

/-- What reaches the user of a node: the datagram callback, or `rdp::input_dgram`. -/
inductive Arrival where
  | callback (data : List Byte) (src : Id)
  | inputDgram (src : Id) (data : List Byte)
deriving DecidableEq

/-- The arrivals among the calls. -/
def arrivals (calls : List DgramCall) : List Arrival :=
  calls.filterMap fun
    | .callback data src => some (.callback data src)
    | .inputDgram src pbuf => some (.inputDgram src pbuf.data)
    | _ => none

/-- A message as `dgram::send_msg` makes it. -/
def direct (type : Byte) (dst src : Id) (payload : List Byte) : List Byte :=
  (sendMsg 0 (payload.length + sizeofHdr) type dst src).encode ++ payload

/-- The arrival of a payload. -/
def arrival (type : Byte) (src : Id) (data : List Byte) : Arrival :=
  if type = typeDgram then .callback data src else .inputDgram src data

section
variable {c src : Id} {type : Byte} {payload tail : List Byte}

@[simp] theorem length_direct :
    (direct type c src payload).length = payload.length + sizeofHdr := by
  simp [direct, Nat.add_comm]

/-- The data of a message behind its header. -/
theorem drop_hdr (hdr : MsgHdr) (rest : List Byte) : (hdr.encode ++ rest).drop sizeofHdr = rest :=
  List.drop_left' rfl

/-- The header of a message that has come. -/
theorem decode_received {hdr : MsgHdr} {rest : List Byte}
    (h : (hdr.encode ++ rest).length ≤ pbufSize) :
    MsgHdr.decode (Packetbuf.received (hdr.encode ++ rest) tail h).view = hdr := by
  show MsgHdr.decode ((_ ++ rest) ++ tail) = _
  rw [List.append_assoc, MsgHdr.decode_encode]

/-- A direct message that fits into a buffer has the length that its header says. -/
theorem len_direct (h : (direct type c src payload).length ≤ pbufSize) :
    (sendMsg 0 (payload.length + sizeofHdr) type c src).len.toNat =
      (direct type c src payload).length := by
  show (BitVec.ofNat 16 (payload.length + sizeofHdr)).toNat = _
  rw [length_direct] at h ⊢
  rw [BitVec.toNat_ofNat]
  apply Nat.mod_eq_of_lt
  unfold pbufSize at h
  omega

theorem arrivals_direct {node : Dgram} {from_ : Sockaddr} (hid : node.id = c)
    (hcallback : node.isCallback = true) (htype : type = typeDgram ∨ type = typeRdp)
    (h : (direct type c src payload).length ≤ pbufSize) :
    arrivals (node.recvDgram (.received (direct type c src payload) tail h) from_) =
      [arrival type src payload] := by
  have hdecode : MsgHdr.decode (Packetbuf.received (direct type c src payload) tail h).view =
      sendMsg 0 (payload.length + sizeofHdr) type c src := decode_received h
  have hlen : (sendMsg 0 (payload.length + sizeofHdr) type c src).len.toNat =
      (Packetbuf.received (direct type c src payload) tail h).getLen := len_direct h
  unfold Dgram.recvDgram
  simp only [hdecode, hlen, sendMsg_dst, sendMsg_src, sendMsg_type]
  rw [if_neg (not_not_intro rfl), if_neg (not_not_intro hid.symm)]
  have hdata : (Packetbuf.received (direct type c src payload) tail h).data.drop sizeofHdr =
      payload := drop_hdr _ _
  have hrm : ((Packetbuf.received (direct type c src payload) tail h).rmHead sizeofHdr).data =
      payload := by
    rw [Packetbuf.rmHead_data, hdata]
    show sizeofHdr ≤ (direct type c src payload).length
    rw [length_direct]
    exact Nat.le_add_left ..
  -- The calls of `add_node` and `advertise_to` are no arrivals.
  have hskip : ∀ calls, arrivals (.addNode (newCageaddr src from_) ::
      ((if node.isDtunEnabled then
          [.advertiseTo src (newCageaddr src from_).domain (sinPort from_.1) (sinAddr from_.1)]
        else []) ++ calls)) = arrivals calls := by
    intro calls
    cases node.isDtunEnabled <;> rfl
  refine (hskip _).trans ?_
  rcases htype with rfl | rfl
  · rw [if_pos ⟨rfl, hcallback⟩]
    show [Arrival.callback _ _] = _
    rw [hdata]
    rfl
  · rw [if_neg (fun hdgram => absurd hdgram.1 (by decide)), if_pos rfl]
    show [Arrival.inputDgram _ _] = _
    rw [hrm]
    rfl

/-- What the proxy makes of a message for a client. -/
def forwarded (type : Byte) (c src : Id) (from_ : Sockaddr) (payload : List Byte) : List Byte :=
  (sendMsg 0 (payload.length + sizeofForwardedHead)
      (if type = typeDgram then typeProxyDgramForwarded else typeProxyRdpForwarded) c src).encode ++
    (wr16 (newCageaddr src from_).domain ++ (wr16 (sinPort from_.1) ++
      (forwardedAddr from_.1 ++ payload)))

/-- Every address fills the 16 bytes. -/
@[simp] theorem length_forwardedAddr (from_ : Sockaddr) : (forwardedAddr from_.1).length = 16 := by
  obtain ⟨saddr, hsaddr⟩ := from_
  cases saddr with
  | loopback => exact absurd rfl hsaddr
  | inet port addr => rfl
  | inet6 port addr => rfl

@[simp] theorem length_forwarded (from_ : Sockaddr) :
    (forwarded type c src from_ payload).length = payload.length + sizeofForwardedHead := by
  simp only [forwarded, List.length_append, MsgHdr.length_encode, length_wr16, length_forwardedAddr,
    sizeofHdr, sizeofForwardedHead]
  omega

theorem drop_forwarded (from_ : Sockaddr) :
    (forwarded type c src from_ payload).drop sizeofForwardedHead = payload := by
  have hsplit : forwarded type c src from_ payload =
      ((sendMsg 0 (payload.length + sizeofForwardedHead)
        (if type = typeDgram then typeProxyDgramForwarded else typeProxyRdpForwarded)
        c src).encode ++ (wr16 (newCageaddr src from_).domain ++ (wr16 (sinPort from_.1) ++
          forwardedAddr from_.1))) ++ payload := by
    simp only [forwarded, List.append_assoc]
  rw [hsplit]
  apply List.drop_left'
  simp only [List.length_append, MsgHdr.length_encode, length_wr16, length_forwardedAddr, sizeofHdr,
    sizeofForwardedHead]

/-- A message for a client goes to the recorded address. -/
theorem forwardMsg_direct {s : RegisteredClients} {a : Addr} (ha : s.registered.lookup c = some a)
    (hid : a.addr.id = c) (hsaddr : a.addr.saddr ≠ .loopback)
    (htype : type = typeDgram ∨ type = typeRdp)
    (hfits : payload.length + sizeofForwardedHead ≤ pbufSize) (from_ : Sockaddr) :
    s.forwardMsg (direct type c src payload) from_ =
      some ⟨a.addr.saddr, forwarded type c src from_ payload⟩ := by
  have hroom : ¬ payload.length + sizeofForwardedHead > sizeofForwardBuf := by
    unfold pbufSize at hfits
    unfold sizeofForwardBuf
    omega
  have hfwd : forwardedType type =
      some (if type = typeDgram then typeProxyDgramForwarded else typeProxyRdpForwarded) := by
    rcases htype with rfl | rfl <;> rfl
  have hdecode : MsgHdr.decode (direct type c src payload) =
      sendMsg 0 (payload.length + sizeofHdr) type c src := MsgHdr.decode_encode ..
  have hlookup : s.registered.lookup (MsgHdr.decode (direct type c src payload)).dst = some a := by
    rw [hdecode]
    exact ha
  have hdata : (direct type c src payload).drop sizeofHdr = payload := drop_hdr ..
  unfold RegisteredClients.forwardMsg
  simp only [hlookup, hdecode, hdata, sendMsg_src, sendMsg_type, if_neg hroom, hfwd, hid]
  rw [sendto, if_neg hsaddr]
  rfl

/-- The client hands on the payload as a datagram, and the whole message as a segment. -/
theorem arrivals_forwarded {from_ : Sockaddr} (hne : payload ≠ [])
    (htype : type = typeDgram ∨ type = typeRdp)
    (h : (forwarded type c src from_ payload).length ≤ pbufSize) :
    arrivals (recvForwarded (.received (forwarded type c src from_ payload) tail h)) =
      [arrival type src
        (if type = typeDgram then payload else forwarded type c src from_ payload)] := by
  have hdecode : MsgHdr.decode
      (Packetbuf.received (forwarded type c src from_ payload) tail h).view =
      sendMsg 0 (payload.length + sizeofForwardedHead)
        (if type = typeDgram then typeProxyDgramForwarded else typeProxyRdpForwarded) c src :=
    decode_received h
  have hlong : ¬ (Packetbuf.received (forwarded type c src from_ payload) tail h).getLen ≤
      sizeofForwardedHead := by
    show ¬ (forwarded type c src from_ payload).length ≤ _
    have hpos := List.length_pos_iff_ne_nil.mpr hne
    rw [length_forwarded]
    omega
  unfold recvForwarded
  rw [if_neg hlong]
  simp only [hdecode]
  rcases htype with rfl | rfl
  · show [Arrival.callback ((forwarded _ _ _ _ _).drop sizeofForwardedHead) src] = _
    rw [drop_forwarded]
    rfl
  · rfl

end

section
variable (type : Byte) (c src : Id) (from_ : Sockaddr) (payload tail : List Byte)

/-- A direct message goes to `recv_dgram`. -/
theorem receiveDgram_direct (htype : type = typeDgram ∨ type = typeRdp) (node : Dgram)
    (h : (direct type c src payload).length ≤ pbufSize) :
    receiveDgram node (.received (direct type c src payload) tail h) from_ =
      node.recvDgram (.received (direct type c src payload) tail h) from_ := by
  have hroute : udpReceiver (direct type c src payload) = some .dgramRecvDgram := by
    rw [direct, udpReceiver_encode rfl rfl, sendMsg_type]
    rcases htype with rfl | rfl <;> exact if_pos (Nat.le_add_right ..)
  have hroute' : udpReceiver (Packetbuf.received (direct type c src payload) tail h).data =
      some .dgramRecvDgram := hroute
  rw [receiveDgram, hroute']

/-- The dispatcher asks for the length of a `msg_proxy_get`. -/
theorem udpReceiver_forwarded :
    udpReceiver (forwarded type c src from_ payload) =
      if 8 ≤ payload.length then some .proxyRecvForwarded else none := by
  have hlen : (forwarded type c src from_ payload).length = _ := length_forwarded from_
  rw [forwarded, List.length_append, MsgHdr.length_encode] at hlen
  have hroute : route (if type = typeDgram then typeProxyDgramForwarded
      else typeProxyRdpForwarded) = some (.atLeast 76, .proxyRecvForwarded) := by
    split <;> rfl
  rw [forwarded, udpReceiver_encode rfl rfl, sendMsg_type, hroute, Option.bind_some, hlen]
  have hiff : Extent.Has (payload.length + sizeofForwardedHead) (.atLeast 76) ↔
      8 ≤ payload.length := by
    show 76 ≤ payload.length + 68 ↔ _
    omega
  simp only [hiff]

/-- A relayed message goes to `recv_forwarded`, or is dropped. -/
theorem receiveDgram_forwarded (node : Dgram) (from' : Sockaddr)
    (h : (forwarded type c src from_ payload).length ≤ pbufSize) :
    receiveDgram node (.received (forwarded type c src from_ payload) tail h) from' =
      if 8 ≤ payload.length then
        recvForwarded (.received (forwarded type c src from_ payload) tail h)
      else
        [] := by
  have hroute : udpReceiver (Packetbuf.received (forwarded type c src from_ payload) tail h).data =
      if 8 ≤ payload.length then some .proxyRecvForwarded else none :=
    udpReceiver_forwarded type c src from_ payload
  rw [receiveDgram, hroute]
  by_cases hlong : 8 ≤ payload.length
  · rw [if_pos hlong, if_pos hlong]
  · rw [if_neg hlong, if_neg hlong]

variable {type payload}

/-- The arrivals are the same where no header stays on the payload. -/
theorem arrivals_eq_iff (htype : type = typeDgram ∨ type = typeRdp) :
    [arrival type src (if type = typeDgram then payload else forwarded type c src from_ payload)] =
      [arrival type src payload] ↔ type = typeDgram := by
  rcases htype with rfl | rfl
  · simp
  · constructor
    · intro h
      have hdata : forwarded typeRdp c src from_ payload = payload :=
        (Arrival.inputDgram.inj (List.cons.inj h).1).2
      -- The 68 bytes in front are still there.
      have hlen := congrArg List.length hdata
      rw [length_forwarded] at hlen
      unfold sizeofForwardedHead at hlen
      omega
    · intro h
      exact absurd h (by decide)

end

/-- A message for a client that is relayed reaches the same function as the direct one, with
the same source and payload, where it is a datagram. Where it goes through the dispatcher of
the client, it also needs 8 bytes of payload. -/
theorem downlink_iff {server c : Id} {is : List RegisteredClients.Input} {s : RegisteredClients}
    (hrun : run RegisteredClients.step (.init server) is = .ok s)
    (hclient : s.isRegistered c = true) {node : Dgram} (hid : node.id = c)
    (hcallback : node.isCallback = true) {type : Byte} (htype : type = typeDgram ∨ type = typeRdp)
    {payload : List Byte} (hne : payload ≠ [])
    (hfits : payload.length + sizeofForwardedHead ≤ pbufSize) (src : Id) (from_ from' : Sockaddr)
    (tail tail' : List Byte) :
    ∃ d hdirect hrelayed, s.forwardMsg (direct type c src payload) from_ = some d ∧
      (arrivals (recvForwarded (.received d.msg tail hrelayed)) =
        arrivals (node.recvDgram (.received (direct type c src payload) tail' hdirect) from_) ↔
          type = typeDgram) ∧
      (arrivals (receiveDgram node (.received d.msg tail hrelayed) from') =
        arrivals
          (receiveDgram node (.received (direct type c src payload) tail' hdirect) from_) ↔
          type = typeDgram ∧ 8 ≤ payload.length) := by
  obtain ⟨a, ha⟩ := Option.isSome_iff_exists.mp hclient
  obtain ⟨haid, hsaddr⟩ := registered_self hrun c a ha
  have hrelayed : (forwarded type c src from_ payload).length ≤ pbufSize := by
    rw [length_forwarded]
    exact hfits
  have hdirect : (direct type c src payload).length ≤ pbufSize := by
    rw [length_direct]
    exact (Nat.add_le_add_left (by decide) _).trans hfits
  refine ⟨⟨a.addr.saddr, forwarded type c src from_ payload⟩, hdirect, hrelayed,
    forwardMsg_direct ha haid hsaddr htype hfits from_, ?_, ?_⟩
  · rw [arrivals_forwarded hne htype, arrivals_direct hid hcallback htype]
    exact arrivals_eq_iff c src from_ htype
  · rw [receiveDgram_forwarded, receiveDgram_direct _ _ _ _ _ _ htype,
      arrivals_direct hid hcallback htype]
    -- `recv_forwarded` is called for datagrams of that length only.
    by_cases hlong : 8 ≤ payload.length
    · rw [if_pos hlong, arrivals_forwarded hne htype, arrivals_eq_iff c src from_ htype]
      exact ⟨fun h => ⟨h, hlong⟩, fun h => h.1⟩
    · rw [if_neg hlong]
      exact ⟨fun h => (nomatch h), fun h => absurd h.2 hlong⟩

/-- The client 1 of the proxy 2. -/
def relayedOne : Dgram := ⟨1, .init, ∅, ∅, false, true, [], []⟩

theorem inet_ne_loopback (port : BitVec 16) (addr : BitVec 32) :
    Saddr.inet port addr ≠ .loopback := by
  simp

/-- The sender of a datagram over IPv4. -/
def inetFrom (port : BitVec 16) (addr : BitVec 32) : Sockaddr :=
  ⟨.inet port addr, inet_ne_loopback port addr⟩

def ownRegister : RegisteredClients.Input := .recvRegister 0 ⟨1, 2, 7, 3⟩ (inetFrom 1 1)

def senderThree : Sockaddr := inetFrom 5 5

/-- A payload of 8 bytes. -/
def eightBytes : List Byte := List.replicate 8 0

theorem registered_one : ∃ s, run RegisteredClients.step (.init 2) [ownRegister] = .ok s ∧
    s.isRegistered 1 = true := ⟨_, rfl, by decide⟩

/-- A segment of 8 bytes: `rdp::input_dgram` gets 76. -/
theorem relayed_segment_shifted : ∃ (s : RegisteredClients) (d : Datagram) (hdirect : _)
    (hrelayed : _), run RegisteredClients.step (.init 2) [ownRegister] = .ok s ∧
    s.forwardMsg (direct typeRdp 1 3 eightBytes) senderThree = some d ∧
    arrivals (recvForwarded (.received d.msg [] hrelayed)) ≠
      arrivals (relayedOne.recvDgram (.received (direct typeRdp 1 3 eightBytes) [] hdirect)
        senderThree) := by
  obtain ⟨s, hs, hclient⟩ := registered_one
  obtain ⟨a, ha⟩ := Option.isSome_iff_exists.mp hclient
  obtain ⟨haid, hsaddr⟩ := registered_self hs 1 a ha
  have hrelayed : (forwarded typeRdp 1 3 senderThree eightBytes).length ≤ pbufSize := by
    rw [length_forwarded]
    decide
  have hdirect : (direct typeRdp 1 3 eightBytes).length ≤ pbufSize := by
    rw [length_direct]
    decide
  refine ⟨s, ⟨a.addr.saddr, forwarded typeRdp 1 3 senderThree eightBytes⟩, hdirect, hrelayed, hs,
    forwardMsg_direct ha haid hsaddr (Or.inr rfl) (by decide) senderThree, ?_⟩
  have hone : relayedOne.id = 1 := rfl
  rw [arrivals_forwarded (by decide) (Or.inr rfl), arrivals_direct hone rfl (Or.inr rfl)]
  exact mt (arrivals_eq_iff 1 3 senderThree (Or.inr rfl)).mp (by decide)

/-- A datagram of 8 bytes. -/
theorem downlink_iff_datagram : ∃ (s : RegisteredClients) (d : Datagram) (hdirect : _)
    (hrelayed : _), s.forwardMsg (direct typeDgram 1 3 eightBytes) senderThree = some d ∧
    (arrivals (recvForwarded (.received d.msg [] hrelayed)) =
      arrivals (relayedOne.recvDgram (.received (direct typeDgram 1 3 eightBytes) [] hdirect)
        senderThree) ↔ typeDgram = typeDgram) ∧
    (arrivals (receiveDgram relayedOne (.received d.msg [] hrelayed) senderThree) =
      arrivals (receiveDgram relayedOne
        (.received (direct typeDgram 1 3 eightBytes) [] hdirect) senderThree) ↔
        typeDgram = typeDgram ∧ 8 ≤ eightBytes.length) := by
  obtain ⟨s, hs, hclient⟩ := registered_one
  have height : eightBytes ≠ [] ∧ eightBytes.length + sizeofForwardedHead ≤ pbufSize := by decide
  exact ⟨s, downlink_iff hs hclient rfl rfl (Or.inl rfl) height.1 height.2 3 senderThree
    senderThree [] []⟩

/-! ### Up -/

/-- The calls of `proxy::send_dgram`. -/
inductive Uplink where
  | bytes (msg : List Byte)
  | packet (pbuf : Packetbuf) (type : Byte)

namespace Uplink

def payload : Uplink → List Byte
  | .bytes msg => msg
  | .packet pbuf _ => pbuf.data

/-- The type of the message without a proxy. -/
def type : Uplink → Byte
  | .bytes _ => typeDgram
  | .packet _ _ => typeRdp

/-- The message to the proxy. -/
def send (client : Client) (peers : Peers) (reserved : BitVec 16) (dst : Id) :
    Uplink → Option Datagram
  | .bytes msg => client.sendDgram peers reserved msg dst
  | .packet pbuf type => client.sendPbuf peers reserved pbuf dst type

/-- The message has a header from the client to the destination. -/
theorem hdr_of_send {client : Client} {peers : Peers} {reserved : BitVec 16} {dst : Id}
    {up : Uplink} {d : Datagram} (h : up.send client peers reserved dst = some d)
    (tail : List Byte) :
    (MsgHdr.decode (d.msg ++ tail)).src = client.id ∧
      (MsgHdr.decode (d.msg ++ tail)).dst = dst := by
  -- In both functions `sendto` gets a header and the payload.
  have hsendto : ∀ {len type payload addr}, sendto
      ((Libcage.sendMsg reserved len type dst client.id).encode ++ payload) addr = some d →
      (MsgHdr.decode (d.msg ++ tail)).src = client.id ∧
        (MsgHdr.decode (d.msg ++ tail)).dst = dst := by
    intro len type payload addr hsend
    unfold sendto at hsend
    split at hsend
    · cases hsend
    · cases hsend
      rw [List.append_assoc, MsgHdr.decode_encode]
      exact ⟨rfl, rfl⟩
  cases up with
  | bytes msg =>
    simp only [send, Client.sendDgram] at h
    split at h
    · cases h
    · split at h
      · cases h
      · exact hsendto h
  | packet pbuf type =>
    simp only [send, Client.sendPbuf] at h
    split at h
    · cases h
    · split at h
      · cases h
      · rename_i pbuf' hpbuf
        rw [(Packetbuf.prepend_eq_some hpbuf).2] at h
        exact hsendto h

end Uplink

/-- With head room, `dgram::send_msg` sends the message that goes directly. -/
theorem sendMsg_direct {pbuf : Packetbuf} {dst src : Id} {saddr : Saddr} {type : Byte}
    (hroom : sizeofHdr ≤ pbuf.head) (hsaddr : saddr ≠ .loopback) :
    Dgram.sendMsg ⟨pbuf, src, pbuf.getLen, type⟩ ⟨dst, saddr⟩ =
      some ⟨saddr, direct type dst src pbuf.data⟩ := by
  obtain ⟨pbuf', hpbuf⟩ := @Packetbuf.prepend_isSome pbuf
    (Libcage.sendMsg 0 (pbuf.getLen + sizeofHdr) type dst src).encode hroom
  have hdata : pbuf'.data = direct type dst src pbuf.data := (Packetbuf.prepend_eq_some hpbuf).2
  -- What is sent is the window, and nothing behind it.
  have htake : pbuf'.view.take (pbuf.getLen + sizeofHdr) = direct type dst src pbuf.data := by
    rw [Packetbuf.view, hdata]
    exact List.take_left' length_direct
  unfold Dgram.sendMsg
  simp only [hpbuf, htake, sendto, if_neg hsaddr]

/-- A buffer that came from the network has no place for a header. -/
theorem sendMsg_received (msg tail : List Byte) (h : msg.length ≤ pbufSize) (src : Id) (len : Nat)
    (type : Byte) (dst : Cageaddr) :
    Dgram.sendMsg ⟨.received msg tail h, src, len, type⟩ dst = none := by
  have hprepend : ∀ hdr : MsgHdr, (Packetbuf.received msg tail h).prepend hdr.encode = none := by
    intro hdr
    have hroom : (Packetbuf.received msg tail h).head < hdr.encode.length := by
      rw [MsgHdr.length_encode]
      exact Nat.zero_lt_succ 47
    exact dif_pos hroom
  unfold Dgram.sendMsg
  simp only [hprepend]

section
variable {dgram : Dgram} {pbuf : Packetbuf} {src dst : Id} {type : Byte} {addr : Cageaddr}

/-- A message that cannot be sent changes nothing of what its queue sends. -/
theorem sendQueue_push2queue (haddr : dgram.peers.getAddr dst = some addr)
    (hlost : Dgram.sendMsg ⟨pbuf, src, pbuf.getLen, type⟩ addr = none) :
    ((dgram.push2queue dst pbuf src type).sendQueue dst).sent = (dgram.sendQueue dst).sent := by
  have hpush : (dgram.push2queue dst pbuf src type).queue.lookup dst =
      some (dgram.waiting dst ++ [⟨pbuf, src, pbuf.getLen, type⟩]) := AList.lookup_insert _
  have haddr' : (dgram.push2queue dst pbuf src type).peers.getAddr dst = some addr := haddr
  unfold Dgram.sendQueue
  simp only [haddr, haddr', hpush, List.filterMap_append, List.filterMap_cons, hlost,
    List.filterMap_nil, List.append_nil]
  cases hq : dgram.queue.lookup dst with
  | none => simp [Dgram.waiting, Dgram.push2queue, hq]
  | some q => simp [Dgram.waiting, Dgram.push2queue, hq]

/-- A queue that was sent is empty. -/
theorem sendQueue_twice :
    ((dgram.sendQueue dst).sendQueue dst).sent = (dgram.sendQueue dst).sent := by
  cases haddr : dgram.peers.getAddr dst with
  | none => simp [Dgram.sendQueue, haddr]
  | some addr =>
    cases hq : dgram.queue.lookup dst with
    | none => simp [Dgram.sendQueue, haddr, hq]
    | some q => simp [Dgram.sendQueue, haddr, hq, AList.lookup_insert]

theorem sendQueue_request (haddr : dgram.peers.getAddr dst = some addr) :
    ((dgram.request dst).sendQueue dst).sent = (dgram.sendQueue dst).sent := by
  unfold Dgram.request
  split
  · rfl
  · simp only [haddr]
    exact sendQueue_twice

end

/-- The proxy sends, over the messages that wait for the destination, the one that the client
would have sent directly. -/
def Relays (s : RegisteredClients) (dgram : Dgram) (pbuf : Packetbuf) (type : Byte) (src dst : Id)
    (addr : Cageaddr) (payload : List Byte) : Prop :=
  ((s.recvDgram dgram pbuf).sendQueue dst).sent =
    (dgram.sendQueue dst).sent ++ [⟨addr.saddr, direct type dst src payload⟩]

/-- No message that a client sends over its proxy is sent on: not when it arrives, and not when
the queue of its destination is sent later. -/
theorem recvDgram_sent {s : RegisteredClients} {dgram : Dgram} {dst : Id} {addr : Cageaddr}
    (haddr : dgram.peers.getAddr dst = some addr) (msg tail : List Byte)
    (h : msg.length ≤ pbufSize) (hdst : (MsgHdr.decode (msg ++ tail)).dst = dst) :
    ((s.recvDgram dgram (.received msg tail h)).sendQueue dst).sent =
      (dgram.sendQueue dst).sent := by
  have hdst' : (MsgHdr.decode (Packetbuf.received msg tail h).view).dst = dst := hdst
  unfold RegisteredClients.recvDgram
  simp only [hdst']
  split
  · rfl
  · have haddr' : ∀ type, (dgram.push2queue dst (.received msg tail h) dgram.id type).peers.getAddr
        dst = some addr := fun _ => haddr
    rw [Dgram.sendDgram, sendQueue_request (haddr' _)]
    exact sendQueue_push2queue haddr (sendMsg_received ..)

/-- The proxy relays no message of a client, be it registered or not. -/
theorem uplink_lost (s : RegisteredClients) {dgram : Dgram} {dst : Id} {addr : Cageaddr}
    (haddr : dgram.peers.getAddr dst = some addr) {client : Client} {peers : Peers}
    {reserved : BitVec 16} {up : Uplink} {d : Datagram}
    (hsend : up.send client peers reserved dst = some d) (tail : List Byte)
    (h : d.msg.length ≤ pbufSize) :
    ¬ Relays s dgram (.received d.msg tail h) up.type client.id dst addr up.payload := by
  have hsent := recvDgram_sent (s := s) haddr d.msg tail h (Uplink.hdr_of_send hsend tail).2
  intro hrelays
  rw [Relays, hsent] at hrelays
  -- The queue sends no more than it would without the message.
  have hlen := congrArg List.length hrelays
  rw [List.length_append] at hlen
  exact absurd hlen (by simp)

/-- The client 1 of the proxy 2 has no address of the node 3. -/
def upClient : Client := ⟨1, true, ⟨2, .inet 2 2⟩, false⟩

/-- The proxy 2 has it. -/
def proxyTwo : Dgram :=
  ⟨2, ⟨AList.singleton 3 ⟨0, 0, .inet 5 5⟩, ∅⟩, ∅, ∅, false, true, [], []⟩

/-- What the client 1 sends to the proxy for the node 3. -/
def upOne : Datagram :=
  ⟨.inet 2 2, (sendMsg 0 56 typeProxyDgram 3 1).encode ++ eightBytes⟩

theorem send_upOne : (Uplink.bytes eightBytes).send upClient .init 0 3 = some upOne := rfl

/-- A datagram of 8 bytes. Nothing is sent. -/
theorem uplink_dropped : ∃ (s : RegisteredClients) (h : upOne.msg.length ≤ pbufSize),
    run RegisteredClients.step (.init 2) [ownRegister] = .ok s ∧ s.isRegistered 1 = true ∧
    (Uplink.bytes eightBytes).send upClient .init 0 3 = some upOne ∧
    proxyTwo.peers.getAddr 3 = some ⟨3, .inet 5 5⟩ ∧
    (s.recvDgram proxyTwo (.received upOne.msg [] h)).sent = [] ∧
    ¬ Relays s proxyTwo (.received upOne.msg [] h) typeDgram 1 3 ⟨3, .inet 5 5⟩ eightBytes := by
  obtain ⟨s, hs, hclient⟩ := registered_one
  refine ⟨s, by decide, hs, hclient, send_upOne, rfl, ?_, ?_⟩
  · cases hs
    rfl
  · cases hs
    intro hrelays
    exact nomatch (show ([] : List Datagram) = [_] from hrelays)

theorem uplink_lost_datagram : ∃ (s : RegisteredClients) (h : upOne.msg.length ≤ pbufSize),
    s.isRegistered 1 = true ∧
    ¬ Relays s proxyTwo (.received upOne.msg [] h) typeDgram 1 3 ⟨3, .inet 5 5⟩ eightBytes := by
  obtain ⟨s, hs, hclient⟩ := registered_one
  have hfits : upOne.msg.length ≤ pbufSize := by decide
  exact ⟨s, hfits, hclient, uplink_lost s rfl send_upOne [] hfits⟩

end Libcage.Proofs
