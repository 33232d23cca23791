import Libcage.Msg

/-!
# `Libcage.Cage`: the dispatcher

`udpReceiver` is `cage::udp_receiver::operator()`: it says which function of the node gets a
datagram. A datagram is dropped where it is too short for a header, is no message of this
version, has a type that is not in the `switch`, or has a length that its type cannot have.
-/

set_option autoImplicit false

namespace Libcage

open Libcage.Lib

/-- The functions that messages are handed to. -/
inductive Handler where
  | natRecvEcho
  | natRecvEchoReply
  | natRecvEchoRedirect
  | dtunRecvPing
  | dtunRecvPingReply
  | dtunRecvFindNode
  | dtunRecvFindNodeReply
  | dtunRecvRegister
  | dtunRecvFindValue
  | dtunRecvFindValueReply
  | dtunRecvRequest
  | dtunRecvRequestBy
  | dtunRecvRequestReply
  | dhtRecvFindNode
  | dhtRecvFindNodeReply
  | dhtRecvStore
  | dhtRecvFindValue
  | dhtRecvFindValueReply
  | dgramRecvDgram
  | proxyRecvRegister
  | proxyRecvRegisterReply
  | proxyRecvStore
  | proxyRecvGet
  | proxyRecvGetReply
  | proxyRecvDgram
  | proxyRecvForwarded
  | advertiseRecvAdvertise
  | advertiseRecvAdvertiseReply
deriving DecidableEq

/-- The lengths that a message may have. -/
inductive Extent where
  | exactly (len : Nat)
  | atLeast (len : Nat)
deriving DecidableEq

/-- A length is one of these. -/
def Extent.Has (len : Nat) : Extent → Prop
  | .exactly n => len = n
  | .atLeast n => n ≤ len

instance (len : Nat) : (extent : Extent) → Decidable (extent.Has len)
  | .exactly n => inferInstanceAs (Decidable (len = n))
  | .atLeast n => inferInstanceAs (Decidable (n ≤ len))

/-- The cases of the `switch` over the types. -/
def routes : List (Byte × Extent × Handler) :=
  [(typeNatEcho, .exactly 52, .natRecvEcho),
    (typeNatEchoReply, .exactly 72, .natRecvEchoReply),
    (typeNatEchoRedirect, .exactly 56, .natRecvEchoRedirect),
    (typeDtunPing, .exactly 52, .dtunRecvPing),
    (typeDtunPingReply, .exactly 52, .dtunRecvPingReply),
    (typeDtunFindNode, .exactly 76, .dtunRecvFindNode),
    (typeDtunFindNodeReply, .atLeast 76, .dtunRecvFindNodeReply),
    (typeDtunRegister, .exactly 52, .dtunRecvRegister),
    (typeDtunFindValue, .exactly 76, .dtunRecvFindValue),
    (typeDtunFindValueReply, .atLeast 76, .dtunRecvFindValueReply),
    (typeDtunRequest, .exactly 72, .dtunRecvRequest),
    -- The length is the one of a `msg_dtun_request`.
    (typeDtunRequestBy, .atLeast 68, .dtunRecvRequestBy),
    (typeDtunRequestReply, .exactly 52, .dtunRecvRequestReply),
    (typeDhtFindNode, .exactly 76, .dhtRecvFindNode),
    (typeDhtFindNodeReply, .atLeast 76, .dhtRecvFindNodeReply),
    (typeDhtStore, .atLeast 96, .dhtRecvStore),
    (typeDhtFindValue, .atLeast 80, .dhtRecvFindValue),
    (typeDhtFindValueReply, .atLeast 80, .dhtRecvFindValueReply),
    (typeRdp, .atLeast 48, .dgramRecvDgram),
    (typeDgram, .atLeast 48, .dgramRecvDgram),
    (typeProxyRegister, .exactly 56, .proxyRecvRegister),
    (typeProxyRegisterReply, .exactly 52, .proxyRecvRegisterReply),
    (typeProxyStore, .atLeast 76, .proxyRecvStore),
    (typeProxyGet, .atLeast 76, .proxyRecvGet),
    (typeProxyGetReply, .atLeast 76, .proxyRecvGetReply),
    (typeProxyRdp, .atLeast 48, .proxyRecvDgram),
    (typeProxyDgram, .atLeast 48, .proxyRecvDgram),
    -- The length is the one of a `msg_proxy_get`.
    (typeProxyRdpForwarded, .atLeast 76, .proxyRecvForwarded),
    (typeProxyDgramForwarded, .atLeast 76, .proxyRecvForwarded),
    (typeAdvertise, .exactly 56, .advertiseRecvAdvertise),
    (typeAdvertiseReply, .exactly 56, .advertiseRecvAdvertiseReply)]

/-- The case of a type. -/
def route (type : Byte) : Option (Extent × Handler) :=
  (routes.find? fun r => r.1 = type).map Prod.snd

/-- `cage::udp_receiver::operator()`. -/
def udpReceiver (msg : List Byte) : Option Handler :=
  if msg.length < sizeofHdr then
    none
  else
    let hdr := MsgHdr.decode msg
    if hdr.magic ≠ magicNumber ∨ hdr.ver ≠ cageVersion then
      none
    else
      match route hdr.type with
      | none => none
      | some (extent, handler) => if extent.Has msg.length then some handler else none

/-- Where a message of this version goes. -/
theorem udpReceiver_encode {hdr : MsgHdr} {body : List Byte} (hmagic : hdr.magic = magicNumber)
    (hver : hdr.ver = cageVersion) :
    udpReceiver (hdr.encode ++ body) =
      (route hdr.type).bind fun r =>
        if r.1.Has (sizeofHdr + body.length) then some r.2 else none := by
  unfold udpReceiver
  rw [if_neg (by simp), MsgHdr.decode_encode, if_neg (by simp [hmagic, hver])]
  cases route hdr.type with
  | none => rfl
  | some r => simp

/-- A message that is handed on has a case of the `switch`, and a length that its type can
have. -/
theorem udpReceiver_eq_some {msg : List Byte} {handler : Handler}
    (h : udpReceiver msg = some handler) :
    ∃ extent, ((MsgHdr.decode msg).type, extent, handler) ∈ routes ∧ extent.Has msg.length := by
  unfold udpReceiver at h
  by_cases hshort : msg.length < sizeofHdr
  · simp [hshort] at h
  · simp only [if_neg hshort] at h
    split at h
    · cases h
    · cases hroute : route (MsgHdr.decode msg).type with
      | none => simp [hroute] at h
      | some r =>
        obtain ⟨extent, handler'⟩ := r
        simp only [hroute] at h
        split at h
        · rename_i hhas
          obtain rfl : handler' = handler := Option.some.inj h
          obtain ⟨⟨type, r⟩, hfind, hr⟩ := Option.map_eq_some_iff.mp hroute
          obtain rfl : r = (extent, handler') := hr
          have htype : type = (MsgHdr.decode msg).type := by simpa using List.find?_some hfind
          exact ⟨extent, htype ▸ List.mem_of_find?_eq_some hfind, hhas⟩
        · cases h

end Libcage
