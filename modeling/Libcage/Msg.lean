import Libcage.Dht.Rttable
import Libcage.Lib.Bytes

/-!
# `Libcage.Msg`: the header of the messages

Every message starts with a `msg_hdr` in network byte order. `sendMsg` is what `send_msg`
puts into it, and `newCageaddr` reads the sender from it.

A datagram comes from an IPv4 or IPv6 address. From any other, `new_cageaddr` would leave the
domain unset.
-/

set_option autoImplicit false

namespace Libcage

open Libcage.Lib
open Libcage.Rdp (Id)
open Libcage.Dht (Saddr Cageaddr)

/-- `MAGIC_NUMBER`. -/
def magicNumber : BitVec 16 := 0xbabe

/-- `CAGE_VERSION`. -/
def cageVersion : Byte := 0

def typeDgram : Byte := 0x01
def typeAdvertise : Byte := 0x02
def typeAdvertiseReply : Byte := 0x03
def typeNatEcho : Byte := 0x11
def typeNatEchoReply : Byte := 0x12
def typeNatEchoRedirect : Byte := 0x13
def typeDtunPing : Byte := 0x21
def typeDtunPingReply : Byte := 0x22
def typeDtunFindNode : Byte := 0x23
def typeDtunFindNodeReply : Byte := 0x24
def typeDtunFindValue : Byte := 0x25
def typeDtunFindValueReply : Byte := 0x26
def typeDtunRegister : Byte := 0x27
def typeDtunRequest : Byte := 0x28
def typeDtunRequestBy : Byte := 0x29
def typeDtunRequestReply : Byte := 0x2a
def typeDhtPing : Byte := 0x41
def typeDhtPingReply : Byte := 0x42
def typeDhtFindNode : Byte := 0x43
def typeDhtFindNodeReply : Byte := 0x44
def typeDhtFindValue : Byte := 0x45
def typeDhtFindValueReply : Byte := 0x46
def typeDhtStore : Byte := 0x47
def typeProxyRegister : Byte := 0x81
def typeProxyRegisterReply : Byte := 0x82
def typeProxyStore : Byte := 0x83
def typeProxyGet : Byte := 0x84
def typeProxyGetReply : Byte := 0x85
def typeProxyDgram : Byte := 0x86
def typeProxyDgramForwarded : Byte := 0x87
def typeProxyRdp : Byte := 0x88
def typeProxyRdpForwarded : Byte := 0x89
def typeRdp : Byte := 0x90

/-- `msg_hdr`. -/
structure MsgHdr where
  magic : BitVec 16
  ver : Byte
  type : Byte
  len : BitVec 16
  reserved : BitVec 16
  src : Id
  dst : Id
deriving DecidableEq

/-- `sizeof(msg_hdr)`. -/
def sizeofHdr : Nat := 48

namespace MsgHdr

/-- The header in network byte order. -/
def encode (hdr : MsgHdr) : List Byte :=
  wr16 hdr.magic ++ (hdr.ver :: hdr.type :: (wr16 hdr.len ++ (wr16 hdr.reserved ++
    (wr160 hdr.src ++ wr160 hdr.dst))))

/-- The header a cast of the received bytes reads. -/
def decode (bs : List Byte) : MsgHdr where
  magic := rd16 bs 0
  ver := byteAt bs 2
  type := byteAt bs 3
  len := rd16 bs 4
  reserved := rd16 bs 6
  src := rd160 bs 8
  dst := rd160 bs 28

@[simp] theorem length_encode (hdr : MsgHdr) : hdr.encode.length = sizeofHdr := rfl

/-- The header that is read is the one that was written. -/
@[simp] theorem decode_encode (hdr : MsgHdr) (rest : List Byte) :
    decode (hdr.encode ++ rest) = hdr := by
  have hmagic : rd16 (hdr.encode ++ rest) 0 = hdr.magic := bytes16 _
  have hlen : rd16 (hdr.encode ++ rest) 4 = hdr.len := bytes16 _
  have hreserved : rd16 (hdr.encode ++ rest) 6 = hdr.reserved := bytes16 _
  have hsrc : rd160 (hdr.encode ++ rest) 8 = hdr.src :=
    rd160_wr160 (hdr.encode.take 8) (wr160 hdr.dst ++ rest) hdr.src
  have hdst : rd160 (hdr.encode ++ rest) 28 = hdr.dst :=
    rd160_wr160 (hdr.encode.take 28) rest hdr.dst
  simp only [decode, hmagic, hlen, hreserved, hsrc, hdst]
  rfl

end MsgHdr

/-- The header `send_msg` makes. The reserved bytes are those of the buffer. -/
def sendMsg (reserved : BitVec 16) (len : Nat) (type : Byte) (dst src : Id) : MsgHdr where
  magic := magicNumber
  ver := cageVersion
  type := type
  len := .ofNat 16 len
  reserved := reserved
  src := src
  dst := dst

section
variable (reserved : BitVec 16) (len : Nat) (type : Byte) (dst src : Id)

@[simp] theorem sendMsg_type : (sendMsg reserved len type dst src).type = type := rfl

@[simp] theorem sendMsg_dst : (sendMsg reserved len type dst src).dst = dst := rfl

@[simp] theorem sendMsg_src : (sendMsg reserved len type dst src).src = src := rfl

end

/-- The address a datagram comes from. -/
abbrev Sockaddr := { saddr : Saddr // saddr ≠ .loopback }

/-- `new_cageaddr`. -/
def newCageaddr (src : Id) (from_ : Sockaddr) : Cageaddr := ⟨src, from_.1⟩

end Libcage
