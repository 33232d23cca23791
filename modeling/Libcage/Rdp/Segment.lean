import Libcage.Packetbuf

/-!
# `Libcage.Rdp.Segment`: segment headers

`RdpHead` is `rdp_head`, the 20-byte header of every segment, and `RdpSyn` is
`rdp_syn`, the header with the two window fields a SYN carries behind it.
`encode` lays a header out in network byte order. `decode` reads the fields at
the offsets a cast of `get_data` reads them at, so it takes any byte list.
`decode_encode` is the round trip.
-/

set_option autoImplicit false

namespace Libcage.Rdp

open Libcage.Lib

/-- `rdp::flag_syn`. -/
def flagSyn : Byte := 0x80
/-- `rdp::flag_ack`. -/
def flagAck : Byte := 0x40
/-- `rdp::flag_eak`. -/
def flagEak : Byte := 0x20
/-- `rdp::flag_rst`. -/
def flagRst : Byte := 0x10
/-- `rdp::flag_nul`. -/
def flagNul : Byte := 0x08
/-- `rdp::flag_fin`. -/
def flagFin : Byte := 0x04
/-- `rdp::flag_ver`. -/
def flagVer : Byte := 0

/-- `rdp_head`, its fields in host byte order. -/
structure RdpHead where
  flags : Byte := 0
  hlen : Byte := 0
  sport : BitVec 16 := 0
  dport : BitVec 16 := 0
  dlen : BitVec 16 := 0
  seqnum : BitVec 32 := 0
  acknum : BitVec 32 := 0
  reserved : BitVec 32 := 0
deriving DecidableEq

/-- `rdp_syn`. -/
structure RdpSyn where
  head : RdpHead
  outSegsMax : BitVec 16
  segSizeMax : BitVec 16
deriving DecidableEq

/-- `sizeof(rdp_head)`. -/
def sizeofHead : Nat := 20

/-- `sizeof(rdp_syn)`. -/
def sizeofSyn : Nat := 24

namespace RdpHead

/-- A flag test, `head->flags & flag`. -/
def has (head : RdpHead) (flag : Byte) : Bool := head.flags &&& flag != 0

theorem has_of_flags {head : RdpHead} {flags flag : Byte} {b : Bool} (h : head.flags = flags)
    (hb : (flags &&& flag != 0) = b) : head.has flag = b := by
  rw [has, h, hb]

/-- The header in network byte order. -/
def encode (head : RdpHead) : List Byte :=
  head.flags :: head.hlen ::
    (wr16 head.sport ++ (wr16 head.dport ++ (wr16 head.dlen ++
      (wr32 head.seqnum ++ (wr32 head.acknum ++ wr32 head.reserved)))))

/-- The header a cast of the packet's data reads. -/
def decode (bs : List Byte) : RdpHead where
  flags := byteAt bs 0
  hlen := byteAt bs 1
  sport := rd16 bs 2
  dport := rd16 bs 4
  dlen := rd16 bs 6
  seqnum := rd32 bs 8
  acknum := rd32 bs 12
  reserved := rd32 bs 16

@[simp] theorem length_encode (head : RdpHead) : head.encode.length = sizeofHead := rfl

/-- The header read from a segment is the one written at its front. -/
@[simp] theorem decode_encode (head : RdpHead) (rest : List Byte) :
    decode (head.encode ++ rest) = head := by
  have hsport : rd16 (head.encode ++ rest) 2 = head.sport := bytes16 _
  have hdport : rd16 (head.encode ++ rest) 4 = head.dport := bytes16 _
  have hdlen : rd16 (head.encode ++ rest) 6 = head.dlen := bytes16 _
  have hseqnum : rd32 (head.encode ++ rest) 8 = head.seqnum := bytes32 _
  have hacknum : rd32 (head.encode ++ rest) 12 = head.acknum := bytes32 _
  have hreserved : rd32 (head.encode ++ rest) 16 = head.reserved := bytes32 _
  simp only [decode, hsport, hdport, hdlen, hseqnum, hacknum, hreserved]
  rfl

/-- The header of a segment without a body. -/
@[simp] theorem decode_encode_nil (head : RdpHead) : decode head.encode = head := by
  have h := decode_encode head []
  rwa [List.append_nil] at h

/-- A header read from the data does not change when more bytes lie behind at
least `sizeof(rdp_head)` bytes of it. -/
theorem decode_append {bs : List Byte} (rest : List Byte) (h : sizeofHead ≤ bs.length) :
    decode (bs ++ rest) = decode bs := by
  have hb : ∀ off, off < 20 → byteAt (bs ++ rest) off = byteAt bs off := fun off hoff =>
    byteAt_append_left bs rest off (Nat.lt_of_lt_of_le hoff h)
  simp [decode, rd16, rd32, hb]

/-- The bytes of a header around its acknowledgement number. -/
theorem encode_split (head : RdpHead) (rest : List Byte) :
    ∃ pre : List Byte, pre.length = 12 ∧
      ∀ ack : BitVec 32, ({ head with acknum := ack } : RdpHead).encode ++ rest
        = pre ++ (wr32 ack ++ (wr32 head.reserved ++ rest)) :=
  ⟨head.flags :: head.hlen ::
    (wr16 head.sport ++ (wr16 head.dport ++ (wr16 head.dlen ++ wr32 head.seqnum))),
    rfl, fun _ => rfl⟩

end RdpHead

namespace RdpSyn

/-- The SYN header in network byte order. -/
def encode (syn : RdpSyn) : List Byte :=
  syn.head.encode ++ (wr16 syn.outSegsMax ++ wr16 syn.segSizeMax)

/-- The SYN header a cast of the packet's data reads. -/
def decode (bs : List Byte) : RdpSyn where
  head := RdpHead.decode bs
  outSegsMax := rd16 bs 20
  segSizeMax := rd16 bs 22

@[simp] theorem length_encode (syn : RdpSyn) : syn.encode.length = sizeofSyn := rfl

/-- The SYN header read from a SYN segment is the one written there. -/
@[simp] theorem decode_encode (syn : RdpSyn) : decode syn.encode = syn := by
  have hout : rd16 syn.encode 20 = syn.outSegsMax := bytes16 _
  have hseg : rd16 syn.encode 22 = syn.segSizeMax := bytes16 _
  have hhead : RdpHead.decode syn.encode = syn.head := RdpHead.decode_encode _ _
  simp only [decode, hout, hseg, hhead]

/-- The plain header read from a SYN segment. -/
@[simp] theorem headDecode_encode (syn : RdpSyn) : RdpHead.decode syn.encode = syn.head :=
  RdpHead.decode_encode _ _

end RdpSyn

/-- Overwriting the word at the offset of `acknum` in a segment rewrites the
acknowledgement number of its header and nothing else. -/
theorem set32_acknum {pbuf : Packetbuf} {head : RdpHead} {rest : List Byte}
    (h : pbuf.data = head.encode ++ rest) (ack : BitVec 32) :
    (pbuf.set32 12 ack).data = ({ head with acknum := ack } : RdpHead).encode ++ rest := by
  obtain ⟨pre, hlen, hsplit⟩ := head.encode_split rest
  rw [hsplit ack, ← hlen]
  exact Packetbuf.set32_data (h.trans (hsplit head.acknum))

end Libcage.Rdp
