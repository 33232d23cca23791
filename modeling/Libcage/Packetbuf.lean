import Libcage.Lib.Bytes

/-!
# `Libcage.Packetbuf`: packet buffers

`packetbuf` is a buffer of `PBUF_SIZE` bytes with a window onto the data: `head`
is `m_head - m_buf` and `data` the `m_len` bytes from there. `tail` is what the
buffer holds behind the data. Only a reader that runs past the data sees it.

The window never leaves the buffer (`fits`): `append` and `prepend` return NULL
(`none`) where the room ends. The caller of `append` and `prepend` fills the
bytes it got at once, so both take the bytes here.
-/

set_option autoImplicit false

namespace Libcage

open Libcage.Lib

/-- `PBUF_SIZE`. -/
def pbufSize : Nat := 1024

/-- `PBUF_DEFAULT_OFFSET`, the head room of a constructed buffer. -/
def pbufDefaultOffset : Nat := 128

/-- `packetbuf`. -/
structure Packetbuf where
  head : Nat
  data : List Byte
  tail : List Byte
  fits : head + data.length ≤ pbufSize
deriving DecidableEq

namespace Packetbuf

/-- `packetbuf::construct`: an empty window behind the default head room. -/
def construct : Packetbuf := ⟨pbufDefaultOffset, [], [], by decide⟩

/-- `packetbuf::use_whole`, and `set_len` to the bytes of a datagram that was received there.
There is no head room. -/
def received (msg tail : List Byte) (h : msg.length ≤ pbufSize) : Packetbuf :=
  ⟨0, msg, tail, by omega⟩

/-- `packetbuf::get_len`. -/
def getLen (pbuf : Packetbuf) : Nat := pbuf.data.length

/-- `packetbuf::append`, with the bytes then written there. -/
def append (pbuf : Packetbuf) (bs : List Byte) : Option Packetbuf :=
  if h : pbuf.head + pbuf.data.length + bs.length > pbufSize then
    none
  else
    some { pbuf with
      data := pbuf.data ++ bs
      tail := pbuf.tail.drop bs.length
      fits := by rw [List.length_append]; omega }

/-- `packetbuf::prepend`, with the bytes then written there. -/
def prepend (pbuf : Packetbuf) (bs : List Byte) : Option Packetbuf :=
  if h : pbuf.head < bs.length then
    none
  else
    some { pbuf with
      head := pbuf.head - bs.length
      data := bs ++ pbuf.data
      fits := by
        have := pbuf.fits
        rw [List.length_append]
        omega }

/-- `packetbuf::rm_head`. -/
def rmHead (pbuf : Packetbuf) (len : Nat) : Packetbuf :=
  if h : len > pbuf.data.length then
    pbuf
  else
    { pbuf with
      head := pbuf.head + len
      data := pbuf.data.drop len
      fits := by
        have := pbuf.fits
        rw [List.length_drop]
        omega }

/-- Overwrite the 32-bit word at an offset of the data, as an assignment through
a header pointer does. -/
def set32 (pbuf : Packetbuf) (off : Nat) (x : BitVec 32) : Packetbuf :=
  if h : off + 4 ≤ pbuf.data.length then
    { pbuf with
      data := pbuf.data.take off ++ (wr32 x ++ pbuf.data.drop (off + 4))
      fits := by
        have := pbuf.fits
        simp only [List.length_append, List.length_take, List.length_drop, length_wr32]
        omega }
  else
    pbuf

/-- What a reader sees from `get_data` on: the data and what lies behind it. -/
def view (pbuf : Packetbuf) : List Byte := pbuf.data ++ pbuf.tail

@[simp] theorem construct_data : construct.data = [] := rfl

@[simp] theorem construct_head : construct.head = pbufDefaultOffset := rfl

/-- A successful `append` puts the bytes behind the data and moves nothing. -/
theorem append_eq_some {pbuf pbuf' : Packetbuf} {bs : List Byte}
    (h : pbuf.append bs = some pbuf') :
    pbuf'.head = pbuf.head ∧ pbuf'.data = pbuf.data ++ bs := by
  unfold append at h
  split at h
  · cases h
  · cases h
    exact ⟨rfl, rfl⟩

/-- A successful `prepend` puts the bytes in front of the data. -/
theorem prepend_eq_some {pbuf pbuf' : Packetbuf} {bs : List Byte}
    (h : pbuf.prepend bs = some pbuf') :
    pbuf'.head = pbuf.head - bs.length ∧ pbuf'.data = bs ++ pbuf.data := by
  unfold prepend at h
  split at h
  · cases h
  · cases h
    exact ⟨rfl, rfl⟩

/-- `prepend` succeeds where the head room is large enough. -/
theorem prepend_isSome {pbuf : Packetbuf} {bs : List Byte} (h : bs.length ≤ pbuf.head) :
    ∃ pbuf', pbuf.prepend bs = some pbuf' := by
  unfold prepend
  rw [dif_neg (by omega)]
  exact ⟨_, rfl⟩

/-- `append` succeeds on a constructed buffer up to `PBUF_SIZE -
PBUF_DEFAULT_OFFSET` bytes. -/
theorem construct_append {bs : List Byte} (h : bs.length ≤ 896) :
    ∃ pbuf, construct.append bs = some pbuf := by
  unfold append
  rw [dif_neg (by simp [pbufDefaultOffset, pbufSize]; omega)]
  exact ⟨_, rfl⟩

/-- Removing a head that is there drops it from the data. -/
theorem rmHead_data {pbuf : Packetbuf} {len : Nat} (h : len ≤ pbuf.data.length) :
    (pbuf.rmHead len).data = pbuf.data.drop len := by
  unfold rmHead
  rw [dif_neg (by omega)]

/-- Overwriting a word between a prefix and a rest changes that word only. -/
theorem set32_data {pbuf : Packetbuf} {pre rest : List Byte} {x y : BitVec 32}
    (h : pbuf.data = pre ++ (wr32 x ++ rest)) :
    (pbuf.set32 pre.length y).data = pre ++ (wr32 y ++ rest) := by
  have hlen : pre.length + 4 ≤ pbuf.data.length := by simp [h]
  have hdrop : (pre ++ (wr32 x ++ rest)).drop (pre.length + 4) = rest := by
    rw [← List.append_assoc]
    exact List.drop_left' (by simp)
  unfold set32
  rw [dif_pos hlen]
  simp only [h, List.take_left', hdrop]

end Packetbuf

end Libcage
