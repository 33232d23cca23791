import Libcage.Dht.StoreRdp

/-!
# `Libcage.Proofs.Dht.Packets`: buffers and the packets they are sent in

The 16-bit length of a buffer is its length, so a copy of as many bytes is the buffer. The
packets of a buffer are not empty and make up the buffer.
-/

set_option autoImplicit false

namespace Libcage.Proofs.Dht

open Libcage.Lib
open Libcage.Dht

@[simp] theorem toNat_len (buf : Buf) : buf.len.toNat = buf.1.length := by
  rw [Buf.len, BitVec.toNat_ofNat]
  exact Nat.mod_eq_of_lt buf.2

@[simp] theorem copy_len (buf : Buf) (rest : List Byte) :
    Buf.copy buf.len (buf.1 ++ rest) = buf := by
  apply Subtype.ext
  show (buf.1 ++ rest).take buf.len.toNat = buf.1
  rw [toNat_len, List.take_left]

@[simp] theorem copy_len_self (buf : Buf) : Buf.copy buf.len buf.1 = buf := by
  have h := copy_len buf []
  rwa [List.append_nil] at h

theorem len_ne_zero {buf : Buf} (h : buf.1 ≠ []) : buf.len ≠ 0 := by
  intro hzero
  have hlen := toNat_len buf
  rw [hzero] at hlen
  exact h (List.length_eq_zero_iff.mp hlen.symm)

theorem mem_sendPackets {bytes : List Byte} : ∀ p ∈ sendPackets bytes, p ≠ [] :=
  ne_nil_of_mem_cut (by decide) bytes

theorem flatten_sendPackets (bytes : List Byte) : (sendPackets bytes).flatten = bytes :=
  flatten_cut (by decide) bytes

theorem sendPackets_ne_nil {bytes : List Byte} (h : bytes ≠ []) : sendPackets bytes ≠ [] :=
  cut_ne_nil (by decide) bytes h

/-- A header is one packet. -/
theorem sendPackets_short {bytes : List Byte} {n : Nat} (h : bytes.length = n)
    (hn : 0 < n ∧ n ≤ segmentData) : sendPackets bytes = [bytes] := by
  apply cut_of_short
  · intro hnil
    rw [hnil] at h
    exact absurd hn.1 (by rw [← h]; decide)
  · rw [h]
    exact hn.2

end Libcage.Proofs.Dht
