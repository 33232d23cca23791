import Mathlib.Algebra.Group.Nat.Defs
import Mathlib.Data.List.Basic
import Mathlib.Tactic.Common

/-!
# `Libcage.Lib.Bytes`: network byte order

Words are written to and read from byte lists in network byte order, most
significant byte first. `rd16` and `rd32` read at an offset, the way a C cast of
a packet pointer does. The two facts every codec proof needs are the round
trips `rd16_wr16` and `rd32_wr32`: a word written between a prefix and a rest is
read back at the length of the prefix.

A read past the end of the list returns zero bytes. Where the code runs past the
end of the data, the caller puts the bytes found there behind the data.
-/

set_option autoImplicit false

namespace Libcage.Lib

/-- One octet. -/
abbrev Byte := BitVec 8

/-- The byte at an offset. -/
def byteAt (bs : List Byte) (off : Nat) : Byte := bs.getD off 0

/-- A 16-bit word in network byte order. -/
def wr16 (x : BitVec 16) : List Byte := [x.extractLsb' 8 8, x.extractLsb' 0 8]

/-- A 32-bit word in network byte order. -/
def wr32 (x : BitVec 32) : List Byte :=
  [x.extractLsb' 24 8, x.extractLsb' 16 8, x.extractLsb' 8 8, x.extractLsb' 0 8]

/-- The 16-bit word at an offset. -/
def rd16 (bs : List Byte) (off : Nat) : BitVec 16 := byteAt bs off ++ byteAt bs (off + 1)

/-- The 32-bit word at an offset. -/
def rd32 (bs : List Byte) (off : Nat) : BitVec 32 :=
  byteAt bs off ++ byteAt bs (off + 1) ++ (byteAt bs (off + 2) ++ byteAt bs (off + 3))

/-- A 160-bit word in network byte order. -/
def wr160 (x : BitVec 160) : List Byte :=
  wr32 (x.extractLsb' 128 32) ++ (wr32 (x.extractLsb' 96 32) ++ (wr32 (x.extractLsb' 64 32) ++
    (wr32 (x.extractLsb' 32 32) ++ wr32 (x.extractLsb' 0 32))))

/-- The 160-bit word at an offset. -/
def rd160 (bs : List Byte) (off : Nat) : BitVec 160 :=
  rd32 bs off ++ (rd32 bs (off + 4) ++ (rd32 bs (off + 8) ++ (rd32 bs (off + 12) ++
    rd32 bs (off + 16))))

@[simp] theorem length_wr16 (x : BitVec 16) : (wr16 x).length = 2 := rfl

@[simp] theorem length_wr32 (x : BitVec 32) : (wr32 x).length = 4 := rfl

/-- The byte at an offset behind a prefix is the byte of what follows. -/
theorem byteAt_append (pre rest : List Byte) (off : Nat) :
    byteAt (pre ++ rest) (pre.length + off) = byteAt rest off := by
  rw [byteAt, byteAt, List.getD_eq_getElem?_getD, List.getD_eq_getElem?_getD,
    List.getElem?_append_right (Nat.le_add_right _ _), Nat.add_sub_cancel_left]

/-- A byte inside the first of two lists. -/
theorem byteAt_append_left (bs rest : List Byte) (off : Nat) (h : off < bs.length) :
    byteAt (bs ++ rest) off = byteAt bs off := by
  simp [byteAt, List.getD_eq_getElem?_getD, List.getElem?_append_left h]

/-- The two bytes of a word put together give the word. -/
theorem bytes16 (x : BitVec 16) : x.extractLsb' 8 8 ++ x.extractLsb' 0 8 = x := by
  ext i hi
  simp only [BitVec.getElem_append, BitVec.getElem_extractLsb']
  split
  · simp [BitVec.getLsbD_eq_getElem hi]
  · rename_i h
    rw [show 8 + (i - 8) = i by omega, BitVec.getLsbD_eq_getElem hi]

/-- The four bytes of a word put together give the word. -/
theorem bytes32 (x : BitVec 32) :
    x.extractLsb' 24 8 ++ x.extractLsb' 16 8 ++ (x.extractLsb' 8 8 ++ x.extractLsb' 0 8)
      = x := by
  ext i hi
  simp only [BitVec.getElem_append, BitVec.getElem_extractLsb']
  split
  · split
    · simp [BitVec.getLsbD_eq_getElem hi]
    · rename_i h
      rw [show 8 + (i - 8) = i by omega, BitVec.getLsbD_eq_getElem hi]
  · split
    · rename_i h h'
      rw [show 16 + (i - 16) = i by omega, BitVec.getLsbD_eq_getElem hi]
    · rename_i h h'
      rw [show 24 + (i - 16 - 8) = i by omega, BitVec.getLsbD_eq_getElem hi]

/-- The five parts of a word put together give the word. -/
theorem words160 (x : BitVec 160) :
    x.extractLsb' 128 32 ++ (x.extractLsb' 96 32 ++ (x.extractLsb' 64 32 ++
      (x.extractLsb' 32 32 ++ x.extractLsb' 0 32))) = x := by
  ext i hi
  simp only [BitVec.getElem_append, BitVec.getElem_extractLsb']
  split
  · split
    · split
      · split
        · simp [BitVec.getLsbD_eq_getElem hi]
        · rw [show 32 + (i - 32) = i by omega, BitVec.getLsbD_eq_getElem hi]
      · rw [show 64 + (i - (32 + 32)) = i by omega, BitVec.getLsbD_eq_getElem hi]
    · rw [show 96 + (i - (32 + (32 + 32))) = i by omega, BitVec.getLsbD_eq_getElem hi]
  · rw [show 128 + (i - (32 + (32 + (32 + 32)))) = i by omega, BitVec.getLsbD_eq_getElem hi]

/-- The four parts of an address put together give the address. -/
theorem words128 (x : BitVec 128) :
    x.extractLsb' 96 32 ++ (x.extractLsb' 64 32 ++ (x.extractLsb' 32 32 ++ x.extractLsb' 0 32))
      = x := by
  ext i hi
  simp only [BitVec.getElem_append, BitVec.getElem_extractLsb']
  split
  · split
    · split
      · simp [BitVec.getLsbD_eq_getElem hi]
      · rw [show 32 + (i - 32) = i by omega, BitVec.getLsbD_eq_getElem hi]
    · rw [show 64 + (i - (32 + 32)) = i by omega, BitVec.getLsbD_eq_getElem hi]
  · rw [show 96 + (i - (32 + (32 + 32))) = i by omega, BitVec.getLsbD_eq_getElem hi]

/-- A word behind a prefix is the word of what follows. -/
theorem rd32_append (pre rest : List Byte) (off : Nat) :
    rd32 (pre ++ rest) (pre.length + off) = rd32 rest off := by
  simp only [rd32, Nat.add_assoc, byteAt_append]

/-- A word inside the first of two lists. -/
theorem rd16_append_left (bs rest : List Byte) (off : Nat) (h : off + 2 ≤ bs.length) :
    rd16 (bs ++ rest) off = rd16 bs off := by
  rw [rd16, rd16, byteAt_append_left bs rest off (by omega),
    byteAt_append_left bs rest (off + 1) (by omega)]

theorem rd32_append_left (bs rest : List Byte) (off : Nat) (h : off + 4 ≤ bs.length) :
    rd32 (bs ++ rest) off = rd32 bs off := by
  rw [rd32, rd32, byteAt_append_left bs rest off (by omega),
    byteAt_append_left bs rest (off + 1) (by omega),
    byteAt_append_left bs rest (off + 2) (by omega),
    byteAt_append_left bs rest (off + 3) (by omega)]

theorem rd160_append_left (bs rest : List Byte) (off : Nat) (h : off + 20 ≤ bs.length) :
    rd160 (bs ++ rest) off = rd160 bs off := by
  rw [rd160, rd160, rd32_append_left bs rest off (by omega),
    rd32_append_left bs rest (off + 4) (by omega), rd32_append_left bs rest (off + 8) (by omega),
    rd32_append_left bs rest (off + 12) (by omega),
    rd32_append_left bs rest (off + 16) (by omega)]

/-- A 160-bit word is read back where it was written. -/
theorem rd160_wr160 (pre rest : List Byte) (x : BitVec 160) :
    rd160 (pre ++ (wr160 x ++ rest)) pre.length = x := by
  have h₀ : rd32 (wr160 x ++ rest) 0 = x.extractLsb' 128 32 := bytes32 _
  have h₁ : rd32 (wr160 x ++ rest) 4 = x.extractLsb' 96 32 := bytes32 _
  have h₂ : rd32 (wr160 x ++ rest) 8 = x.extractLsb' 64 32 := bytes32 _
  have h₃ : rd32 (wr160 x ++ rest) 12 = x.extractLsb' 32 32 := bytes32 _
  have h₄ : rd32 (wr160 x ++ rest) 16 = x.extractLsb' 0 32 := bytes32 _
  have hpre := rd32_append pre (wr160 x ++ rest) 0
  rw [Nat.add_zero] at hpre
  rw [rd160, hpre, rd32_append, rd32_append, rd32_append, rd32_append, h₀, h₁, h₂, h₃, h₄]
  exact words160 x

/-- A 160-bit word at the front. -/
theorem rd160_wr160_zero (rest : List Byte) (x : BitVec 160) : rd160 (wr160 x ++ rest) 0 = x := by
  have h := rd160_wr160 [] rest x
  rwa [List.nil_append, List.length_nil] at h

/-- A 16-bit word is read back where it was written. -/
theorem rd16_wr16 (pre rest : List Byte) (x : BitVec 16) :
    rd16 (pre ++ (wr16 x ++ rest)) pre.length = x := by
  have h0 := byteAt_append pre (wr16 x ++ rest) 0
  have h1 := byteAt_append pre (wr16 x ++ rest) 1
  rw [Nat.add_zero] at h0
  rw [rd16, h0, h1]
  exact bytes16 x

/-- A 32-bit word is read back where it was written. -/
theorem rd32_wr32 (pre rest : List Byte) (x : BitVec 32) :
    rd32 (pre ++ (wr32 x ++ rest)) pre.length = x := by
  have h0 := byteAt_append pre (wr32 x ++ rest) 0
  have h1 := byteAt_append pre (wr32 x ++ rest) 1
  have h2 := byteAt_append pre (wr32 x ++ rest) 2
  have h3 := byteAt_append pre (wr32 x ++ rest) 3
  rw [Nat.add_zero] at h0
  rw [rd32, h0, h1, h2, h3]
  exact bytes32 x

/-- The words of a list, one behind the other, as `memcpy` of an array of words
in network byte order lays them out. -/
def wr32s (xs : List (BitVec 32)) : List Byte := xs.flatMap wr32

/-- The word number `i` of an array of words behind a prefix is the `i`-th
element of the array. -/
theorem rd32_wr32s (pre rest : List Byte) (xs : List (BitVec 32)) (i : Nat)
    (hi : i < xs.length) :
    rd32 (pre ++ (wr32s xs ++ rest)) (pre.length + 4 * i) = xs[i] := by
  induction xs generalizing pre i with
  | nil => simp at hi
  | cons x xs ih =>
      have hcons : wr32s (x :: xs) ++ rest = wr32 x ++ (wr32s xs ++ rest) := by
        simp [wr32s]
      cases i with
      | zero =>
          rw [hcons]
          exact rd32_wr32 pre _ x
      | succ i =>
          have hi' : i < xs.length := by simpa using hi
          have h := ih (pre ++ wr32 x) i hi'
          rw [List.append_assoc, List.length_append, length_wr32] at h
          rw [hcons, show pre.length + 4 * (i + 1) = pre.length + 4 + 4 * i by omega, h]
          rfl

end Libcage.Lib
