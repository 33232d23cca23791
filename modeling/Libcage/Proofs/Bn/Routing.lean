import Libcage.Proofs.Bn.Shift

/-!
# `Libcage.Proofs.Bn.Routing`: the operators that routing rests on

Comparisons of two `bn` compare the naturals they denote, the bitwise operators
act on the bits of these naturals, and `to_binary` writes them in network byte
order, which `from_binary` reads back (`id_arithmetic`). For ids of five limbs
the bytes are those of a 160-bit word (`toBinary_uint160`).
-/

set_option autoImplicit false

namespace Libcage.Bn

open Lib

variable {N : Nat}

/-! ## Comparisons -/

/-- The loop of `<` compares the numbers of the limbs it still has to see. -/
theorem ltLoop_iff (a b : Limbs N) {k : Nat} (h : k ≤ N) :
    ltLoop a b k h = true ↔ lastLimbs 32 (digit a) N k < lastLimbs 32 (digit b) N k := by
  induction k with
  | zero => simp [ltLoop]
  | succ k ih =>
    rw [lastLimbs_succ_lt_iff h (fun i _ => digit_lt a i) (fun i _ => digit_lt b i),
      digit_eq _ (by omega), digit_eq _ (by omega), ltLoop, ← ih (by omega)]
    simp only [BitVec.lt_def]
    split
    next hlt => simp [hlt]
    next hge =>
      split
      next hgt => simp [hge, Nat.ne_of_gt hgt]
      next hle => simp [Nat.le_antisymm (Nat.not_lt.mp hle) (Nat.not_lt.mp hge)]

theorem eqLoop_iff (a b : Limbs N) {k : Nat} (h : k ≤ N) :
    eqLoop a b k h = true ↔ lastLimbs 32 (digit a) N k = lastLimbs 32 (digit b) N k := by
  induction k with
  | zero => simp [eqLoop]
  | succ k ih =>
    rw [lastLimbs_succ_eq_iff h (fun i _ => digit_lt a i) (fun i _ => digit_lt b i),
      digit_eq _ (by omega), digit_eq _ (by omega), eqLoop, ← ih (by omega), BitVec.toNat_inj]
    split
    next hne => simp [hne]
    next heq => simp [not_not.mp heq]

theorem zeroLoop_iff (a : Limbs N) {k : Nat} (h : k ≤ N) :
    zeroLoop a k h = true ↔ lastLimbs 32 (digit a) N k = 0 := by
  induction k with
  | zero => simp [zeroLoop]
  | succ k ih =>
    have hzero : a[N - (k + 1)] = 0 ↔ a[N - (k + 1)].toNat = 0 := by
      rw [← BitVec.toNat_inj]
      rfl
    rw [lastLimbs_succ h, digit_eq _ (by omega), zeroLoop, Nat.add_eq_zero_iff, ← ih (by omega)]
    split
    next hne => simp [mt hzero.mpr hne]
    next heq => simp [hzero.mp (not_not.mp heq)]

theorem lt_iff (a b : Bn N) : a.lt b = true ↔ a.value < b.value := by
  rw [lt, ltLoop_iff, lastLimbs_self, lastLimbs_self]
  rfl

theorem gt_iff (a b : Bn N) : a.gt b = true ↔ b.value < a.value := lt_iff b a

theorem le_iff (a b : Bn N) : a.le b = true ↔ a.value ≤ b.value := by
  rw [le, Bool.not_eq_true', ← Bool.not_eq_true, gt_iff, Nat.not_lt]

theorem ge_iff (a b : Bn N) : a.ge b = true ↔ b.value ≤ a.value := by
  rw [ge, Bool.not_eq_true', ← Bool.not_eq_true, lt_iff, Nat.not_lt]

theorem eq_iff (a b : Bn N) : a.eq b = true ↔ a.value = b.value := by
  rw [eq, eqLoop_iff, lastLimbs_self, lastLimbs_self]
  rfl

theorem isZero_iff (a : Bn N) : a.isZero = true ↔ a.value = 0 := by
  rw [isZero, zeroLoop_iff, lastLimbs_self]
  rfl

/-! ## Bits -/

theorem value_xor (a b : Bn N) : (a.xor b).value = a.value ^^^ b.value := by
  apply Nat.eq_of_testBit_eq
  intro t
  rw [Nat.testBit_xor, value, value, value, num_testBit, num_testBit, num_testBit]
  by_cases ht : t < 32 * N
  · have hi : N - 1 - t / 32 < N := by omega
    simp [ht, xor, limbAt_eq _ hi]
  · simp [ht]

theorem value_and (a b : Bn N) : (a.and b).value = a.value &&& b.value := by
  apply Nat.eq_of_testBit_eq
  intro t
  rw [Nat.testBit_and, value, value, value, num_testBit, num_testBit, num_testBit]
  by_cases ht : t < 32 * N
  · have hi : N - 1 - t / 32 < N := by omega
    simp [ht, and, limbAt_eq _ hi]
  · simp [ht]

theorem value_not_testBit (a : Bn N) (t : Nat) :
    a.not.value.testBit t = (decide (t < 32 * N) && !a.value.testBit t) := by
  rw [value, value, num_testBit, num_testBit]
  by_cases ht : t < 32 * N
  · have hi : N - 1 - t / 32 < N := by omega
    have hr : t % 32 < 32 := Nat.mod_lt _ (by decide)
    simp [ht, hr, not, limbAt_eq _ hi]
  · simp [ht]

/-! ## Network byte order -/

/-- The bytes at the offsets of a list, as digits. -/
def octet (bytes : List Byte) (i : Nat) : Nat := (byteAt bytes i).toNat

/-- The four bytes of a limb are its digits, most significant byte first. -/
theorem horner_wr32 (x : Limb) (rest : List Byte) :
    horner 8 (octet (wr32 x ++ rest)) 4 = x.toNat := by
  have hx := x.isLt
  simp only [horner, octet, byteAt, wr32, List.cons_append, List.getD_cons_zero,
    List.getD_cons_succ, BitVec.extractLsb'_toNat, Nat.shiftRight_eq_div_pow]
  omega

/-- The bytes `to_binary` writes from limb `i` on are the last limbs, most
significant byte first. -/
theorem binaryFrom_spec (a : Limbs N) {i k : Nat} (h : i + k = N) :
    ∃ bytes, binaryFrom a i k = some bytes ∧ bytes.length = 4 * k ∧
      horner 8 (octet bytes) (4 * k) = lastLimbs 32 (digit a) N k ∧
      ∀ j < k, rd32 bytes (4 * j) = limbAt a (i + j) := by
  induction k generalizing i with
  | zero => exact ⟨[], by simp [binaryFrom]⟩
  | succ k ih =>
    have hi : i < N := by omega
    obtain ⟨rest, hrest, hlen, hnum, hread⟩ := ih (i := i + 1) (by omega)
    have hlimb : wr32 a[i] = wr32 (limbAt a i) := by rw [limbAt_eq _ hi]
    refine ⟨wr32 (limbAt a i) ++ rest, ?_, ?_, ?_, ?_⟩
    · simp [binaryFrom, hrest, hi, limbAt_eq _ hi]
    · simp [hlen]
      omega
    · have hidx : N - (k + 1) = i := by omega
      -- The bytes behind the first limb are those of the rest.
      have htail : ∀ j < 4 * k, octet (wr32 (limbAt a i) ++ rest) (4 + j) = octet rest j := by
        intro j _
        rw [octet, octet, ← length_wr32 (limbAt a i), byteAt_append]
      rw [Nat.mul_succ, Nat.add_comm, horner_add, horner_wr32, horner_congr htail, hnum,
        lastLimbs_succ (by omega), hidx, digit]
      congr 3
      omega
    · intro j hj
      cases j with
      | zero => exact rd32_wr32 [] rest (limbAt a i)
      | succ j =>
        have happend := rd32_append (wr32 (limbAt a i)) rest (4 * j)
        rw [hread j (by omega), length_wr32] at happend
        rw [Nat.mul_succ, Nat.add_comm, happend]
        congr 1
        omega

/-- The limbs `from_binary` reads. -/
theorem limbAt_readLimbs (buf : List Byte) {i k : Nat} (h : i + k ≤ N) (arr : Limbs N) (j : Nat) :
    limbAt (readLimbs buf i k arr) j =
      if i ≤ j ∧ j < i + k then rd32 buf (4 * j) else limbAt arr j := by
  induction k generalizing i arr with
  | zero => rw [readLimbs, if_neg (by omega)]
  | succ k ih =>
    rw [readLimbs, dif_pos (by omega), ih (by omega), limbAt_set]
    grind

/-- `to_binary` over the whole width writes the number, most significant byte
first, and `from_binary` reads it back. -/
theorem toBinary_spec (a : Bn N) :
    ∃ bytes, a.toBinary (4 * N) = some bytes ∧ bytes.length = 4 * N ∧
      horner 8 (octet bytes) (4 * N) = a.value ∧ ∀ c : Bn N, c.fromBinary bytes (4 * N) = a := by
  obtain ⟨bytes, hbytes, hlen, hnum, hread⟩ := binaryFrom_spec a.mNum (i := 0) (Nat.zero_add N)
  have hwords : 4 * N / 4 = N := by omega
  refine ⟨bytes, by rw [toBinary, hwords, hbytes], hlen, ?_, fun c => ?_⟩
  · rw [hnum, lastLimbs_self, value, num]
  · have hlimbs : readLimbs bytes 0 N (Vector.replicate N 0) = a.mNum := by
      apply Vector.ext
      intro i hi
      rw [← limbAt_eq _ hi, ← limbAt_eq _ hi, limbAt_readLimbs bytes (by omega), if_pos (by omega),
        hread i hi, Nat.zero_add]
    cases a
    simp only [fromBinary, hwords, hlimbs]

/-- The limbs of a `uint160_t` are the parts of the 160-bit word it denotes. -/
theorem extract_uint160 (a : Bn 5) {i : Nat} (hi : i < 5) :
    (BitVec.ofNat 160 a.value).extractLsb' (32 * (4 - i)) 32 = limbAt a.mNum i := by
  apply BitVec.eq_of_getLsbD_eq
  intro r hr
  have hidx : 5 - 1 - (32 * (4 - i) + r) / 32 = i := by omega
  have hbit : (32 * (4 - i) + r) % 32 = r := by omega
  have hin : 32 * (4 - i) + r < 160 := by omega
  rw [BitVec.getLsbD_extractLsb', BitVec.getLsbD_ofNat, value, num_testBit, hidx, hbit]
  simp [hr, hin]

/-- The bytes of a `uint160_t` are those of the 160-bit word it denotes. -/
theorem toBinary_uint160 (a : Bn 5) :
    a.toBinary 20 = some (wr160 (BitVec.ofNat 160 a.value)) := by
  have hfive : 20 / 4 = 5 := rfl
  have h0 := extract_uint160 a (i := 0) (by decide)
  have h1 := extract_uint160 a (i := 1) (by decide)
  have h2 := extract_uint160 a (i := 2) (by decide)
  have h3 := extract_uint160 a (i := 3) (by decide)
  have h4 := extract_uint160 a (i := 4) (by decide)
  rw [limbAt_eq _ (by decide)] at h0 h1 h2 h3 h4
  rw [toBinary, hfive, wr160, h0, h1, h2, h3, h4]
  simp [binaryFrom]

/-- What `from_binary` reads into a `uint160_t` is the 160-bit word of the bytes. -/
theorem fromBinary_uint160 (c : Bn 5) (bytes : List Byte) :
    BitVec.ofNat 160 (c.fromBinary bytes 20).value = rd160 bytes 0 := by
  have hlimb : ∀ i < 5, limbAt (c.fromBinary bytes 20).mNum i = rd32 bytes (4 * i) := by
    intro i hi
    have hread := limbAt_readLimbs (i := 0) (k := 5) bytes (by decide) (Vector.replicate 5 0) i
    rw [if_pos (by omega)] at hread
    exact hread
  have hpart : ∀ i < 5, (BitVec.ofNat 160 (c.fromBinary bytes 20).value).extractLsb'
      (32 * (4 - i)) 32 = rd32 bytes (4 * i) := fun i hi => by
    rw [extract_uint160 _ hi, hlimb i hi]
  have h0 := hpart 0 (by decide)
  have h1 := hpart 1 (by decide)
  have h2 := hpart 2 (by decide)
  have h3 := hpart 3 (by decide)
  have h4 := hpart 4 (by decide)
  rw [← words160 (BitVec.ofNat 160 (c.fromBinary bytes 20).value), rd160, h0, h1, h2, h3, h4]

/-! ## All operators -/

/-- Shifts, comparisons, bitwise operators and the byte order are those of the
naturals modulo `2 ^ (32 * N)`. -/
structure IdArithmetic (a b : Bn N) (k : Nat) : Prop where
  shl : ∃ c, a.shl k = some c ∧ c.value = a.value * 2 ^ k % 2 ^ (32 * N)
  shr : ∃ c, a.shr k = some c ∧ c.value = a.value / 2 ^ k
  lt : a.lt b = true ↔ a.value < b.value
  gt : a.gt b = true ↔ b.value < a.value
  le : a.le b = true ↔ a.value ≤ b.value
  ge : a.ge b = true ↔ b.value ≤ a.value
  eq : a.eq b = true ↔ a.value = b.value
  isZero : a.isZero = true ↔ a.value = 0
  xor : (a.xor b).value = a.value ^^^ b.value
  and : (a.and b).value = a.value &&& b.value
  not : ∀ t, a.not.value.testBit t = (decide (t < 32 * N) && !a.value.testBit t)
  binary : ∃ bytes, a.toBinary (4 * N) = some bytes ∧ bytes.length = 4 * N ∧
    horner 8 (octet bytes) (4 * N) = a.value ∧ ∀ c : Bn N, c.fromBinary bytes (4 * N) = a

theorem value_shl (a : Bn N) {k : Nat} (hk : k ≤ 32 * N) :
    ∃ c, a.shl k = some c ∧ c.value = a.value * 2 ^ k % 2 ^ (32 * N) := by
  obtain ⟨res, hres, hnum⟩ := num_shiftLeftBits hk a.mNum
  have hnonneg : ¬ (k : Int) < 0 := by omega
  exact ⟨{ a with mNum := res }, by simp [shl, shiftLeft, hnonneg, hres], hnum⟩

theorem value_shr (a : Bn N) {k : Nat} (hk : k ≤ 32 * N) :
    ∃ c, a.shr k = some c ∧ c.value = a.value / 2 ^ k := by
  obtain ⟨res, hres, hnum⟩ := num_shiftRightBits hk a.mNum
  have hnonneg : ¬ (k : Int) < 0 := by omega
  exact ⟨{ a with mNum := res }, by simp [shr, shiftRight, hnonneg, hres], hnum⟩

/-- The operators that routing rests on, for every number of limbs and every
shift up to the width. -/
theorem id_arithmetic (N : Nat) (a b : Bn N) (k : Nat) (hk : k ≤ 32 * N) :
    IdArithmetic a b k where
  shl := value_shl a hk
  shr := value_shr a hk
  lt := lt_iff a b
  gt := gt_iff a b
  le := le_iff a b
  ge := ge_iff a b
  eq := eq_iff a b
  isZero := isZero_iff a
  xor := value_xor a b
  and := value_and a b
  not := value_not_testBit a
  binary := toBinary_spec a

/-- A shift of an id by a limb and a bit. -/
theorem id_arithmetic_shift_33 :
    33 ≤ 32 * 5 ∧ IdArithmetic (uint160 1 2 3 0x80000001 5) (uint160 0 1 0 0 0) 33 :=
  ⟨by decide, id_arithmetic 5 _ _ 33 (by decide)⟩

end Libcage.Bn
