import Libcage.Lib.Bytes
import Libcage.Lib.Limbs

/-!
# `Libcage.Bn`: the bignum `bn<uint32_t, N>`

Node ids, nonces and distances are numbers of `N` limbs of 32 bits, limb `0` the
most significant one. The carry and borrow loops run from the last limb to the
first and write into `n`, which is a fresh `bn` in an operator and `*this` in
its assignment form; the shifts move and combine limbs in place.

A loop over `i` is a recursion on the limbs that are left: `i + 1` (or `k + 1`
for the loops that count up) with its bound, so that every access is inside the
array. `none` is an access outside of an array.
-/

set_option autoImplicit false

namespace Libcage

open Lib

/-- A limb, `uint32_t`. -/
abbrev Limb := BitVec 32

/-- The array `T m_num[N]`. -/
abbrev Limbs (N : Nat) := Vector Limb N

/-- `bn<uint32_t, N>`. An array has at least one element. -/
structure Bn (N : Nat) where
  mNum : Limbs N
  pos : 0 < N
deriving DecidableEq

/-- The `uint160_t` with these limbs. -/
def uint160 (m0 m1 m2 m3 m4 : Limb) : Bn 5 where
  mNum := #v[m0, m1, m2, m3, m4]
  pos := by decide

namespace Bn

variable {N : Nat}

/-- The limb at an index, zero behind the array. -/
def limbAt (arr : Limbs N) (i : Nat) : Limb := arr[i]?.getD 0

/-- The limb at an index, as a natural. -/
def digit (arr : Limbs N) (i : Nat) : Nat := (limbAt arr i).toNat

/-- The natural an array of limbs denotes. -/
def num (arr : Limbs N) : Nat := horner 32 (digit arr) N

/-- The natural a `bn` denotes. -/
def value (a : Bn N) : Nat := num a.mNum

/-- How an operand's array is read while the array of `n` is written: `n` may be
the operand itself. -/
abbrev Operand (N : Nat) := Limbs N → Limbs N

/-- An operand that is another object than `n`. -/
def other (a : Bn N) : Operand N := fun _ => a.mNum

/-- An operand that is `n`. -/
def self : Operand N := fun n => n

/-- The limbs of `bn<T, N> n;`, which its constructor leaves unset. Every loop
writes all of them. -/
def unset (N : Nat) : Limbs N := Vector.replicate N 0

/-- Limb and carry of one round. -/
abbrev Round := Limb × Limb

/-! ## Addition and subtraction -/

/-- The loop of `PLUS_BN` and `MINUS_BN`, with `i` limbs left. -/
def loopBn (round : Limb → Limb → Limb → Round) (mNum rhs : Operand N) :
    (i : Nat) → i ≤ N → Limbs N → Limb → Limbs N
  | 0, _, n, _ => n
  | i + 1, h, n, carry =>
      let r := round (mNum n)[i] (rhs n)[i] carry
      loopBn round mNum rhs i (by omega) (n.set i r.1) r.2

/-- The loop of `PLUS_T` and `MINUS_T`, with `i` limbs left. -/
def loopT (round : Limb → Limb → Round) (mNum : Operand N) :
    (i : Nat) → i ≤ N → Limbs N → Limb → Limbs N
  | 0, _, n, _ => n
  | i + 1, h, n, carry =>
      let r := round (mNum n)[i] carry
      loopT round mNum i (by omega) (n.set i r.1) r.2

/-- The body of the loop in `PLUS_BN`. -/
def plusRound (m rhs carry : Limb) : Round :=
  let tmp := m + rhs
  if tmp < m then (tmp + carry, 1)
  else
    let tmp := tmp + carry
    if tmp < carry then (tmp, 1) else (tmp, 0)

/-- The body of the loop in `PLUS_T`. -/
def plusRoundT (m carry : Limb) : Round :=
  let tmp := m + carry
  if tmp < m then (tmp, 1) else (tmp, 0)

/-- The body of the loop in `MINUS_BN`. -/
def minusRound (m rhs borrow : Limb) : Round :=
  let tmp := m - rhs
  if m < tmp then (tmp - borrow, 1)
  else
    let tmp := tmp - borrow
    if tmp = -1 then (tmp, 1) else (tmp, 0)

/-- The body of the loop in `MINUS_T`. -/
def minusRoundT (m borrow : Limb) : Round :=
  let tmp := m - borrow
  if m < tmp then (tmp, 1) else (tmp, 0)

/-- The macros `PLUS_T` and `MINUS_T`: the last limb, then the loop over the
limbs before it. -/
def macroT (round : Limb → Limb → Round) (mNum : Operand N) (pos : 0 < N) (n : Limbs N)
    (rhs : Limb) : Limbs N :=
  let r := round (mNum n)[N - 1] rhs
  loopT round mNum (N - 1) (by omega) (n.set (N - 1) r.1 (by omega)) r.2

/-- `operator +(const bn &)`. -/
def plus (a b : Bn N) : Bn N :=
  { a with mNum := loopBn plusRound (other a) (other b) N (Nat.le_refl N) (unset N) 0 }

/-- `operator +=(const bn &)`, `rhs` another object or `*this`. -/
def plusAssign (a : Bn N) (rhs : Operand N) : Bn N :=
  { a with mNum := loopBn plusRound self rhs N (Nat.le_refl N) a.mNum 0 }

/-- `operator +(T)`. -/
def plusT (a : Bn N) (rhs : Limb) : Bn N :=
  { a with mNum := macroT plusRoundT (other a) a.pos (unset N) rhs }

/-- `operator +=(T)`. -/
def plusAssignT (a : Bn N) (rhs : Limb) : Bn N :=
  { a with mNum := macroT plusRoundT self a.pos a.mNum rhs }

/-- `operator -(const bn &)`. -/
def minus (a b : Bn N) : Bn N :=
  { a with mNum := loopBn minusRound (other a) (other b) N (Nat.le_refl N) (unset N) 0 }

/-- `operator -=(const bn &)`, `rhs` another object or `*this`. -/
def minusAssign (a : Bn N) (rhs : Operand N) : Bn N :=
  { a with mNum := loopBn minusRound self rhs N (Nat.le_refl N) a.mNum 0 }

/-- `operator -(T)`. -/
def minusT (a : Bn N) (rhs : Limb) : Bn N :=
  { a with mNum := macroT minusRoundT (other a) a.pos (unset N) rhs }

/-- `operator -=(T)`. -/
def minusAssignT (a : Bn N) (rhs : Limb) : Bn N :=
  { a with mNum := macroT minusRoundT self a.pos a.mNum rhs }

/-! ## Multiplication -/

/-- The limb and the carry of `u = n + rhs * m + carry` in `uint64_t`. -/
def timesRound (n rhs m carry : Limb) : Round :=
  let u : BitVec 64 :=
    n.setWidth 64 + rhs.setWidth 64 * m.setWidth 64 + carry.setWidth 64
  ((u &&& (((1 : BitVec 64) <<< 32) - 1)).setWidth 32, (u >>> 32).setWidth 32)

/-- The inner loop of `operator *(const bn &)` with `j` limbs left. The target
`ij = N - 1 - (N - 1 - i + N - 1 - j)` is negative where the row runs out of the
number. -/
def timesRow (a b : Limbs N) (i : Nat) (hi : i < N) :
    (j : Nat) → j ≤ N → Limbs N → Limb → Limbs N
  | 0, _, n, _ => n
  | j + 1, h, n, carry =>
      if N - 1 ≤ i + j then
        let ij := i + j - (N - 1)
        let r := timesRound n[ij] b[j] a[i] carry
        timesRow a b i hi j (by omega) (n.set ij r.1 (by omega)) r.2
      else timesRow a b i hi j (by omega) n carry

/-- The outer loop with `i` rows left. -/
def timesRows (a b : Limbs N) : (i : Nat) → i ≤ N → Limbs N → Limbs N
  | 0, _, n => n
  | i + 1, h, n =>
      timesRows a b i (by omega) (timesRow a b i (by omega) N (Nat.le_refl N) n 0)

/-- The loop of `operator *(T)` with `i` limbs left: `carry` is set to zero in
every round. -/
def timesLoopT (a : Limbs N) (rhs : Limb) : (i : Nat) → i ≤ N → Limbs N → Limbs N
  | 0, _, n => n
  | i + 1, h, n =>
      timesLoopT a rhs i (by omega) (n.set i (timesRound n[i] rhs a[i] 0).1)

/-- `operator *(const bn &)`. -/
def times (a b : Bn N) : Bn N :=
  { a with mNum := timesRows a.mNum b.mNum N (Nat.le_refl N) (Vector.replicate N 0) }

/-- `operator *=(const bn &)`: `*this = *this * rhs`. -/
def timesAssign (a b : Bn N) : Bn N := a.times b

/-- `operator *(T)`. -/
def timesT (a : Bn N) (rhs : Limb) : Bn N :=
  { a with mNum := timesLoopT a.mNum rhs N (Nat.le_refl N) (Vector.replicate N 0) }

/-- `operator *=(T)`: `*this = *this * rhs`. -/
def timesAssignT (a : Bn N) (rhs : Limb) : Bn N := a.timesT rhs

/-! ## Bitwise operators -/

/-- `operator ^(const bn &)`. -/
def xor (a b : Bn N) : Bn N := { a with mNum := Vector.zipWith (· ^^^ ·) a.mNum b.mNum }

/-- `operator &(const bn &)`. -/
def and (a b : Bn N) : Bn N := { a with mNum := Vector.zipWith (· &&& ·) a.mNum b.mNum }

/-- `operator ~`. -/
def not (a : Bn N) : Bn N := { a with mNum := a.mNum.map (~~~ ·) }

/-! ## Shifts -/

/-- `for (i = size - 1; i >= n; i--) arr[i] = arr[i - n]`, below `i`. -/
def moveBack (n : Nat) : (i : Nat) → i ≤ N → Limbs N → Limbs N
  | 0, _, arr => arr
  | i + 1, h, arr =>
      if n ≤ i then moveBack n i (by omega) (arr.set i arr[i - n]) else arr

/-- `for (i = 0; i < size - n; i++) arr[i] = arr[i + n]`, the last `k` rounds. -/
def moveFront (n : Nat) : (k : Nat) → k + n ≤ N → Limbs N → Limbs N
  | 0, _, arr => arr
  | k + 1, h, arr =>
      let i := N - n - (k + 1)
      moveFront n k (by omega) (arr.set i arr[i + n] (by omega))

/-- `for (i = lo; i < lo + k; i++) arr[i] = 0`. -/
def zeroFrom (lo : Nat) : (k : Nat) → lo + k ≤ N → Limbs N → Limbs N
  | 0, _, arr => arr
  | k + 1, h, arr => zeroFrom (lo + 1) k (by omega) (arr.set lo 0)

/-- The loop of `shift_right` that brings in the bits of the limb before, for the
limbs from `n + 1` on that are below `i`. -/
def carryBack (n m : Nat) : (i : Nat) → i ≤ N → Limbs N → Limbs N
  | 0, _, arr => arr
  | i + 1, h, arr =>
      if n + 1 ≤ i then
        let mask : Limb := ((1 : Limb) <<< m) - 1
        let x := (arr[i] >>> m) ||| ((mask &&& arr[i - 1]) <<< (32 - m))
        carryBack n m i (by omega) (arr.set i x)
      else arr

/-- The loop of `shift_left` that brings in the bits of the limb behind, the last
`k` rounds of `size - n - 1`. -/
def carryFront (n m : Nat) : (k : Nat) → k + n + 1 ≤ N → Limbs N → Limbs N
  | 0, _, arr => arr
  | k + 1, h, arr =>
      let i := N - n - 1 - (k + 1)
      let msb := arr[i + 1] >>> (32 - m)
      carryFront n m k (by omega) (arr.set i ((arr[i] <<< m) ||| msb) (by omega))

/-- `shift_right` where `bits` is not negative. The loop that clears the first
`n` limbs leaves the array if there are more limbs to clear than it has. -/
def shiftRightBits (bits : Nat) (arr : Limbs N) : Option (Limbs N) :=
  let n := bits / 32
  let m := bits % 32
  if hn : n ≤ N then
    let arr := zeroFrom 0 n (by omega) (moveBack n N (Nat.le_refl N) arr)
    if h : m = 0 ∨ N ≤ n then some arr
    else
      let arr := carryBack n m N (Nat.le_refl N) arr
      some (arr.set n (arr[n] >>> m) (by omega))
  else none

/-- `shift_left` where `bits` is not negative. With more limbs to drop than the
array has, the loop that clears the last limbs starts before the array. -/
def shiftLeftBits (bits : Nat) (arr : Limbs N) : Option (Limbs N) :=
  let n := bits / 32
  let m := bits % 32
  if hn : n ≤ N then
    let arr := zeroFrom (N - n) n (by omega) (moveFront n (N - n) (by omega) arr)
    if h : m = 0 ∨ N ≤ n then some arr
    else
      let arr := carryFront n m (N - n - 1) (by omega) arr
      let i := N - n - 1
      some (arr.set i (arr[i] <<< m) (by omega))
  else none

/-- `shift_right`: a negative shift is a shift to the left. -/
def shiftRight (bits : Int) (arr : Limbs N) : Option (Limbs N) :=
  if bits < 0 then shiftLeftBits bits.natAbs arr else shiftRightBits bits.toNat arr

/-- `shift_left`: a negative shift is a shift to the right. -/
def shiftLeft (bits : Int) (arr : Limbs N) : Option (Limbs N) :=
  if bits < 0 then shiftRightBits bits.natAbs arr else shiftLeftBits bits.toNat arr

/-- `operator <<` and `operator <<=`. -/
def shl (a : Bn N) (rhs : Int) : Option (Bn N) :=
  (shiftLeft rhs a.mNum).map fun arr => { a with mNum := arr }

/-- `operator >>` and `operator >>=`. -/
def shr (a : Bn N) (rhs : Int) : Option (Bn N) :=
  (shiftRight rhs a.mNum).map fun arr => { a with mNum := arr }

/-! ## Comparisons -/

/-- The loop of `operator ==`, the last `k` limbs. -/
def eqLoop (a b : Limbs N) : (k : Nat) → k ≤ N → Bool
  | 0, _ => true
  | k + 1, h =>
      if a[N - (k + 1)] ≠ b[N - (k + 1)] then false else eqLoop a b k (by omega)

/-- The loop of `operator <`, the last `k` limbs. -/
def ltLoop (a b : Limbs N) : (k : Nat) → k ≤ N → Bool
  | 0, _ => false
  | k + 1, h =>
      if a[N - (k + 1)] < b[N - (k + 1)] then true
      else if b[N - (k + 1)] < a[N - (k + 1)] then false
      else ltLoop a b k (by omega)

/-- The loop of `is_zero`, the last `k` limbs. -/
def zeroLoop (a : Limbs N) : (k : Nat) → k ≤ N → Bool
  | 0, _ => true
  | k + 1, h => if a[N - (k + 1)] ≠ 0 then false else zeroLoop a k (by omega)

/-- `operator ==`. -/
def eq (a b : Bn N) : Bool := eqLoop a.mNum b.mNum N (Nat.le_refl N)

/-- `operator <`. -/
def lt (a b : Bn N) : Bool := ltLoop a.mNum b.mNum N (Nat.le_refl N)

/-- `operator >`, whose loop is that of `<` with the comparisons turned. -/
def gt (a b : Bn N) : Bool := ltLoop b.mNum a.mNum N (Nat.le_refl N)

/-- `operator <=`. -/
def le (a b : Bn N) : Bool := !a.gt b

/-- `operator >=`. -/
def ge (a b : Bn N) : Bool := !a.lt b

/-- `is_zero`. -/
def isZero (a : Bn N) : Bool := zeroLoop a.mNum N (Nat.le_refl N)

/-! ## Network byte order -/

/-- The words `to_binary` writes from limb `i` on, `k` of them. -/
def binaryFrom (a : Limbs N) (i : Nat) : Nat → Option (List Byte)
  | 0 => some []
  | k + 1 => do
      let limb ← a[i]?
      let rest ← binaryFrom a (i + 1) k
      some (wr32 limb ++ rest)

/-- `to_binary`: the bytes written to the buffer. -/
def toBinary (a : Bn N) (len : Nat) : Option (List Byte) := binaryFrom a.mNum 0 (len / 4)

/-- The loop of `from_binary` from limb `i` on, at most `k` words of the buffer. -/
def readLimbs (buf : List Byte) (i : Nat) : Nat → Limbs N → Limbs N
  | 0, arr => arr
  | k + 1, arr =>
      if h : i < N then readLimbs buf (i + 1) k (arr.set i (rd32 buf (4 * i))) else arr

/-- `from_binary`. -/
def fromBinary (a : Bn N) (buf : List Byte) (len : Nat) : Bn N :=
  { a with mNum := readLimbs buf 0 (len / 4) (Vector.replicate N 0) }

/-! ## Hexadecimal strings -/

/-- The characters `hexstr` maps a nibble to. -/
def hexstr : Vector Byte 16 :=
  #v[48, 49, 50, 51, 52, 53, 54, 55, 56, 57, 97, 98, 99, 100, 101, 102]

/-- The two characters `to_string` appends for a byte. -/
def hexByte (p : Byte) : List Byte :=
  let t1 := ((p &&& 0xf0) >>> 4).toNat
  let t2 := (p &&& 0x0f).toNat
  [hexstr[t1]?.getD 0, hexstr[t2]?.getD 0]

/-- `to_string`. -/
def toString (a : Bn N) : Option (List Byte) :=
  (a.toBinary (4 * N)).map fun num => num.flatMap hexByte

/-- The `n` that `from_string` adds for a character: `'0'` to `'9'`, `'A'` to
`'F'` and `'a'` to `'f'`. -/
def nibble (c : Byte) : Option Limb :=
  if 48 ≤ c ∧ c ≤ 57 then some ((c - 48).setWidth 32)
  else if 65 ≤ c ∧ c ≤ 70 then some ((c - 65 + 10).setWidth 32)
  else if 97 ≤ c ∧ c ≤ 102 then some ((c - 97 + 10).setWidth 32)
  else none

/-- The loop of `from_string`, which ends at the terminating zero. The number is
shifted before the character is looked at. -/
def fromStringLoop : List Byte → Bn N → Option (Bn N)
  | [], a => some a
  | c :: str, a =>
      if c = 0 then some a
      else do
        let a ← a.shl 4
        match nibble c with
        | some n => fromStringLoop str (a.plusAssignT n)
        | none => some a

/-- `from_string`. -/
def fromString (a : Bn N) (str : List Byte) : Option (Bn N) :=
  fromStringLoop str { a with mNum := Vector.replicate N 0 }

end Bn

end Libcage
