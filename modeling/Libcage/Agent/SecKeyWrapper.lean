import Libcage.Agent.Crypto
import Libcage.Lib.Except

/-!
# `Libcage.Agent.SecKeyWrapper`: reading public keys

The X.509 branch of `importPublicKey:tag:` skips the wrapping of a
SubjectPublicKeyInfo, and `getPublicKeyExp` and `getPublicKeyMod` walk through an
RSAPublicKey with an `int` cursor. A run ends with the bytes, or with a fault:
a read outside of the data, an `int` that overflows, or an exception raised.
-/

set_option autoImplicit false

namespace Libcage.Agent

open Lib

/-- How a run ends that does not return. -/
inductive Fault where
  /-- A read outside of the data. -/
  | outside
  /-- The result of an `int` operation does not fit. -/
  | overflow
  /-- `[Exception raise:...]`, or the range exception of `subdataWithRange:`. -/
  | exception
deriving DecidableEq

/-- `data[i]`. -/
def readAt (data : List Byte) (i : Nat) : Except Fault Byte :=
  match data[i]? with
  | some b => .ok b
  | none => .error .outside

/-- The result of an `int` operation whose operands are not negative. -/
def int (n : Nat) : Except Fault Nat := if n < 2 ^ 31 then .ok n else .error .overflow

/-! ### `importPublicKey:tag:`, the X.509 branch -/

/-- A check that raises the exception. -/
def raiseIf (p : Bool) : Except Fault Unit := if p then .error .exception else .ok ()

/-- A difference in `size_t`. -/
def sizeSub (a b : Nat) : Nat := sizeT (a + 2 ^ 32 - b)

/-- `if (bytes[i] > 0x80) i += bytes[i] - 0x80 + 1; else i++;` -/
def skipSize (bytes : List Byte) (i : Nat) : Except Fault Nat := do
  let b ← readAt bytes i
  return if 0x80 < b then sizeT (i + (b.toNat - 0x80 + 1)) else sizeT (i + 1)

/-- The X.509 branch: the bytes behind the wrapping. -/
def importX509 (bytes : List Byte) : Except Fault (List Byte) := do
  let bytesLen := sizeT bytes.length
  let b ← readAt bytes 0
  raiseIf (b ≠ 0x30)
  -- skip size bytes
  let i ← skipSize bytes 1
  raiseIf (bytesLen ≤ i)
  let b ← readAt bytes i
  raiseIf (b ≠ 0x30)
  -- skip OID
  let i := sizeT (i + 15)
  raiseIf (sizeSub bytesLen 2 ≤ i)
  let b ← readAt bytes i
  raiseIf (b ≠ 0x03)
  -- skip length and null
  let i ← skipSize bytes (sizeT (i + 1))
  raiseIf (bytesLen ≤ i)
  let b ← readAt bytes i
  raiseIf (b ≠ 0x00)
  let i := sizeT (i + 1)
  raiseIf (bytesLen ≤ i)
  return (bytes.drop i).take (bytesLen - i)

/-! ### `getPublicKeyExp` and `getPublicKeyMod` -/

/-- The loop of `derEncodingGetSizeFrom:at:` over the next `n` octets. -/
def sizeLoop (data : List Byte) (itr : Nat) : Nat → Nat → Nat → Except Fault Nat
  | 0, _, ret => .ok ret
  | n + 1, i, ret => do
      let ret ← int (ret * 0x100)
      let pos ← int (itr + i)
      let b ← readAt data pos
      let ret ← int (ret + b.toNat)
      sizeLoop data itr n (i + 1) ret

/-- `derEncodingGetSizeFrom:at:`: the size, and the iterator behind it. -/
def derEncodingGetSize (data : List Byte) (iterator : Nat) : Except Fault (Nat × Nat) := do
  let b ← readAt data iterator
  let (itr, numBytes) ←
    if 0x80 < b then do
      let itr ← int (iterator + 1)
      pure (itr, b.toNat - 0x80)
    else pure (iterator, 1)
  let ret ← sizeLoop data itr numBytes 0 0
  let itr ← int (itr + numBytes)
  return (ret, itr)

/-- `[pk subdataWithRange:NSMakeRange(location, length)]`. -/
def subdata (pk : List Byte) (location length : Nat) : Except Fault (List Byte) :=
  if location + length ≤ pk.length then .ok ((pk.drop location).take length)
  else .error .exception

/-- Both getters up to the contents of the first INTEGER: its size, and the
iterator. -/
def modulusAt (pk : List Byte) : Except Fault (Nat × Nat) := do
  let iterator ← int (0 + 1)
  let (_, iterator) ← derEncodingGetSize pk iterator
  let iterator ← int (iterator + 1)
  derEncodingGetSize pk iterator

/-- `getPublicKeyMod`, `nil` where the keychain has no key bits. -/
def getPublicKeyMod (publicKeyBits : Option (List Byte)) : Except Fault (Option (List Byte)) :=
  match publicKeyBits with
  | none => .ok none
  | some pk => do
      let (modSize, iterator) ← modulusAt pk
      return some (← subdata pk iterator modSize)

/-- `getPublicKeyExp`, `nil` where the keychain has no key bits. -/
def getPublicKeyExp (publicKeyBits : Option (List Byte)) : Except Fault (Option (List Byte)) :=
  match publicKeyBits with
  | none => .ok none
  | some pk => do
      let (modSize, iterator) ← modulusAt pk
      let iterator ← int (iterator + modSize)
      let iterator ← int (iterator + 1)
      let (expSize, iterator) ← derEncodingGetSize pk iterator
      return some (← subdata pk iterator expSize)

end Libcage.Agent
