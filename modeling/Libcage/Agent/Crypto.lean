import Libcage.Lib.Bytes

/-!
# `Libcage.Agent.Crypto`: the X.509 export of a public key

`Crypto` of the agent writes the key bits of the keychain as a
SubjectPublicKeyInfo: a SEQUENCE of the algorithm (`oidSequence`) and a BIT
STRING of the key. The tags and lengths are put together in `builder`, 15 bytes
on the stack. `none` is an access outside of `builder`.

The agent is built for 32-bit targets: `size_t` and `NSUInteger` have 32 bits.
The text around the bytes (header, footer and base64) is left out.
-/

set_option autoImplicit false

namespace Libcage.Agent

open Lib

/-- A number in `size_t`. -/
def sizeT (n : Nat) : Nat := n % 2 ^ 32

/-- `unsigned char builder[15]`. -/
abbrev Builder := Vector Byte 15

/-- `builder[i] = x`. -/
def Builder.put (builder : Builder) (i : Nat) (x : Byte) : Option Builder :=
  if h : i < 15 then some (builder.set i x) else none

/-- `[encKey appendBytes:builder length:n]`: the bytes appended. -/
def Builder.bytes (builder : Builder) (n : Nat) : Option (List Byte) :=
  if n ≤ 15 then some (builder.toList.take n) else none

/-- `oidSequence`. -/
def oidSequence : List Byte :=
  [0x30, 0x0d, 0x06, 0x09, 0x2a, 0x86, 0x48, 0x86, 0xf7, 0x0d, 0x01, 0x01, 0x01, 0x05, 0x00]

/-- The loop of `encodeLength` where the last `i` octets are left: `buf[i - j]`
with `buf` at `off`. -/
def encodeOctets (off : Nat) : Nat → Nat → Builder → Option Builder
  | 0, _, builder => some builder
  | i + 1, length, builder => do
      let builder ← builder.put (off + (i + 1)) (BitVec.ofNat 8 length)
      encodeOctets off i (length / 256) builder

/-- `encodeLength(&builder[off], length)`: the number of octets written. -/
def encodeLength (builder : Builder) (off length : Nat) : Option (Builder × Nat) :=
  if length < 128 then do
    let builder ← builder.put off (BitVec.ofNat 8 length)
    some (builder, 1)
  else do
    let i := length / 256 + 1
    let builder ← builder.put off (BitVec.ofNat 8 (i + 0x80))
    let builder ← encodeOctets off i length builder
    some (builder, i + 1)

/-- `getX509FormattedPublicKey:` from the key bits to the bytes of `encKey`. What
`builder` holds at first is what was on the stack. -/
def getX509FormattedPublicKey (builder : Builder) (publicKeyBits : List Byte) :
    Option (List Byte) := do
  let length := sizeT publicKeyBits.length
  let bitstringEncLength :=
    if sizeT (length + 1) < 128 then 1 else sizeT (length + 1) / 256 + 2
  let builder ← builder.put 0 0x30
  let i := sizeT (oidSequence.length + 2 + bitstringEncLength + length)
  let (builder, j) ← encodeLength builder 1 i
  let head ← builder.bytes (j + 1)
  let builder ← builder.put 0 0x03
  let (builder, j) ← encodeLength builder 1 (sizeT (length + 1))
  let builder ← builder.put (j + 1) 0x00
  let bitstring ← builder.bytes (j + 2)
  some (head ++ oidSequence ++ bitstring ++ publicKeyBits)

end Libcage.Agent
