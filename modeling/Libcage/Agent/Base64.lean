import Libcage.Lib.Base64
import Libcage.Agent.SecKeyWrapper

/-!
# `Libcage.Agent.Base64`: base64 texts

Two categories of `NSData` are linked into the agent and both define `base64EncodedString`.
The one of `NSData+Base64` writes into the buffer of `NewBase64Encode`, with a line break after
every 64 characters. The one of `NSData+CDBase64` breaks after `wrapWidth` characters, or not at
all. `NewBase64Decode` and `dataWithBase64EncodedString:` read a text.

What `malloc` returns holds `heap`, and there is always enough memory. An access outside of a
buffer is a fault. Texts are ASCII. The length -1, for which `NewBase64Decode` calls `strlen`,
comes from no caller and is left out.
-/

set_option autoImplicit false

namespace Libcage.Agent

open Lib

/-- How a run on buffers ends that does not return. -/
inductive BufferFault where
  /-- An access outside of a buffer. -/
  | outside
  /-- A loop has not ended. -/
  | unfinished
deriving DecidableEq

/-- `malloc(n)`. -/
def malloc (heap : Nat → Byte) (n : Nat) : List Byte := (List.range n).map heap

/-- `buf[i]`. -/
def getByte (buf : List Byte) (i : Nat) : Except BufferFault Byte :=
  match buf[i]? with
  | some b => .ok b
  | none => .error .outside

/-- `buf[i] = x`. -/
def setByte (buf : List Byte) (i : Nat) (x : Byte) : Except BufferFault (List Byte) :=
  if i < buf.length then .ok (buf.set i x) else .error .outside

/-- Copy `n` bytes out of a buffer. -/
def copyBytes (buf : List Byte) (n : Nat) : Except BufferFault (List Byte) :=
  if n ≤ buf.length then .ok (buf.take n) else .error .outside

/-- Some bytes, each with `buf[j++] = x`. An index of a buffer is no last number of its type. -/
def putBytes : List Byte → List Byte → Nat → Except BufferFault (List Byte × Nat)
  | [], buf, j => .ok (buf, j)
  | x :: xs, buf, j => do
      let buf ← setByte buf j x
      putBytes xs buf (j + 1)

/-- `base64EncodeLookup`, and `lookup` in `base64EncodedStringWithWrapWidth:`. -/
def base64EncodeLookup : List Char :=
  ['A', 'B', 'C', 'D', 'E', 'F', 'G', 'H', 'I', 'J', 'K', 'L', 'M', 'N', 'O', 'P',
   'Q', 'R', 'S', 'T', 'U', 'V', 'W', 'X', 'Y', 'Z', 'a', 'b', 'c', 'd', 'e', 'f',
   'g', 'h', 'i', 'j', 'k', 'l', 'm', 'n', 'o', 'p', 'q', 'r', 's', 't', 'u', 'v',
   'w', 'x', 'y', 'z', '0', '1', '2', '3', '4', '5', '6', '7', '8', '9', '+', '/']

/-- An ASCII character as a byte. -/
def asciiByte (c : Char) : Byte := BitVec.ofNat 8 c.toNat

/-- The character at an index of the table. -/
def encodeLookup (v : Byte) : Byte := asciiByte (base64EncodeLookup.getD v.toNat '=')

/-- The bits of three bytes that are looked up for the four characters. -/
def groupIndices (b0 b1 b2 : Byte) : List Byte :=
  [(b0 &&& 0xFC) >>> 2, (b0 &&& 0x03) <<< 4 ||| (b1 &&& 0xF0) >>> 4,
   (b1 &&& 0x0F) <<< 2 ||| (b2 &&& 0xC0) >>> 6, b2 &&& 0x3F]

/-- The four characters of three bytes. -/
def groupChars (b0 b1 b2 : Byte) : List Byte := (groupIndices b0 b1 b2).map encodeLookup

/-- The characters of two bytes at the end. -/
def singlePad (b0 b1 : Byte) : List Byte :=
  [encodeLookup ((b0 &&& 0xFC) >>> 2),
   encodeLookup ((b0 &&& 0x03) <<< 4 ||| (b1 &&& 0xF0) >>> 4),
   encodeLookup ((b1 &&& 0x0F) <<< 2), asciiByte '=']

/-- The characters of one byte at the end. -/
def doublePad (b0 : Byte) : List Byte :=
  [encodeLookup ((b0 &&& 0xFC) >>> 2), encodeLookup ((b0 &&& 0x03) <<< 4),
   asciiByte '=', asciiByte '=']

/-- `\r\n`. -/
def crLf : List Byte := [0x0d, 0x0a]

/-! ### `NewBase64Encode` -/

/-- The inner loop: turn bytes into characters, up to the end of the line. -/
def encodeGroups (input : List Byte) (lineEnd : Nat) :
    Nat → Nat → List Byte → Nat → Except BufferFault (Nat × List Byte × Nat)
  | 0, _, _, _ => .error .unfinished
  | rounds + 1, i, buf, j =>
      if sizeT (i + 2) < lineEnd then do
        let b0 ← getByte input i
        let b1 ← getByte input (i + 1)
        let b2 ← getByte input (i + 2)
        let (buf, j) ← putBytes (groupChars b0 b1 b2) buf j
        encodeGroups input lineEnd rounds (sizeT (i + 3)) buf j
      else
        .ok (i, buf, j)

/-- The outer loop: lines, with a line break between two of them. -/
def encodeLines (input : List Byte) (length lineLength : Nat) :
    Nat → Nat → Nat → List Byte → Nat → Except BufferFault (Nat × List Byte × Nat)
  | 0, _, _, _, _ => .error .unfinished
  | rounds + 1, lineEnd, i, buf, j => do
      let lineEnd := if lineEnd > length then length else lineEnd
      let (i, buf, j) ← encodeGroups input lineEnd (length + 1) i buf j
      if lineEnd = length then
        return (i, buf, j)
      else
        let (buf, j) ← putBytes crLf buf j
        encodeLines input length lineLength rounds (sizeT (lineEnd + lineLength)) i buf j

/-- The size of the buffer, with the byte for the zero behind the text. -/
def encodeBufferSize (length : Nat) (separateLines : Bool) : Nat :=
  let outputBufferSize := sizeT ((length / 3 + if length % 3 ≠ 0 then 1 else 0) * 4)
  let outputBufferSize :=
    if separateLines then sizeT (outputBufferSize + outputBufferSize / 64 * 2)
    else outputBufferSize
  sizeT (outputBufferSize + 1)

/-- `NewBase64Encode`: the buffer, and the length of the text. -/
def newBase64Encode (heap : Nat → Byte) (input : List Byte) (separateLines : Bool) :
    Except BufferFault (List Byte × Nat) := do
  let length := sizeT input.length
  let buf := malloc heap (encodeBufferSize length separateLines)
  let lineLength := if separateLines then 48 else length
  let (i, buf, j) ← encodeLines input length lineLength (length + 1) lineLength 0 buf 0
  let (buf, j) ←
    if sizeT (i + 1) < length then do
      let b0 ← getByte input i
      let b1 ← getByte input (i + 1)
      putBytes (singlePad b0 b1) buf j
    else if i < length then do
      let b0 ← getByte input i
      putBytes (doublePad b0) buf j
    else
      .ok (buf, j)
  let buf ← setByte buf j 0
  return (buf, j)

/-- `base64EncodedString` of `NSData+Base64`. -/
def base64EncodedString (heap : Nat → Byte) (data : List Byte) :
    Except BufferFault (List Byte) := do
  let (buf, outputLength) ← newBase64Encode heap data true
  copyBytes buf outputLength

/-! ### `NewBase64Decode` -/

/-- `xx`. -/
def xx : Byte := 65

/-- `base64DecodeLookup`. -/
def base64DecodeLookup : List Byte :=
  List.replicate 32 xx ++
  [xx, xx, xx, xx, xx, xx, xx, xx, xx, xx, xx, 62, xx, xx, xx, 63,
   52, 53, 54, 55, 56, 57, 58, 59, 60, 61, xx, xx, xx, xx, xx, xx,
   xx,  0,  1,  2,  3,  4,  5,  6,  7,  8,  9, 10, 11, 12, 13, 14,
   15, 16, 17, 18, 19, 20, 21, 22, 23, 24, 25, xx, xx, xx, xx, xx,
   xx, 26, 27, 28, 29, 30, 31, 32, 33, 34, 35, 36, 37, 38, 39, 40,
   41, 42, 43, 44, 45, 46, 47, 48, 49, 50, 51, xx, xx, xx, xx, xx] ++
  List.replicate 128 xx

/-- The value of a character. -/
def decodeLookup (c : Byte) : Byte := base64DecodeLookup.getD c.toNat xx

/-- The inner loop: accumulate 4 valid characters. The results are these and the input that is
left. -/
def accumulate : List Byte → List Byte → List Byte × List Byte
  | [], accumulated => (accumulated, [])
  | c :: input, accumulated =>
      if decodeLookup c ≠ xx then
        if accumulated.length + 1 = 4 then (accumulated ++ [decodeLookup c], input)
        else accumulate input (accumulated ++ [decodeLookup c])
      else
        accumulate input accumulated

/-- Store the 6 bits from each of the 4 characters as 3 bytes. -/
def storeGroup (accumulated buf : List Byte) (j : Nat) : Except BufferFault (List Byte) := do
  let v := byteAt accumulated
  let buf ← if accumulated.length ≥ 2 then setByte buf j (v 0 <<< 2 ||| v 1 >>> 4) else .ok buf
  let buf ←
    if accumulated.length ≥ 3 then setByte buf (j + 1) (v 1 <<< 4 ||| v 2 >>> 2) else .ok buf
  if accumulated.length ≥ 4 then setByte buf (j + 2) (v 2 <<< 6 ||| v 3) else .ok buf

/-- The outer loop over the input. -/
def decodeLoop : Nat → List Byte → List Byte → Nat → Except BufferFault (List Byte × Nat)
  | 0, _, _, _ => .error .unfinished
  | rounds + 1, input, buf, j =>
      if input = [] then
        .ok (buf, j)
      else do
        let (accumulated, input) := accumulate input []
        let buf ← storeGroup accumulated buf j
        -- without a valid character this is one less
        decodeLoop rounds input buf (sizeT (j + sizeSub accumulated.length 1))

/-- `NewBase64Decode`: the buffer, and the length of the data. -/
def newBase64Decode (heap : Nat → Byte) (input : List Byte) :
    Except BufferFault (List Byte × Nat) :=
  let length := sizeT input.length
  decodeLoop (length + 1) input (malloc heap (sizeT (sizeT (length + 3) / 4 * 3))) 0

/-- `dataFromBase64String:`. -/
def dataFromBase64String (heap : Nat → Byte) (aString : List Byte) :
    Except BufferFault (List Byte) := do
  let (buf, outputLength) ← newBase64Decode heap aString
  copyBytes buf outputLength

/-! ### `NSData+CDBase64` -/

/-- The loop of `base64EncodedStringWithWrapWidth:`. -/
def wrapGroups (input : List Byte) (wrapWidth : Nat) :
    Nat → Nat → List Byte → Nat → Except BufferFault (Nat × List Byte × Nat)
  | 0, _, _, _ => .error .unfinished
  | rounds + 1, i, buf, j =>
      if i + 2 < input.length then do
        let b0 ← getByte input i
        let b1 ← getByte input (i + 1)
        let b2 ← getByte input (i + 2)
        let (buf, j) ← putBytes (groupChars b0 b1 b2) buf j
        -- add line break
        let (buf, j) ←
          if wrapWidth ≠ 0 ∧ (j + 2) % (wrapWidth + 2) = 0 then putBytes crLf buf j
          else .ok (buf, j)
        wrapGroups input wrapWidth rounds (i + 3) buf j
      else
        .ok (i, buf, j)

/-- `base64EncodedStringWithWrapWidth:`. -/
def base64EncodedStringWithWrapWidth (heap : Nat → Byte) (data : List Byte) (wrapWidth : Nat) :
    Except BufferFault (Option (List Byte)) := do
  -- ensure wrapWidth is a multiple of 4
  let wrapWidth := wrapWidth / 4 * 4
  let inputLength := data.length
  let maxOutputLength := (inputLength / 3 + 1) * 4
  let maxOutputLength :=
    maxOutputLength + if wrapWidth ≠ 0 then maxOutputLength / wrapWidth * 2 else 0
  let (i, buf, j) ←
    wrapGroups data wrapWidth (inputLength + 1) 0 (malloc heap (sizeT maxOutputLength)) 0
  -- handle left-over data
  let (buf, outputLength) ←
    if i + 2 = inputLength then do
      let b0 ← getByte data i
      let b1 ← getByte data (i + 1)
      putBytes (singlePad b0 b1) buf j
    else if i + 1 = inputLength then do
      let b0 ← getByte data i
      putBytes (doublePad b0) buf j
    else
      .ok (buf, j)
  let result ← copyBytes buf outputLength
  return if outputLength ≥ 4 then some result else none

/-- The loop of `dataWithBase64EncodedString:` over the input, with the characters of a group
that have come so far, and what was written. Its `lookup` has 99 for `xx`. -/
def decodeCharacters : List Byte → List Byte → Nat → List Byte → Nat →
    Except BufferFault (List Byte × Nat × List Byte × Nat)
  | [], accumulated, accumulator, buf, j => .ok (accumulated, accumulator, buf, j)
  | c :: input, accumulated, accumulator, buf, j =>
      let decoded := decodeLookup (c &&& 0x7F)
      if decoded ≠ xx then do
        let accumulated := accumulated.set accumulator decoded
        let v := byteAt accumulated
        let (buf, j) ←
          if accumulator = 3 then
            putBytes [v 0 <<< 2 ||| v 1 >>> 4, v 1 <<< 4 ||| v 2 >>> 2, v 2 <<< 6 ||| v 3] buf j
          else
            .ok (buf, j)
        decodeCharacters input accumulated ((accumulator + 1) % 4) buf j
      else
        decodeCharacters input accumulated accumulator buf j

/-- `dataWithBase64EncodedString:`. -/
def dataWithBase64EncodedString (string : List Byte) :
    Except BufferFault (Option (List Byte)) := do
  let maxOutputLength := (string.length / 4 + 1) * 3
  let (accumulated, accumulator, buf, j) ←
    decodeCharacters string [0, 0, 0, 0] 0 (List.replicate maxOutputLength 0) 0
  let v := byteAt accumulated
  -- handle left-over data
  let buf ← if accumulator > 0 then setByte buf j (v 0 <<< 2 ||| v 1 >>> 4) else .ok buf
  let j := if accumulator > 1 then j + 1 else j
  let buf ← if accumulator > 1 then setByte buf j (v 1 <<< 4 ||| v 2 >>> 2) else .ok buf
  let j := if accumulator > 2 then j + 1 else j
  let data ← copyBytes buf j
  return if j ≠ 0 then some data else none

end Libcage.Agent
