import Libcage.Lib.Bytes

/-!
# `Libcage.Lib.Draft`: messages composed in a buffer

A message is composed from the start of a buffer, and goes out with a length that was computed
in `w` bits. `Fits` says that both are right. Where the length is computed from the bytes and
the buffer is short enough for `w` bits, the buffer is all that matters (`fits_iff`).
-/

set_option autoImplicit false

namespace Libcage.Lib

/-- The bytes that are written, and the length that is passed on. -/
structure Draft (w : Nat) where
  bytes : List Byte
  len : BitVec w

namespace Draft
variable {w cap : Nat} {d : Draft w}

/-- All is written within the buffer, and the length is that of what is written. -/
structure Fits (cap : Nat) (d : Draft w) : Prop where
  inside : d.bytes.length ≤ cap
  len : d.len.toNat = d.bytes.length

theorem fits_iff (hcap : cap < 2 ^ w) (hlen : d.len = .ofNat w d.bytes.length) :
    d.Fits cap ↔ d.bytes.length ≤ cap := by
  refine ⟨Fits.inside, fun h => ⟨h, ?_⟩⟩
  rw [hlen, BitVec.toNat_ofNat, Nat.mod_eq_of_lt (Nat.lt_of_le_of_lt h hcap)]

end Draft

end Libcage.Lib
