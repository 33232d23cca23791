import Libcage.Proofs.Bn.Modular
import Libcage.Proofs.Bn.Routing
import Mathlib.Data.List.Induction
import Mathlib.Data.List.TakeWhile

/-!
# `Libcage.Proofs.Bn.Hex`: reading and writing hexadecimal strings

`from_string` shifts before it looks at the character, so the digits of a string
are read right (`fromStringLoop_digits`), and a character that is no digit
multiplies the number by 16 once more. `to_string` writes the nibbles of the
number, which read back as the number (`fromString_toString`).
-/

set_option autoImplicit false

namespace Libcage.Bn

open Lib

variable {N : Nat}

/-- The longest prefix of a string that consists of hexadecimal digits. -/
def hexPrefix (str : List Byte) : List Byte := str.takeWhile fun c => (nibble c).isSome

/-- The number that digits denote, put behind the number `v`. -/
def hexNatFrom (v : Nat) (digits : List Byte) : Nat :=
  digits.foldl (fun v c => v * 16 + ((nibble c).getD 0).toNat) v

/-- The number that digits denote. -/
def hexNat (digits : List Byte) : Nat := hexNatFrom 0 digits

/-- The digits of a string end with the string, or with a zero byte that ends it
for C. -/
def EndsWithDigits (str : List Byte) : Prop :=
  ∀ c ∈ (str.dropWhile fun c => (nibble c).isSome).head?, c = 0

/-- One digit more. -/
theorem value_shl_plus (a : Bn N) (n : Limb) :
    ∃ b, a.shl 4 = some b ∧ b.value = a.value * 16 % 2 ^ (32 * N) ∧
      (b.plusAssignT n).value = (a.value * 16 + n.toNat) % 2 ^ (32 * N) := by
  have hpos := a.pos
  obtain ⟨b, hb, hvalue⟩ := value_shl a (k := 4) (by omega)
  refine ⟨b, hb, hvalue, ?_⟩
  rw [value_plusAssignT, hvalue, Nat.mod_add_mod]
  rfl

/-- Only the remainder of the number in front counts for the remainder. -/
theorem hexNatFrom_mod (v m : Nat) (digits : List Byte) :
    hexNatFrom (v % m) digits % m = hexNatFrom v digits % m := by
  induction digits generalizing v with
  | nil => simp [hexNatFrom]
  | cons c digits ih =>
    have hstep : (v % m * 16 + ((nibble c).getD 0).toNat) % m =
        (v * 16 + ((nibble c).getD 0).toNat) % m :=
      ((Nat.mod_modEq v m).mul_right 16).add_right _
    show hexNatFrom (v % m * 16 + ((nibble c).getD 0).toNat) digits % m =
      hexNatFrom (v * 16 + ((nibble c).getD 0).toNat) digits % m
    rw [← ih, hstep, ih]

theorem hexPrefix_cons {c : Byte} {n : Limb} (h : nibble c = some n) (str : List Byte) :
    hexPrefix (c :: str) = c :: hexPrefix str := by
  simp [hexPrefix, h]

theorem hexPrefix_stop {c : Byte} (h : nibble c = none) (str : List Byte) :
    hexPrefix (c :: str) = [] := by
  simp [hexPrefix, h]

theorem endsWithDigits_cons {c : Byte} {n : Limb} (h : nibble c = some n) (str : List Byte) :
    EndsWithDigits (c :: str) ↔ EndsWithDigits str := by
  simp [EndsWithDigits, h]

theorem endsWithDigits_stop {c : Byte} (h : nibble c = none) (str : List Byte) :
    EndsWithDigits (c :: str) ↔ c = 0 := by
  simp [EndsWithDigits, h]

/-- The loop over a string: the digits count, and a character other than a zero
byte that ends them counts as one more shift. -/
theorem fromStringLoop_spec (str : List Byte) (a : Bn N) :
    ∃ b, fromStringLoop str a = some b ∧
      (EndsWithDigits str → b.value = hexNatFrom a.value (hexPrefix str) % 2 ^ (32 * N)) ∧
      (¬ EndsWithDigits str →
        b.value = hexNatFrom a.value (hexPrefix str) * 16 % 2 ^ (32 * N)) := by
  induction str generalizing a with
  | nil =>
    refine ⟨a, rfl, fun _ => (Nat.mod_eq_of_lt (value_lt a)).symm, fun h => ?_⟩
    exact absurd (by simp [EndsWithDigits]) h
  | cons c str ih =>
    cases hc : nibble c with
    | some n =>
      have hne : c ≠ 0 := by
        intro hzero
        have hnone : nibble 0 = none := by decide
        rw [hzero, hnone] at hc
        cases hc
      obtain ⟨b, hb, -, hdigit⟩ := value_shl_plus a n
      obtain ⟨d, hd, hgood, hbad⟩ := ih (b.plusAssignT n)
      have hfold : hexNatFrom a.value (c :: hexPrefix str) =
          hexNatFrom (a.value * 16 + n.toNat) (hexPrefix str) := by
        simp [hexNatFrom, hc]
      refine ⟨d, by rw [fromStringLoop, if_neg hne, hb]; simp [hc, hd], ?_, ?_⟩
      · intro hend
        rw [hgood ((endsWithDigits_cons hc str).mp hend), hdigit, hexNatFrom_mod,
          hexPrefix_cons hc, hfold]
      · intro hend
        rw [hbad (mt (endsWithDigits_cons hc str).mpr hend), hdigit, Nat.mul_mod, hexNatFrom_mod,
          ← Nat.mul_mod, hexPrefix_cons hc, hfold]
    | none =>
      rw [hexPrefix_stop hc, endsWithDigits_stop hc]
      by_cases hzero : c = 0
      · exact ⟨a, by simp [fromStringLoop, hzero], fun _ => (Nat.mod_eq_of_lt (value_lt a)).symm,
          fun h => absurd hzero h⟩
      · -- the character is no digit, but the number is shifted before that is seen
        obtain ⟨b, hb, hshift, -⟩ := value_shl_plus a 0
        exact ⟨b, by rw [fromStringLoop, if_neg hzero, hb]; simp [hc], fun h => absurd h hzero,
          fun _ => hshift⟩

/-! ## Strings that `to_string` writes -/

/-- The characters `hexstr` writes are digits with the value of the nibble. -/
theorem nibble_hexstr :
    ∀ k < 16, nibble (hexstr[k]?.getD 0) = some (BitVec.ofNat 32 k) := by
  decide

/-- The halves of a byte that `to_string` takes. -/
theorem hexByte_eq (p : Byte) :
    hexByte p = [hexstr[p.toNat / 16]?.getD 0, hexstr[p.toNat % 16]?.getD 0] := by
  have hhalves : ∀ p : Byte, ((p &&& 0xf0) >>> 4).toNat = p.toNat / 16 ∧
      (p &&& 0x0f).toNat = p.toNat % 16 := by
    decide +kernel
  rw [hexByte, (hhalves p).1, (hhalves p).2]

/-- The two characters of a byte are digits, and give the byte. -/
theorem hexByte_spec (p : Byte) :
    (∀ c ∈ hexByte p, (nibble c).isSome) ∧
      ∀ v rest, hexNatFrom v (hexByte p ++ rest) = hexNatFrom (v * 2 ^ 8 + p.toNat) rest := by
  have hp := p.isLt
  have h1 := nibble_hexstr (p.toNat / 16) (by omega)
  have h2 := nibble_hexstr (p.toNat % 16) (by omega)
  rw [hexByte_eq]
  refine ⟨fun c hc => ?_, fun v rest => ?_⟩
  · obtain rfl | rfl := List.mem_pair.mp hc
    · rw [h1]
      rfl
    · rw [h2]
      rfl
  · simp only [hexNatFrom, List.cons_append, List.nil_append, List.foldl_cons, h1, h2,
      Option.getD_some, BitVec.toNat_ofNat]
    congr 1
    omega

/-- The digits of a list of bytes give its bytes one after the other. -/
theorem hexNatFrom_flatMap (bytes : List Byte) (v : Nat) :
    hexNatFrom v (bytes.flatMap hexByte) = bytes.foldl (fun v p => v * 2 ^ 8 + p.toNat) v := by
  induction bytes generalizing v with
  | nil => rfl
  | cons p bytes ih => rw [List.flatMap_cons, (hexByte_spec p).2, ih, List.foldl_cons]

/-- Folding over bytes gives the number they denote. -/
theorem foldl_bytes (bytes : List Byte) :
    bytes.foldl (fun v p => v * 2 ^ 8 + p.toNat) 0 = horner 8 (octet bytes) bytes.length := by
  induction bytes using List.reverseRec with
  | nil => rfl
  | append_singleton bytes p ih =>
    have hfront : ∀ i < bytes.length, octet (bytes ++ [p]) i = octet bytes i := fun i hi => by
      rw [octet, octet, byteAt_append_left bytes [p] i hi]
    have hlast : octet (bytes ++ [p]) bytes.length = p.toNat := by
      simp [octet, byteAt]
    rw [List.foldl_append, ih, List.length_append, List.length_singleton, horner_succ,
      horner_congr hfront, hlast]
    rfl

/-- A string of digits only is its own longest prefix. -/
theorem hexPrefix_of_digits {str : List Byte} (h : ∀ c ∈ str, (nibble c).isSome) :
    hexPrefix str = str ∧ EndsWithDigits str := by
  have hall : ∀ c ∈ str, (nibble c).isSome = true := h
  constructor
  · exact List.takeWhile_eq_self_iff.mpr hall
  · rw [EndsWithDigits, List.dropWhile_eq_nil_iff.mpr hall]
    simp

theorem value_replicate_zero (pos : 0 < N) :
    (Bn.mk (Vector.replicate N 0) pos : Bn N).value = 0 := horner_replicate_zero N

/-- What `to_string` writes reads back as the number. -/
theorem fromString_toString (a : Bn N) :
    ∃ str, a.toString = some str ∧ ∀ c : Bn N, c.fromString str = some a := by
  obtain ⟨bytes, hbytes, hlen, hnum, -⟩ := toBinary_spec a
  have hdigits : ∀ c ∈ bytes.flatMap hexByte, (nibble c).isSome := by
    intro c hc
    obtain ⟨p, -, hp⟩ := List.mem_flatMap.mp hc
    exact (hexByte_spec p).1 c hp
  obtain ⟨hdig, hend⟩ := hexPrefix_of_digits hdigits
  refine ⟨bytes.flatMap hexByte, by simp [toString, hbytes], fun c => ?_⟩
  obtain ⟨b, hb, hgood, -⟩ := fromStringLoop_spec (bytes.flatMap hexByte)
    { c with mNum := Vector.replicate N 0 }
  have hvalue := hgood hend
  rw [hdig, value_replicate_zero, hexNatFrom_flatMap, foldl_bytes, hlen, hnum,
    Nat.mod_eq_of_lt (value_lt a)] at hvalue
  rw [fromString, hb, ext_value hvalue]

/-! ## Parsing -/

/-- `from_string` yields the number of the longest prefix of digits modulo the
width, and undoes `to_string`. -/
structure HexParsing (N : Nat) (c : Bn N) (str : List Byte) : Prop where
  parse : ∃ b, c.fromString str = some b ∧ b.value = hexNat (hexPrefix str) % 2 ^ (32 * N)
  roundTrip : ∀ x : Bn N, ∃ s, x.toString = some s ∧ c.fromString s = some x

/-- One shift too many is no harm just to a number that is zero anyway. -/
theorem shifted_eq_iff (v k : Nat) :
    v * 16 % 2 ^ k = v % 2 ^ k ↔ v % 2 ^ k = 0 := by
  have hcop : Nat.Coprime (2 ^ k) 15 := Nat.Coprime.pow_left k (by decide)
  constructor
  · intro h
    have hmod : v + v * 15 ≡ v + 0 [MOD 2 ^ k] := by
      rw [show v + v * 15 = v * 16 by ring]
      exact h
    have hdvd := Nat.dvd_of_mod_eq_zero (Nat.ModEq.add_left_cancel' v hmod)
    exact Nat.mod_eq_zero_of_dvd (hcop.dvd_of_dvd_mul_right hdvd)
  · intro h
    rw [Nat.mul_mod, h]
    simp

end Libcage.Bn
