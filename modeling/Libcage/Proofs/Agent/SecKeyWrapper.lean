import Libcage.Agent.SecKeyWrapper
import Libcage.Lib.Der

/-!
# `Libcage.Proofs.Agent.SecKeyWrapper`: the getters of an RSA public key

`derEncodingGetSize_spec`: over length octets of any form, the size is read and
the cursor put behind them, unless the cursor leaves the range of `int`. From it
both getters are run over a whole RSAPublicKey (`getPublicKeyMod_bytes`,
`getPublicKeyExp_bytes`).
-/

set_option autoImplicit false

namespace Libcage.Agent

open Lib

/-- An RSAPublicKey: the content octets of both INTEGERs, and length octets of any
size for them and for the SEQUENCE. -/
structure RsaPublicKey where
  modulus : List Byte
  exponent : List Byte
  seqLength : List Byte
  modLength : List Byte
  expLength : List Byte
  /-- The value of the second INTEGER has its tag, its length and its contents. -/
  mod_ok : LengthOctets modLength modulus.length
  exp_ok : LengthOctets expLength exponent.length
  seq_ok : LengthOctets seqLength
    (1 + modLength.length + modulus.length + (1 + expLength.length + exponent.length))

namespace RsaPublicKey

/-- The encoding: SEQUENCE, INTEGER and INTEGER. -/
def bytes (k : RsaPublicKey) : List Byte :=
  0x30 :: (k.seqLength ++ (0x02 :: (k.modLength ++ (k.modulus ++
    (0x02 :: (k.expLength ++ k.exponent))))))

/-- The content lengths are below `2 ^ 31`. -/
def Small (k : RsaPublicKey) : Prop :=
  1 + k.modLength.length + k.modulus.length + (1 + k.expLength.length + k.exponent.length) < 2 ^ 31

instance (k : RsaPublicKey) : Decidable k.Small := Nat.decLt _ _

/-- Where the contents of the second INTEGER begin. -/
def expOffset (k : RsaPublicKey) : Nat :=
  3 + k.seqLength.length + k.modLength.length + k.modulus.length + k.expLength.length

end RsaPublicKey

/-! ## Steps -/

theorem int_of_lt {n : Nat} (h : n < 2 ^ 31) : int n = .ok n := if_pos h

theorem int_of_le {n : Nat} (h : 2 ^ 31 ≤ n) : int n = .error .overflow :=
  if_neg (Nat.not_lt.mpr h)

theorem readAt_append (pre rest : List Byte) (b : Byte) :
    readAt (pre ++ b :: rest) pre.length = .ok b := by
  simp [readAt]

/-- The loop over size octets, which stops where the cursor overflows. -/
theorem sizeLoop_spec (ds pre rest : List Byte) (itr i ret : Nat) (hpre : pre.length = itr + i)
    (hpos : itr + i ≤ 2 ^ 31) (hval : octetsFrom ret ds < 2 ^ 31) :
    sizeLoop (pre ++ ds ++ rest) itr ds.length i ret =
      if itr + i + ds.length ≤ 2 ^ 31 then .ok (octetsFrom ret ds) else .error .overflow := by
  induction ds generalizing pre i ret with
  | nil => exact (if_pos hpos).symm
  | cons d ds ih =>
    have hstep : ret * 256 + d.toNat ≤ octetsFrom ret (d :: ds) :=
      octetsFrom_le_append (ret * 256 + d.toNat) [] ds
    have hread : readAt (pre ++ d :: ds ++ rest) (itr + i) = .ok d := by
      rw [← hpre, List.append_assoc]
      exact readAt_append pre (ds ++ rest) d
    rw [List.length_cons, sizeLoop, int_of_lt (by omega), ok_bind]
    by_cases hlt : itr + i < 2 ^ 31
    · have hrec := ih (pre ++ [d]) (i + 1) (ret * 256 + d.toNat) (by simp [hpre]; omega) (by omega)
        hval
      rw [int_of_lt hlt, ok_bind, hread, ok_bind, int_of_lt (by omega), ok_bind]
      simp only [List.append_assoc, List.singleton_append] at hrec ⊢
      rw [hrec]
      have hiff : itr + (i + 1) + ds.length ≤ 2 ^ 31 ↔ itr + i + (ds.length + 1) ≤ 2 ^ 31 := by omega
      simp only [hiff, octetsFrom_cons]
    · rw [int_of_le (by omega), error_bind, if_neg (by omega)]

/-- The size in one octet. -/
theorem derEncodingGetSize_short (pre rest : List Byte) {o : Byte} (ho : o.toNat < 0x80)
    (hlt : pre.length < 2 ^ 31) :
    derEncodingGetSize (pre ++ [o] ++ rest) pre.length =
      if pre.length + 1 < 2 ^ 31 then .ok (o.toNat, pre.length + 1) else .error .overflow := by
  have hshort : ¬ (0x80 : Byte) < o := by
    rw [BitVec.lt_def]
    exact Nat.not_lt.mpr (Nat.le_of_lt ho)
  have hread : readAt (pre ++ [o] ++ rest) pre.length = .ok o := by
    rw [List.append_assoc]
    exact readAt_append pre rest o
  have hloop := sizeLoop_spec [o] pre rest pre.length 0 0 rfl (by omega)
    (by simp [octetsFrom]; omega)
  have hvalue : octetsFrom 0 [o] = o.toNat := by simp [octetsFrom]
  rw [hvalue] at hloop
  simp only [derEncodingGetSize, hread, ok_bind, if_neg hshort, pure_bind]
  simp only [List.length_singleton, Nat.add_zero] at hloop
  rw [hloop, if_pos (by omega), ok_bind]
  by_cases hend : pre.length + 1 < 2 ^ 31
  · rw [int_of_lt hend, ok_bind]
    exact (if_pos hend).symm
  · rw [int_of_le (by omega), error_bind]
    exact (if_neg hend).symm

/-- The size in the octets behind the first. -/
theorem derEncodingGetSize_long (pre rest : List Byte) {o : Byte} {ds : List Byte}
    (hd : o.toNat = 0x80 + ds.length) (hpos : 0 < ds.length) (hn : octetsValue ds < 2 ^ 31)
    (hlt : pre.length < 2 ^ 31) :
    derEncodingGetSize (pre ++ o :: ds ++ rest) pre.length =
      if pre.length + (ds.length + 1) < 2 ^ 31 then
        .ok (octetsValue ds, pre.length + (ds.length + 1))
      else .error .overflow := by
  have hlong : (0x80 : Byte) < o := by
    rw [BitVec.lt_def, hd]
    exact Nat.lt_add_of_pos_right hpos
  have hread : readAt (pre ++ o :: ds ++ rest) pre.length = .ok o := by
    rw [List.append_assoc]
    exact readAt_append pre (ds ++ rest) o
  have hnum : o.toNat - 0x80 = ds.length := by omega
  simp only [derEncodingGetSize, hread, ok_bind, if_pos hlong, hnum]
  by_cases hone : pre.length + 1 < 2 ^ 31
  · have hloop := sizeLoop_spec ds (pre ++ [o]) rest (pre.length + 1) 0 0 (by simp) (by omega) hn
    have happend : pre ++ [o] ++ ds ++ rest = pre ++ o :: ds ++ rest := by simp
    rw [happend] at hloop
    simp only [int_of_lt hone, ok_bind, pure_bind, hloop, Nat.add_zero]
    by_cases hend : pre.length + (ds.length + 1) < 2 ^ 31
    · rw [if_pos (by omega), if_pos hend, ok_bind, int_of_lt (by omega), ok_bind, octetsValue,
        Nat.add_right_comm, Nat.add_assoc]
      rfl
    · -- The cursor overflows in the loop, or behind it.
      rw [if_neg hend]
      split
      · rw [ok_bind, int_of_le (by omega), error_bind]
      · rfl
  · rw [int_of_le (by omega), if_neg (by omega)]
    rfl

/-- Over length octets the size is read, and the cursor put behind them. -/
theorem derEncodingGetSize_spec (pre rest : List Byte) {os data : List Byte} {n p : Nat}
    (h : LengthOctets os n) (hn : n < 2 ^ 31) (hdata : pre ++ os ++ rest = data)
    (hp : pre.length = p) (hlt : p < 2 ^ 31) :
    derEncodingGetSize data p =
      if p + os.length < 2 ^ 31 then .ok (n, p + os.length) else .error .overflow := by
  subst hdata hp
  cases h with
  | short o ho => exact derEncodingGetSize_short pre rest ho hlt
  | long o ds hd pos => exact derEncodingGetSize_long pre rest hd pos hn hlt

/-- A range inside the data. -/
theorem subdata_append (pre rest : List Byte) {mid data : List Byte} {p : Nat}
    (hdata : pre ++ mid ++ rest = data) (hp : pre.length = p) :
    subdata data p mid.length = .ok mid := by
  subst hdata hp
  rw [subdata, if_pos (by simp)]
  simp

/-! ## Getters -/

variable (k : RsaPublicKey)

/-- Up to the contents of the first INTEGER. -/
theorem modulusAt_bytes (hk : k.Small) :
    modulusAt k.bytes =
      .ok (k.modulus.length, 2 + k.seqLength.length + k.modLength.length) := by
  have hseq := k.seq_ok.length_le
  have hmod := k.mod_ok.length_le
  have hsmall : k.modulus.length < 2 ^ 31 := by
    have hsum := hk
    unfold RsaPublicKey.Small at hsum
    omega
  have hone : 1 + k.seqLength.length < 2 ^ 31 := by omega
  have htotal : derEncodingGetSize k.bytes 1 = .ok (_, 1 + k.seqLength.length) :=
    (derEncodingGetSize_spec [0x30] _ k.seq_ok hk rfl rfl (by decide)).trans
      (if_pos hone)
  have hint : derEncodingGetSize k.bytes (1 + k.seqLength.length + 1) =
      .ok (k.modulus.length, 1 + k.seqLength.length + 1 + k.modLength.length) :=
    (derEncodingGetSize_spec (0x30 :: (k.seqLength ++ [0x02]))
      (k.modulus ++ (0x02 :: (k.expLength ++ k.exponent))) k.mod_ok hsmall
      (by simp [RsaPublicKey.bytes]) (by simp; omega) (by omega)).trans (if_pos (by omega))
  simp only [modulusAt, int_of_lt (show 0 + 1 < 2 ^ 31 by decide), ok_bind, htotal,
    int_of_lt (show 1 + k.seqLength.length + 1 < 2 ^ 31 by omega), hint]
  congr 2
  omega

/-- `getPublicKeyMod` returns the contents of the first INTEGER. -/
theorem getPublicKeyMod_bytes (hk : k.Small) :
    getPublicKeyMod (some k.bytes) = .ok (some k.modulus) := by
  have hrange : subdata k.bytes (2 + k.seqLength.length + k.modLength.length) k.modulus.length =
      .ok k.modulus :=
    subdata_append (0x30 :: (k.seqLength ++ (0x02 :: k.modLength)))
      (0x02 :: (k.expLength ++ k.exponent)) (by simp [RsaPublicKey.bytes]) (by simp; omega)
  simp only [getPublicKeyMod, modulusAt_bytes k hk, ok_bind, hrange]
  rfl

/-- `getPublicKeyExp` returns the contents of the second INTEGER, unless its
cursor overflows on the way to them. -/
theorem getPublicKeyExp_bytes (hk : k.Small) :
    getPublicKeyExp (some k.bytes) =
      if k.expOffset < 2 ^ 31 then .ok (some k.exponent) else .error .overflow := by
  have hexp := k.exp_ok.pos
  have hsmall : k.exponent.length < 2 ^ 31 := by
    have hsum := hk
    unfold RsaPublicKey.Small at hsum
    omega
  obtain ⟨p, hp⟩ : ∃ p, p = 2 + k.seqLength.length + k.modLength.length + k.modulus.length :=
    ⟨_, rfl⟩
  have hoffset : k.expOffset = p + 1 + k.expLength.length := by
    rw [hp, RsaPublicKey.expOffset]
    omega
  simp only [getPublicKeyExp, modulusAt_bytes k hk, ok_bind, ← hp]
  by_cases hmod : p < 2 ^ 31
  · by_cases htag : p + 1 < 2 ^ 31
    · have hdata : (0x30 :: (k.seqLength ++ (0x02 :: (k.modLength ++ (k.modulus ++ [0x02]))))) ++
          k.expLength ++ k.exponent = k.bytes := by simp [RsaPublicKey.bytes]
      have hint := derEncodingGetSize_spec _ _ k.exp_ok hsmall hdata
        (show _ = p + 1 by simp [hp]; omega) htag
      rw [int_of_lt hmod, ok_bind, int_of_lt htag, ok_bind, hint, hoffset]
      split
      · have hrange : subdata k.bytes (p + 1 + k.expLength.length) k.exponent.length =
            .ok k.exponent :=
          subdata_append (0x30 :: (k.seqLength ++ (0x02 :: (k.modLength ++ (k.modulus ++
            (0x02 :: k.expLength)))))) [] (by simp [RsaPublicKey.bytes]) (by simp [hp]; omega)
        rw [ok_bind, hrange]
        rfl
      · rfl
    · rw [int_of_lt hmod, ok_bind, int_of_le (by omega), error_bind, if_neg (by omega)]
  · rw [int_of_le (by omega), error_bind, if_neg (by omega)]

/-- `getPublicKeyMod` returns the contents of the first INTEGER, and
`getPublicKeyExp` those of the second just if they begin in the range of its
`int` cursor. -/
theorem publicKey_parsing (hk : k.Small) :
    getPublicKeyMod (some k.bytes) = .ok (some k.modulus) ∧
      (getPublicKeyExp (some k.bytes) = .ok (some k.exponent) ↔ k.expOffset < 2 ^ 31) := by
  refine ⟨getPublicKeyMod_bytes k hk, ?_⟩
  rw [getPublicKeyExp_bytes k hk]
  split
  next hlt => exact iff_of_true rfl hlt
  next hge => exact iff_of_false (fun h => by cases h) hge

/-- A key with a short modulus and the exponent 65537. -/
def smallKey : RsaPublicKey where
  modulus := [0x00, 0xc3, 0x5f]
  exponent := [0x01, 0x00, 0x01]
  seqLength := [0x0a]
  modLength := [0x03]
  expLength := [0x03]
  mod_ok := .short 0x03 (by decide)
  exp_ok := .short 0x03 (by decide)
  seq_ok := .short 0x0a (by decide)

theorem publicKey_parsing_small :
    getPublicKeyMod (some smallKey.bytes) = .ok (some [0x00, 0xc3, 0x5f]) ∧
      (getPublicKeyExp (some smallKey.bytes) = .ok (some [0x01, 0x00, 0x01]) ↔
        smallKey.expOffset < 2 ^ 31) :=
  publicKey_parsing smallKey (by decide)

/-- A key whose modulus takes nearly all of the `2 ^ 31 - 1` octets that the
SEQUENCE holds. -/
def hugeKey : RsaPublicKey where
  modulus := List.replicate 0x7ffffff6 0x01
  exponent := [0x03]
  seqLength := [0x84, 0x7f, 0xff, 0xff, 0xff]
  modLength := [0x84, 0x7f, 0xff, 0xff, 0xf6]
  expLength := [0x01]
  mod_ok := by
    rw [List.length_replicate]
    exact .long 0x84 [0x7f, 0xff, 0xff, 0xf6] rfl (by decide) (by decide)
  exp_ok := .short 0x01 (by decide)
  seq_ok := by
    rw [List.length_replicate]
    exact .long 0x84 [0x7f, 0xff, 0xff, 0xff] rfl (by decide) (by decide)

/-- All content lengths of this key are below `2 ^ 31`, but the contents of its
second INTEGER begin behind the range of `int`. -/
theorem not_publicKey_parsing :
    ¬ ∀ k : RsaPublicKey, k.Small → getPublicKeyMod (some k.bytes) = .ok (some k.modulus) ∧
      getPublicKeyExp (some k.bytes) = .ok (some k.exponent) := by
  intro h
  have hlen : hugeKey.modulus.length = 0x7ffffff6 := List.length_replicate
  have hsmall : hugeKey.Small := by
    rw [RsaPublicKey.Small, hlen]
    decide
  have hexp := (h hugeKey hsmall).2
  have hoffset : ¬ hugeKey.expOffset < 2 ^ 31 := by
    rw [RsaPublicKey.expOffset, hlen]
    decide
  rw [getPublicKeyExp_bytes hugeKey hsmall, if_neg hoffset] at hexp
  cases hexp

end Libcage.Agent
