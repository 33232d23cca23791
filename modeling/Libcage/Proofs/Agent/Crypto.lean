import Libcage.Proofs.Agent.SecKeyWrapper

/-!
# `Libcage.Proofs.Agent.Crypto`: export and import of public keys

`encodeLength` writes a number of octets that grows with `length / 256`, so its
octets are length octets as long as they fit into `builder`
(`encodeLength_spec`), and the shortest ones only below 512
(`encodeOctets_shortest_iff`). The import skips length octets of any form
(`importX509_spec`).
-/

set_option autoImplicit false

namespace Libcage.Agent

open Lib

/-- The octets of `encodeLength`. -/
def lengthBytes (length : Nat) : List Byte :=
  if length < 128 then [BitVec.ofNat 8 length]
  else BitVec.ofNat 8 (length / 256 + 1 + 0x80) :: octets (length / 256 + 1) length
where
  /-- The last `i` octets of a number, most significant octet first. -/
  octets : Nat → Nat → List Byte
    | 0, _ => []
    | i + 1, length => octets i (length / 256) ++ [BitVec.ofNat 8 length]

/-- SubjectPublicKeyInfo of an RSA key: the algorithm rsaEncryption with NULL
parameters, and the key as a BIT STRING without unused bits. -/
def IsSubjectPublicKeyInfo (key bytes : List Byte) : Prop :=
  ∃ oid null algorithm bits,
    IsTlv 0x06 [0x2a, 0x86, 0x48, 0x86, 0xf7, 0x0d, 0x01, 0x01, 0x01] oid ∧
    IsTlv 0x05 [] null ∧ IsTlv 0x30 (oid ++ null) algorithm ∧
    IsTlv 0x03 (0x00 :: key) bits ∧ IsTlv 0x30 (algorithm ++ bits) bytes

/-! ## Writing a length -/

theorem length_octets (i n : Nat) : (lengthBytes.octets i n).length = i := by
  induction i generalizing n with
  | zero => rfl
  | succ i ih => simp [lengthBytes.octets, ih]

/-- The last `i` octets of a number denote the number modulo a power of 256. -/
theorem octetsValue_octets (i n : Nat) : octetsValue (lengthBytes.octets i n) = n % 256 ^ i := by
  induction i generalizing n with
  | zero => simp [lengthBytes.octets, octetsValue, Nat.mod_one]
  | succ i ih =>
    have hlast : octetsValue (lengthBytes.octets (i + 1) n) =
        octetsValue (lengthBytes.octets i (n / 256)) * 256 + n % 256 := by
      simp [lengthBytes.octets, octetsValue, octetsFrom, List.foldl_append]
    rw [hlast, ih, pow_succ, Nat.mul_comm (256 ^ i), Nat.mod_mul]
    omega

/-- A byte put inside the builder. -/
theorem put_spec (builder : Builder) {i : Nat} (x : Byte) (h : i < 15) :
    ∃ builder', builder.put i x = some builder' ∧
      builder'.toList = builder.toList.take i ++ x :: builder.toList.drop (i + 1) := by
  refine ⟨builder.set i x, dif_pos h, ?_⟩
  rw [Vector.toList_set, List.set_eq_take_append_cons_drop, if_pos (by simpa using h)]

theorem put_outside (builder : Builder) {i : Nat} (x : Byte) (h : 15 ≤ i) :
    builder.put i x = none := dif_neg (Nat.not_lt.mpr h)

/-- The loop of `encodeLength` writes the octets behind `buf[0]`. -/
theorem encodeOctets_spec (off i n : Nat) (builder : Builder) (h : off + i < 15) :
    ∃ builder', encodeOctets off i n builder = some builder' ∧
      builder'.toList = builder.toList.take (off + 1) ++ lengthBytes.octets i n ++
        builder.toList.drop (off + 1 + i) := by
  induction i generalizing n builder with
  | zero => exact ⟨builder, rfl, by simp [lengthBytes.octets]⟩
  | succ i ih =>
    have hidx : off + (i + 1) = off + 1 + i := by omega
    obtain ⟨mid, hput, hmid⟩ := put_spec builder (BitVec.ofNat 8 n) h
    obtain ⟨builder', hrun, hlist⟩ := ih (n / 256) mid (by omega)
    rw [hidx] at hmid
    have hlen : (builder.toList.take (off + 1 + i)).length = off + 1 + i := by
      simp
      omega
    refine ⟨builder', by simp [encodeOctets, hput, hrun], ?_⟩
    rw [hlist, hmid, List.take_append_of_le_length (by omega), List.take_take,
      Nat.min_eq_left (by omega), List.drop_left' hlen, lengthBytes.octets]
    simp [Nat.add_assoc]

theorem length_lengthBytes (n : Nat) :
    (lengthBytes n).length = if n < 128 then 1 else n / 256 + 2 := by
  rw [lengthBytes]
  split
  · rfl
  · rw [List.length_cons, length_octets]

/-- `encodeLength` at `builder[1]`, where the octets fit. -/
theorem encodeLength_spec (builder : Builder) (n : Nat) (h : (lengthBytes n).length < 15) :
    ∃ builder', encodeLength builder 1 n = some (builder', (lengthBytes n).length) ∧
      builder'.toList = builder.toList.take 1 ++ lengthBytes n ++
        builder.toList.drop (1 + (lengthBytes n).length) := by
  rw [length_lengthBytes] at h
  rw [encodeLength, length_lengthBytes, lengthBytes]
  by_cases hn : n < 128
  · obtain ⟨builder', hput, hlist⟩ := put_spec builder (i := 1) (BitVec.ofNat 8 n) (by decide)
    exact ⟨builder', by simp [hn, hput], by simp [hn, hlist]⟩
  · rw [if_neg hn] at h
    obtain ⟨mid, hput, hmid⟩ :=
      put_spec builder (i := 1) (BitVec.ofNat 8 (n / 256 + 1 + 0x80)) (by decide)
    obtain ⟨builder', hrun, hlist⟩ := encodeOctets_spec 1 (n / 256 + 1) n mid (by omega)
    obtain ⟨b, bs, hcons⟩ : ∃ b bs, builder.toList = b :: bs :=
      List.exists_cons_of_length_pos (by simp)
    have hbehind : 1 + (n / 256 + 2) = n / 256 + 1 + 1 + 1 := by omega
    have hdrop : 1 + 1 + (n / 256 + 1) = n / 256 + 1 + 1 + 1 := by omega
    refine ⟨builder', by simp only [if_neg hn, hput]; simp [hrun], ?_⟩
    rw [if_neg hn, if_neg hn, hlist, hmid, hcons, hbehind, hdrop]
    simp

/-- `encodeLength` at `builder[1]` leaves the builder where the octets do not fit. -/
theorem encodeLength_outside (builder : Builder) (n : Nat) (h : 15 ≤ (lengthBytes n).length) :
    encodeLength builder 1 n = none := by
  rw [length_lengthBytes] at h
  split at h
  · omega
  next hn =>
    obtain ⟨mid, hput, -⟩ :=
      put_spec builder (i := 1) (BitVec.ofNat 8 (n / 256 + 1 + 0x80)) (by decide)
    have hout : encodeOctets 1 (n / 256 + 1) n mid = none := by
      rw [encodeOctets, put_outside _ _ (by omega)]
      rfl
    simp only [encodeLength, if_neg hn, hput]
    simp [hout]

/-! ## Lengths that DER allows -/

/-- Where they fit, the octets are length octets. -/
theorem lengthOctets_lengthBytes {n : Nat} (h : (lengthBytes n).length < 15) :
    LengthOctets (lengthBytes n) n := by
  rw [length_lengthBytes] at h
  rw [lengthBytes]
  split
  next hn =>
    have hnum : (BitVec.ofNat 8 n).toNat = n := Nat.mod_eq_of_lt (by omega)
    have hshort := LengthOctets.short (BitVec.ofNat 8 n) (by omega)
    rwa [hnum] at hshort
  next hn =>
    rw [if_neg hn] at h
    obtain ⟨i, hi⟩ : ∃ i, i = n / 256 := ⟨_, rfl⟩
    rw [← hi] at h ⊢
    have hnum : (BitVec.ofNat 8 (i + 1 + 0x80)).toNat = i + 1 + 0x80 :=
      Nat.mod_eq_of_lt (by omega)
    have hlen := length_octets (i + 1) n
    have hlong := LengthOctets.long (BitVec.ofNat 8 (i + 1 + 0x80)) (lengthBytes.octets (i + 1) n)
      (by omega) (by omega) (by omega)
    have hpow : n < 256 ^ (i + 1) := by
      have hle : i + 1 ≤ 256 ^ i := Nat.succ_le_of_lt (Nat.lt_pow_self (by decide))
      calc n < 256 * (i + 1) := by omega
        _ ≤ 256 * 256 ^ i := Nat.mul_le_mul_left _ hle
        _ = 256 ^ (i + 1) := by rw [pow_succ, Nat.mul_comm]
    rwa [octetsValue_octets, Nat.mod_eq_of_lt hpow] at hlong

/-- The octets are the shortest ones just for lengths below 512. -/
theorem derLength_lengthBytes_iff {n : Nat} (h : (lengthBytes n).length < 15) :
    DerLength (lengthBytes n) n ↔ n < 512 := by
  have hoctets := lengthOctets_lengthBytes h
  have hlen := length_lengthBytes n
  constructor
  · intro hder
    by_contra hge
    rw [if_neg (by omega)] at hlen
    -- two octets behind the first would do
    have htwo : octetsValue [BitVec.ofNat 8 (n / 256), BitVec.ofNat 8 n] = n := by
      simp only [octetsValue, octetsFrom, List.foldl_cons, List.foldl_nil, BitVec.toNat_ofNat]
      omega
    have hshort := LengthOctets.long 0x82 [BitVec.ofNat 8 (n / 256), BitVec.ofNat 8 n] rfl
      (Nat.zero_lt_succ 1) (by simp)
    rw [htwo] at hshort
    have hle := hder.2 _ hshort
    simp only [List.length_cons, List.length_nil] at hle
    omega
  · intro hlt
    refine ⟨hoctets, fun os' hos' => ?_⟩
    have hpos := hos'.pos
    by_cases h128 : n < 128
    · rw [if_pos h128] at hlen
      omega
    · have hone := hos'.one_lt (by omega)
      rw [if_neg h128] at hlen
      by_cases h256 : n < 256
      · omega
      · have htwo := hos'.two_lt (by omega)
        omega

/-! ## Export -/

/-- `bitstringEncLength`. -/
def bitstringEncLength (key : List Byte) : Nat :=
  if sizeT (sizeT key.length + 1) < 128 then 1 else sizeT (sizeT key.length + 1) / 256 + 2

/-- The length of the SEQUENCE that the export computes. -/
def sequenceLength (key : List Byte) : Nat :=
  sizeT (oidSequence.length + 2 + bitstringEncLength key + sizeT key.length)

/-- The length of the BIT STRING that the export computes. -/
def bitstringLength (key : List Byte) : Nat := sizeT (sizeT key.length + 1)

/-- The bytes of an export. -/
def exported (key : List Byte) : List Byte :=
  0x30 :: (lengthBytes (sequenceLength key) ++ (oidSequence ++
    (0x03 :: (lengthBytes (bitstringLength key) ++ (0x00 :: key)))))

/-- A tag and the length behind it. -/
theorem put_encodeLength (builder : Builder) (t : Byte) {n : Nat}
    (h : (lengthBytes n).length < 15) :
    ∃ mid builder' rest, builder.put 0 t = some mid ∧
      encodeLength mid 1 n = some (builder', (lengthBytes n).length) ∧
      builder'.toList = t :: (lengthBytes n ++ rest) := by
  obtain ⟨mid, hput, hmid⟩ := put_spec builder (i := 0) t (by decide)
  obtain ⟨builder', hrun, hlist⟩ := encodeLength_spec mid n h
  refine ⟨mid, builder', mid.toList.drop (1 + (lengthBytes n).length), hput, hrun, ?_⟩
  rw [hlist, hmid]
  simp

/-- What is appended from a builder is what it begins with. -/
theorem bytes_of_toList {builder : Builder} {front behind : List Byte}
    (hlist : builder.toList = front ++ behind) : builder.bytes front.length = some front := by
  have hle : front.length ≤ 15 := by
    have hlength := congrArg List.length hlist
    rw [Vector.length_toList, List.length_append] at hlength
    omega
  rw [Builder.bytes, if_pos hle, hlist, List.take_left]

/-- The byte for the unused bits, behind a tag and a length. -/
theorem put_unusedBits {builder : Builder} {t : Byte} {os rest : List Byte}
    (hlist : builder.toList = t :: (os ++ rest)) (h : os.length < 14) :
    ∃ builder', builder.put (os.length + 1) 0x00 = some builder' ∧
      builder'.bytes (os.length + 2) = some (t :: (os ++ [0x00])) := by
  obtain ⟨builder', hput, hput'⟩ := put_spec builder (0x00 : Byte) (i := os.length + 1) (by omega)
  have hfront : (t :: (os ++ rest)).take (os.length + 1) = t :: os := by simp
  have hbegin : builder'.toList = (t :: (os ++ [0x00])) ++
      (t :: (os ++ rest)).drop (os.length + 1 + 1) := by
    rw [hput', hlist, hfront]
    simp
  have hbytes := bytes_of_toList hbegin
  rw [List.length_cons, List.length_append] at hbytes
  exact ⟨builder', hput, hbytes⟩

/-- The export writes its bytes if both lengths fit into the builder, the second
one with the byte behind it, and leaves the builder otherwise. -/
theorem getX509FormattedPublicKey_eq (builder : Builder) (key : List Byte) :
    getX509FormattedPublicKey builder key =
      if (lengthBytes (sequenceLength key)).length < 15 ∧
          (lengthBytes (bitstringLength key)).length < 14 then some (exported key)
      else none := by
  have hrun : getX509FormattedPublicKey builder key = (do
      let builder ← builder.put 0 0x30
      let length ← encodeLength builder 1 (sequenceLength key)
      let head ← length.1.bytes (length.2 + 1)
      let builder ← length.1.put 0 0x03
      let length ← encodeLength builder 1 (bitstringLength key)
      let builder ← length.1.put (length.2 + 1) 0x00
      let bitstring ← builder.bytes (length.2 + 2)
      some (head ++ oidSequence ++ bitstring ++ key)) := rfl
  rw [hrun]
  by_cases hseq : (lengthBytes (sequenceLength key)).length < 15
  · obtain ⟨mid, builder', rest, hput, hlength, hlist⟩ := put_encodeLength builder 0x30 hseq
    have hhead : builder'.bytes ((lengthBytes (sequenceLength key)).length + 1) =
        some (0x30 :: lengthBytes (sequenceLength key)) :=
      bytes_of_toList (show _ = (0x30 :: lengthBytes (sequenceLength key)) ++ rest from hlist)
    simp only [hput, hlength, hhead, Option.bind_eq_bind, Option.bind_some]
    by_cases hbit : (lengthBytes (bitstringLength key)).length < 15
    · obtain ⟨mid₂, builder₂, rest₂, hput₂, hlength₂, hlist₂⟩ :=
        put_encodeLength builder' 0x03 hbit
      simp only [hput₂, hlength₂, Option.bind_some]
      by_cases hzero : (lengthBytes (bitstringLength key)).length < 14
      · obtain ⟨builder₃, hput₃, htail⟩ := put_unusedBits hlist₂ hzero
        simp only [hput₃, htail, Option.bind_some]
        rw [if_pos ⟨hseq, hzero⟩, exported]
        simp
      · -- The length fits, and the byte behind it does not.
        rw [put_outside _ _ (by omega), if_neg (fun h => hzero h.2)]
        rfl
    · obtain ⟨mid₂, hput₂, -⟩ := put_spec builder' (i := 0) (0x03 : Byte) (by decide)
      simp only [hput₂, Option.bind_some, encodeLength_outside mid₂ _ (Nat.le_of_not_lt hbit)]
      rw [if_neg (fun h => hbit (by omega))]
      rfl
  · obtain ⟨mid, hput, -⟩ := put_spec builder (i := 0) (0x30 : Byte) (by decide)
    simp only [hput, Option.bind_eq_bind, Option.bind_some,
      encodeLength_outside mid _ (Nat.le_of_not_lt hseq)]
    rw [if_neg (fun h => hseq h.1)]
    rfl

/-! ## Import -/

theorem sizeT_of_lt {n : Nat} (h : n < 2 ^ 32) : sizeT n = n := Nat.mod_eq_of_lt h

theorem sizeSub_of_le {a b : Nat} (h : b ≤ a) (ha : a < 2 ^ 32) : sizeSub a b = a - b := by
  rw [sizeSub, sizeT]
  omega

theorem raiseIf_of_false {p : Prop} [Decidable p] (h : ¬ p) : raiseIf (decide p) = .ok () := by
  rw [decide_eq_false h]
  rfl

/-- Length octets of any form are skipped. -/
theorem skipSize_spec (pre rest : List Byte) {os bytes : List Byte} {n p : Nat}
    (h : LengthOctets os n) (hbytes : pre ++ (os ++ rest) = bytes) (hp : pre.length = p)
    (hlen : bytes.length < 2 ^ 32) : skipSize bytes p = .ok (p + os.length) := by
  subst hbytes hp
  simp only [List.length_append] at hlen
  cases h with
  | short o ho =>
    have hshort : ¬ (0x80 : Byte) < o := by
      rw [BitVec.lt_def]
      exact Nat.not_lt.mpr (Nat.le_of_lt ho)
    rw [skipSize, List.singleton_append, readAt_append, ok_bind, if_neg hshort,
      sizeT_of_lt (by simp at hlen; omega)]
    rfl
  | long o ds hd pos lt =>
    have hlong : (0x80 : Byte) < o := by
      rw [BitVec.lt_def, hd]
      exact Nat.lt_add_of_pos_right pos
    have hnum : o.toNat - 0x80 + 1 = (o :: ds).length := by
      rw [List.length_cons]
      omega
    rw [skipSize, List.cons_append, readAt_append, ok_bind, if_pos hlong, hnum,
      sizeT_of_lt (by omega)]
    rfl

theorem readAt_of_append (pre rest : List Byte) {b : Byte} {bytes : List Byte} {p : Nat}
    (hbytes : pre ++ b :: rest = bytes) (hp : pre.length = p) : readAt bytes p = .ok b := by
  subst hbytes hp
  exact readAt_append pre rest b

/-- The import yields what stands behind the wrapping, whatever form the lengths
have, and raises the exception where nothing does. -/
theorem importX509_spec {os os₂ key bytes : List Byte} {n m : Nat} (h : LengthOctets os n)
    (h₂ : LengthOctets os₂ m)
    (hbytes : 0x30 :: (os ++ (oidSequence ++ (0x03 :: (os₂ ++ (0x00 :: key))))) = bytes)
    (hlen : bytes.length < 2 ^ 32) :
    importX509 bytes = if key = [] then .error .exception else .ok key := by
  have hoid : oidSequence.length = 15 := rfl
  have htotal : bytes.length = 18 + os.length + os₂.length + key.length := by
    rw [← hbytes]
    simp only [List.length_cons, List.length_append, hoid]
    omega
  have hpos := h.pos
  have hpos₂ := h₂.pos
  obtain ⟨p, hp⟩ : ∃ p, p = 1 + os.length := ⟨_, rfl⟩
  obtain ⟨q, hq⟩ : ∃ q, q = p + 15 + 1 + os₂.length := ⟨_, rfl⟩
  -- what the import reads, in its order
  have hfirst : readAt bytes 0 = .ok 0x30 :=
    readAt_of_append [] _ hbytes rfl
  have hskip : skipSize bytes 1 = .ok p := by
    rw [hp]
    exact skipSize_spec [0x30] _ h hbytes rfl hlen
  have hseq : readAt bytes p = .ok 0x30 :=
    readAt_of_append (0x30 :: os) (oidSequence.tail ++ (0x03 :: (os₂ ++ (0x00 :: key)))) hbytes
      (by simp [hp]; omega)
  have hbit : readAt bytes (p + 15) = .ok 0x03 :=
    readAt_of_append (0x30 :: (os ++ oidSequence)) (os₂ ++ (0x00 :: key)) (by simp [← hbytes])
      (by simp [hp, hoid]; omega)
  have hskip₂ : skipSize bytes (p + 15 + 1) = .ok q := by
    rw [hq]
    exact skipSize_spec (0x30 :: (os ++ (oidSequence ++ [0x03]))) (0x00 :: key) h₂
      (by simp [← hbytes]) (by simp [hp, hoid]; omega) hlen
  have hzero : readAt bytes q = .ok 0x00 :=
    readAt_of_append (0x30 :: (os ++ (oidSequence ++ (0x03 :: os₂)))) key (by simp [← hbytes])
      (by simp [hq, hp, hoid]; omega)
  have hbehind : bytes.drop (q + 1) = key := by
    have hall : 0x30 :: (os ++ (oidSequence ++ (0x03 :: (os₂ ++ [0x00])))) ++ key = bytes := by
      simp [← hbytes]
    rw [← hall]
    exact List.drop_left' (by simp [hq, hp, hoid]; omega)
  have hend : bytes.length ≤ q + 1 ↔ key = [] := by
    rw [← List.length_eq_zero_iff]
    omega
  rw [importX509, hfirst, ok_bind, raiseIf_of_false (by decide), ok_bind, hskip, ok_bind,
    sizeT_of_lt hlen, raiseIf_of_false (by omega), ok_bind, hseq, ok_bind,
    raiseIf_of_false (by decide), ok_bind, sizeT_of_lt (show p + 15 < 2 ^ 32 by omega),
    sizeSub_of_le (by omega) hlen]
  dsimp only
  rw [raiseIf_of_false (by omega), ok_bind, hbit, ok_bind, raiseIf_of_false (by decide), ok_bind,
    sizeT_of_lt (show p + 15 + 1 < 2 ^ 32 by omega), hskip₂, ok_bind,
    raiseIf_of_false (by omega), ok_bind, hzero, ok_bind, raiseIf_of_false (by decide), ok_bind,
    sizeT_of_lt (show q + 1 < 2 ^ 32 by omega)]
  split
  next hnil =>
    rw [raiseIf, decide_eq_true (hend.mpr hnil)]
    rfl
  next hne =>
    rw [raiseIf_of_false (mt hend.mp hne), ok_bind, hbehind]
    exact congrArg Except.ok (List.take_of_length_le (by omega))

/-! ## Export and import -/

/-- The export is a SubjectPublicKeyInfo of the key, written inside of the
builder, and importing it yields the key. -/
def ExportRoundTrip (builder : Builder) (key : List Byte) : Prop :=
  ∃ bytes, getX509FormattedPublicKey builder key = some bytes ∧
    IsSubjectPublicKeyInfo key bytes ∧ importX509 bytes = .ok key

/-- What a SubjectPublicKeyInfo holds besides the key takes 17 bytes, and the
length of the BIT STRING. -/
theorem IsSubjectPublicKeyInfo.spki {key bytes : List Byte} (h : IsSubjectPublicKeyInfo key bytes) :
    ∃ os contents, DerLength os contents.length ∧ bytes = 0x30 :: (os ++ contents) ∧
      ∃ os₂, LengthOctets os₂ (key.length + 1) ∧
        17 + os₂.length + key.length ≤ contents.length := by
  obtain ⟨oid, null, algorithm, bits, hoid, hnull, halg, ⟨os₂, hos₂, rfl⟩, os, hos, rfl⟩ := h
  refine ⟨os, _, hos, rfl, os₂, hos₂.1, ?_⟩
  have h1 := hoid.length_le
  have h2 := hnull.length_le
  have h3 := halg.length_le
  simp only [List.length_cons, List.length_append, List.length_nil] at h1 h2 h3 ⊢
  omega

/-- Importing an export yields the key, unless it is empty. -/
theorem importX509_exported {key : List Byte} (hlen : (exported key).length < 2 ^ 32)
    (hseq : (lengthBytes (sequenceLength key)).length < 15)
    (hbit : (lengthBytes (bitstringLength key)).length < 14) :
    importX509 (exported key) = if key = [] then .error .exception else .ok key :=
  importX509_spec (lengthOctets_lengthBytes hseq) (lengthOctets_lengthBytes (by omega)) rfl hlen

/-- With lengths that are the right ones and the shortest ones, an export is a
SubjectPublicKeyInfo. -/
theorem isSubjectPublicKeyInfo_exported {key : List Byte}
    (hbit : DerLength (lengthBytes (bitstringLength key)) (key.length + 1))
    (hseq : DerLength (lengthBytes (sequenceLength key))
      (17 + (lengthBytes (bitstringLength key)).length + key.length)) :
    IsSubjectPublicKeyInfo key (exported key) := by
  refine ⟨_, _, oidSequence, _, ⟨[0x09], derLength_short (by decide), rfl⟩,
    ⟨[0x00], derLength_short (by decide), rfl⟩, ⟨[0x0d], derLength_short (by decide), rfl⟩,
    ⟨_, hbit, rfl⟩, _, ?_, rfl⟩
  have hcontents : (oidSequence ++ 0x03 :: (lengthBytes (bitstringLength key) ++
      0x00 :: key)).length = 17 + (lengthBytes (bitstringLength key)).length + key.length := by
    have hoid : oidSequence.length = 15 := rfl
    simp only [List.length_append, List.length_cons, hoid]
    omega
  rw [hcontents]
  exact hseq

/-- An export that is right is one of a key of 1 to 491 bytes. -/
theorem ExportRoundTrip.bounds {builder : Builder} {key : List Byte}
    (h : ExportRoundTrip builder key) : 1 ≤ key.length ∧ key.length ≤ 491 := by
  obtain ⟨bytes, hexport, hspki, himport⟩ := h
  rw [getX509FormattedPublicKey_eq] at hexport
  split at hexport
  next hfits =>
    obtain rfl := Option.some.inj hexport
    obtain ⟨os, contents, hder, hbytes, os₂, hos₂, hlen⟩ := hspki.spki
    -- the length the export computes is the one of the contents
    obtain ⟨rfl, hseq, -⟩ := (lengthOctets_lengthBytes hfits.1).append_inj hder.1
      (List.cons.inj hbytes).2
    rw [← hseq] at hder hlen
    have hlt := (derLength_lengthBytes_iff hfits.1).mp hder
    have hnonempty : key ≠ [] := by
      rintro rfl
      have hoid : oidSequence.length = 15 := rfl
      have hsmall : (exported []).length < 2 ^ 32 := by
        simp only [exported, List.length_cons, List.length_append, List.length_nil, hoid]
        omega
      rw [importX509_exported hsmall hfits.1 hfits.2, if_pos rfl] at himport
      cases himport
    have hpos : 1 ≤ key.length := List.length_pos_iff.mpr hnonempty
    by_cases h256 : 256 ≤ key.length + 1
    · have htwo := hos₂.two_lt h256
      omega
    · omega
  next => cases hexport

/-- The lengths of a key of up to 491 bytes: nothing wraps around. -/
theorem lengths_of_le {key : List Byte} (hle : key.length ≤ 491) :
    bitstringLength key = key.length + 1 ∧ bitstringEncLength key ≤ 3 ∧
      sequenceLength key = 17 + bitstringEncLength key + key.length ∧
      sequenceLength key < 512 := by
  have hoid : oidSequence.length = 15 := rfl
  have hkey : sizeT key.length = key.length := sizeT_of_lt (by omega)
  have hbits : bitstringLength key = key.length + 1 := by
    rw [bitstringLength, hkey, sizeT_of_lt (by omega)]
  have henc : bitstringEncLength key =
      if key.length + 1 < 128 then 1 else (key.length + 1) / 256 + 2 := by
    rw [bitstringEncLength, hkey, sizeT_of_lt (by omega)]
  have hshort : bitstringEncLength key ≤ 3 := by
    rw [henc]
    split <;> omega
  have hseq : sequenceLength key = 17 + bitstringEncLength key + key.length := by
    rw [sequenceLength, hkey, hoid, sizeT_of_lt (by omega)]
  have hlt : sequenceLength key < 512 := by
    rw [hseq, henc]
    split <;> omega
  exact ⟨hbits, hshort, hseq, hlt⟩

/-- The export of a key of 1 to 491 bytes is right. -/
theorem exportRoundTrip_of_bounds (builder : Builder) {key : List Byte} (hpos : 1 ≤ key.length)
    (hle : key.length ≤ 491) : ExportRoundTrip builder key := by
  have hbit : (lengthBytes (bitstringLength key)).length = bitstringEncLength key :=
    length_lengthBytes _
  have hoid : oidSequence.length = 15 := rfl
  obtain ⟨hbits, hshort, hseq, hlt⟩ := lengths_of_le hle
  have hfits : (lengthBytes (sequenceLength key)).length < 15 := by
    rw [length_lengthBytes]
    split <;> omega
  have hsmall : (exported key).length < 2 ^ 32 := by
    simp only [exported, List.length_cons, List.length_append, hoid]
    omega
  have hder := (derLength_lengthBytes_iff hfits).mpr hlt
  have hder₂ := (derLength_lengthBytes_iff (n := bitstringLength key) (by omega)).mpr (by omega)
  refine ⟨exported key, ?_, isSubjectPublicKeyInfo_exported ?_ ?_, ?_⟩
  · rw [getX509FormattedPublicKey_eq, if_pos ⟨hfits, by omega⟩]
  · rwa [hbits] at hder₂ ⊢
  · rwa [hbit, ← hseq]
  · rw [importX509_exported hsmall hfits (by omega), if_neg]
    exact List.length_pos_iff.mp hpos

/-- Export and import undo each other, in DER, just for keys of 1 to 491 bytes. -/
theorem exportRoundTrip_iff (builder : Builder) (key : List Byte) :
    ExportRoundTrip builder key ↔ 1 ≤ key.length ∧ key.length ≤ 491 :=
  ⟨ExportRoundTrip.bounds, fun h => exportRoundTrip_of_bounds builder h.1 h.2⟩

/-- The 526 bytes of a key of 4096 bits: the length of the SEQUENCE takes three
octets where two would do. -/
theorem not_exportRoundTrip :
    ¬ ∀ (builder : Builder) (key : List Byte), ExportRoundTrip builder key := by
  intro h
  have hle := (h (Vector.replicate 15 0) (List.replicate 526 0x5a)).bounds.2
  rw [List.length_replicate] at hle
  exact absurd hle (by decide)

end Libcage.Agent
