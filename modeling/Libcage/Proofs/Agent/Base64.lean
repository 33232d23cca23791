import Libcage.Agent.Base64
import Libcage.Lib.Except
import Libcage.Lib.Packets
import Libcage.Proofs.Agent.Crypto

/-!
# `Libcage.Proofs.Agent.Base64`: what the base64 functions write and read

`base64` is the alphabet of both tables. A buffer is followed by `Written`: what is in front of
it so far, and its size. `encodeLines_spec` is the loop of `NewBase64Encode` over the lines that
are left, and `decodeLoop_spec` that of `NewBase64Decode` over the text that is left.

`NewBase64Decode` is short by one byte where the text ends in whole groups and something else
behind them (`Clipped`).
-/

set_option autoImplicit false

namespace Libcage.Agent

open Lib

/-! ## The tables -/

/-- The value of a valid character. -/
def sextetOf (c : Byte) : Option Sextet :=
  if decodeLookup c = xx then none else some ((decodeLookup c).setWidth 6)

theorem decodeLookup_encodeLookup :
    ∀ v : Sextet, decodeLookup (encodeLookup (v.setWidth 8)) = v.setWidth 8 := by decide

theorem setWidth_ne_xx : ∀ v : Sextet, v.setWidth 8 ≠ xx := by decide

/-- The alphabet of the tables. -/
def base64 : Alphabet where
  char v := encodeLookup (v.setWidth 8)
  value := sextetOf
  value_char v := by
    rw [sextetOf, decodeLookup_encodeLookup, if_neg (setWidth_ne_xx v)]
    simp

/-- The text without line breaks. -/
abbrev encode (data : List Byte) : List Byte := base64.encode (asciiByte '=') data

/-- A character that is not valid has no value. -/
theorem value_eq_none_iff (c : Byte) : base64.value c = none ↔ decodeLookup c = xx := by
  show sextetOf c = none ↔ _
  simp [sextetOf]

theorem decodeLookup_lt : ∀ c : Byte, decodeLookup c ≠ xx → (decodeLookup c).toNat < 64 := by
  decide

/-- A valid character is looked up as its value. -/
theorem decodeLookup_of_value {c : Byte} {v : Sextet} (h : base64.value c = some v) :
    decodeLookup c = v.setWidth 8 := by
  have hne : decodeLookup c ≠ xx := by
    intro heq
    rw [(value_eq_none_iff c).mpr heq] at h
    cases h
  have hv : (decodeLookup c).setWidth 6 = v := by
    have h' : sextetOf c = some v := h
    rw [sextetOf, if_neg hne] at h'
    exact Option.some.inj h'
  rw [← hv]
  apply BitVec.eq_of_toNat_eq
  have hlt := decodeLookup_lt c hne
  simp only [BitVec.toNat_setWidth]
  omega

theorem value_pad : base64.value (asciiByte '=') = none := by decide

theorem values_crLf : base64.values crLf = [] := by decide

/-! ## Groups -/

theorem upper_six (b : Byte) : (b &&& 0xFC) >>> 2 = (b.extractLsb' 2 6).setWidth 8 := by
  revert b
  decide

theorem lower_two (b : Byte) : b &&& 0x03 = (b.extractLsb' 0 2).setWidth 8 := by
  revert b
  decide

theorem upper_four (b : Byte) : (b &&& 0xF0) >>> 4 = (b.extractLsb' 4 4).setWidth 8 := by
  revert b
  decide

theorem lower_four (b : Byte) : b &&& 0x0F = (b.extractLsb' 0 4).setWidth 8 := by
  revert b
  decide

theorem upper_two (b : Byte) : (b &&& 0xC0) >>> 6 = (b.extractLsb' 6 2).setWidth 8 := by
  revert b
  decide

theorem lower_six (b : Byte) : b &&& 0x3F = (b.extractLsb' 0 6).setWidth 8 := by
  revert b
  decide

theorem two_or_four (s : BitVec 2) (t : BitVec 4) :
    s.setWidth 8 <<< 4 ||| t.setWidth 8 = (s ++ t).setWidth 8 := by
  revert s t
  decide

theorem four_or_two (s : BitVec 4) (t : BitVec 2) :
    s.setWidth 8 <<< 2 ||| t.setWidth 8 = (s ++ t).setWidth 8 := by
  revert s t
  decide

/-- Three bytes are written as the characters of their sextets. -/
theorem groupChars_eq (b0 b1 b2 : Byte) :
    groupChars b0 b1 b2 = base64.chars (sextets [b0, b1, b2]) := by
  simp only [groupChars, groupIndices, sextets, upper_six, lower_two, upper_four, lower_four,
    upper_two, lower_six, two_or_four, four_or_two]
  rfl

theorem singlePad_eq (b0 b1 : Byte) : singlePad b0 b1 = encode [b0, b1] := by
  have hlast : (b1 &&& 0x0F) <<< 2 = (b1.extractLsb' 0 4 ++ 0#2).setWidth 8 := by
    rw [← four_or_two, lower_four]
    simp
  simp only [singlePad, upper_six, lower_two, upper_four, two_or_four, hlast]
  rfl

theorem doublePad_eq (b0 : Byte) : doublePad b0 = encode [b0] := by
  have hlast : (b0 &&& 0x03) <<< 4 = (b0.extractLsb' 0 2 ++ 0#4).setWidth 8 := by
    rw [← two_or_four, lower_two]
    simp
  simp only [doublePad, upper_six, hlast]
  rfl

theorem first_of_group (a b : Sextet) :
    a.setWidth 8 <<< 2 ||| (b.setWidth 8 : Byte) >>> 4 = a ++ b.extractLsb' 4 2 := by
  ext i hi
  simp
  grind

theorem second_of_group (b c : Sextet) :
    b.setWidth 8 <<< 4 ||| (c.setWidth 8 : Byte) >>> 2 = b.extractLsb' 0 4 ++ c.extractLsb' 2 4 := by
  ext i hi
  simp
  grind

theorem third_of_group (c d : Sextet) :
    c.setWidth 8 <<< 6 ||| d.setWidth 8 = (c.extractLsb' 0 2 ++ d : Byte) := by
  ext i hi
  simp
  grind

/-! ## Buffers -/

/-- A buffer of a size with a text in front, and the index behind the text. -/
def Written (size : Nat) (text : List Byte) (r : List Byte × Nat) : Prop :=
  ∃ rest, r.1 = text ++ rest ∧ r.2 = text.length ∧ r.1.length = size

theorem Written.index {size j : Nat} {text buf : List Byte} (h : Written size text (buf, j)) :
    j = text.length := h.choose_spec.2.1

/-- Nothing ends in a fault. -/
abbrev Returns {α : Type} (P : α → Prop) (x : Except BufferFault α) : Prop :=
  Ends P (fun _ => False) x

theorem Returns.exists_eq {α : Type} {P : α → Prop} {x : Except BufferFault α}
    (h : Returns P x) : ∃ a, x = .ok a ∧ P a := by
  cases x with
  | error e => exact h.elim
  | ok a => exact ⟨a, rfl, h⟩

theorem written_malloc (heap : Nat → Byte) (n : Nat) : Written n [] (malloc heap n, 0) :=
  ⟨malloc heap n, rfl, rfl, by simp [malloc]⟩

theorem getByte_append (pre rest : List Byte) (b : Byte) {i : Nat} (h : i = pre.length) :
    getByte (pre ++ b :: rest) i = .ok b := by
  rw [h, getByte]
  simp

/-- A byte goes behind the text. -/
theorem setByte_written {size : Nat} {text buf : List Byte} {j : Nat} (x : Byte)
    (h : Written size text (buf, j)) (hroom : text.length < size) :
    Returns (fun buf => Written size (text ++ [x]) (buf, j + 1)) (setByte buf j x) := by
  obtain ⟨rest, rfl, rfl, hsize⟩ := h
  cases rest with
  | nil =>
    simp at hsize
    omega
  | cons y rest =>
    have hlt : text.length < (text ++ y :: rest).length := by simp
    simp only [setByte, if_pos hlt]
    exact ⟨rest, by simp, by simp, by simpa using hsize⟩

theorem putBytes_written {size : Nat} (xs : List Byte) {text buf : List Byte} {j : Nat}
    (h : Written size text (buf, j)) (hroom : text.length + xs.length ≤ size) :
    Returns (Written size (text ++ xs)) (putBytes xs buf j) := by
  induction xs generalizing text buf j with
  | nil =>
    rw [List.append_nil]
    exact h
  | cons x xs ih =>
    rw [List.length_cons] at hroom
    apply Ends.bind (setByte_written x h (by omega))
    intro buf' h'
    have hrec := ih h' (by simp; omega)
    rwa [List.append_assoc, List.singleton_append] at hrec

/-- The zero behind a text is not part of it. -/
theorem setZero_written {size : Nat} {text : List Byte} {r : List Byte × Nat}
    (h : Written size text r) (hroom : text.length < size) :
    Returns (Written size text)
      (setByte r.1 r.2 0 >>= fun buf => (pure (buf, r.2) : Except BufferFault _)) := by
  apply Ends.bind (setByte_written 0 h hroom)
  rintro buf ⟨rest, hbuf, -, hsize⟩
  exact ⟨0 :: rest, by simpa using hbuf, Written.index h, hsize⟩

/-- What was written is copied out. -/
theorem copyBytes_written {size : Nat} {text : List Byte} {r : List Byte × Nat}
    (h : Written size text r) : copyBytes r.1 r.2 = .ok text := by
  obtain ⟨rest, hbuf, hj, -⟩ := h
  simp [copyBytes, hbuf, hj]

/-! ## `NewBase64Encode` -/

/-- The part of some bytes that is in whole groups. -/
def whole (bs : List Byte) : List Byte := bs.take (bs.length / 3 * 3)

/-- The bytes behind the whole groups. -/
def leftOver (bs : List Byte) : List Byte := bs.drop (bs.length / 3 * 3)

theorem length_whole (bs : List Byte) : (whole bs).length = bs.length / 3 * 3 := by
  simp only [whole, List.length_take]
  omega

theorem length_leftOver (bs : List Byte) : (leftOver bs).length = bs.length % 3 := by
  simp only [leftOver, List.length_drop]
  omega

theorem whole_cons (x y z : Byte) (bs : List Byte) :
    whole (x :: y :: z :: bs) = x :: y :: z :: whole bs := by
  have hlen : (bs.length + 1 + 1 + 1) / 3 * 3 = bs.length / 3 * 3 + 1 + 1 + 1 := by omega
  simp only [whole, List.length_cons, hlen, List.take_succ_cons]

theorem leftOver_cons (x y z : Byte) (bs : List Byte) :
    leftOver (x :: y :: z :: bs) = leftOver bs := by
  have hlen : (bs.length + 1 + 1 + 1) / 3 * 3 = bs.length / 3 * 3 + 1 + 1 + 1 := by omega
  simp only [leftOver, List.length_cons, hlen, List.drop_succ_cons]

/-- Bytes are written as their whole groups and what is left over. -/
theorem encode_whole (bs : List Byte) :
    base64.chars (sextets (whole bs)) ++ encode (leftOver bs) = encode bs := by
  induction bs using sextets.induct with
  | case1 x y z bs ih =>
    have hpad : (bs.length + 1 + 1 + 1) % 3 = bs.length % 3 := by omega
    rw [whole_cons, leftOver_cons]
    simp only [sextets, Alphabet.chars, List.map_cons, List.cons_append] at ih ⊢
    rw [ih]
    simp only [encode, Alphabet.encode, sextets, Alphabet.chars, List.map_cons, List.length_cons,
      List.cons_append, hpad]
  | case2 x y => simp [whole, leftOver, sextets, Alphabet.chars]
  | case3 x => simp [whole, leftOver, sextets, Alphabet.chars]
  | case4 => simp [whole, leftOver, sextets, Alphabet.chars]

/-- A line without a whole group ends the inner loop. -/
theorem encodeGroups_short {size : Nat} {line : List Byte} (hshort : line.length < 3) :
    ∀ (rounds : Nat) (pre post text buf : List Byte) (i j : Nat),
      line.length < rounds → i = pre.length → (pre ++ line ++ post).length < 2 ^ 32 - 2 →
      Written size text (buf, j) →
      text.length + (base64.chars (sextets (whole line))).length ≤ size →
      Returns (fun r => r.1 = i + line.length / 3 * 3 ∧
          Written size (text ++ base64.chars (sextets (whole line))) r.2)
        (encodeGroups (pre ++ line ++ post) (i + line.length) rounds i buf j) := by
  intro rounds pre post text buf i j hrounds hi hlt hbuf _
  cases rounds with
  | zero => cases hrounds
  | succ rounds =>
    simp only [List.length_append] at hlt
    have hnone : line.length / 3 = 0 := by omega
    have hwhole : whole line = [] := by simp [whole, hnone]
    rw [encodeGroups, sizeT_of_lt (by omega), if_neg (by omega), hnone, hwhole]
    refine ⟨by omega, ?_⟩
    rwa [show base64.chars (sextets []) = [] by rfl, List.append_nil]

/-- The inner loop writes the whole groups of a line. -/
theorem encodeGroups_spec {size : Nat} (line : List Byte) :
    ∀ (rounds : Nat) (pre post text buf : List Byte) (i j : Nat),
      line.length < rounds → i = pre.length → (pre ++ line ++ post).length < 2 ^ 32 - 2 →
      Written size text (buf, j) →
      text.length + (base64.chars (sextets (whole line))).length ≤ size →
      Returns (fun r => r.1 = i + line.length / 3 * 3 ∧
          Written size (text ++ base64.chars (sextets (whole line))) r.2)
        (encodeGroups (pre ++ line ++ post) (i + line.length) rounds i buf j) := by
  induction line using sextets.induct with
  | case1 x y z line ih =>
    intro rounds pre post text buf i j hrounds hi hlt hbuf hroom
    cases rounds with
    | zero => cases hrounds
    | succ rounds =>
      simp only [List.length_cons, List.length_append] at hrounds hlt
      have htake : sizeT (i + 2) < i + (line.length + 1 + 1 + 1) := by
        rw [sizeT_of_lt (by omega)]
        omega
      have h0 : getByte (pre ++ x :: y :: z :: line ++ post) i = .ok x := by
        rw [List.append_assoc]
        exact getByte_append pre _ x hi
      have h1 : getByte (pre ++ x :: y :: z :: line ++ post) (i + 1) = .ok y := by
        simpa using getByte_append (pre ++ [x]) (z :: line ++ post) y (by simp [hi])
      have h2 : getByte (pre ++ x :: y :: z :: line ++ post) (i + 2) = .ok z := by
        simpa using getByte_append (pre ++ [x, y]) (line ++ post) z (by simp [hi])
      have hchars : base64.chars (sextets (whole (x :: y :: z :: line))) =
          base64.chars (sextets [x, y, z]) ++ base64.chars (sextets (whole line)) := by
        rw [whole_cons]
        rfl
      rw [hchars] at hroom ⊢
      rw [List.length_append] at hroom
      rw [encodeGroups, List.length_cons, List.length_cons, List.length_cons, if_pos htake, h0,
        ok_bind, h1, ok_bind, h2, ok_bind, groupChars_eq]
      apply Ends.bind (putBytes_written _ hbuf (by omega))
      intro r hr
      have hinput : pre ++ [x, y, z] ++ line ++ post = pre ++ x :: y :: z :: line ++ post := by simp
      have hend : i + 3 + line.length = i + (line.length + 1 + 1 + 1) := by omega
      have hrec := ih rounds (pre ++ [x, y, z]) post _ r.1 (i + 3) r.2 (by omega) (by simp [hi])
        (by simp; omega) hr (by rw [List.length_append]; omega)
      rw [hinput, hend, List.append_assoc] at hrec
      rw [sizeT_of_lt (by omega)]
      apply hrec.mono
      · intro r' h'
        exact ⟨by omega, h'.2⟩
      · exact fun _ h => h
  | case2 x y => exact encodeGroups_short (by simp)
  | case3 x => exact encodeGroups_short (by simp)
  | case4 => exact encodeGroups_short (by simp)

/-- The text of some lines, with line breaks between them. -/
def broken (lines : List (List Byte)) : List Byte := crLf.intercalate (lines.map encode)

@[simp] theorem broken_nil : broken [] = [] := rfl

@[simp] theorem broken_singleton (line : List Byte) : broken [line] = encode line := by
  simp [broken, List.intercalate]

theorem broken_cons (line : List Byte) {lines : List (List Byte)} (h : lines ≠ []) :
    broken (line :: lines) = encode line ++ (crLf ++ broken lines) := by
  cases lines with
  | nil => exact absurd rfl h
  | cons line' lines => simp [broken, List.intercalate]

/-- A line of whole groups has no padding. -/
theorem encode_of_whole {bs : List Byte} (h : bs.length % 3 = 0) :
    base64.chars (sextets (whole bs)) = encode bs := by
  have hleft : leftOver bs = [] := by
    apply List.eq_nil_of_length_eq_zero
    rw [length_leftOver, h]
  have hall := encode_whole bs
  rwa [hleft, show encode [] = [] by rfl, List.append_nil] at hall

/-- The last line. -/
theorem broken_cut_short {L : Nat} {bs : List Byte} (h : bs.length ≤ L) :
    broken (cut L bs) = encode bs := by
  cases bs with
  | nil => rfl
  | cons b bs => rw [cut_of_short (List.cons_ne_nil b bs) h, broken_singleton]

/-- A line before the last one. -/
theorem broken_cut_long {L : Nat} {bs : List Byte} (hpos : 0 < L) (h : L < bs.length) :
    broken (cut L bs) = encode (bs.take L) ++ (crLf ++ broken (cut L (bs.drop L))) := by
  have hne : bs.drop L ≠ [] := by
    rw [ne_eq, List.drop_eq_nil_iff]
    omega
  rw [cut_eq_cons hpos (List.ne_nil_of_length_pos (by omega)),
    broken_cons _ (cut_ne_nil hpos _ hne)]

/-- The outer loop writes the lines that are left, up to the bytes behind the last group. -/
theorem encodeLines_spec {size L : Nat} {input : List Byte} (rounds : Nat) :
    ∀ (pre rest text buf : List Byte) (j : Nat),
      rest.length < rounds → input = pre ++ rest → input.length < 2 ^ 31 → L < 2 ^ 31 →
      (rest.length ≤ L ∨ 0 < L ∧ L % 3 = 0) → Written size text (buf, j) →
      text.length + (broken (cut L rest)).length ≤ size →
      Returns (fun r => r.1 + rest.length % 3 = input.length ∧
          ∃ out, Written size (text ++ out) r.2 ∧ out ++ encode (leftOver rest) = broken (cut L rest))
        (encodeLines input input.length L rounds (pre.length + L) pre.length buf j) := by
  induction rounds with
  | zero =>
    intro _ _ _ _ _ hrounds
    cases hrounds
  | succ rounds ih =>
    intro pre rest text buf j hrounds hinput hlt hLlt hL hbuf hroom
    have hlen : input.length = pre.length + rest.length := by rw [hinput, List.length_append]
    rw [encodeLines]
    by_cases hlast : rest.length ≤ L
    · -- The line ends with the input.
      have hend : (if pre.length + L > input.length then input.length else pre.length + L) =
          input.length := by
        split <;> omega
      rw [broken_cut_short hlast, ← encode_whole rest, List.length_append] at hroom
      have hgroups := encodeGroups_spec rest (input.length + 1) pre [] text buf pre.length j
        (by omega) rfl (by rw [List.append_nil, ← hinput]; omega) hbuf (by omega)
      rw [List.append_nil, ← hinput, ← hlen] at hgroups
      rw [hend]
      apply Ends.bind hgroups
      intro r hr
      simp only [if_true]
      refine ⟨by omega, _, hr.2, ?_⟩
      rw [encode_whole, broken_cut_short hlast]
    · -- A whole line and a line break, and the lines behind them.
      obtain ⟨hpos, hmod⟩ := hL.resolve_left hlast
      have hline : (rest.take L).length = L := by
        rw [List.length_take]
        omega
      have hsplit : pre ++ rest.take L ++ rest.drop L = input := by
        rw [List.append_assoc, List.take_append_drop, hinput]
      have hend : (if pre.length + L > input.length then input.length else pre.length + L) =
          pre.length + (rest.take L).length := by
        rw [hline, if_neg (by omega)]
      rw [broken_cut_long hpos (by omega)] at hroom ⊢
      simp only [List.length_append] at hroom
      have hwhole := encode_of_whole
        (show (rest.take L).length % 3 = 0 by rw [hline, hmod])
      have hgroups := encodeGroups_spec (rest.take L) (input.length + 1) pre (rest.drop L) text buf
        pre.length j (by omega) rfl (by rw [hsplit]; omega) hbuf (by rw [hwhole]; omega)
      rw [hsplit, hwhole] at hgroups
      rw [hend]
      apply Ends.bind hgroups
      rintro ⟨i, buf, j⟩ ⟨hi, hbuf⟩
      have hi : i = (pre ++ rest.take L).length := by
        rw [hline] at hi
        rw [List.length_append, hline]
        omega
      simp only [hline, if_neg (show pre.length + L ≠ input.length by omega)]
      apply Ends.bind (putBytes_written crLf hbuf (by rw [List.length_append]; omega))
      rintro ⟨buf, j⟩ hbuf
      have hrest : (rest.drop L).length = rest.length - L := List.length_drop
      have hrec := ih (pre ++ rest.take L) (rest.drop L) _ buf j (by omega) hsplit.symm hlt
        hLlt (Or.inr ⟨hpos, hmod⟩) hbuf (by simp only [List.length_append]; omega)
      have hsum : pre.length + L + L = (pre ++ rest.take L).length + L := by
        rw [List.length_append, hline]
      have hleft : leftOver (rest.drop L) = leftOver rest := by
        rw [leftOver, leftOver, List.drop_drop, hrest]
        congr 1
        omega
      rw [sizeT_of_lt (by omega), hsum, hi]
      apply hrec.mono
      · rintro r ⟨hend, out, hout, htext⟩
        rw [hleft] at htext
        refine ⟨by omega, encode (rest.take L) ++ (crLf ++ out), ?_, ?_⟩
        · simpa only [List.append_assoc] using hout
        · simp only [List.append_assoc, htext]
      · exact fun _ h => h

theorem length_encode (data : List Byte) : (encode data).length = (data.length + 2) / 3 * 4 :=
  base64.length_encode _ data

/-- The length of a text in lines of 64 characters. -/
theorem length_broken_lines (n : Nat) :
    ∀ data : List Byte, data.length ≤ n →
      (broken (cut 48 data)).length =
        (data.length + 2) / 3 * 4 + (data.length - 1) / 48 * 2 := by
  induction n with
  | zero =>
    intro data hdata
    rw [List.length_eq_zero_iff.mp (Nat.le_zero.mp hdata)]
    rfl
  | succ n ih =>
    intro data hdata
    by_cases hlast : data.length ≤ 48
    · rw [broken_cut_short hlast, length_encode]
      omega
    · have hline : (data.take 48).length = 48 := by
        rw [List.length_take]
        omega
      have hrest : (data.drop 48).length = data.length - 48 := List.length_drop
      have hcrLf : crLf.length = 2 := rfl
      rw [broken_cut_long (by decide) (by omega), List.length_append, List.length_append,
        length_encode, hline, hcrLf, ih (data.drop 48) (by omega), hrest]
      omega

/-- The text that `NewBase64Encode` writes. -/
def encoded (separateLines : Bool) (data : List Byte) : List Byte :=
  if separateLines then broken (cut 48 data) else encode data

/-- There is room for the text and the zero behind it. -/
theorem length_encoded_lt {data : List Byte} (separateLines : Bool) (h : data.length < 2 ^ 31) :
    (encoded separateLines data).length < encodeBufferSize data.length separateLines := by
  cases separateLines with
  | false =>
    have hsize : encodeBufferSize data.length false =
        (data.length / 3 + if data.length % 3 ≠ 0 then 1 else 0) * 4 + 1 := by
      simp only [encodeBufferSize, Bool.false_eq_true, if_false]
      split <;> rw [sizeT_of_lt (n := _ * 4) (by omega), sizeT_of_lt (by omega)]
    rw [hsize, encoded, if_neg (by simp), length_encode]
    split <;> omega
  | true =>
    have hsize : encodeBufferSize data.length true =
        (data.length / 3 + if data.length % 3 ≠ 0 then 1 else 0) * 4 +
          (data.length / 3 + if data.length % 3 ≠ 0 then 1 else 0) * 4 / 64 * 2 + 1 := by
      simp only [encodeBufferSize, if_true]
      split <;>
        rw [sizeT_of_lt (n := _ * 4) (by omega), sizeT_of_lt (n := _ + _ / 64 * 2) (by omega),
          sizeT_of_lt (by omega)]
    rw [hsize, encoded, if_pos rfl, length_broken_lines _ data (Nat.le_refl _)]
    split <;> omega

/-- `NewBase64Encode` writes the text, and stays in its buffer. -/
theorem newBase64Encode_spec (heap : Nat → Byte) {data : List Byte} (separateLines : Bool)
    (h : data.length < 2 ^ 31) :
    Returns (Written (encodeBufferSize data.length separateLines) (encoded separateLines data))
      (newBase64Encode heap data separateLines) := by
  have hroom := length_encoded_lt separateLines h
  have hlines : (if separateLines then broken (cut 48 data) else encode data) =
      broken (cut (if separateLines then 48 else data.length) data) := by
    cases separateLines with
    | true => rfl
    | false => exact (broken_cut_short (Nat.le_refl _)).symm
  have hL : data.length ≤ (if separateLines then 48 else data.length) ∨
      0 < (if separateLines then 48 else data.length) ∧
        (if separateLines then 48 else data.length) % 3 = 0 := by
    cases separateLines with
    | true => simp
    | false => exact Or.inl (Nat.le_refl _)
  have hLlt : (if separateLines then 48 else data.length) < 2 ^ 31 := by
    split <;> omega
  have hwhole : whole data ++ leftOver data = data := List.take_append_drop _ data
  have hleft := length_leftOver data
  rw [encoded, hlines] at hroom ⊢
  simp only [newBase64Encode, sizeT_of_lt (show data.length < 2 ^ 32 by omega)]
  generalize (if separateLines then 48 else data.length) = L at hroom hL hLlt ⊢
  generalize encodeBufferSize data.length separateLines = size at hroom ⊢
  have hall := encodeLines_spec (data.length + 1) [] data [] (malloc heap size) 0
    (Nat.lt_succ_self _) rfl h hLlt hL (written_malloc heap _) (by simpa using Nat.le_of_lt hroom)
  rw [List.length_nil, Nat.zero_add] at hall
  apply Ends.bind hall
  rintro ⟨i, buf, j⟩ ⟨hi, out, hbuf, htext⟩
  rw [← htext, List.length_append] at hroom
  rw [← htext]
  rw [List.nil_append] at hi hbuf
  dsimp only at hi hbuf ⊢
  have hi' : i = (whole data).length := by
    rw [length_whole]
    omega
  -- The bytes behind the last group, by their number.
  cases hrest : leftOver data with
  | nil =>
    rw [hrest] at hleft hroom
    rw [show encode [] = [] by rfl, List.append_nil]
    rw [List.length_nil] at hleft
    rw [sizeT_of_lt (by omega), if_neg (by omega), if_neg (by omega)]
    exact setZero_written hbuf (by omega)
  | cons x rest =>
    rw [hrest] at hleft hwhole hroom
    have hx : getByte data i = .ok x := by
      rw [← hwhole]
      exact getByte_append _ rest x hi'
    rw [List.length_cons] at hleft
    cases rest with
    | nil =>
      rw [List.length_nil] at hleft
      rw [sizeT_of_lt (by omega), if_neg (by omega), if_pos (by omega), hx, ok_bind, doublePad_eq]
      apply Ends.bind (putBytes_written _ hbuf (by omega))
      intro r hr
      exact setZero_written hr (by rw [List.length_append]; omega)
    | cons y rest =>
      have hnil : rest = [] := by
        apply List.eq_nil_of_length_eq_zero
        rw [List.length_cons] at hleft
        omega
      subst hnil
      simp only [List.length_cons, List.length_nil] at hleft
      have hy : getByte data (i + 1) = .ok y := by
        rw [← hwhole]
        simpa using getByte_append (whole data ++ [x]) [] y (by simp [hi'])
      rw [sizeT_of_lt (by omega), if_pos (by omega), hx, ok_bind, hy, ok_bind, singlePad_eq]
      apply Ends.bind (putBytes_written _ hbuf (by omega))
      intro r hr
      exact setZero_written hr (by rw [List.length_append]; omega)

/-! ## `NewBase64Decode` -/

/-- Sextets as they are looked up. -/
def wide (us : List Sextet) : List Byte := us.map (BitVec.setWidth 8)

/-- The sextets of a text. -/
abbrev values (text : List Byte) : List Sextet := base64.values text

@[simp] theorem values_nil : values [] = [] := rfl

theorem values_cons_none {c : Byte} (h : base64.value c = none) (text : List Byte) :
    values (c :: text) = values text := List.filterMap_cons_none h

theorem values_cons_some {c : Byte} {v : Sextet} (h : base64.value c = some v)
    (text : List Byte) : values (c :: text) = v :: values text := List.filterMap_cons_some h

theorem values_append (text rest : List Byte) : values (text ++ rest) = values text ++ values rest :=
  base64.values_append text rest

/-- The text ends in whole groups, and in a character that is not valid behind them. -/
def Clipped (text : List Byte) : Prop :=
  text ≠ [] ∧ (values text).length % 4 = 0 ∧ ∀ c ∈ text.getLast?, base64.value c = none

instance : DecidablePred Clipped := fun _ => inferInstanceAs (Decidable (_ ∧ _ ∧ _))

/-- A text whose last character is valid. -/
def EndsValid (text : List Byte) : Prop := ∃ c ∈ text.getLast?, base64.value c ≠ none

/-- The inner loop takes a front of the text: four valid characters, or all that is left. -/
theorem accumulate_spec (input : List Byte) :
    ∀ us : List Sextet, us.length < 4 →
      ∃ front rest, input = front ++ rest ∧
        accumulate input (wide us) = (wide (us ++ values front), rest) ∧
        ((us ++ values front).length = 4 ∧ EndsValid front ∨
          rest = [] ∧ (us ++ values front).length < 4) := by
  induction input with
  | nil =>
    intro us hus
    exact ⟨[], [], rfl, by simp [accumulate], Or.inr ⟨rfl, by simpa using hus⟩⟩
  | cons c input ih =>
    intro us hus
    cases hv : base64.value c with
    | none =>
      have hxx := (value_eq_none_iff c).mp hv
      obtain ⟨front, rest, hinput, hacc, hend⟩ := ih us hus
      refine ⟨c :: front, rest, by rw [hinput, List.cons_append], ?_, ?_⟩
      · rw [accumulate, if_neg (not_not.mpr hxx), hacc, values_cons_none hv]
      · rw [values_cons_none hv]
        apply hend.imp_left
        rintro ⟨hfour, d, hd, hvalid⟩
        refine ⟨hfour, d, ?_, hvalid⟩
        rw [List.getLast?_cons, Option.mem_def.mp hd]
        rfl
    | some v =>
      have hlook := decodeLookup_of_value hv
      have hne : decodeLookup c ≠ xx := by
        rw [hlook]
        exact setWidth_ne_xx v
      have hpush : wide us ++ [decodeLookup c] = wide (us ++ [v]) := by
        rw [hlook]
        simp [wide]
      have hlen : (wide us).length = us.length := List.length_map _
      rw [accumulate, if_pos hne, hpush, hlen]
      split
      · rename_i hfour
        refine ⟨[c], input, rfl, ?_, Or.inl ⟨?_, c, rfl, by simp [hv]⟩⟩
        · rw [values_cons_some hv]
          rfl
        · rw [values_cons_some hv, List.length_append]
          exact hfour
      · rename_i hfour
        obtain ⟨front, rest, hinput, hacc, hend⟩ := ih (us ++ [v]) (by simp; omega)
        have happend : us ++ values (c :: front) = us ++ [v] ++ values front := by
          rw [values_cons_some hv, List.append_assoc, List.singleton_append]
        refine ⟨c :: front, rest, by rw [hinput, List.cons_append], ?_, ?_⟩
        · rw [hacc, happend]
        · rw [happend]
          apply hend.imp_left
          rintro ⟨hall, d, hd, hvalid⟩
          refine ⟨hall, d, ?_, hvalid⟩
          rw [List.getLast?_cons, Option.mem_def.mp hd]
          rfl

/-- A group of up to four characters is stored as its octets. -/
theorem storeGroup_spec {size : Nat} {text buf : List Byte} {us : List Sextet}
    (hus : us.length ≤ 4) (h : Written size text (buf, text.length))
    (hroom : text.length + (octets us).length ≤ size) :
    Returns (fun buf => Written size (text ++ octets us) (buf, (text ++ octets us).length))
      (storeGroup (wide us) buf text.length) := by
  have hnone : Returns (fun buf => Written size text (buf, text.length)) (.ok buf) := h
  cases us with
  | nil => simpa [storeGroup, wide, octets, ok_bind] using hnone
  | cons a us =>
    cases us with
    | nil => simpa [storeGroup, wide, octets, ok_bind] using hnone
    | cons b us =>
      cases us with
      | nil =>
        simp [storeGroup, wide, octets, byteAt, ok_bind, first_of_group] at hroom ⊢
        apply Ends.bind (setByte_written _ h (by omega))
        exact fun buf hbuf => hbuf
      | cons c us =>
        cases us with
        | nil =>
          simp [storeGroup, wide, octets, byteAt, first_of_group, second_of_group] at hroom ⊢
          apply Ends.bind (setByte_written _ h (by omega))
          intro buf hbuf
          apply Ends.bind (setByte_written _ hbuf (by simp; omega))
          intro buf hbuf
          rw [List.append_assoc] at hbuf
          exact hbuf
        | cons d us =>
          have hnil : us = [] := by
            apply List.eq_nil_of_length_eq_zero
            simp only [List.length_cons] at hus
            omega
          subst hnil
          simp [storeGroup, wide, octets, byteAt, first_of_group, second_of_group, third_of_group]
            at hroom ⊢
          apply Ends.bind (setByte_written _ h (by omega))
          intro buf hbuf
          apply Ends.bind (setByte_written _ hbuf (by simp; omega))
          intro buf hbuf
          have hlast := setByte_written (c.extractLsb' 0 2 ++ d) hbuf (by simp; omega)
          simpa using hlast

/-- Where the last character of the last part is valid, the text is not clipped. -/
theorem EndsValid.not_clipped {text : List Byte} (h : EndsValid text) : ¬ Clipped text := by
  rintro ⟨-, -, hnone⟩
  obtain ⟨c, hc, hvalid⟩ := h
  exact hvalid (hnone c hc)

/-- The last part says how a text ends. -/
theorem endsValid_append {front rest : List Byte} (h : rest ≠ []) :
    EndsValid (front ++ rest) ↔ EndsValid rest := by
  rw [EndsValid, EndsValid, List.getLast?_append_of_ne_nil _ h]

/-- A whole group in front does not count. -/
theorem clipped_append {front rest : List Byte} (hfour : (values front).length = 4)
    (hvalid : EndsValid front) : Clipped (front ++ rest) ↔ Clipped rest := by
  by_cases hrest : rest = []
  · rw [hrest, List.append_nil]
    exact iff_of_false hvalid.not_clipped fun h => h.1 rfl
  · have hlast : (front ++ rest).getLast? = rest.getLast? := by
      rw [List.getLast?_append_of_ne_nil _ hrest]
    have hlen : (values (front ++ rest)).length % 4 = (values rest).length % 4 := by
      rw [values_append, List.length_append, hfour]
      omega
    simp only [Clipped, hlast, hlen, ne_eq, List.append_eq_nil_iff, hrest, and_false,
      not_false_eq_true]

/-- Fewer than four valid characters are clipped just where there is none. -/
theorem clipped_iff_of_short {text : List Byte} (hne : text ≠ []) (h : (values text).length < 4) :
    Clipped text ↔ values text = [] := by
  constructor
  · rintro ⟨-, hmod, -⟩
    apply List.eq_nil_of_length_eq_zero
    omega
  · intro hnil
    refine ⟨hne, by simp [hnil], ?_⟩
    intro c hc
    have hmem : c ∈ text := List.mem_of_getLast? hc
    exact List.filterMap_eq_nil_iff.mp hnil c hmem

/-- The outer loop stores the octets of the text that is left. The length is one less where the
text is clipped. -/
theorem decodeLoop_spec {size : Nat} (hsize : size < 2 ^ 32) (rounds : Nat) :
    ∀ input text buf : List Byte, input.length < rounds → Written size text (buf, text.length) →
      text.length + (octets (values input)).length ≤ size →
      Returns (fun r =>
          Written size (text ++ octets (values input))
            (r.1, (text ++ octets (values input)).length) ∧
          r.2 = if Clipped input then sizeT ((text ++ octets (values input)).length + (2 ^ 32 - 1))
            else (text ++ octets (values input)).length)
        (decodeLoop rounds input buf text.length) := by
  induction rounds with
  | zero =>
    intro _ _ _ hrounds
    cases hrounds
  | succ rounds ih =>
    intro input text buf hrounds hbuf hroom
    by_cases hnil : input = []
    · subst hnil
      have hnot : ¬ Clipped [] := fun h => h.1 rfl
      rw [decodeLoop, if_pos rfl, if_neg hnot]
      have hdone : text ++ octets (values []) = text := by simp [octets]
      rw [hdone]
      exact ⟨hbuf, rfl⟩
    · obtain ⟨front, rest, hinput, hacc, hend⟩ := accumulate_spec input [] (by decide)
      rw [show wide [] = [] by rfl, List.nil_append] at hacc
      rw [List.nil_append] at hend
      have hfour : (values front).length ≤ 4 := by
        rcases hend with h | h
        · exact Nat.le_of_eq h.1
        · exact Nat.le_of_lt h.2
      have hwide : (wide (values front)).length = (values front).length := List.length_map _
      have hgroup := Lib.length_octets (values front)
      have hsplit : octets (values input) = octets (values front) ++ octets (values rest) := by
        rcases hend with ⟨h, -⟩ | ⟨h, -⟩
        · rw [hinput, values_append, octets_append (by rw [h])]
        · rw [hinput, h, List.append_nil, values_nil, octets, List.append_nil]
      rw [hsplit, List.length_append] at hroom
      rw [hsplit, decodeLoop, if_neg hnil]
      simp only [hacc, hwide]
      apply Ends.bind (storeGroup_spec hfour hbuf (by omega))
      intro buf hbuf
      rw [List.length_append] at hbuf
      rcases hend with ⟨hlen, hvalid⟩ | ⟨hrest, hlen⟩
      · -- A whole group, and the text behind it.
        have hj : sizeT (text.length + sizeSub (values front).length 1) =
            (text ++ octets (values front)).length := by
          rw [hlen, sizeSub_of_le (by omega) (by omega), sizeT_of_lt (by omega), List.length_append]
          omega
        have hshort : rest.length < rounds := by
          have hle : (values front).length ≤ front.length := List.length_filterMap_le ..
          rw [hinput, List.length_append] at hrounds
          omega
        have hrec := ih rest (text ++ octets (values front)) buf hshort
          (by rwa [List.length_append]) (by rw [List.length_append]; omega)
        rw [hj, hinput]
        simp only [clipped_append hlen hvalid]
        rwa [List.append_assoc] at hrec
      · -- The end of the text.
        rw [hrest, List.append_nil] at hinput
        subst hinput
        have hpos : 0 < input.length := List.length_pos_iff_ne_nil.mpr hnil
        have hend : decodeLoop rounds rest buf
            (sizeT (text.length + sizeSub (values input).length 1)) =
              .ok (buf, sizeT (text.length + sizeSub (values input).length 1)) := by
          cases rounds with
          | zero => omega
          | succ rounds => rw [decodeLoop, if_pos hrest]
        have hnone : octets (values rest) = [] := by
          rw [hrest]
          rfl
        rw [hend, hnone, List.append_nil, List.length_append]
        refine ⟨hbuf, ?_⟩
        simp only [clipped_iff_of_short hnil hlen]
        split
        · rename_i hvalues
          rw [hvalues]
          rfl
        · rename_i hvalues
          have hcount : 0 < (values input).length := List.length_pos_iff_ne_nil.mpr hvalues
          rw [sizeSub_of_le (by omega) (by omega), sizeT_of_lt (by omega)]
          omega

/-- What `dataFromBase64String:` reads from any text: the octets that it stands for, but for the
last one where the text is clipped. Without a valid character it reads outside of its buffer. -/
theorem dataFromBase64String_eq (heap : Nat → Byte) {text : List Byte}
    (h : text.length + 3 < 2 ^ 32) :
    dataFromBase64String heap text =
      if Clipped text then
        if values text = [] then .error .outside else .ok (octets (values text)).dropLast
      else .ok (octets (values text)) := by
  have hcount : (values text).length ≤ text.length := List.length_filterMap_le ..
  have hlen := Lib.length_octets (values text)
  have hsize : sizeT (sizeT (text.length + 3) / 4 * 3) = (text.length + 3) / 4 * 3 := by
    rw [sizeT_of_lt h, sizeT_of_lt (by omega)]
  have hloop := decodeLoop_spec
    (show (text.length + 3) / 4 * 3 < 2 ^ 32 by omega) (text.length + 1) text [] (malloc heap ((text.length + 3) / 4 * 3)) (Nat.lt_succ_self _) (written_malloc heap _)
    (by rw [List.length_nil]; omega)
  obtain ⟨⟨buf, j⟩, hrun, hbuf, hj⟩ := hloop.exists_eq
  rw [List.nil_append] at hbuf hj
  rw [List.length_nil] at hrun
  simp only [dataFromBase64String, newBase64Decode, sizeT_of_lt (show text.length < 2 ^ 32 by omega),
    hsize, hrun, ok_bind]
  obtain ⟨rest, rfl, -, hbuf⟩ := hbuf
  dsimp only at hj hbuf ⊢
  split
  · rename_i hclipped
    rw [if_pos hclipped] at hj
    split
    · rename_i hvalues
      -- The length is the greatest number of its type.
      rw [hj, hvalues]
      rw [copyBytes, if_neg (by rw [hvalues] at hbuf; simp [octets, sizeT] at hbuf ⊢; omega)]
    · rename_i hvalues
      have hpos : 0 < (values text).length := List.length_pos_iff_ne_nil.mpr hvalues
      have hmod := hclipped.2.1
      have hclip : j = (octets (values text)).length - 1 := by
        rw [hj, sizeT]
        omega
      rw [copyBytes, if_pos (by rw [List.length_append]; omega), hclip,
        List.take_append_of_le_length (by omega), ← List.dropLast_eq_take]
  · rename_i hclipped
    rw [if_neg hclipped] at hj
    rw [hj, copyBytes, if_pos (by simp), List.take_left]

/-! ## Round trips -/

theorem values_encode (data : List Byte) : values (encode data) = sextets data :=
  base64.values_encode value_pad data

/-- Text without padding ends in a valid character. -/
theorem endsValid_encode {data : List Byte} (hne : data ≠ []) (h : data.length % 3 = 0) :
    EndsValid (encode data) := by
  have hlen := length_sextets data
  have hpos : 0 < data.length := List.length_pos_iff_ne_nil.mpr hne
  have hpad : (3 - data.length % 3) % 3 = 0 := by omega
  have hchars : encode data = (sextets data).map base64.char := by
    rw [encode, Alphabet.encode, hpad, List.replicate_zero, List.append_nil]
    rfl
  rcases List.eq_nil_or_concat (sextets data) with hnil | ⟨vs, v, hv⟩
  · rw [hnil, List.length_nil] at hlen
    omega
  · refine ⟨base64.char v, ?_, by simp [base64.value_char]⟩
    rw [hchars, hv]
    simp

/-- Line breaks do not change what a text stands for, nor how it ends. -/
theorem broken_lines (n : Nat) :
    ∀ data : List Byte, data.length ≤ n →
      values (broken (cut 48 data)) = sextets data ∧
        (data ≠ [] → data.length % 3 = 0 → EndsValid (broken (cut 48 data))) := by
  induction n with
  | zero =>
    intro data hdata
    rw [List.length_eq_zero_iff.mp (Nat.le_zero.mp hdata)]
    exact ⟨rfl, fun h => absurd rfl h⟩
  | succ n ih =>
    intro data hdata
    by_cases hlast : data.length ≤ 48
    · rw [broken_cut_short hlast]
      exact ⟨values_encode data, endsValid_encode⟩
    · have hline : (data.take 48).length = 48 := by
        rw [List.length_take]
        omega
      have hrest : (data.drop 48).length = data.length - 48 := List.length_drop
      have hvalues : values crLf = [] := values_crLf
      obtain ⟨hsextets, hends⟩ := ih (data.drop 48) (by omega)
      rw [broken_cut_long (by decide) (by omega)]
      constructor
      · rw [values_append, values_append, values_encode, hvalues, List.nil_append, hsextets,
          ← sextets_append (by rw [hline]), List.take_append_drop]
      · intro _ hmod
        have hvalid := hends (List.ne_nil_of_length_pos (by omega)) (by omega)
        have hne : broken (cut 48 (data.drop 48)) ≠ [] := by
          intro hnil
          rw [hnil] at hvalid
          obtain ⟨c, hc, -⟩ := hvalid
          cases hc
        rwa [endsValid_append (List.append_ne_nil_of_right_ne_nil _ hne), endsValid_append hne]

/-- What stands for the sextets of data, and ends in a valid character if they are whole groups,
is read as the data. -/
theorem dataFromBase64String_of_values (heap : Nat → Byte) {text data : List Byte}
    (h : text.length + 3 < 2 ^ 32) (hvalues : values text = sextets data)
    (hends : data ≠ [] → data.length % 3 = 0 → EndsValid text) (hnil : data = [] → text = []) :
    dataFromBase64String heap text = .ok data := by
  have hnot : ¬ Clipped text := by
    intro hclipped
    have hlen := length_sextets data
    have hmod := hclipped.2.1
    rw [hvalues, hlen] at hmod
    by_cases hne : data = []
    · exact hclipped.1 (hnil hne)
    · exact (hends hne (by omega)).not_clipped hclipped
  rw [dataFromBase64String_eq heap h, if_neg hnot, hvalues, octets_sextets]

/-- `base64EncodedString` returns the text in lines. -/
theorem base64EncodedString_eq (heap : Nat → Byte) {data : List Byte} (h : data.length < 2 ^ 31) :
    base64EncodedString heap data = .ok (broken (cut 48 data)) := by
  obtain ⟨r, hrun, hr⟩ := (newBase64Encode_spec heap true h).exists_eq
  rw [base64EncodedString, hrun, ok_bind]
  exact copyBytes_written hr

theorem dataFromBase64String_broken (heap : Nat → Byte) {data : List Byte}
    (h : data.length < 2 ^ 31) : dataFromBase64String heap (broken (cut 48 data)) = .ok data := by
  obtain ⟨hvalues, hends⟩ := broken_lines data.length data (Nat.le_refl _)
  have hlen := length_broken_lines data.length data (Nat.le_refl _)
  apply dataFromBase64String_of_values heap (by omega) hvalues hends
  rintro rfl
  rfl

/-- What `base64EncodedString` writes is the data in lines of 48 bytes, each in base64 and with a
line break between two of them, and `dataFromBase64String:` reads the data back from it. Neither
of them leaves its buffer, whatever the buffers held before. -/
theorem base64EncodedString_roundTrip (heap heap' : Nat → Byte) (data : List Byte)
    (h : data.length < 2 ^ 31) :
    base64EncodedString heap data = .ok (crLf.intercalate ((cut 48 data).map encode)) ∧
      dataFromBase64String heap' (crLf.intercalate ((cut 48 data).map encode)) = .ok data :=
  ⟨base64EncodedString_eq heap h, dataFromBase64String_broken heap' h⟩

/-- Four letters of text. -/
theorem base64EncodedString_roundTrip_four :
    base64EncodedString (fun _ => 0) [0x6c, 0x69, 0x62, 0x31] =
        .ok (crLf.intercalate ((cut 48 [0x6c, 0x69, 0x62, 0x31]).map encode)) ∧
      dataFromBase64String (fun _ => 0xff)
          (crLf.intercalate ((cut 48 [0x6c, 0x69, 0x62, 0x31]).map encode)) =
        .ok [0x6c, 0x69, 0x62, 0x31] :=
  base64EncodedString_roundTrip (fun _ => 0) (fun _ => 0xff) _ (by decide)

/-- Any text is read as the octets that it stands for, unless it ends in whole groups and
something else behind them. There the last octet is missing, and a text without a valid character
is read outside of the buffer. -/
theorem dataFromBase64String_iff (heap : Nat → Byte) (text : List Byte)
    (h : text.length + 3 < 2 ^ 32) :
    (dataFromBase64String heap text = .ok (octets (values text)) ↔ ¬ Clipped text) ∧
      (Clipped text → values text ≠ [] →
        dataFromBase64String heap text = .ok (octets (values text)).dropLast) ∧
      (dataFromBase64String heap text = .error .outside ↔ Clipped text ∧ values text = []) := by
  rw [dataFromBase64String_eq heap h]
  by_cases hclipped : Clipped text
  · rw [if_pos hclipped]
    by_cases hvalues : values text = []
    · rw [if_pos hvalues]
      simp [hclipped, hvalues]
    · have hpos : 0 < (values text).length := List.length_pos_iff_ne_nil.mpr hvalues
      have hlen := Lib.length_octets (values text)
      have hmod := hclipped.2.1
      have hshort : (octets (values text)).dropLast ≠ octets (values text) := by
        intro heq
        have hlengths := congrArg List.length heq
        rw [List.length_dropLast] at hlengths
        omega
      rw [if_neg hvalues]
      simp [hclipped, hvalues, hshort]
  · rw [if_neg hclipped]
    simp [hclipped]

/-- A group and the end of its line: the last of its three octets is missing. -/
theorem dataFromBase64String_iff_line :
    dataFromBase64String (fun _ => 0) [0x51, 0x55, 0x4a, 0x44, 0x0a] = .ok [0x41, 0x42] :=
  (dataFromBase64String_iff (fun _ => 0) [0x51, 0x55, 0x4a, 0x44, 0x0a] (by decide)).2.1
    (by decide) (by decide)

end Libcage.Agent
