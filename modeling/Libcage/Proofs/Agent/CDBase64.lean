import Libcage.Proofs.Agent.Base64

/-!
# `Libcage.Proofs.Agent.CDBase64`: the category `NSData+CDBase64`

`wrapText` is the text that `base64EncodedStringWithWrapWidth:` writes, with the number of
characters in the line so far. `dataWithBase64EncodedString:` reads every text as the octets
that it stands for, whatever it has between its valid characters.
-/

set_option autoImplicit false

namespace Libcage.Agent

open Lib

/-! ## The encoder -/

/-- The text of data behind `c` characters of a line, which is broken after `w`. -/
def wrapText (w : Nat) : Nat → List Byte → List Byte
  | c, x :: y :: z :: bs =>
      base64.chars (sextets [x, y, z]) ++
        if w ≠ 0 ∧ c + 4 = w then crLf ++ wrapText w 0 bs else wrapText w (c + 4) bs
  | _, bs => encode bs

theorem wrapText_cons (w c : Nat) (x y z : Byte) (bs : List Byte) :
    wrapText w c (x :: y :: z :: bs) = base64.chars (sextets [x, y, z]) ++
      if w ≠ 0 ∧ c + 4 = w then crLf ++ wrapText w 0 bs else wrapText w (c + 4) bs := by
  rw [wrapText]

theorem wrapText_short (w c : Nat) {bs : List Byte} (h : bs.length < 3) :
    wrapText w c bs = encode bs := by
  rw [wrapText]
  rintro x y z bs rfl
  simp at h
  omega

/-- A group of three bytes in front. -/
theorem encode_cons (x y z : Byte) (bs : List Byte) :
    encode (x :: y :: z :: bs) = base64.chars (sextets [x, y, z]) ++ encode bs := by
  rw [← encode_whole, ← encode_whole bs, whole_cons, leftOver_cons, ← List.append_assoc]
  rfl

/-- Without a width the text has no line breaks. -/
theorem wrapText_zero (c : Nat) (data : List Byte) : wrapText 0 c data = encode data := by
  induction data using sextets.induct generalizing c with
  | case1 x y z bs ih => rw [wrapText_cons, if_neg (by simp), ih, encode_cons]
  | case2 x y => exact wrapText_short 0 c (by simp)
  | case3 x => exact wrapText_short 0 c (by simp)
  | case4 => exact wrapText_short 0 c (by simp)

/-- Line breaks do not change what a text stands for. -/
theorem values_wrapText (w c : Nat) (data : List Byte) :
    values (wrapText w c data) = sextets data := by
  induction data using sextets.induct generalizing c with
  | case1 x y z bs ih =>
    have hgroup : values (base64.chars (sextets [x, y, z])) = sextets [x, y, z] :=
      base64.values_chars _
    have hcrLf : values crLf = [] := values_crLf
    rw [wrapText_cons, values_append, hgroup]
    split
    · rw [values_append, hcrLf, List.nil_append, ih]
      rfl
    · rw [ih]
      rfl
  | case2 x y => rw [wrapText_short w c (by simp), values_encode]
  | case3 x => rw [wrapText_short w c (by simp), values_encode]
  | case4 => rw [wrapText_short w c (by simp), values_encode]

theorem length_wrapText_short {w c : Nat} {data : List Byte} (h : data.length < 3)
    (hlt : w ≠ 0 → c < w) :
    (wrapText w c data).length =
      (data.length + 2) / 3 * 4 + (c + data.length / 3 * 4) / w * 2 := by
  have hnone : data.length / 3 = 0 := by omega
  have hline : c / w = 0 := by
    by_cases hw : w = 0
    · rw [hw, Nat.div_zero]
    · exact Nat.div_eq_of_lt (hlt hw)
  rw [wrapText_short w c h, length_encode, hnone, Nat.zero_mul, Nat.add_zero c, hline]
  omega

/-- The characters of the text, and two for each line break. -/
theorem length_wrapText {w : Nat} (hw : w % 4 = 0) (data : List Byte) :
    ∀ c, c % 4 = 0 → (w ≠ 0 → c < w) →
      (wrapText w c data).length =
        (data.length + 2) / 3 * 4 + (c + data.length / 3 * 4) / w * 2 := by
  induction data using sextets.induct with
  | case1 x y z bs ih =>
    intro c hc hlt
    have hgroup : (base64.chars (sextets [x, y, z])).length = 4 := rfl
    have hcrLf : crLf.length = 2 := rfl
    simp only [wrapText_cons, List.length_append, hgroup, List.length_cons]
    split
    · rename_i hbreak
      have hdiv : (c + (bs.length + 1 + 1 + 1) / 3 * 4) / w = (0 + bs.length / 3 * 4) / w + 1 := by
        rw [show c + (bs.length + 1 + 1 + 1) / 3 * 4 = (0 + bs.length / 3 * 4) + w by omega,
          Nat.add_div_right _ (Nat.pos_of_ne_zero hbreak.1)]
      rw [List.length_append, hcrLf, ih 0 rfl fun h => Nat.pos_of_ne_zero h, hdiv]
      omega
    · rename_i hbreak
      have hsum : c + 4 + bs.length / 3 * 4 = c + (bs.length + 1 + 1 + 1) / 3 * 4 := by omega
      rw [ih (c + 4) (by omega) (by omega), hsum]
      omega
  | case2 x y => exact fun _ _ hlt => length_wrapText_short (by simp) hlt
  | case3 x => exact fun _ _ hlt => length_wrapText_short (by simp) hlt
  | case4 => exact fun _ _ hlt => length_wrapText_short (by simp) hlt

/-- The test for a line break, behind four more characters of a line. -/
theorem lineBreak_iff {w c n : Nat} (hw : w % 4 = 0) (hc : c % 4 = 0) (hlt : w ≠ 0 → c < w)
    (hcol : w ≠ 0 → n % (w + 2) = c) :
    w ≠ 0 ∧ (n + 4 + 2) % (w + 2) = 0 ↔ w ≠ 0 ∧ c + 4 = w := by
  apply and_congr_right
  intro hne
  have hmod : (n + 4 + 2) % (w + 2) = (c + 6) % (w + 2) := by
    rw [← hcol hne, Nat.mod_add_mod]
  have hle := hlt hne
  rw [hmod]
  constructor
  · intro h
    by_contra hline
    rw [Nat.mod_eq_of_lt (by omega)] at h
    omega
  · intro hline
    rw [show c + 6 = w + 2 by omega, Nat.mod_self]

/-- A line without a whole group ends the loop. -/
theorem wrapGroups_short {size w : Nat} {rest : List Byte} (hshort : rest.length < 3)
    {rounds c : Nat} {pre text buf : List Byte} (hrounds : rest.length < rounds)
    (hbuf : Written size text (buf, text.length)) :
    Returns (fun r => r.1 + rest.length % 3 = (pre ++ rest).length ∧
        ∃ out, Written size (text ++ out) r.2 ∧ out ++ encode (leftOver rest) = wrapText w c rest)
      (wrapGroups (pre ++ rest) w rounds pre.length buf text.length) := by
  have hnone : rest.length / 3 = 0 := by omega
  have hleft : leftOver rest = rest := by simp [leftOver, hnone]
  cases rounds with
  | zero => cases hrounds
  | succ rounds =>
    rw [wrapGroups, if_neg (by rw [List.length_append]; omega)]
    refine ⟨by rw [List.length_append]; omega, [], by rwa [List.append_nil], ?_⟩
    rw [hleft, List.nil_append, wrapText_short w c hshort]

/-- The loop writes the groups that are left, with line breaks. -/
theorem wrapGroups_spec {size w : Nat} (hw : w % 4 = 0) (rest : List Byte) :
    ∀ (rounds c : Nat) (pre text buf : List Byte),
      rest.length < rounds → c % 4 = 0 → (w ≠ 0 → c < w) → (w ≠ 0 → text.length % (w + 2) = c) →
      Written size text (buf, text.length) →
      text.length + (wrapText w c rest).length ≤ size →
      Returns (fun r => r.1 + rest.length % 3 = (pre ++ rest).length ∧
          ∃ out, Written size (text ++ out) r.2 ∧ out ++ encode (leftOver rest) = wrapText w c rest)
        (wrapGroups (pre ++ rest) w rounds pre.length buf text.length) := by
  induction rest using sextets.induct with
  | case1 x y z rest ih =>
    intro rounds c pre text buf hrounds hc hlt hcol hbuf hroom
    cases rounds with
    | zero => cases hrounds
    | succ rounds =>
      simp only [List.length_cons] at hrounds
      have htake : pre.length + 2 < (pre ++ x :: y :: z :: rest).length := by simp
      have h0 : getByte (pre ++ x :: y :: z :: rest) pre.length = .ok x :=
        getByte_append pre _ x rfl
      have h1 : getByte (pre ++ x :: y :: z :: rest) (pre.length + 1) = .ok y := by
        simpa using getByte_append (pre ++ [x]) (z :: rest) y (by simp)
      have h2 : getByte (pre ++ x :: y :: z :: rest) (pre.length + 2) = .ok z := by
        simpa using getByte_append (pre ++ [x, y]) rest z (by simp)
      have hgroup : (base64.chars (sextets [x, y, z])).length = 4 := rfl
      have hinput : pre ++ x :: y :: z :: rest = pre ++ [x, y, z] ++ rest := by simp
      have hlen : (pre ++ [x, y, z]).length = pre.length + 3 := by simp
      rw [wrapText_cons, List.length_append, hgroup] at hroom
      rw [wrapText_cons, wrapGroups, if_pos htake, h0, ok_bind, h1, ok_bind, h2, ok_bind,
        groupChars_eq]
      apply Ends.bind (putBytes_written _ hbuf (by omega))
      rintro ⟨buf, j⟩ hbuf
      have hlong : (text ++ base64.chars (sextets [x, y, z])).length = text.length + 4 := by
        rw [List.length_append, hgroup]
      obtain rfl := hbuf.index.trans hlong
      simp only [lineBreak_iff hw hc hlt hcol]
      split
      · -- The line is full.
        rename_i hbreak
        rw [if_pos hbreak, List.length_append] at hroom
        have hcrLf : crLf.length = 2 := rfl
        have hzero := ((lineBreak_iff hw hc hlt hcol).mpr hbreak).2
        apply Ends.bind (putBytes_written crLf hbuf (by omega))
        rintro ⟨buf, j⟩ hbuf
        have hlong' : (text ++ base64.chars (sextets [x, y, z]) ++ crLf).length =
            text.length + 4 + 2 := by rw [List.length_append, hlong, hcrLf]
        obtain rfl := hbuf.index.trans hlong'
        have hrec := ih rounds 0 (pre ++ [x, y, z]) (text ++ base64.chars (sextets [x, y, z]) ++ crLf)
          buf (by omega) rfl Nat.pos_of_ne_zero (fun _ => by rw [hlong', hzero])
          (by rwa [hlong']) (by omega)
        rw [hlong', hlen, ← hinput] at hrec
        apply hrec.mono
        · rintro r ⟨hend, out, hout, htext⟩
          rw [leftOver_cons, ← htext]
          refine ⟨by rw [List.length_cons, List.length_cons, List.length_cons]; omega,
            base64.chars (sextets [x, y, z]) ++ (crLf ++ out), ?_, by simp only [List.append_assoc]⟩
          simpa only [List.append_assoc] using hout
        · exact fun _ h => h
      · rename_i hbreak
        rw [if_neg hbreak] at hroom
        have hcol' : w ≠ 0 → (text.length + 4) % (w + 2) = c + 4 := by
          intro hne
          have hle := hlt hne
          rw [← hcol hne, ← Nat.mod_add_mod, hcol hne, Nat.mod_eq_of_lt (by omega)]
        have hrec := ih rounds (c + 4) (pre ++ [x, y, z]) (text ++ base64.chars (sextets [x, y, z]))
          buf (by omega) (by omega) (by omega) (fun hne => by rw [hlong, hcol' hne])
          (by rwa [hlong]) (by omega)
        rw [hlong, hlen, ← hinput] at hrec
        apply hrec.mono
        · rintro r ⟨hend, out, hout, htext⟩
          rw [leftOver_cons, ← htext]
          refine ⟨by rw [List.length_cons, List.length_cons, List.length_cons]; omega,
            base64.chars (sextets [x, y, z]) ++ out, ?_, by simp only [List.append_assoc]⟩
          simpa only [List.append_assoc] using hout
        · exact fun _ h => h
  | case2 x y => exact fun _ _ _ _ _ hrounds _ _ _ hbuf _ => wrapGroups_short (by simp) hrounds hbuf
  | case3 x => exact fun _ _ _ _ _ hrounds _ _ _ hbuf _ => wrapGroups_short (by simp) hrounds hbuf
  | case4 => exact fun _ _ _ _ _ hrounds _ _ _ hbuf _ => wrapGroups_short (by simp) hrounds hbuf

/-- The width that counts is no more than that of a line. -/
theorem length_wrapText_le {w : Nat} (hw : w % 4 = 0) (data : List Byte) :
    (wrapText w 0 data).length ≤ (data.length / 3 + 1) * 4 +
      if w ≠ 0 then (data.length / 3 + 1) * 4 / w * 2 else 0 := by
  rw [length_wrapText hw data 0 rfl Nat.pos_of_ne_zero]
  split
  · have hlines : (0 + data.length / 3 * 4) / w ≤ (data.length / 3 + 1) * 4 / w :=
      Nat.div_le_div_right (by omega)
    omega
  · rename_i hzero
    rw [not_not.mp hzero, Nat.div_zero]
    omega

/-- `base64EncodedStringWithWrapWidth:` writes the text, and stays in its buffer. -/
theorem base64EncodedStringWithWrapWidth_eq (heap : Nat → Byte) {data : List Byte}
    (wrapWidth : Nat) (h : data.length < 2 ^ 30) :
    base64EncodedStringWithWrapWidth heap data wrapWidth =
      .ok (if data = [] then none else some (wrapText (wrapWidth / 4 * 4) 0 data)) := by
  have hw : wrapWidth / 4 * 4 % 4 = 0 := by omega
  generalize hwidth : wrapWidth / 4 * 4 = w at hw
  have hroom := length_wrapText_le hw data
  have hlines : (data.length / 3 + 1) * 4 / w ≤ (data.length / 3 + 1) * 4 / 4 := by
    by_cases hzero : w = 0
    · rw [hzero, Nat.div_zero]
      omega
    · exact Nat.div_le_div_left (by omega) (by decide)
  have hwhole : whole data ++ leftOver data = data := List.take_append_drop _ data
  have hleft := length_leftOver data
  have hfinish : ∀ {size : Nat} {r : List Byte × Nat}, Written size (wrapText w 0 data) r →
      (copyBytes r.1 r.2 >>= fun result =>
        (pure (if r.2 ≥ 4 then some result else none) : Except BufferFault _)) =
          .ok (if data = [] then none else some (wrapText w 0 data)) := by
    intro size r hr
    have hlen := length_wrapText hw data 0 rfl Nat.pos_of_ne_zero
    rw [copyBytes_written hr, ok_bind, Written.index hr, hlen]
    cases data with
    | nil =>
      simp
      rfl
    | cons b data =>
      rw [if_pos (by rw [List.length_cons]; omega), if_neg (List.cons_ne_nil b data)]
      rfl
  simp only [base64EncodedStringWithWrapWidth, hwidth]
  rw [sizeT_of_lt (by split <;> omega)]
  generalize ((data.length / 3 + 1) * 4 + if w ≠ 0 then (data.length / 3 + 1) * 4 / w * 2 else 0) =
    size at hroom ⊢
  obtain ⟨⟨i, buf, j⟩, hrun, hi, out, hbuf, htext⟩ :=
    (wrapGroups_spec hw data (data.length + 1) 0 [] [] (malloc heap size) (Nat.lt_succ_self _) rfl
      Nat.pos_of_ne_zero (fun _ => Nat.zero_mod _) (written_malloc heap size)
      (by simpa using hroom)).exists_eq
  rw [List.nil_append] at hrun hi hbuf
  rw [← htext, List.length_append] at hroom
  rw [← htext] at hfinish ⊢
  simp only [List.length_nil] at hrun
  rw [hrun, ok_bind]
  dsimp only at hi hbuf ⊢
  have hi' : i = (whole data).length := by
    rw [length_whole]
    omega
  -- The bytes behind the last group, by their number.
  cases hrest : leftOver data with
  | nil =>
    rw [hrest] at hleft hfinish
    rw [List.length_nil] at hleft
    rw [if_neg (by omega), if_neg (by omega)]
    exact hfinish (by simpa [encode, Alphabet.encode, sextets, Alphabet.chars] using hbuf)
  | cons x rest =>
    rw [hrest] at hleft hwhole hroom hfinish
    have hx : getByte data i = .ok x := by
      rw [← hwhole]
      exact getByte_append _ rest x hi'
    rw [List.length_cons] at hleft
    cases rest with
    | nil =>
      rw [List.length_nil] at hleft
      obtain ⟨r, hput, hr⟩ := (putBytes_written (encode [x]) hbuf (by omega)).exists_eq
      rw [if_neg (by omega), if_pos (by omega), hx, ok_bind, doublePad_eq, hput, ok_bind]
      exact hfinish hr
    | cons y rest =>
      have hnil : rest = [] := by
        apply List.eq_nil_of_length_eq_zero
        rw [List.length_cons] at hleft
        omega
      subst hnil
      simp only [List.length_cons, List.length_nil] at hleft
      have hy : getByte data (i + 1) = .ok y := by
        rw [← hwhole]
        simpa using getByte_append (whole data ++ [x]) [] y (by simp [hi'])
      obtain ⟨r, hput, hr⟩ := (putBytes_written (encode [x, y]) hbuf (by omega)).exists_eq
      rw [if_pos (by omega), hx, ok_bind, hy, ok_bind, singlePad_eq, hput, ok_bind]
      exact hfinish hr

/-! ## The decoder -/

/-- Four bytes that hold some sextets in front. -/
def Holds (accumulated : List Byte) (us : List Sextet) : Prop :=
  accumulated.length = 4 ∧ us.length < 4 ∧ accumulated.take us.length = wide us

theorem Holds.byteAt {accumulated : List Byte} {us : List Sextet} (h : Holds accumulated us)
    {k : Nat} {v : Sextet} (hk : us[k]? = some v) : Lib.byteAt accumulated k = v.setWidth 8 := by
  obtain ⟨-, -, htake⟩ := h
  have hlt : k < us.length := (List.getElem?_eq_some_iff.mp hk).1
  have hget : accumulated[k]? = (wide us)[k]? := by
    rw [← htake, List.getElem?_take_of_lt hlt]
  rw [Lib.byteAt, List.getD_eq_getElem?_getD, hget, wide, List.getElem?_map, hk]
  rfl

/-- One more sextet. -/
theorem Holds.set {accumulated : List Byte} {us : List Sextet} (h : Holds accumulated us)
    (v : Sextet) : (accumulated.set us.length (v.setWidth 8)).length = 4 ∧
      (accumulated.set us.length (v.setWidth 8)).take (us.length + 1) = wide (us ++ [v]) := by
  obtain ⟨hlen, hlt, htake⟩ := h
  refine ⟨by rw [List.length_set, hlen], ?_⟩
  have htakelen : (accumulated.take us.length).length = us.length := by
    rw [List.length_take]
    omega
  rw [List.set_eq_take_append_cons_drop, if_pos (by omega), List.take_append, htakelen,
    List.take_of_length_le (by omega), htake]
  simp [wide]

/-- The text with seven bits of every character. -/
def sevenBits (text : List Byte) : List Byte := text.map (· &&& 0x7F)

/-- The loop over the text that is left. -/
theorem decodeCharacters_spec {size : Nat} (input : List Byte) :
    ∀ (us : List Sextet) (accumulated text buf : List Byte), Holds accumulated us →
      Written size text (buf, text.length) →
      text.length + (octets (us ++ values (sevenBits input))).length ≤ size →
      Returns (fun r => ∃ vs, Holds r.1 vs ∧ r.2.1 = vs.length ∧
          ∃ out, Written size (text ++ out) r.2.2 ∧
            out ++ octets vs = octets (us ++ values (sevenBits input)))
        (decodeCharacters input accumulated us.length buf text.length) := by
  induction input with
  | nil =>
    intro us accumulated text buf hholds hbuf hroom
    exact ⟨us, hholds, rfl, [], by rwa [List.append_nil], by simp [sevenBits]⟩
  | cons c input ih =>
    intro us accumulated text buf hholds hbuf hroom
    have hcons : sevenBits (c :: input) = (c &&& 0x7F) :: sevenBits input := rfl
    rw [hcons] at hroom ⊢
    rw [decodeCharacters]
    cases hv : base64.value (c &&& 0x7F) with
    | none =>
      rw [values_cons_none hv] at hroom ⊢
      rw [if_neg (not_not.mpr ((value_eq_none_iff _).mp hv))]
      exact ih us accumulated text buf hholds hbuf hroom
    | some v =>
      have hlook := decodeLookup_of_value hv
      obtain ⟨hlen, hset⟩ := hholds.set v
      have hlt := hholds.2.1
      rw [values_cons_some hv] at hroom ⊢
      have hsplit : us ++ v :: values (sevenBits input) =
          us ++ [v] ++ values (sevenBits input) := by simp
      rw [hsplit] at hroom ⊢
      rw [hlook, if_pos (setWidth_ne_xx v)]
      by_cases hthree : us.length = 3
      · -- A group is whole.
        obtain ⟨a, b, d, rfl⟩ := List.length_eq_three.mp hthree
        have hfour : accumulated.set [a, b, d].length (v.setWidth 8) = wide [a, b, d, v] := by
          rwa [List.take_of_length_le (by rw [hlen]; rfl)] at hset
        have hgroup : octets ([a, b, d] ++ [v] ++ values (sevenBits input)) =
            octets [a, b, d, v] ++ octets (values (sevenBits input)) :=
          octets_append (show [a, b, d, v].length % 4 = 0 by simp) _
        have hthird : (octets [a, b, d, v]).length = 3 := by simp [octets]
        rw [hgroup, List.length_append, hthird] at hroom
        rw [hfour, hgroup]
        have hput := putBytes_written (octets [a, b, d, v]) hbuf (by omega)
        have hbytes : [byteAt (wide [a, b, d, v]) 0 <<< 2 ||| byteAt (wide [a, b, d, v]) 1 >>> 4,
            byteAt (wide [a, b, d, v]) 1 <<< 4 ||| byteAt (wide [a, b, d, v]) 2 >>> 2,
            byteAt (wide [a, b, d, v]) 2 <<< 6 ||| byteAt (wide [a, b, d, v]) 3] =
              octets [a, b, d, v] := by
          simp [wide, byteAt, octets, first_of_group, second_of_group, third_of_group]
        simp only [hthree, if_true, hbytes]
        apply Ends.bind hput
        rintro ⟨buf, j⟩ hbuf
        have hlong : (text ++ octets [a, b, d, v]).length = text.length + 3 := by
          rw [List.length_append, hthird]
        obtain rfl := hbuf.index
        have hrec := ih [] (wide [a, b, d, v]) (text ++ octets [a, b, d, v]) buf
          ⟨rfl, by decide, rfl⟩ hbuf (by rw [List.nil_append, hlong]; omega)
        apply hrec.mono
        · rintro r ⟨vs, hvs, hr, out, hout, htext⟩
          rw [List.nil_append] at htext
          refine ⟨vs, hvs, hr, octets [a, b, d, v] ++ out, ?_, by rw [List.append_assoc, htext]⟩
          rwa [← List.append_assoc]
        · exact fun _ h => h
      · have hmod : (us.length + 1) % 4 = (us ++ [v]).length := by
          rw [List.length_append, List.length_singleton]
          omega
        have hrec := ih (us ++ [v]) (accumulated.set us.length (v.setWidth 8)) text buf
          ⟨hlen, by simp; omega, by simpa using hset⟩ hbuf hroom
        simp only [if_neg hthree, ok_bind, hmod]
        exact hrec

/-- What is behind the length is not copied. -/
theorem copyBytes_front {size j : Nat} {text rest buf : List Byte}
    (h : Written size (text ++ rest) (buf, j)) : copyBytes buf text.length = .ok text := by
  obtain ⟨behind, hbuf, -, -⟩ := h
  dsimp only at hbuf
  simp [copyBytes, hbuf]

theorem copyBytes_front_whole {size j : Nat} {text buf : List Byte}
    (h : Written size text (buf, j)) : copyBytes buf text.length = .ok text := by
  rw [← List.append_nil text] at h
  exact copyBytes_front h

theorem nil_or_some (data : List Byte) :
    (pure (if data.length ≠ 0 then some data else none) : Except BufferFault _) =
      .ok (if data = [] then none else some data) := by
  cases data with
  | nil => rfl
  | cons b data => rfl

/-- `dataWithBase64EncodedString:` reads every text as the octets that it stands for. -/
theorem dataWithBase64EncodedString_eq (text : List Byte) :
    dataWithBase64EncodedString text =
      .ok (if octets (values (sevenBits text)) = [] then none
        else some (octets (values (sevenBits text)))) := by
  have hcount : (values (sevenBits text)).length ≤ text.length := by
    have hle : (values (sevenBits text)).length ≤ (sevenBits text).length :=
      List.length_filterMap_le ..
    simpa [sevenBits] using hle
  have hlen := Lib.length_octets (values (sevenBits text))
  generalize hsize : (text.length / 4 + 1) * 3 = size
  have hzeros : Written size [] (List.replicate size 0, 0) := ⟨_, rfl, rfl, List.length_replicate⟩
  obtain ⟨⟨accumulated, accumulator, buf, j⟩, hrun, vs, hholds, hvs, out, hbuf, htext⟩ :=
    (decodeCharacters_spec text [] [0, 0, 0, 0] [] (List.replicate size 0)
      ⟨rfl, by decide, rfl⟩ hzeros (by rw [List.nil_append, List.length_nil]; omega)).exists_eq
  rw [List.nil_append] at hbuf htext
  rw [← htext] at hlen ⊢
  simp only [List.length_nil] at hrun
  simp only [dataWithBase64EncodedString, hsize, hrun, ok_bind]
  obtain rfl := hbuf.index
  dsimp only at hvs hholds
  subst hvs
  have hroom : out.length + (octets vs).length < size := by
    rw [← List.length_append]
    omega
  have hlt := hholds.2.1
  -- The characters behind the last group, by their number.
  cases vs with
  | nil =>
    have hnone : out ++ octets [] = out := by simp [octets]
    simp only [List.length_nil, gt_iff_lt, Nat.not_lt_zero, if_false, hnone]
    show (copyBytes buf out.length >>= _) = _
    rw [copyBytes_front_whole hbuf, ok_bind, nil_or_some]
  | cons a vs =>
    have ha : byteAt accumulated 0 = a.setWidth 8 := hholds.byteAt rfl
    obtain ⟨buf₁, hset₁, hbuf₁⟩ := (setByte_written
      (byteAt accumulated 0 <<< 2 ||| byteAt accumulated 1 >>> 4) hbuf (by omega)).exists_eq
    cases vs with
    | nil =>
      have hnone : out ++ octets [a] = out := by simp [octets]
      simp only [List.length_singleton, Nat.reduceGT, if_true, if_false, hset₁, ok_bind, hnone]
      rw [copyBytes_front hbuf₁, ok_bind, nil_or_some]
    | cons b vs =>
      have hb : byteAt accumulated 1 = b.setWidth 8 := hholds.byteAt rfl
      rw [ha, hb, first_of_group] at hset₁ hbuf₁
      have hlong : (out ++ [a ++ b.extractLsb' 4 2]).length = out.length + 1 := by simp
      rw [← hlong] at hbuf₁
      cases vs with
      | nil =>
        have hone : octets [a, b] = [a ++ b.extractLsb' 4 2] := by simp [octets]
        rw [hone, List.length_singleton] at hroom
        obtain ⟨buf₂, hset₂, hbuf₂⟩ := (setByte_written
          (byteAt accumulated 1 <<< 4 ||| byteAt accumulated 2 >>> 2) hbuf₁ (by omega)).exists_eq
        rw [hb, hlong] at hset₂
        simp only [List.length_cons, List.length_nil, Nat.reduceGT, Nat.reduceAdd, if_true, if_false,
          ha, hb, first_of_group, hset₁, hset₂, ok_bind, hone]
        rw [← hlong, copyBytes_front hbuf₂, ok_bind, nil_or_some]
      | cons c vs =>
        have hc : byteAt accumulated 2 = c.setWidth 8 := hholds.byteAt rfl
        have hnil : vs = [] := by
          apply List.eq_nil_of_length_eq_zero
          simp only [List.length_cons] at hlt
          omega
        subst hnil
        have htwo : octets [a, b, c] =
            [a ++ b.extractLsb' 4 2, b.extractLsb' 0 4 ++ c.extractLsb' 2 4] := by simp [octets]
        rw [htwo, List.length_cons, List.length_singleton] at hroom
        obtain ⟨buf₂, hset₂, hbuf₂⟩ := (setByte_written
          (byteAt accumulated 1 <<< 4 ||| byteAt accumulated 2 >>> 2) hbuf₁ (by omega)).exists_eq
        rw [hb, hc, second_of_group] at hset₂ hbuf₂
        rw [hlong] at hset₂ hbuf₂
        rw [List.append_assoc, List.singleton_append] at hbuf₂
        have hend : out.length + 1 + 1 =
            (out ++ [a ++ b.extractLsb' 4 2, b.extractLsb' 0 4 ++ c.extractLsb' 2 4]).length := by
          simp
        simp only [List.length_cons, List.length_nil, Nat.reduceGT, Nat.reduceAdd, if_true,
          ha, hb, hc, first_of_group, second_of_group, hset₁, hset₂, ok_bind, htwo]
        rw [hend, copyBytes_front_whole (by assumption), ok_bind, nil_or_some]

/-! ## Texts of either category -/

/-- Seven bits are all that a text of the encoders has. -/
def Ascii (text : List Byte) : Prop := ∀ c ∈ text, c &&& 0x7F = c

theorem Ascii.append {text rest : List Byte} (h : Ascii text) (h' : Ascii rest) :
    Ascii (text ++ rest) := by
  intro c hc
  rcases List.mem_append.mp hc with hc | hc
  · exact h c hc
  · exact h' c hc

theorem Ascii.sevenBits_eq {text : List Byte} (h : Ascii text) : sevenBits text = text := by
  rw [sevenBits, List.map_congr_left h, List.map_id']

theorem ascii_crLf : Ascii crLf := by
  show ∀ c ∈ crLf, c &&& 0x7F = c
  decide

theorem ascii_encodeLookup :
    ∀ v : Sextet, encodeLookup (v.setWidth 8) &&& 0x7F = encodeLookup (v.setWidth 8) := by decide

theorem ascii_chars (vs : List Sextet) : Ascii (base64.chars vs) := by
  intro c hc
  obtain ⟨v, -, rfl⟩ := List.mem_map.mp hc
  exact ascii_encodeLookup v

theorem ascii_encode (data : List Byte) : Ascii (encode data) := by
  apply (ascii_chars _).append
  intro c hc
  rw [List.eq_of_mem_replicate hc]
  rfl

theorem ascii_wrapText (w c : Nat) (data : List Byte) : Ascii (wrapText w c data) := by
  induction data using sextets.induct generalizing c with
  | case1 x y z bs ih =>
    rw [wrapText_cons]
    apply (ascii_chars _).append
    split
    · exact ascii_crLf.append (ih 0)
    · exact ih (c + 4)
  | case2 x y => exact wrapText_short w c (show [x, y].length < 3 by simp) ▸ ascii_encode _
  | case3 x => exact wrapText_short w c (show [x].length < 3 by simp) ▸ ascii_encode _
  | case4 => exact wrapText_short w c (show [].length < 3 by simp) ▸ ascii_encode _

theorem ascii_broken (n : Nat) :
    ∀ data : List Byte, data.length ≤ n → Ascii (broken (cut 48 data)) := by
  induction n with
  | zero =>
    intro data hdata
    rw [List.length_eq_zero_iff.mp (Nat.le_zero.mp hdata)]
    exact fun c hc => by cases hc
  | succ n ih =>
    intro data hdata
    by_cases hlast : data.length ≤ 48
    · rw [broken_cut_short hlast]
      exact ascii_encode data
    · rw [broken_cut_long (by decide) (by omega)]
      exact (ascii_encode _).append (ascii_crLf.append (ih _ (by rw [List.length_drop]; omega)))

/-- Behind whole groups a wrapped text ends in a valid character unless its last line is full. -/
theorem endsValid_wrapText {w : Nat} (hw : w % 4 = 0) (data : List Byte) :
    ∀ c, c % 4 = 0 → (w ≠ 0 → c < w) → data ≠ [] → data.length % 3 = 0 →
      (EndsValid (wrapText w c data) ↔ ¬ (w ≠ 0 ∧ (c + data.length / 3 * 4) % w = 0)) := by
  induction data using sextets.induct with
  | case1 x y z bs ih =>
    intro c hc hlt _ hmod
    simp only [List.length_cons] at hmod ⊢
    have hthree : (bs.length + 1 + 1 + 1) / 3 * 4 = bs.length / 3 * 4 + 4 := by omega
    rw [wrapText_cons, hthree]
    have hchars : EndsValid (base64.chars (sextets [x, y, z])) :=
      ⟨base64.char (z.extractLsb' 0 6), rfl, by simp [base64.value_char]⟩
    have hfull : w ≠ 0 ∧ c + 4 = w → ∀ n, (c + (n + 4)) % w = n % w := by
      rintro ⟨-, hline⟩ n
      rw [show c + (n + 4) = n + w by omega, Nat.add_mod_right]
    by_cases hbs : bs = []
    · -- The last group.
      subst hbs
      have hempty : ∀ c, wrapText w c [] = [] := fun c => wrapText_short w c (by simp)
      rw [hempty, hempty, List.append_nil]
      split
      · rename_i hbreak
        have hinvalid : ¬ EndsValid crLf := by
          rintro ⟨d, hd, hvalid⟩
          obtain rfl := Option.some.inj hd
          exact hvalid rfl
        rw [endsValid_append (show crLf ≠ [] from List.cons_ne_nil _ _), hfull hbreak]
        simp [hinvalid, hbreak.1]
      · rename_i hbreak
        rw [List.append_nil]
        refine iff_of_true hchars ?_
        rintro ⟨hne, hzero⟩
        have hle := hlt hne
        have hlast : (c + 4) % w = c + 4 := Nat.mod_eq_of_lt (by omega)
        simp only [List.length_nil, Nat.zero_div, Nat.zero_mul, Nat.zero_add] at hzero
        omega
    · have hnonempty : ∀ c, wrapText w c bs ≠ [] := by
        intro c hnil
        have hvalues := values_wrapText w c bs
        have hlen := length_sextets bs
        have hpos : 0 < bs.length := List.length_pos_iff_ne_nil.mpr hbs
        rw [hnil, values_nil] at hvalues
        rw [← hvalues, List.length_nil] at hlen
        omega
      split
      · rename_i hbreak
        have hrec := ih 0 rfl Nat.pos_of_ne_zero hbs (by omega)
        rw [Nat.zero_add] at hrec
        rw [endsValid_append (List.append_ne_nil_of_right_ne_nil _ (hnonempty 0)),
          endsValid_append (hnonempty 0), hrec, hfull hbreak]
      · rename_i hbreak
        rw [endsValid_append (hnonempty _), ih (c + 4) (by omega) (by omega) hbs (by omega),
          show c + 4 + bs.length / 3 * 4 = c + (bs.length / 3 * 4 + 4) by omega]
  | case2 x y => exact fun _ _ _ _ hmod => absurd hmod (by simp)
  | case3 x => exact fun _ _ _ _ hmod => absurd hmod (by simp)
  | case4 => exact fun _ _ _ hne => absurd rfl hne

theorem dataFromBase64String_wrapText (heap : Nat → Byte) {w : Nat} (hw : w % 4 = 0)
    {data : List Byte} (hne : data ≠ []) (h : data.length < 2 ^ 30) :
    dataFromBase64String heap (wrapText w 0 data) = .ok data ↔
      ¬ (w ≠ 0 ∧ data.length % 3 = 0 ∧ data.length / 3 * 4 % w = 0) := by
  have hvalues := values_wrapText w 0 data
  have hlen := length_wrapText hw data 0 rfl Nat.pos_of_ne_zero
  have hlines : (0 + data.length / 3 * 4) / w ≤ (0 + data.length / 3 * 4) / 1 := by
    by_cases hzero : w = 0
    · rw [hzero, Nat.div_zero]
      omega
    · exact Nat.div_le_div_left (by omega) (by decide)
  have hsmall : (wrapText w 0 data).length + 3 < 2 ^ 32 := by omega
  constructor
  · rintro hok ⟨hwidth, hmod, hfull⟩
    have hends := endsValid_wrapText hw data 0 rfl Nat.pos_of_ne_zero hne hmod
    rw [Nat.zero_add] at hends
    have hsextets := length_sextets data
    have hclipped : Clipped (wrapText w 0 data) := by
      refine ⟨?_, by rw [hvalues, hsextets]; omega, ?_⟩
      · apply List.ne_nil_of_length_pos
        have hpos : 0 < data.length := List.length_pos_iff_ne_nil.mpr hne
        omega
      · intro c hc
        by_contra hvalid
        exact hends.mp ⟨c, hc, hvalid⟩ ⟨hwidth, hfull⟩
    rw [dataFromBase64String_eq heap hsmall, if_pos hclipped, hvalues, octets_sextets] at hok
    split at hok
    · cases hok
    · have hlengths := congrArg List.length (Except.ok.inj hok)
      have hpos : 0 < data.length := List.length_pos_iff_ne_nil.mpr hne
      rw [List.length_dropLast] at hlengths
      omega
  · intro hnot
    apply dataFromBase64String_of_values heap hsmall hvalues
    · intro _ hmod
      rw [endsValid_wrapText hw data 0 rfl Nat.pos_of_ne_zero hne hmod, Nat.zero_add]
      exact fun hfull => hnot ⟨hfull.1, hmod, hfull.2⟩
    · exact fun hnil => absurd hnil hne

end Libcage.Agent
