import Libcage.Agent.Pem
import Libcage.Proofs.Agent.CDBase64

/-!
# `Libcage.Proofs.Agent.Pem`: a key is read back from its text

The base64 text between the two lines has no `-` (`noDash_encode`), so that taking the lines away
leaves it as it is but for line breaks and blanks (`strippedKey_eq`), and these stand for
nothing. What is read is the data of the text (`read_strippedKey`), whichever category has
written it.
-/

set_option autoImplicit false

namespace Libcage.Agent

open Lib

/-! ## Taking parts of a text away -/

theorem removeLoop_skip (target front s : List Byte) :
    removeLoop target front.length (front ++ s) = removeLoop target 0 s := by
  induction front with
  | nil => rfl
  | cons c front ih =>
    show removeLoop target (front.length + 1) (c :: (front ++ s)) = _
    rw [removeLoop, ih]

/-- An occurrence in front is taken away. -/
theorem remove_append_self (c : Byte) (cs s : List Byte) :
    remove (c :: cs) (c :: cs ++ s) = remove (c :: cs) s := by
  have hprefix : c :: cs <+: c :: (cs ++ s) := List.prefix_append (c :: cs) s
  rw [remove, List.cons_append, removeLoop, if_pos hprefix]
  exact removeLoop_skip (c :: cs) cs s

/-- A part without the first character is left alone. -/
theorem remove_append {c : Byte} {front : List Byte} (h : c ∉ front) (cs s : List Byte) :
    remove (c :: cs) (front ++ s) = front ++ remove (c :: cs) s := by
  induction front with
  | nil => rfl
  | cons d front ih =>
    have hd : c ≠ d := fun heq => h (heq ▸ List.mem_cons_self ..)
    have hnot : ¬ c :: cs <+: d :: (front ++ s) := fun hp => hd (List.cons_prefix_cons.mp hp).1
    rw [remove, List.cons_append, removeLoop, if_neg hnot]
    exact congrArg _ (ih fun hmem => h (List.mem_cons_of_mem d hmem))

/-- There is no room for an occurrence. -/
theorem remove_of_short (target : List Byte) :
    ∀ s : List Byte, s.length < target.length → remove target s = s := by
  intro s
  induction s with
  | nil => exact fun _ => rfl
  | cons c s ih =>
    intro hlen
    have hnot : ¬ target <+: c :: s := fun hp => Nat.not_lt.mpr hp.length_le hlen
    rw [List.length_cons] at hlen
    rw [remove, removeLoop, if_neg hnot]
    exact congrArg _ (ih (by omega))

/-- Single characters are taken away wherever they are. -/
theorem remove_singleton (c : Byte) (s : List Byte) : remove [c] s = s.filter (· ≠ c) := by
  induction s with
  | nil => rfl
  | cons d s ih =>
    rw [remove, removeLoop]
    by_cases hd : c = d
    · subst hd
      rw [if_pos (by simp), List.filter_cons_of_neg (by simp)]
      exact ih
    · have hnot : ¬ [c] <+: d :: s := fun hp => hd (List.cons_prefix_cons.mp hp).1
      rw [if_neg hnot, List.filter_cons_of_pos (by simpa using fun heq => hd heq.symm)]
      exact congrArg _ ih

/-- The character that both lines begin with. -/
def dash : Byte := asciiByte '-'

/-- What is left of a body between a header and a shorter footer. -/
theorem strippedKey_eq {header footer : List Byte} {hs fs : List Byte} (hheader : header = dash :: hs)
    (hfooter : footer = dash :: fs) (hlen : footer.length < header.length) {body : List Byte}
    (hbody : dash ∉ body) :
    strippedKey header footer (header ++ ascii "\n" ++ body ++ ascii "\n" ++ footer) =
      (body.filter (· ≠ 0x0a)).filter (· ≠ 0x20) := by
  have hline : ascii "\n" = [0x0a] := by simp [ascii, asciiByte]
  have hblank : ascii " " = [0x20] := by simp [ascii, asciiByte]
  have hfront : dash ∉ [0x0a] ++ body ++ [0x0a] := by
    have hdash : dash ≠ 0x0a := by decide
    have hline : dash ∉ [0x0a] := fun h => hdash (List.mem_singleton.mp h)
    simp only [List.mem_append, hbody, hline, or_self, not_false_eq_true]
  have hremoved : remove header (header ++ [0x0a] ++ body ++ [0x0a] ++ footer) =
      [0x0a] ++ body ++ [0x0a] ++ footer := by
    have happend : header ++ [0x0a] ++ body ++ [0x0a] ++ footer =
        header ++ ([0x0a] ++ body ++ [0x0a] ++ footer) := by simp
    rw [happend, hheader, remove_append_self, remove_append hfront, ← hheader,
      remove_of_short header footer hlen]
  have hframe : remove footer ([0x0a] ++ body ++ [0x0a] ++ footer) = [0x0a] ++ body ++ [0x0a] := by
    have hself := remove_append_self dash fs []
    rw [List.append_nil] at hself
    rw [hfooter, remove_append hfront, hself]
    exact List.append_nil _
  rw [strippedKey, hline, hblank, hremoved, hframe, remove_singleton, remove_singleton]
  simp

/-! ## The body of a text -/

theorem encodeLookup_ne_dash : ∀ v : Sextet, encodeLookup (v.setWidth 8) ≠ dash := by decide

theorem noDash_encode (data : List Byte) : dash ∉ encode data := by
  intro hmem
  rcases List.mem_append.mp hmem with h | h
  · obtain ⟨v, -, hv⟩ := List.mem_map.mp h
    exact encodeLookup_ne_dash v hv
  · exact absurd (List.eq_of_mem_replicate h) (by decide)

theorem noDash_broken (n : Nat) :
    ∀ data : List Byte, data.length ≤ n → dash ∉ broken (cut 48 data) := by
  induction n with
  | zero =>
    intro data hdata
    rw [List.length_eq_zero_iff.mp (Nat.le_zero.mp hdata)]
    exact List.not_mem_nil
  | succ n ih =>
    intro data hdata
    by_cases hlast : data.length ≤ 48
    · rw [broken_cut_short hlast]
      exact noDash_encode data
    · have hcrLf : dash ∉ crLf := by decide
      have hrest := ih (data.drop 48) (by rw [List.length_drop]; omega)
      rw [broken_cut_long (by decide) (by omega)]
      simp only [List.mem_append, noDash_encode, hcrLf, hrest, or_self, not_false_eq_true]

/-- A character that stands for nothing can be left out. -/
theorem values_filter {c : Byte} (h : base64.value c = none) (text : List Byte) :
    values (text.filter (· ≠ c)) = values text := by
  induction text with
  | nil => rfl
  | cons d text ih =>
    by_cases hd : d = c
    · subst hd
      rw [List.filter_cons_of_neg (by simp), values_cons_none h, ih]
    · rw [List.filter_cons_of_pos (by simpa using hd)]
      cases hv : base64.value d with
      | none => rw [values_cons_none hv, values_cons_none hv, ih]
      | some v => rw [values_cons_some hv, values_cons_some hv, ih]

theorem EndsValid.filter {c : Byte} (h : base64.value c = none) {text : List Byte}
    (hends : EndsValid text) : EndsValid (text.filter (· ≠ c)) := by
  obtain ⟨d, hd, hvalid⟩ := hends
  obtain ⟨front, rfl⟩ := List.getLast?_eq_some_iff.mp hd
  have hne : d ≠ c := fun heq => hvalid (heq ▸ h)
  refine ⟨d, ?_, hvalid⟩
  rw [List.filter_append, List.filter_cons_of_pos (by simpa using hne)]
  simp

/-- A text of either category for data: what it stands for, how it ends, and no `-`. -/
structure Body (data text : List Byte) : Prop where
  values_eq : values text = sextets data
  ends : data ≠ [] → data.length % 3 = 0 → EndsValid text
  nil : data = [] → text = []
  small : text.length + 3 < 2 ^ 32
  noDash : dash ∉ text

theorem body_broken {data : List Byte} (h : data.length < 2 ^ 31) :
    Body data (broken (cut 48 data)) where
  values_eq := (broken_lines _ data (Nat.le_refl _)).1
  ends := (broken_lines _ data (Nat.le_refl _)).2
  nil := by
    rintro rfl
    rfl
  small := by
    have hlen := length_broken_lines _ data (Nat.le_refl _)
    omega
  noDash := noDash_broken _ data (Nat.le_refl _)

theorem body_encode {data : List Byte} (h : data.length < 2 ^ 31) : Body data (encode data) where
  values_eq := values_encode data
  ends := endsValid_encode
  nil := by
    rintro rfl
    rfl
  small := by
    have hlen := length_encode data
    omega
  noDash := noDash_encode data

/-- What either category returns for data. -/
theorem Category.base64EncodedString_body (category : Category) (heap : Nat → Byte)
    {data : List Byte} (h : data.length < 2 ^ 30) :
    ∃ text, Body data text ∧ category.base64EncodedString heap data =
      .ok (if category = .cdBase64 ∧ data = [] then none else some text) := by
  cases category with
  | base64 =>
    refine ⟨_, body_broken (by omega), ?_⟩
    rw [Category.base64EncodedString, base64EncodedString_eq heap (by omega)]
    rfl
  | cdBase64 =>
    refine ⟨_, body_encode (by omega), ?_⟩
    rw [Category.base64EncodedString, base64EncodedStringWithWrapWidth_eq heap 0 h, wrapText_zero]
    simp

/-- What is read from a text between two lines. -/
theorem read_strippedKey (heap : Nat → Byte) {header footer hs fs : List Byte}
    (hheader : header = dash :: hs) (hfooter : footer = dash :: fs)
    (hlen : footer.length < header.length) {data text : List Byte} (h : Body data text) :
    dataFromBase64String heap
        (strippedKey header footer (header ++ ascii "\n" ++ text ++ ascii "\n" ++ footer)) =
      .ok data := by
  have hline : base64.value 0x0a = none := by decide
  have hblank : base64.value 0x20 = none := by decide
  rw [strippedKey_eq hheader hfooter hlen h.noDash]
  apply dataFromBase64String_of_values
  · have hle : ((text.filter (· ≠ 0x0a)).filter (· ≠ 0x20)).length ≤ text.length :=
      Nat.le_trans (List.length_filter_le ..) (List.length_filter_le ..)
    have hsmall := h.small
    omega
  · rw [values_filter hblank, values_filter hline, h.values_eq]
  · exact fun hne hmod => ((h.ends hne hmod).filter hline).filter hblank
  · intro hnil
    rw [h.nil hnil]
    rfl

/-! ## Round trips -/

/-- Where both lengths of an export fit into the builder. -/
theorem exported_fits_iff {key : List Byte} (h : key.length < 2 ^ 30) :
    (lengthBytes (sequenceLength key)).length < 15 ∧
      (lengthBytes (bitstringLength key)).length < 14 ↔ key.length ≤ 3070 := by
  have hoid : oidSequence.length = 15 := rfl
  have hkey : sizeT key.length = key.length := sizeT_of_lt (by omega)
  have hbits : bitstringLength key = key.length + 1 := by
    rw [bitstringLength, hkey, sizeT_of_lt (by omega)]
  have henc : bitstringEncLength key =
      if key.length + 1 < 128 then 1 else (key.length + 1) / 256 + 2 := by
    rw [bitstringEncLength, hkey, sizeT_of_lt (by omega)]
  have hseq : sequenceLength key = 17 + bitstringEncLength key + key.length := by
    rw [sequenceLength, hkey, hoid, sizeT_of_lt (by rw [henc]; split <;> omega)]
  rw [length_lengthBytes, length_lengthBytes, hbits, hseq, henc]
  constructor
  · rintro ⟨-, h⟩
    split at h <;> omega
  · intro h
    constructor
    · split <;> split <;> omega
    · split <;> omega

theorem length_exported {key : List Byte} (h : key.length ≤ 3070) :
    (exported key).length < 2 ^ 30 := by
  have hfits := (exported_fits_iff (show key.length < 2 ^ 30 by omega)).mpr h
  have hoid : oidSequence.length = 15 := rfl
  simp only [exported, List.length_cons, List.length_append, hoid]
  omega

theorem x509PublicHeader_eq : x509PublicHeader = dash :: x509PublicHeader.tail := by
  simp [x509PublicHeader, ascii, dash]

theorem x509PublicFooter_eq : x509PublicFooter = dash :: x509PublicFooter.tail := by
  simp [x509PublicFooter, ascii, dash]

theorem x509_shorter : x509PublicFooter.length < x509PublicHeader.length := by
  simp [x509PublicFooter, x509PublicHeader, ascii]

theorem pemPrivateHeader_eq : pemPrivateHeader = dash :: pemPrivateHeader.tail := by
  simp [pemPrivateHeader, ascii, dash]

theorem pemPrivateFooter_eq : pemPrivateFooter = dash :: pemPrivateFooter.tail := by
  simp [pemPrivateFooter, ascii, dash]

theorem pemPrivate_shorter : pemPrivateFooter.length < pemPrivateHeader.length := by
  simp [pemPrivateFooter, pemPrivateHeader, ascii]

/-- A text has its two lines. -/
theorem framed_in_text (header footer text : List Byte) :
    header <:+: header ++ ascii "\n" ++ text ++ ascii "\n" ++ footer ∧
      footer <:+: header ++ ascii "\n" ++ text ++ ascii "\n" ++ footer := by
  constructor
  · refine (List.prefix_append header (ascii "\n" ++ text ++ ascii "\n" ++ footer)).isInfix.trans ?_
    simp
  · exact (List.suffix_append _ footer).isInfix

/-- A public key comes back from its text just where it is not empty and its lengths fit into the
builder. -/
theorem publicKeyText_iff (category : Category) (heap heap' : Nat → Byte) (builder : Builder)
    {key : List Byte} (h : key.length < 2 ^ 30) :
    (∃ pem, getX509FormattedPublicKeyText category heap builder key = .ok pem ∧
      setPublicKey heap' pem = .ok key) ↔ 1 ≤ key.length ∧ key.length ≤ 3070 := by
  rw [getX509FormattedPublicKeyText, getX509FormattedPublicKey_eq, if_congr (exported_fits_iff h)
    rfl rfl]
  by_cases hfits : key.length ≤ 3070
  · have hlengths := (exported_fits_iff h).mpr hfits
    have hsmall := length_exported hfits
    obtain ⟨text, hbody, htext⟩ := category.base64EncodedString_body heap hsmall
    have hnotnil : exported key ≠ [] := List.cons_ne_nil _ _
    rw [if_neg (fun hnil => hnotnil hnil.2)] at htext
    have hread := read_strippedKey heap' x509PublicHeader_eq x509PublicFooter_eq x509_shorter hbody
    have himport := importX509_exported (by omega) hlengths.1 hlengths.2
    have hpem : ∀ pem, (inBuilder (some (exported key)) >>= fun encKey =>
        onBuffer (category.base64EncodedString heap encKey) >>= fun text =>
          (pure (x509PublicHeader ++ ascii "\n" ++ text.getD (ascii "(null)") ++ ascii "\n" ++
            x509PublicFooter) : Except KeyFault _)) = .ok pem ↔
        x509PublicHeader ++ ascii "\n" ++ text ++ ascii "\n" ++ x509PublicFooter = pem := by
      intro pem
      rw [inBuilder, ok_bind, htext]
      exact ⟨fun heq => Except.ok.inj heq, fun heq => congrArg _ heq⟩
    have hset : setPublicKey heap'
        (x509PublicHeader ++ ascii "\n" ++ text ++ ascii "\n" ++ x509PublicFooter) =
          onKey (importX509 (exported key)) := by
      rw [setPublicKey, if_pos (framed_in_text _ _ _), hread]
      rfl
    rw [if_pos hfits]
    simp only [hpem, exists_eq_left', hset, himport, hfits, and_true]
    cases key with
    | nil => simp [onKey, Except.mapError]
    | cons b key => simp [onKey, Except.mapError]
  · rw [if_neg hfits]
    constructor
    · rintro ⟨pem, hpem, -⟩
      cases hpem
    · exact fun hbounds => absurd hbounds.2 hfits

/-- The bits of a private key come back from their text, but for no bits at all in the text of
`NSData+CDBase64`. -/
theorem privateKeyText_iff (category : Category) (heap heap' : Nat → Byte) {key : List Byte}
    (h : key.length < 2 ^ 30) :
    (∃ pem, getPEMFormattedPrivateKey category heap key = .ok pem ∧
      setPrivateKey heap' pem = .ok key) ↔ ¬ (category = .cdBase64 ∧ key = []) := by
  obtain ⟨text, hbody, htext⟩ := category.base64EncodedString_body heap h
  rw [getPEMFormattedPrivateKey, htext]
  by_cases hnil : category = .cdBase64 ∧ key = []
  · rw [if_pos hnil]
    refine iff_of_false ?_ (not_not.mpr hnil)
    rintro ⟨pem, hpem, -⟩
    cases hpem
  · rw [if_neg hnil]
    refine iff_of_true ⟨_, rfl, ?_⟩ hnil
    rw [← List.append_assoc, setPrivateKey, if_pos (framed_in_text _ _ _),
      read_strippedKey heap' pemPrivateHeader_eq pemPrivateFooter_eq pemPrivate_shorter hbody]
    rfl

/-- Keys and their texts: whichever category writes the base64 and whatever the buffers held, a
public key is read back from the text of its export if and only if it has 1 to 3070 bytes, and the
bits of a private key always are, but that no bits have no text in `NSData+CDBase64`. -/
theorem keyText_roundTrip (category : Category) (heap heap' : Nat → Byte) (builder : Builder)
    (key : List Byte) (h : key.length < 2 ^ 30) :
    ((∃ pem, getX509FormattedPublicKeyText category heap builder key = .ok pem ∧
        setPublicKey heap' pem = .ok key) ↔ 1 ≤ key.length ∧ key.length ≤ 3070) ∧
      ((∃ pem, getPEMFormattedPrivateKey category heap key = .ok pem ∧
        setPrivateKey heap' pem = .ok key) ↔ ¬ (category = .cdBase64 ∧ key = [])) :=
  ⟨publicKeyText_iff category heap heap' builder h, privateKeyText_iff category heap heap' h⟩

/-- A key of two bytes, in the text of `NSData+Base64`. -/
theorem keyText_roundTrip_two :
    ((∃ pem, getX509FormattedPublicKeyText .base64 (fun _ => 0) (Vector.replicate 15 0)
          [0x30, 0x00] = .ok pem ∧ setPublicKey (fun _ => 0) pem = .ok [0x30, 0x00]) ↔
        1 ≤ [(0x30 : Byte), 0x00].length ∧ [(0x30 : Byte), 0x00].length ≤ 3070) ∧
      ((∃ pem, getPEMFormattedPrivateKey .base64 (fun _ => 0) [0x30, 0x00] = .ok pem ∧
          setPrivateKey (fun _ => 0) pem = .ok [0x30, 0x00]) ↔
        ¬ (Category.base64 = .cdBase64 ∧ [(0x30 : Byte), 0x00] = [])) :=
  keyText_roundTrip .base64 (fun _ => 0) (fun _ => 0) (Vector.replicate 15 0) [0x30, 0x00]
    (by decide)

end Libcage.Agent
