import Libcage.Lib.Bytes

/-!
# `Libcage.Lib.Base64`: octets in groups of six bits

Three octets are four sextets. `sextets` splits octets, with zero bits behind the last octet
where a group is not whole, and `octets` puts sextets together and drops the bits that fill no
octet. Splitting and putting together gives back the octets (`octets_sextets`).

An `Alphabet` writes a sextet as a character. A text stands for the sextets of its characters
(`Alphabet.values`). A character outside of the alphabet stands for nothing, so a text may be
padded and broken into lines. `Alphabet.encode` is the text without line breaks.
-/

set_option autoImplicit false

namespace Libcage.Lib

/-- Six bits. -/
abbrev Sextet := BitVec 6

/-- The sextets of octets. -/
def sextets : List Byte → List Sextet
  | x :: y :: z :: bs =>
      x.extractLsb' 2 6 :: (x.extractLsb' 0 2 ++ y.extractLsb' 4 4) ::
        (y.extractLsb' 0 4 ++ z.extractLsb' 6 2) :: z.extractLsb' 0 6 :: sextets bs
  | [x, y] =>
      [x.extractLsb' 2 6, x.extractLsb' 0 2 ++ y.extractLsb' 4 4, y.extractLsb' 0 4 ++ 0#2]
  | [x] => [x.extractLsb' 2 6, x.extractLsb' 0 2 ++ 0#4]
  | [] => []

/-- The octets of sextets. -/
def octets : List Sextet → List Byte
  | a :: b :: c :: d :: vs =>
      (a ++ b.extractLsb' 4 2) :: (b.extractLsb' 0 4 ++ c.extractLsb' 2 4) ::
        (c.extractLsb' 0 2 ++ d) :: octets vs
  | [a, b, c] => [a ++ b.extractLsb' 4 2, b.extractLsb' 0 4 ++ c.extractLsb' 2 4]
  | [a, b] => [a ++ b.extractLsb' 4 2]
  | [_] => []
  | [] => []

/-! ### Lengths -/

theorem length_sextets (bs : List Byte) : (sextets bs).length = (bs.length * 4 + 2) / 3 := by
  induction bs using sextets.induct with
  | case1 x y z bs ih =>
    simp only [sextets, List.length_cons, ih]
    omega
  | case2 x y => simp [sextets]
  | case3 x => simp [sextets]
  | case4 => simp [sextets]

theorem length_octets (vs : List Sextet) : (octets vs).length = vs.length * 3 / 4 := by
  induction vs using octets.induct with
  | case1 a b c d vs ih =>
    simp only [octets, List.length_cons, ih]
    omega
  | case2 a b c => simp [octets]
  | case3 a b => simp [octets]
  | case4 a => simp [octets]
  | case5 => simp [octets]

/-- A front of whole groups is split on its own. -/
theorem sextets_append {us : List Byte} (h : us.length % 3 = 0) (vs : List Byte) :
    sextets (us ++ vs) = sextets us ++ sextets vs := by
  induction us using sextets.induct with
  | case1 x y z us ih =>
    simp only [List.length_cons] at h
    simp only [List.cons_append, sextets, ih (by omega)]
  | case2 x y => simp at h
  | case3 x => simp at h
  | case4 => simp [sextets]

/-- A front of whole groups is put together on its own. -/
theorem octets_append {us : List Sextet} (h : us.length % 4 = 0) (vs : List Sextet) :
    octets (us ++ vs) = octets us ++ octets vs := by
  induction us using octets.induct with
  | case1 a b c d us ih =>
    simp only [List.length_cons] at h
    simp only [List.cons_append, octets, ih (by omega)]
  | case2 a b c => simp at h
  | case3 a b => simp at h
  | case4 a => simp at h
  | case5 => simp [octets]

/-! ### Splitting and putting together -/

theorem first_octet (x : Byte) (t : BitVec 4) :
    x.extractLsb' 2 6 ++ (x.extractLsb' 0 2 ++ t).extractLsb' 4 2 = x := by
  grind

theorem second_octet (y : Byte) (s t : BitVec 2) :
    (s ++ y.extractLsb' 4 4).extractLsb' 0 4 ++ (y.extractLsb' 0 4 ++ t).extractLsb' 2 4 = y := by
  grind

theorem third_octet (z : Byte) (s : BitVec 4) :
    (s ++ z.extractLsb' 6 2).extractLsb' 0 2 ++ z.extractLsb' 0 6 = z := by
  grind

/-- Octets are put together from the sextets they were split into. -/
@[simp] theorem octets_sextets (bs : List Byte) : octets (sextets bs) = bs := by
  induction bs using sextets.induct with
  | case1 x y z bs ih =>
    simp only [sextets, octets, first_octet, second_octet, third_octet, ih]
  | case2 x y => simp only [sextets, octets, first_octet, second_octet]
  | case3 x => simp only [sextets, octets, first_octet]
  | case4 => rfl

/-! ### Texts -/

/-- Characters for sextets. -/
structure Alphabet where
  char : Sextet → Byte
  value : Byte → Option Sextet
  /-- A character reads as the sextet it was written for. -/
  value_char : ∀ v, value (char v) = some v

namespace Alphabet
variable (A : Alphabet)

/-- The sextets that a text stands for. -/
def values (text : List Byte) : List Sextet := text.filterMap A.value

/-- The characters of sextets. -/
def chars (vs : List Sextet) : List Byte := vs.map A.char

/-- The text of octets: their characters, and as many of `pad` as are missing in the last
group. -/
def encode (pad : Byte) (bs : List Byte) : List Byte :=
  A.chars (sextets bs) ++ List.replicate ((3 - bs.length % 3) % 3) pad

@[simp] theorem values_chars (vs : List Sextet) : A.values (A.chars vs) = vs := by
  induction vs with
  | nil => rfl
  | cons v vs ih =>
    show (A.char v :: A.chars vs).filterMap A.value = _
    rw [List.filterMap_cons_some (A.value_char v)]
    exact congrArg _ ih

@[simp] theorem values_append (text rest : List Byte) :
    A.values (text ++ rest) = A.values text ++ A.values rest := List.filterMap_append

/-- Characters outside of the alphabet stand for nothing. -/
theorem values_junk {text : List Byte} (h : ∀ c ∈ text, A.value c = none) : A.values text = [] :=
  List.filterMap_eq_nil_iff.mpr h

/-- The text of octets stands for their sextets. -/
theorem values_encode {pad : Byte} (hpad : A.value pad = none) (bs : List Byte) :
    A.values (A.encode pad bs) = sextets bs := by
  have hpads : A.values (List.replicate ((3 - bs.length % 3) % 3) pad) = [] :=
    A.values_junk fun c hc => by rw [List.eq_of_mem_replicate hc, hpad]
  rw [encode, values_append, values_chars, hpads, List.append_nil]

/-- A text is a whole number of groups of four. -/
theorem length_encode (pad : Byte) (bs : List Byte) :
    (A.encode pad bs).length = (bs.length + 2) / 3 * 4 := by
  simp only [encode, chars, List.length_append, List.length_map, length_sextets,
    List.length_replicate]
  omega

end Alphabet

end Libcage.Lib
