import Libcage.Lib.Bytes
import Mathlib.Algebra.Order.Ring.Nat
import Mathlib.Tactic.Ring

/-!
# `Libcage.Lib.Der`: definite lengths and tagged values

A value is a tag, length octets and the contents. `LengthOctets os n` says that
`os` are length octets of the definite form for a length `n`: one octet below
128, or an octet with the number of the octets behind it and those octets, most
significant first. What follows length octets does not change how they read
(`LengthOctets.append_inj`), so a value is read off the front of a list in one
way only.

`DerLength` asks for the shortest octets, as DER does, and `IsTlv` for a value
with such a length.
-/

set_option autoImplicit false

namespace Libcage.Lib

/-- The number octets denote, put behind the number `v`. -/
def octetsFrom (v : Nat) (os : List Byte) : Nat := os.foldl (fun v o => v * 256 + o.toNat) v

/-- The number octets denote, most significant octet first. -/
def octetsValue (os : List Byte) : Nat := octetsFrom 0 os

/-- Length octets of the definite form for a length. -/
inductive LengthOctets : List Byte → Nat → Prop
  | short (o : Byte) (h : o.toNat < 128) : LengthOctets [o] o.toNat
  | long (o : Byte) (os : List Byte) (h : o.toNat = 128 + os.length) (pos : 0 < os.length)
      (lt : os.length < 127) : LengthOctets (o :: os) (octetsValue os)

/-- The shortest length octets for a length. -/
def DerLength (os : List Byte) (n : Nat) : Prop :=
  LengthOctets os n ∧ ∀ os', LengthOctets os' n → os.length ≤ os'.length

/-- A value with a tag: length octets for the contents, and the contents. -/
def IsTlv (tag : Byte) (contents bytes : List Byte) : Prop :=
  ∃ os, DerLength os contents.length ∧ bytes = tag :: (os ++ contents)

@[simp] theorem octetsFrom_nil (v : Nat) : octetsFrom v [] = v := rfl

theorem octetsFrom_cons (v : Nat) (o : Byte) (os : List Byte) :
    octetsFrom v (o :: os) = octetsFrom (v * 256 + o.toNat) os := rfl

/-- A prefix counts as many places as there are octets behind it. -/
theorem octetsFrom_eq (v : Nat) (os : List Byte) :
    octetsFrom v os = v * 256 ^ os.length + octetsValue os := by
  induction os generalizing v with
  | nil => simp [octetsValue]
  | cons o os ih =>
    rw [octetsValue, octetsFrom_cons, octetsFrom_cons, ih, ih (0 * 256 + o.toNat),
      List.length_cons, pow_succ]
    ring

theorem octetsValue_cons (o : Byte) (os : List Byte) :
    octetsValue (o :: os) = o.toNat * 256 ^ os.length + octetsValue os := by
  rw [octetsValue, octetsFrom_cons, octetsFrom_eq]
  simp

/-- Octets denote a number below a power of 256. -/
theorem octetsValue_lt (os : List Byte) : octetsValue os < 256 ^ os.length := by
  induction os with
  | nil => simp [octetsValue]
  | cons o os ih =>
    have ho : o.toNat + 1 ≤ 256 := o.isLt
    calc octetsValue (o :: os)
        < o.toNat * 256 ^ os.length + 256 ^ os.length := by rw [octetsValue_cons]; omega
      _ = (o.toNat + 1) * 256 ^ os.length := by ring
      _ ≤ 256 * 256 ^ os.length := Nat.mul_le_mul_right _ ho
      _ = 256 ^ (o :: os).length := by rw [List.length_cons, pow_succ]; ring

/-- More octets denote no less. -/
theorem octetsFrom_le_append (v : Nat) (os rest : List Byte) :
    octetsFrom v os ≤ octetsFrom v (os ++ rest) := by
  have happend : octetsFrom v (os ++ rest) = octetsFrom (octetsFrom v os) rest :=
    List.foldl_append
  rw [happend, octetsFrom_eq (octetsFrom v os)]
  exact Nat.le_add_right_of_le (Nat.le_mul_of_pos_right _ (Nat.pow_pos (by decide)))

namespace LengthOctets
variable {os os' rest rest' : List Byte} {n n' : Nat}

/-- Length octets read in one way only, whatever follows them. -/
theorem append_inj (h : LengthOctets os n) (h' : LengthOctets os' n')
    (heq : os ++ rest = os' ++ rest') : os = os' ∧ n = n' ∧ rest = rest' := by
  cases h with
  | short o ho =>
    cases h' with
    | short o' ho' =>
      obtain ⟨rfl, hrest⟩ := List.cons.inj heq
      exact ⟨rfl, rfl, hrest⟩
    | long o' ds hd pos lt =>
      obtain ⟨rfl, -⟩ := List.cons.inj heq
      omega
  | long o ds hd pos lt =>
    cases h' with
    | short o' ho' =>
      obtain ⟨rfl, -⟩ := List.cons.inj heq
      omega
    | long o' ds' hd' pos' lt' =>
      -- the first octet says how many octets follow
      obtain ⟨rfl, htail⟩ := List.cons.inj heq
      obtain ⟨rfl, hrest⟩ := List.append_inj htail (by omega)
      exact ⟨rfl, rfl, hrest⟩

theorem pos (h : LengthOctets os n) : 0 < os.length := by
  cases h <;> simp

theorem length_le (h : LengthOctets os n) : os.length ≤ 127 := by
  cases h with
  | short o ho => simp
  | long o ds hd pos lt => exact lt

/-- Lengths from 128 on take the long form. -/
theorem one_lt (h : LengthOctets os n) (hn : 128 ≤ n) : 1 < os.length := by
  cases h with
  | short o ho => omega
  | long o ds hd pos lt => simpa using pos

/-- Lengths from 256 on take two octets behind the first. -/
theorem two_lt (h : LengthOctets os n) (hn : 256 ≤ n) : 2 < os.length := by
  cases h with
  | short o ho => omega
  | long o ds hd pos lt =>
    have hlt := octetsValue_lt ds
    rw [List.length_cons]
    by_contra hle
    have hone : ds.length = 1 := by omega
    rw [hone] at hlt
    omega

end LengthOctets

/-- One octet is enough for a length below 128. -/
theorem derLength_short {n : Nat} (h : n < 128) : DerLength [BitVec.ofNat 8 n] n := by
  have hnum : (BitVec.ofNat 8 n).toNat = n := Nat.mod_eq_of_lt (by omega)
  have hshort := LengthOctets.short (BitVec.ofNat 8 n) (by omega)
  rw [hnum] at hshort
  exact ⟨hshort, fun os' hos' => hos'.pos⟩

/-- A value takes at least two octets besides its contents. -/
theorem IsTlv.length_le {tag : Byte} {contents bytes : List Byte} (h : IsTlv tag contents bytes) :
    2 + contents.length ≤ bytes.length := by
  obtain ⟨os, hos, rfl⟩ := h
  have hpos := hos.1.pos
  simp only [List.length_cons, List.length_append]
  omega

end Libcage.Lib
