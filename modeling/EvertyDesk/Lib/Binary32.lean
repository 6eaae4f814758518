import Mathlib.Algebra.Group.Nat.Defs

/-!
Comparing binary32 numbers by their bits. The bits without the sign order the numbers of
one sign, and a value above infinity there is no number: every comparison with it fails.
-/

namespace EvertyDesk

/-- A binary32 value, as its bits. -/
structure F32 where
  bits : UInt32
deriving DecidableEq, Repr

namespace F32

/-- The bits without the sign. -/
def magnitude (x : F32) : Nat := x.bits.toNat % 2 ^ 31

def isNaN (x : F32) : Bool := decide (x.magnitude > 0x7F800000)

/-- The place of a number among all numbers; both zeros have one. -/
def key (x : F32) : Int := if x.bits.toNat < 2 ^ 31 then x.magnitude else -x.magnitude

def lt (x y : F32) : Bool := !x.isNaN && !y.isNaN && decide (x.key < y.key)

def le (x y : F32) : Bool := !x.isNaN && !y.isNaN && decide (x.key ≤ y.key)

theorem lt_iff {x y : F32} : x.lt y = true ↔ x.isNaN = false ∧ y.isNaN = false ∧ x.key < y.key := by
  simp [lt, and_assoc]

theorem le_iff {x y : F32} : x.le y = true ↔ x.isNaN = false ∧ y.isNaN = false ∧ x.key ≤ y.key := by
  simp [le, and_assoc]

/-- A value is not on both sides of a bound. -/
theorem not_le_of_lt {x bound : F32} (h : x.lt bound = true) : bound.le x = false := by
  obtain ⟨-, -, hlt⟩ := lt_iff.mp h
  apply Bool.eq_false_iff.mpr
  intro hle
  exact absurd (le_iff.mp hle).2.2 (Int.not_le.mpr hlt)

end F32

end EvertyDesk
