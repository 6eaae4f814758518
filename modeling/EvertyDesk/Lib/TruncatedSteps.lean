import Mathlib.Algebra.Order.Field.Basic
import Mathlib.Algebra.Order.Field.Rat
import Mathlib.Data.Rat.Defs
import Mathlib.Tactic.FieldSimp
import Mathlib.Tactic.Linarith
import Mathlib.Tactic.Ring

/-!
A path of whole numbers followed in steps that are scaled by a fraction and truncated
towards zero, each on its own. What the truncations leave off adds up, and it is all that
the steps together miss of the scaled distance.
-/

namespace EvertyDesk.TruncatedSteps

/-- The sum over the steps of a path. -/
def total (f : Int → Int → Int) : Int → List Int → Int
  | _, [] => 0
  | p, q :: path => f p q + total f q path

/-- Where a path ends. -/
def arrival : Int → List Int → Int
  | p, [] => p
  | _, q :: path => arrival q path

variable (num den : Int)

def step (p q : Int) : Int := (num * (q - p)).tdiv den

/-- What the truncation of a step leaves off, in parts of a unit. -/
def loss (p q : Int) : Int := (num * (q - p)).tmod den

theorem den_mul_step (p q : Int) : den * step num den p q + loss num den p q = num * (q - p) :=
  Int.mul_tdiv_add_tmod _ _

theorem total_step (p : Int) (path : List Int) :
    den * total (step num den) p path + total (loss num den) p path =
      num * (arrival p path - p) := by
  induction path generalizing p with
  | nil => simp [total, arrival]
  | cons q path ih =>
      have hfirst := den_mul_step num den p q
      have hrest := ih q
      simp only [total, arrival]
      linarith

/-- The steps miss the scaled distance by less than one unit exactly when the losses add
up to less than one. -/
theorem near_iff (hden : 0 < den) (p : Int) (path : List Int) :
    |(total (step num den) p path : ℚ) - (arrival p path - p) * num / den| < 1 ↔
      |total (loss num den) p path| < den := by
  have hrat : (0 : ℚ) < den := by exact_mod_cast hden
  have hexact : ((total (step num den) p path : ℚ) - (arrival p path - p) * num / den) =
      -(total (loss num den) p path : ℚ) / den := by
    have htotal := total_step num den p path
    have hcast : (den : ℚ) * total (step num den) p path + total (loss num den) p path =
        num * (arrival p path - p) := by exact_mod_cast htotal
    field_simp
    linarith
  rw [hexact, abs_div, abs_neg, abs_of_pos hrat, div_lt_one hrat]
  exact_mod_cast Iff.rfl

end EvertyDesk.TruncatedSteps
