import Mathlib.Algebra.Order.Field.Rat
import Mathlib.Data.Int.Log
import Mathlib.Data.Rat.Floor
import Mathlib.Tactic.Linarith
import Mathlib.Tactic.Ring

/-!
Rounding to single precision: 24 binary digits, ties to even, and no unit below the
smallest. Infinities are left out.
-/

namespace EvertyDesk

/-- A whole number as it is converted to single precision. -/
def asF32 (n : Nat) : Nat :=
  if n < 2 ^ 24 then n
  else
    let unit := 2 ^ (n.log2 - 23)
    let quotient := n / unit
    let remainder := n % unit
    if unit < 2 * remainder ∨ (2 * remainder = unit ∧ quotient % 2 = 1) then
      (quotient + 1) * unit
    else quotient * unit

/-- The nearest whole number, the even one of two. -/
def roundEven (q : ℚ) : ℤ :=
  let below := ⌊q⌋
  if 1 / 2 < q - below ∨ (q - below = 1 / 2 ∧ below % 2 = 1) then below + 1 else below

/-- The unit of the last digit of a number. -/
def binary32Unit (q : ℚ) : ℚ := 2 ^ max (Int.log 2 |q| - 23) (-149)

def roundBinary32 (q : ℚ) : ℚ := roundEven (q / binary32Unit q) * binary32Unit q

theorem asF32_pos {n : Nat} (h : 0 < n) : 0 < asF32 n := by
  rw [asF32]
  split
  · exact h
  · have hunit : 2 ^ (n.log2 - 23) ≤ n := by
      calc 2 ^ (n.log2 - 23) ≤ 2 ^ n.log2 := Nat.pow_le_pow_right (by decide) (by omega)
        _ ≤ n := Nat.log2_self_le h.ne'
    have hquotient : 0 < n / 2 ^ (n.log2 - 23) := Nat.div_pos hunit (Nat.two_pow_pos _)
    dsimp only
    split
    · exact Nat.mul_pos (Nat.succ_pos _) (Nat.two_pow_pos _)
    · exact Nat.mul_pos hquotient (Nat.two_pow_pos _)

theorem roundEven_pos {q : ℚ} (h : 1 ≤ q) : 1 ≤ roundEven q := by
  have hbelow : 1 ≤ ⌊q⌋ := Int.le_floor.mpr (by rwa [Int.cast_one])
  rw [roundEven]
  split <;> omega

theorem binary32Unit_pos (q : ℚ) : 0 < binary32Unit q := zpow_pos (by decide) _

@[simp] theorem roundBinary32_zero : roundBinary32 0 = 0 := by
  rw [roundBinary32, zero_div]
  simp [roundEven]

/-- What is not below the smallest unit does not become zero. -/
theorem roundBinary32_pos {q : ℚ} (h : 2 ^ (-149 : ℤ) ≤ q) : 0 < roundBinary32 q := by
  have hpos : 0 < q := lt_of_lt_of_le (zpow_pos (by decide) _) h
  have hunit : binary32Unit q ≤ q := by
    rw [binary32Unit, abs_of_pos hpos]
    rcases le_total (Int.log 2 q - 23) (-149) with hle | hle
    · rwa [max_eq_right hle]
    · rw [max_eq_left hle]
      calc (2 : ℚ) ^ (Int.log 2 q - 23) ≤ 2 ^ Int.log 2 q :=
            zpow_le_zpow_right₀ (by decide) (by omega)
        _ ≤ q := Int.zpow_log_le_self (by decide) hpos
  have hwhole : 1 ≤ q / binary32Unit q := (one_le_div (binary32Unit_pos q)).mpr hunit
  have hround : (1 : ℚ) ≤ roundEven (q / binary32Unit q) := by
    exact_mod_cast roundEven_pos hwhole
  exact mul_pos (lt_of_lt_of_le (by decide) hround) (binary32Unit_pos q)

theorem roundEven_le (q : ℚ) : (roundEven q : ℚ) ≤ q + 1 / 2 := by
  have hfloor : (⌊q⌋ : ℚ) ≤ q := Int.floor_le q
  rw [roundEven]
  split_ifs with hup
  · have hhalf : 1 / 2 ≤ q - ⌊q⌋ := by
      rcases hup with hup | hup
      · exact hup.le
      · exact hup.1.ge
    push_cast
    linarith
  · linarith

theorem roundBinary32_le (q : ℚ) : roundBinary32 q ≤ q + binary32Unit q / 2 := by
  have hunit := binary32Unit_pos q
  calc roundBinary32 q ≤ (q / binary32Unit q + 1 / 2) * binary32Unit q :=
        mul_le_mul_of_nonneg_right (roundEven_le _) hunit.le
    _ = q + binary32Unit q / 2 := by
        rw [add_mul, div_mul_cancel₀ _ hunit.ne']
        ring

/-- Of a normal number at most the 24th binary digit is off. -/
theorem roundBinary32_le_of_normal {q : ℚ} (h : 2 ^ (-126 : ℤ) ≤ q) :
    roundBinary32 q ≤ q + q * 2 ^ (-24 : ℤ) := by
  have hpos : 0 < q := lt_of_lt_of_le (zpow_pos (by decide) _) h
  have hlog : -126 ≤ Int.log 2 q := (Int.zpow_le_iff_le_log (by decide) hpos).mp h
  have hunit : binary32Unit q ≤ q * 2 ^ (-23 : ℤ) := by
    rw [binary32Unit, abs_of_pos hpos, max_eq_left (by omega), sub_eq_add_neg,
      zpow_add₀ (by decide)]
    exact mul_le_mul_of_nonneg_right (Int.zpow_log_le_self (by decide) hpos)
      (zpow_pos (by decide) _).le
  have hround := roundBinary32_le q
  norm_num at hunit hround ⊢
  linarith

/-- Of a number below a power of two no more is off than of that power. -/
theorem roundBinary32_le_of_lt {q : ℚ} {k : ℤ} (hq : 0 ≤ q) (h : q < 2 ^ k) (hk : 0 < k) :
    roundBinary32 q ≤ q + 2 ^ (k - 24) / 2 := by
  rcases hq.eq_or_lt with rfl | hpos
  · rw [roundBinary32_zero, zero_add]
    exact div_nonneg (zpow_pos (by decide) _).le (by decide)
  · have hlog : Int.log 2 q < k := (Int.lt_zpow_iff_log_lt (by decide) hpos).mp h
    have hunit : binary32Unit q ≤ 2 ^ (k - 24) := by
      rw [binary32Unit, abs_of_pos hpos]
      exact zpow_le_zpow_right₀ (by decide) (by omega)
    have hround := roundBinary32_le q
    linarith

end EvertyDesk
