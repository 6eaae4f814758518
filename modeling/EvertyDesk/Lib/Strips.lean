import Mathlib.Algebra.Order.Field.Rat
import Mathlib.Algebra.Order.Floor.Ring
import Mathlib.Algebra.Order.Floor.Semiring
import Mathlib.Data.Rat.Floor
import Mathlib.Tactic.FieldSimp
import Mathlib.Tactic.Linarith
import Mathlib.Tactic.Ring

/-!
A strip of cells of one size, of which a part at the front can be seen, and the
same strip again with a shift. A point lies in a cell of either; this is about
when the two cells are the same or next to each other, whatever the point.
-/

namespace EvertyDesk

/-- Cells next to each other, or the same. -/
def Near (first second : ℕ) : Prop := first ≤ second + 1 ∧ second ≤ first + 1

/-- Where any of it is seen, the shift does not take the strip out of its own
length, and if it goes back by more than a cell the cells are small and there are
some of them. -/
structure Strip where
  count : ℕ
  size : ℚ
  visible : ℕ
  shift : ℚ
  count_pos : 0 < count
  size_pos : 0 < size
  visible_le : (visible : ℚ) ≤ count * size
  shift_ge : 0 < visible → -(count * size) ≤ shift
  small : 0 < visible → shift < -size → size ≤ 1 ∧ 3 ≤ count

namespace Strip

variable (strip : Strip)

/-- The cell of a point. -/
def cell (t : ℚ) : ℕ := ⌊t / strip.size⌋₊

/-- The cell of a point after the shift, the first or the last for points
outside. -/
def shifted (t : ℚ) : ℕ := min (strip.count - 1) ⌊(t - strip.shift) / strip.size⌋₊

/-- The shift is at most a cell, or forward where no more than two cells are
seen. -/
def Aligned : Prop :=
  -strip.size ≤ strip.shift ∧ (strip.shift ≤ strip.size ∨ (strip.visible : ℚ) ≤ 2 * strip.size)

instance : Decidable strip.Aligned := inferInstanceAs (Decidable (_ ∧ _))

variable {strip} {t : ℚ}

theorem cell_lt (hstart : 0 ≤ t) (hstop : t < strip.visible) : strip.cell t < strip.count := by
  have hlt : t / strip.size < strip.count := by
    rw [div_lt_iff₀ strip.size_pos]
    exact hstop.trans_le strip.visible_le
  exact (Nat.floor_lt (div_nonneg hstart strip.size_pos.le)).mpr hlt

/-- The two cells of a point are near if the shift is small. -/
theorem near_of_aligned (h : strip.Aligned) (hstart : 0 ≤ t) (hstop : t < strip.visible) :
    Near (strip.cell t) (strip.shifted t) := by
  have hsize := strip.size_pos
  have hcell := cell_lt hstart hstop
  have hsplit : (t - strip.shift) / strip.size = t / strip.size - strip.shift / strip.size :=
    sub_div t strip.shift strip.size
  obtain ⟨hback, hforward⟩ := h
  rw [cell] at hcell
  rw [Near, cell, shifted, hsplit]
  constructor
  · rcases hforward with hforward | hfew
    · have hone : strip.shift / strip.size ≤ 1 := (div_le_one hsize).mpr hforward
      have hle : ⌊t / strip.size - 1⌋₊ ≤ ⌊t / strip.size - strip.shift / strip.size⌋₊ :=
        Nat.floor_le_floor (by linarith)
      rw [Nat.floor_sub_one] at hle
      omega
    · have htwo : t / strip.size < (2 : ℕ) := by
        rw [div_lt_iff₀ hsize, Nat.cast_ofNat]
        exact hstop.trans_le hfew
      have hfirst := (Nat.floor_lt (div_nonneg hstart hsize.le)).mpr htwo
      omega
  · have hone : -1 ≤ strip.shift / strip.size := by
      rw [le_div_iff₀ hsize]
      linarith
    have hle : ⌊t / strip.size - strip.shift / strip.size⌋₊ ≤ ⌊t / strip.size + 1⌋₊ :=
      Nat.floor_le_floor (by linarith)
    rw [Nat.floor_add_one (div_nonneg hstart hsize.le)] at hle
    omega

/-- A point that is seen and that the shifted strip covers. -/
structure Seen (strip : Strip) (t : ℚ) : Prop where
  start : 0 ≤ t
  stop : t < strip.visible
  covered : 0 ≤ t - strip.shift
  within : t - strip.shift ≤ strip.count * strip.size

theorem exists_seen (hvisible : 0 < strip.visible) (hshown : strip.shift < strip.visible) :
    ∃ t, strip.Seen t := by
  have hge := strip.shift_ge hvisible
  have hlength : (0 : ℚ) < strip.visible := Nat.cast_pos.mpr hvisible
  have hcount : (0 : ℚ) ≤ strip.count * strip.size :=
    mul_nonneg (Nat.cast_nonneg _) strip.size_pos.le
  refine ⟨max 0 strip.shift, le_max_left _ _, max_lt hlength hshown, ?_, ?_⟩
  · exact sub_nonneg.mpr (le_max_right _ _)
  · rw [sub_le_iff_le_add]
    exact max_le (by linarith) (by linarith)

/-- Forward by more than a cell: the first cell is shown in the third one. -/
theorem exists_far_forward (hforward : strip.size < strip.shift)
    (hshown : strip.shift < strip.visible) (hmore : 2 * strip.size < strip.visible) :
    ∃ t, strip.Seen t ∧ ¬ Near (strip.cell t) (strip.shifted t) := by
  have hsize := strip.size_pos
  obtain ⟨t, ht⟩ : ∃ t, t = max (2 * strip.size) strip.shift := ⟨_, rfl⟩
  have htwo : 2 * strip.size ≤ t := by rw [ht]; exact le_max_left _ _
  have hshift : strip.shift ≤ t := by rw [ht]; exact le_max_right _ _
  have hnext : t < strip.shift + strip.size := by
    rw [ht]
    exact max_lt (by linarith) (by linarith)
  have hstop : t < strip.visible := by
    rw [ht]
    exact max_lt hmore hshown
  have hcount : 1 * strip.size ≤ strip.count * strip.size :=
    mul_le_mul_of_nonneg_right (by exact_mod_cast strip.count_pos) hsize.le
  have hthird : 2 ≤ strip.cell t := by
    apply Nat.le_floor
    rw [Nat.cast_ofNat, le_div_iff₀ hsize]
    exact htwo
  have hfirst : ⌊(t - strip.shift) / strip.size⌋₊ = 0 := by
    rw [Nat.floor_eq_zero, div_lt_one hsize]
    linarith
  refine ⟨t, ⟨by linarith, hstop, by linarith, by linarith⟩, ?_⟩
  rw [Near, shifted, hfirst]
  omega

/-- Back by more than a cell: the third cell is shown in the first one. -/
theorem exists_far_back (hback : strip.shift < -strip.size) (hvisible : 0 < strip.visible) :
    ∃ t, strip.Seen t ∧ ¬ Near (strip.cell t) (strip.shifted t) := by
  have hsize := strip.size_pos
  obtain ⟨hone, hthree⟩ := strip.small hvisible hback
  have hlength : (1 : ℚ) ≤ strip.visible := by exact_mod_cast hvisible
  have hcount : 3 * strip.size ≤ strip.count * strip.size :=
    mul_le_mul_of_nonneg_right (by exact_mod_cast hthree) hsize.le
  have hge := strip.shift_ge hvisible
  obtain ⟨t, ht⟩ : ∃ t, t = max 0 (2 * strip.size + strip.shift) := ⟨_, rfl⟩
  have hstart : 0 ≤ t := by rw [ht]; exact le_max_left _ _
  have htwo : 2 * strip.size + strip.shift ≤ t := by rw [ht]; exact le_max_right _ _
  have hnext : t < strip.size := by
    rw [ht]
    exact max_lt hsize (by linarith)
  have hwithin : t ≤ strip.count * strip.size + strip.shift := by
    rw [ht]
    exact max_le (by linarith) (by linarith)
  have hfirst : strip.cell t = 0 := by
    rw [cell, Nat.floor_eq_zero, div_lt_one hsize]
    exact hnext
  have hthird : 2 ≤ ⌊(t - strip.shift) / strip.size⌋₊ := by
    apply Nat.le_floor
    rw [Nat.cast_ofNat, le_div_iff₀ hsize]
    linarith
  refine ⟨t, ⟨hstart, by linarith, by linarith, by linarith⟩, ?_⟩
  rw [Near, shifted, hfirst]
  omega

/-- Otherwise there is a point whose cells are not near. -/
theorem exists_far (hvisible : 0 < strip.visible) (hshown : strip.shift < strip.visible)
    (h : ¬ strip.Aligned) : ∃ t, strip.Seen t ∧ ¬ Near (strip.cell t) (strip.shifted t) := by
  by_cases hback : -strip.size ≤ strip.shift
  · obtain ⟨hforward, hmore⟩ := not_or.mp fun hsmall => h ⟨hback, hsmall⟩
    exact exists_far_forward (not_le.mp hforward) hshown (not_le.mp hmore)
  · exact exists_far_back (not_le.mp hback) hvisible

end Strip

end EvertyDesk
