import EvertyDesk.Lib.Checked
import Mathlib.Data.Finset.Prod
import Mathlib.Order.Interval.Finset.Nat

/-!
The rectangle of a frame that has changed, and how much of the frame it covers.
The rectangle may reach over the edges of the frame; one without width and height
stands for the whole frame.
-/

namespace EvertyDesk.Evrt

structure RoiRect where
  frameId : UInt32
  x : UInt32
  y : UInt32
  w : UInt32
  h : UInt32
deriving DecidableEq, Repr

def saturatingAdd (left right : UInt32) : Nat := min (left.toNat + right.toNat) (2 ^ 32 - 1)

namespace RoiRect

variable (roi : RoiRect)

def isFullScreen : Bool := roi.w == 0 && roi.h == 0

def dirtyAreaMilli (frameWidth frameHeight : UInt32) : Checked Nat :=
  if roi.isFullScreen then .ok 1000
  else do
    let frameArea ← Checked.mul frameWidth.toNat frameHeight.toNat
    if frameArea = 0 then return 1000
    let x0 := min roi.x.toNat frameWidth.toNat
    let y0 := min roi.y.toNat frameHeight.toNat
    let x1 := min (saturatingAdd roi.x roi.w) frameWidth.toNat
    let y1 := min (saturatingAdd roi.y roi.h) frameHeight.toNat
    let dirtyW := x1 - x0
    let dirtyH := y1 - y0
    let dirtyArea ← Checked.mul dirtyW dirtyH
    let scaled ← Checked.mul dirtyArea 1000
    let sum ← Checked.add scaled frameArea
    let numerator ← Checked.sub sum 1
    let share ← Checked.div numerator frameArea
    return min share 1000 % 2 ^ 32

/-! The pixels in the rectangle. -/

def Contains (px py : Nat) : Prop :=
  roi.isFullScreen ∨
    (roi.x.toNat ≤ px ∧ px < roi.x.toNat + roi.w.toNat) ∧
      (roi.y.toNat ≤ py ∧ py < roi.y.toNat + roi.h.toNat)

instance (px py : Nat) : Decidable (roi.Contains px py) := inferInstanceAs (Decidable (_ ∨ _))

/-- The pixels of a frame that lie in the rectangle. -/
def dirtyPixels (frameWidth frameHeight : UInt32) : Finset (Nat × Nat) :=
  (Finset.range frameWidth.toNat ×ˢ Finset.range frameHeight.toNat).filter
    fun pixel => roi.Contains pixel.1 pixel.2

variable {roi} {frameWidth frameHeight : UInt32}

theorem card_dirtyPixels_le : (roi.dirtyPixels frameWidth frameHeight).card ≤
    frameWidth.toNat * frameHeight.toNat := by
  have hle := Finset.card_filter_le
    (Finset.range frameWidth.toNat ×ˢ Finset.range frameHeight.toNat)
    fun pixel => roi.Contains pixel.1 pixel.2
  rwa [Finset.card_product, Finset.card_range, Finset.card_range] at hle

theorem card_dirtyPixels_fullScreen (h : roi.isFullScreen) :
    (roi.dirtyPixels frameWidth frameHeight).card = frameWidth.toNat * frameHeight.toNat := by
  have hall : roi.dirtyPixels frameWidth frameHeight =
      Finset.range frameWidth.toNat ×ˢ Finset.range frameHeight.toNat := by
    apply Finset.filter_true_of_mem
    intro pixel _
    exact Or.inl h
  rw [hall, Finset.card_product, Finset.card_range, Finset.card_range]

/-- A sum that saturates is past the edge of every frame anyway. -/
theorem min_saturatingAdd (left right edge : UInt32) :
    min (saturatingAdd left right) edge.toNat = min (left.toNat + right.toNat) edge.toNat := by
  have hedge := edge.toNat_lt
  rw [saturatingAdd]
  omega

theorem card_dirtyPixels (h : roi.isFullScreen = false) :
    (roi.dirtyPixels frameWidth frameHeight).card =
      (min (roi.x.toNat + roi.w.toNat) frameWidth.toNat - min roi.x.toNat frameWidth.toNat) *
        (min (roi.y.toNat + roi.h.toNat) frameHeight.toNat -
          min roi.y.toNat frameHeight.toNat) := by
  have hclipped : roi.dirtyPixels frameWidth frameHeight =
      Finset.Ico (min roi.x.toNat frameWidth.toNat)
          (min (roi.x.toNat + roi.w.toNat) frameWidth.toNat) ×ˢ
        Finset.Ico (min roi.y.toNat frameHeight.toNat)
          (min (roi.y.toNat + roi.h.toNat) frameHeight.toNat) := by
    ext ⟨px, py⟩
    simp only [dirtyPixels, Contains, h, Finset.mem_filter, Finset.mem_product,
      Finset.mem_range, Finset.mem_Ico, Bool.false_eq_true, false_or]
    omega
  rw [hclipped, Finset.card_product, Nat.card_Ico, Nat.card_Ico]

/-- A part of the frame in thousandths, rounded up. -/
def areaMilli (dirtyArea frameArea : Nat) : Nat :=
  if frameArea = 0 then 1000 else min ((dirtyArea * 1000 + frameArea - 1) / frameArea) 1000

theorem areaMilli_mono {dirtyArea larger frameArea : Nat} (h : dirtyArea ≤ larger) :
    areaMilli dirtyArea frameArea ≤ areaMilli larger frameArea := by
  unfold areaMilli
  split
  · apply le_refl
  · apply min_le_min_right
    apply Nat.div_le_div_right
    omega

theorem areaMilli_self (frameArea : Nat) : areaMilli frameArea frameArea = 1000 := by
  unfold areaMilli
  split
  · rfl
  · apply min_eq_right
    rw [Nat.le_div_iff_mul_le (by omega)]
    omega

theorem areaMilli_le (dirtyArea frameArea : Nat) : areaMilli dirtyArea frameArea ≤ 1000 := by
  unfold areaMilli
  split
  · apply le_refl
  · apply min_le_right

private theorem share_eq {dirtyW dirtyH frameArea : Nat} (hpos : frameArea ≠ 0)
    (hle : dirtyW * dirtyH ≤ frameArea) (h : frameArea < 2 ^ 53) :
    (do
      let dirtyArea ← Checked.mul dirtyW dirtyH
      let scaled ← Checked.mul dirtyArea 1000
      let sum ← Checked.add scaled frameArea
      let numerator ← Checked.sub sum 1
      let share ← Checked.div numerator frameArea
      return min share 1000 % 2 ^ 32) = .ok (areaMilli (dirtyW * dirtyH) frameArea) := by
  have hword : Checked.wordLimit = 2 ^ 64 := rfl
  have hmilli := areaMilli_le (dirtyW * dirtyH) frameArea
  have hproduct : dirtyW * dirtyH < Checked.wordLimit := by omega
  rw [Checked.bind_ok (Checked.mul_ok hproduct)]
  generalize dirtyW * dirtyH = dirtyArea at hle hmilli ⊢
  rw [Checked.bind_ok (Checked.mul_ok (by omega)),
    Checked.bind_ok (Checked.add_ok (by omega)),
    Checked.bind_ok (Checked.sub_ok (by omega)),
    Checked.bind_ok (Checked.div_ok (by omega))]
  rw [areaMilli, if_neg hpos] at hmilli ⊢
  rw [Nat.mod_eq_of_lt (by omega)]
  rfl

/-- The share of the frame's pixels, computed without an overflow. -/
theorem dirtyAreaMilli_eq (h : frameWidth.toNat * frameHeight.toNat < 2 ^ 53) :
    roi.dirtyAreaMilli frameWidth frameHeight =
      .ok (areaMilli (roi.dirtyPixels frameWidth frameHeight).card
        (frameWidth.toNat * frameHeight.toNat)) := by
  cases hfull : roi.isFullScreen with
  | true =>
      rw [card_dirtyPixels_fullScreen hfull, areaMilli_self, dirtyAreaMilli, if_pos hfull]
  | false =>
      have hword : Checked.wordLimit = 2 ^ 64 := rfl
      have hle := @card_dirtyPixels_le roi frameWidth frameHeight
      rw [card_dirtyPixels hfull] at hle ⊢
      simp only [dirtyAreaMilli, hfull, Bool.false_eq_true, if_false, min_saturatingAdd]
      rw [Checked.bind_ok (Checked.mul_ok (by omega))]
      by_cases hempty : frameWidth.toNat * frameHeight.toNat = 0
      · rw [if_pos hempty, areaMilli, if_pos hempty]
        rfl
      · rw [if_neg hempty]
        apply share_eq hempty hle h

end RoiRect

end EvertyDesk.Evrt
