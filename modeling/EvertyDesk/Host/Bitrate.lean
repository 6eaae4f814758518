import EvertyDesk.Evrt.Roi

/-!
The bitrate for one frame. It is scaled by how much of the frame has changed and
by how well the network keeps up, then rounded to a grid, and kept between a floor
and the bitrate that was asked for.
-/

namespace EvertyDesk.Host

open Evrt

def roiBitrateMinBps : Nat := 600000
def bitrateQuantumBps : Nat := 100000
def minBitrateScaleMilli : Nat := 200

/-- `Ord::clamp`, which panics on bounds in the wrong order. -/
def clampBetween (n low high : Nat) : Checked Nat :=
  if low ≤ high then .ok (min (max n low) high) else .error .unreachable

def roiBitrateScaleMilli (dirtyMilli : Nat) : Nat :=
  let dirtyMilli := min dirtyMilli 1000
  if dirtyMilli ≤ 20 then 450
  else if dirtyMilli ≤ 80 then 550
  else if dirtyMilli ≤ 200 then 700
  else if dirtyMilli ≤ 450 then 850
  else 1000

def quantizeBitrate (bps minBps maxBps : Nat) : Checked Nat := do
  if bitrateQuantumBps = 0 then return ← clampBetween bps minBps maxBps
  let q := bitrateQuantumBps
  let steps ← Checked.div (min (bps + q / 2) (2 ^ 32 - 1)) q
  let rounded := min (steps * q) (2 ^ 32 - 1)
  clampBetween rounded minBps maxBps

/-- The first scale of the bitrate, for the part of the frame that has changed. -/
def frameRoiScaleMilli (roi : RoiRect) (width height : UInt32) (forceFullRoiQuality : Bool) :
    Checked Nat :=
  if forceFullRoiQuality || roi.isFullScreen then .ok 1000
  else do return roiBitrateScaleMilli (← roi.dirtyAreaMilli width height)

def adaptBitrate (baseBps : UInt32) (roi : RoiRect) (width height : UInt32)
    (forceFullRoiQuality : Bool) (networkScaleMilli : UInt32) : Checked UInt32 := do
  if baseBps = 0 then return baseBps
  let roiScaleMilli ← frameRoiScaleMilli roi width height forceFullRoiQuality
  let networkScaleMilli ← clampBetween networkScaleMilli.toNat minBitrateScaleMilli 1000
  let product ← Checked.mul roiScaleMilli networkScaleMilli
  let scaleMilli ← clampBetween (product / 1000) minBitrateScaleMilli 1000
  if 1000 ≤ scaleMilli then return baseBps
  let minBps := min roiBitrateMinBps baseBps.toNat
  let product ← Checked.mul baseBps.toNat scaleMilli
  let scaled ← clampBetween (product / 1000) minBps baseBps.toNat
  return UInt32.ofNat (← quantizeBitrate scaled minBps baseBps.toNat)

/-! The same without the steps that may fail. -/

theorem clampBetween_ok {n low high : Nat} (h : low ≤ high) :
    clampBetween n low high = .ok (min (max n low) high) := if_pos h

theorem roiBitrateScaleMilli_mono {dirtyMilli larger : Nat} (h : dirtyMilli ≤ larger) :
    roiBitrateScaleMilli dirtyMilli ≤ roiBitrateScaleMilli larger := by
  simp only [roiBitrateScaleMilli]
  split_ifs <;> omega

theorem roiBitrateScaleMilli_le (dirtyMilli : Nat) : roiBitrateScaleMilli dirtyMilli ≤ 1000 := by
  simp only [roiBitrateScaleMilli]
  split_ifs <;> omega

/-- The rounded bitrate before its bounds are applied. -/
def gridBps (bps : Nat) : Nat := min (min (bps + 50000) (2 ^ 32 - 1) / 100000 * 100000) (2 ^ 32 - 1)

theorem gridBps_mono {bps larger : Nat} (h : bps ≤ larger) : gridBps bps ≤ gridBps larger := by
  unfold gridBps
  apply min_le_min_right
  apply Nat.mul_le_mul_right
  apply Nat.div_le_div_right
  apply min_le_min_right
  omega

theorem quantizeBitrate_eq {bps minBps maxBps : Nat} (h : minBps ≤ maxBps) :
    quantizeBitrate bps minBps maxBps = .ok (min (max (gridBps bps) minBps) maxBps) := by
  have hquantum : bitrateQuantumBps ≠ 0 := by decide
  rw [quantizeBitrate, if_neg hquantum, Checked.bind_ok (Checked.div_ok (by decide)),
    clampBetween_ok h]
  rfl

/-- The scale from the changed part of the frame and from the network. -/
def bitrateScaleMilli (roiScaleMilli networkScaleMilli : Nat) : Nat :=
  min (max (roiScaleMilli * min (max networkScaleMilli 200) 1000 / 1000) 200) 1000

theorem bitrateScaleMilli_mono {roiScale largerRoi networkScale largerNetwork : Nat}
    (hroi : roiScale ≤ largerRoi) (hnetwork : networkScale ≤ largerNetwork) :
    bitrateScaleMilli roiScale networkScale ≤ bitrateScaleMilli largerRoi largerNetwork := by
  unfold bitrateScaleMilli
  apply min_le_min_right
  apply max_le_max_right
  apply Nat.div_le_div_right
  apply Nat.mul_le_mul hroi
  apply min_le_min_right
  apply max_le_max_right
  exact hnetwork

/-- The bitrate at a scale. -/
def scaledBps (baseBps scaleMilli : Nat) : Nat :=
  if 1000 ≤ scaleMilli then baseBps
  else
    min (max (gridBps (min (max (baseBps * scaleMilli / 1000) (min 600000 baseBps)) baseBps))
      (min 600000 baseBps)) baseBps

theorem scaledBps_le (baseBps scaleMilli : Nat) : scaledBps baseBps scaleMilli ≤ baseBps := by
  unfold scaledBps
  split
  · apply le_refl
  · apply min_le_right

theorem le_scaledBps (baseBps scaleMilli : Nat) :
    min 600000 baseBps ≤ scaledBps baseBps scaleMilli := by
  unfold scaledBps
  split
  · apply min_le_right
  · apply le_min
    · apply le_max_right
    · apply min_le_right

/-- Scaling, clamping and rounding each keep the order, and so does giving up
scaling at the full scale. -/
theorem scaledBps_mono {baseBps largerBase scaleMilli largerScale : Nat}
    (hbase : baseBps ≤ largerBase) (hscale : scaleMilli ≤ largerScale) :
    scaledBps baseBps scaleMilli ≤ scaledBps largerBase largerScale := by
  by_cases hfull : 1000 ≤ largerScale
  · calc scaledBps baseBps scaleMilli ≤ baseBps := scaledBps_le _ _
      _ ≤ largerBase := hbase
      _ = scaledBps largerBase largerScale := by rw [scaledBps, if_pos hfull]
  · have hpart : ¬ 1000 ≤ scaleMilli := by omega
    have hfloor : min 600000 baseBps ≤ min 600000 largerBase := by
      apply min_le_min_left
      exact hbase
    rw [scaledBps, scaledBps, if_neg hfull, if_neg hpart]
    apply min_le_min _ hbase
    apply max_le_max _ hfloor
    apply gridBps_mono
    apply min_le_min _ hbase
    apply max_le_max _ hfloor
    apply Nat.div_le_div_right
    apply Nat.mul_le_mul hbase hscale

/-- The scale for the changed part of the frame; a frame that is to have full
quality counts as changed everywhere. -/
def roiScale (roi : RoiRect) (width height : UInt32) (forceFullRoiQuality : Bool) : Nat :=
  if forceFullRoiQuality then 1000
  else
    roiBitrateScaleMilli
      (RoiRect.areaMilli (roi.dirtyPixels width height).card (width.toNat * height.toNat))

section

variable {baseBps : UInt32} {roi : RoiRect} {width height : UInt32}
  {forceFullRoiQuality : Bool} {networkScaleMilli : UInt32}

theorem roiScale_fullScreen (h : roi.isFullScreen) :
    roiScale roi width height forceFullRoiQuality = 1000 := by
  rw [roiScale, RoiRect.card_dirtyPixels_fullScreen h, RoiRect.areaMilli_self]
  cases forceFullRoiQuality <;> rfl

theorem roiScale_le : roiScale roi width height forceFullRoiQuality ≤ 1000 := by
  unfold roiScale
  split
  · apply le_refl
  · apply roiBitrateScaleMilli_le

theorem roiScale_mono {larger : RoiRect} {force : Bool} (hforce : forceFullRoiQuality → force)
    (harea : (roi.dirtyPixels width height).card ≤ (larger.dirtyPixels width height).card) :
    roiScale roi width height forceFullRoiQuality ≤ roiScale larger width height force := by
  cases force with
  | true => exact roiScale_le
  | false =>
      cases forceFullRoiQuality with
      | true => cases hforce rfl
      | false =>
          apply roiBitrateScaleMilli_mono
          apply RoiRect.areaMilli_mono
          exact harea

theorem frameRoiScaleMilli_eq (h : width.toNat * height.toNat < 2 ^ 53) :
    frameRoiScaleMilli roi width height forceFullRoiQuality =
      .ok (roiScale roi width height forceFullRoiQuality) := by
  by_cases hfull : forceFullRoiQuality || roi.isFullScreen
  · rw [frameRoiScaleMilli, if_pos hfull]
    cases forceFullRoiQuality with
    | true => rfl
    | false => rw [roiScale_fullScreen hfull]
  · rw [frameRoiScaleMilli, if_neg hfull, RoiRect.dirtyAreaMilli_eq h]
    cases forceFullRoiQuality with
    | true => cases hfull rfl
    | false => rfl

/-- No step of the computation overflows. -/
theorem adaptBitrate_eq (h : width.toNat * height.toNat < 2 ^ 53) :
    adaptBitrate baseBps roi width height forceFullRoiQuality networkScaleMilli =
      .ok (UInt32.ofNat (scaledBps baseBps.toNat (bitrateScaleMilli
        (roiScale roi width height forceFullRoiQuality) networkScaleMilli.toNat))) := by
  have hword : Checked.wordLimit = 2 ^ 64 := rfl
  have hbound := baseBps.toNat_lt
  by_cases hzero : baseBps = 0
  · have hnone := scaledBps_le (0 : UInt32).toNat (bitrateScaleMilli
      (roiScale roi width height forceFullRoiQuality) networkScaleMilli.toNat)
    subst hzero
    rw [adaptBitrate, if_pos rfl, Nat.le_zero.mp hnone]
    rfl
  · have hnetwork : min (max networkScaleMilli.toNat minBitrateScaleMilli) 1000 ≤ 1000 :=
      min_le_right _ _
    have hproduct := Nat.mul_le_mul (@roiScale_le roi width height forceFullRoiQuality) hnetwork
    have hscale : min (max (roiScale roi width height forceFullRoiQuality *
          min (max networkScaleMilli.toNat minBitrateScaleMilli) 1000 / 1000)
          minBitrateScaleMilli) 1000 =
        bitrateScaleMilli (roiScale roi width height forceFullRoiQuality)
          networkScaleMilli.toNat := rfl
    rw [adaptBitrate, if_neg hzero, Checked.bind_ok (frameRoiScaleMilli_eq h),
      Checked.bind_ok (clampBetween_ok (by decide)),
      Checked.bind_ok (Checked.mul_ok (by omega)),
      Checked.bind_ok (clampBetween_ok (by decide)), hscale]
    generalize bitrateScaleMilli (roiScale roi width height forceFullRoiQuality)
      networkScaleMilli.toNat = scaleMilli
    by_cases hfull : 1000 ≤ scaleMilli
    · rw [if_pos hfull, scaledBps, if_pos hfull, UInt32.ofNat_toNat]
      rfl
    · have hscaled : baseBps.toNat * scaleMilli ≤ 2 ^ 32 * 1000 :=
        Nat.mul_le_mul hbound.le (by omega)
      have hfloor : min roiBitrateMinBps baseBps.toNat ≤ baseBps.toNat := min_le_right _ _
      rw [if_neg hfull, scaledBps, if_neg hfull, Checked.bind_ok (Checked.mul_ok (by omega)),
        Checked.bind_ok (clampBetween_ok hfloor), Checked.bind_ok (quantizeBitrate_eq hfloor)]
      rfl

/-- The bitrate stays between the floor and the base, which a frame that has changed
everywhere gets when the network keeps up; it never falls when a larger part of the
frame has changed, the network does better or a higher base is asked for. -/
theorem adaptBitrate_bounded_monotone (baseBps : UInt32) (roi : RoiRect)
    (width height : UInt32) (forceFullRoiQuality : Bool) (networkScaleMilli : UInt32)
    (h : width.toNat * height.toNat < 2 ^ 53) :
    ∃ bps, adaptBitrate baseBps roi width height forceFullRoiQuality networkScaleMilli = .ok bps ∧
      min 600000 baseBps.toNat ≤ bps.toNat ∧ bps ≤ baseBps ∧
      (roi.isFullScreen → 1000 ≤ networkScaleMilli → bps = baseBps) ∧
      ∀ (largerBase : UInt32) (largerRoi : RoiRect) (force : Bool) (largerNetwork : UInt32),
        baseBps ≤ largerBase →
        (roi.dirtyPixels width height).card ≤ (largerRoi.dirtyPixels width height).card →
        (forceFullRoiQuality → force) → networkScaleMilli ≤ largerNetwork →
        ∃ largerBps, adaptBitrate largerBase largerRoi width height force largerNetwork =
          .ok largerBps ∧ bps ≤ largerBps := by
  have hvalue : ∀ (base : UInt32) (scaleMilli : Nat),
      (UInt32.ofNat (scaledBps base.toNat scaleMilli)).toNat = scaledBps base.toNat scaleMilli := by
    intro base scaleMilli
    apply UInt32.toNat_ofNat_of_lt'
    exact (scaledBps_le _ _).trans_lt base.toNat_lt
  refine ⟨_, adaptBitrate_eq h, ?_, ?_, ?_, ?_⟩
  · rw [hvalue]
    apply le_scaledBps
  · rw [UInt32.le_iff_toNat_le, hvalue]
    apply scaledBps_le
  · intro hfull hnetwork
    have hscale : bitrateScaleMilli 1000 networkScaleMilli.toNat = 1000 := by
      have hrelief : 1000 ≤ networkScaleMilli.toNat := UInt32.le_iff_toNat_le.mp hnetwork
      unfold bitrateScaleMilli
      omega
    rw [roiScale_fullScreen hfull, hscale, scaledBps, if_pos (le_refl _), UInt32.ofNat_toNat]
  · intro largerBase largerRoi force largerNetwork hbase harea hforce hnetwork
    refine ⟨_, adaptBitrate_eq h, ?_⟩
    rw [UInt32.le_iff_toNat_le, hvalue, hvalue]
    apply scaledBps_mono (UInt32.le_iff_toNat_le.mp hbase)
    apply bitrateScaleMilli_mono
    · apply roiScale_mono hforce harea
    · exact UInt32.le_iff_toNat_le.mp hnetwork

/-- A small changed region of a full HD frame. -/
theorem adaptBitrate_smallRegion :
    ∃ bps, adaptBitrate 8500000 ⟨1, 100, 100, 64, 64⟩ 1920 1080 false 1000 = .ok bps ∧
      600000 ≤ bps.toNat ∧ bps ≤ 8500000 := by
  obtain ⟨bps, hbps, hfloor, hbase, -⟩ := adaptBitrate_bounded_monotone 8500000
    ⟨1, 100, 100, 64, 64⟩ 1920 1080 false 1000 (by decide)
  exact ⟨bps, hbps, hfloor, hbase⟩

example : adaptBitrate 8500000 ⟨1, 100, 100, 64, 64⟩ 1920 1080 false 800 = .ok 3100000 := by
  decide +kernel

end

end EvertyDesk.Host
