import EvertyDesk.Desktop.FrameRenderer
import Mathlib.Tactic.FieldSimp
import Mathlib.Tactic.Linarith
import Mathlib.Tactic.LinearCombination
import Mathlib.Tactic.Ring

/-!
When the mouse is on the pixel that is shown under it. Along each side of the
window the frame as it is drawn and the frame as the mouse sees it are one strip
of pixels, shifted by a misfit: the mouse takes the strip to begin where the
clipping rectangle does, and the drawing has it centred.
-/

namespace EvertyDesk.Desktop

variable {texture screen : Extent} {mode : ScalingMode} {pos : ℚ × ℚ}

theorem scaleFactor_pos (texture screen : Extent) (mode : ScalingMode) :
    0 < scaleFactor texture screen mode := by
  have htw : (0 : ℚ) < texture.width := Nat.cast_pos.mpr texture.width_pos
  have hth : (0 : ℚ) < texture.height := Nat.cast_pos.mpr texture.height_pos
  have hsw : (0 : ℚ) < screen.width := Nat.cast_pos.mpr screen.width_pos
  have hsh : (0 : ℚ) < screen.height := Nat.cast_pos.mpr screen.height_pos
  cases mode with
  | pixelPerfect => exact lt_max_of_lt_right one_pos
  | fill => exact lt_min (div_pos hsw htw) (div_pos hsh hth)

/-! Where the frame is drawn. -/

/-- Where the left side of the frame lies, and the top one. -/
def drawnOrigin (texture screen : Extent) (mode : ScalingMode) : ℚ × ℚ :=
  let scale := scaleFactor texture screen mode
  ((screen.width - texture.width * scale) / 2 + Int.fract ((screen.width : ℚ) / 2) / 2,
    (screen.height - texture.height * scale) / 2 - Int.fract ((screen.height : ℚ) / 2) / 2)

/-- A point of the surface in the pixels of the frame. -/
def drawnAt (texture screen : Extent) (mode : ScalingMode) (pos : ℚ × ℚ) : ℚ × ℚ :=
  ((pos.1 - (drawnOrigin texture screen mode).1) / scaleFactor texture screen mode,
    (pos.2 - (drawnOrigin texture screen mode).2) / scaleFactor texture screen mode)

/-- The triangle begins at the left side of the frame and ends at the bottom. -/
def Covers (texture screen : Extent) (mode : ScalingMode) (pos : ℚ × ℚ) : Prop :=
  let drawn := drawnAt texture screen mode pos
  0 ≤ drawn.1 ∧ drawn.2 ≤ texture.height ∧ drawn.1 / texture.width - drawn.2 / texture.height ≤ 1

theorem vsMain_position (locals : Locals) (mode : ScalingMode) (p : ℚ × ℚ) (row : Fin 4) :
    (vsMain locals mode p).position row =
      locals.transform 0 row * p.1 + locals.transform 1 row * p.2 +
        locals.transform 2 row * 0 + locals.transform 3 row * 1 :=
  Fin.sum_univ_four fun column =>
    locals.transform column row * (![p.1, p.2, 0, 1] : Fin 4 → ℚ) column

theorem toSurface_vsMain (texture screen : Extent) (mode : ScalingMode) (p : ℚ × ℚ) :
    toSurface screen (vsMain (uniformBuffer texture screen mode) mode p).position =
      ((drawnOrigin texture screen mode).1 +
          texture.width * scaleFactor texture screen mode * (p.1 * 0.5 + 0.5),
        (drawnOrigin texture screen mode).2 +
          texture.height * scaleFactor texture screen mode * (p.2 * -0.5 + 0.5)) := by
  have hsw : (screen.width : ℚ) ≠ 0 := Nat.cast_ne_zero.mpr screen.width_pos.ne'
  have hsh : (screen.height : ℚ) ≠ 0 := Nat.cast_ne_zero.mpr screen.height_pos.ne'
  obtain ⟨scale, hscale⟩ : ∃ scale, scale = scaleFactor texture screen mode := ⟨_, rfl⟩
  obtain ⟨fx, hfx⟩ : ∃ fx, fx = Int.fract ((screen.width : ℚ) / 2) := ⟨_, rfl⟩
  obtain ⟨fy, hfy⟩ : ∃ fy, fy = Int.fract ((screen.height : ℚ) / 2) := ⟨_, rfl⟩
  have hx : (vsMain (uniformBuffer texture screen mode) mode p).position 0 =
      texture.width * scale / screen.width * p.1 + 0 * p.2 + 0 * 0 + fx / screen.width * 1 := by
    rw [vsMain_position, hscale, hfx]
    rfl
  have hy : (vsMain (uniformBuffer texture screen mode) mode p).position 1 =
      0 * p.1 + texture.height * scale / screen.height * p.2 + 0 * 0 + fy / screen.height * 1 := by
    rw [vsMain_position, hscale, hfy]
    rfl
  have hw : (vsMain (uniformBuffer texture screen mode) mode p).position 3 =
      0 * p.1 + 0 * p.2 + 0 * 0 + 1 * 1 := vsMain_position _ _ _ _
  rw [toSurface, hx, hy, hw, drawnOrigin, ← hscale, ← hfx, ← hfy]
  refine Prod.ext ?_ ?_
  · dsimp only
    field_simp
    ring
  · dsimp only
    field_simp
    ring

/-- The coordinates of the vertices, in pixels of the frame where the window is
filled. -/
theorem texCoord_vsMain (texture screen : Extent) (p : ℚ × ℚ) :
    (vsMain (uniformBuffer texture screen mode) mode p).texCoord =
      match mode with
      | .pixelPerfect => (p.1 * 0.5 + 0.5, p.2 * -0.5 + 0.5)
      | .fill => ((p.1 * 0.5 + 0.5) * texture.width, (p.2 * -0.5 + 0.5) * texture.height) := by
  cases mode <;> rfl

/-- A part of the frame as a coordinate of the shader. -/
def inUnits (texture : Extent) (mode : ScalingMode) (part : ℚ × ℚ) : ℚ × ℚ :=
  match mode with
  | .pixelPerfect => part
  | .fill => (part.1 * texture.width, part.2 * texture.height)

/-- The vertices lie at the parts (0, 1), (2, 1) and (0, -1) of the frame. -/
theorem sum_vertices {w : Fin 3 → ℚ} (hsum : ∑ i, w i = 1) (start length : ℚ) :
    ∑ i, w i * (start + length * ((vertexData i).1 * 0.5 + 0.5)) = start + length * (2 * w 1) ∧
      ∑ i, w i * (start + length * ((vertexData i).2 * -0.5 + 0.5)) =
        start + length * (w 0 + w 1 - w 2) := by
  rw [Fin.sum_univ_three] at hsum
  rw [Fin.sum_univ_three, Fin.sum_univ_three]
  constructor
  · change w 0 * (start + length * (-1 * 0.5 + 0.5)) + w 1 * (start + length * (3 * 0.5 + 0.5)) +
      w 2 * (start + length * (-1 * 0.5 + 0.5)) = _
    linear_combination start * hsum
  · change w 0 * (start + length * (-1 * -0.5 + 0.5)) +
      w 1 * (start + length * (-1 * -0.5 + 0.5)) +
      w 2 * (start + length * (3 * -0.5 + 0.5)) = _
    linear_combination start * hsum

theorem sum_texCoords (screen : Extent) {w : Fin 3 → ℚ} (hsum : ∑ i, w i = 1) :
    (∑ i, w i * (vsMain (uniformBuffer texture screen mode) mode (vertexData i)).texCoord.1,
      ∑ i, w i * (vsMain (uniformBuffer texture screen mode) mode (vertexData i)).texCoord.2) =
      inUnits texture mode (2 * w 1, w 0 + w 1 - w 2) := by
  simp only [texCoord_vsMain]
  cases mode with
  | pixelPerfect =>
      have hparts := sum_vertices hsum 0 1
      simp only [zero_add, one_mul] at hparts
      exact Prod.ext hparts.1 hparts.2
  | fill =>
      have hx := (sum_vertices hsum 0 texture.width).1
      have hy := (sum_vertices hsum 0 texture.height).2
      simp only [zero_add, mul_comm (_ : ℚ) (_ * _ + _)] at hx hy
      exact Prod.ext (hx.trans (mul_comm _ _)) (hy.trans (mul_comm _ _))

theorem interpolates_weights {texCoord : ℚ × ℚ} :
    Interpolates texture screen mode pos texCoord ↔
      ∃ w : Fin 3 → ℚ, (∀ i, 0 ≤ w i) ∧ ∑ i, w i = 1 ∧
        pos = ((drawnOrigin texture screen mode).1 +
            texture.width * scaleFactor texture screen mode * (2 * w 1),
          (drawnOrigin texture screen mode).2 +
            texture.height * scaleFactor texture screen mode * (w 0 + w 1 - w 2)) ∧
        texCoord = inUnits texture mode (2 * w 1, w 0 + w 1 - w 2) := by
  refine exists_congr fun w => and_congr_right fun _ => and_congr_right fun hsum => ?_
  have hx := (sum_vertices hsum (drawnOrigin texture screen mode).1
    (texture.width * scaleFactor texture screen mode)).1
  have hy := (sum_vertices hsum (drawnOrigin texture screen mode).2
    (texture.height * scaleFactor texture screen mode)).2
  rw [← hx, ← hy, ← sum_texCoords screen hsum]
  simp only [toSurface_vsMain]

/-- The parts of the frame that the triangle reaches. -/
theorem exists_weights_iff {u v : ℚ} :
    (∃ w : Fin 3 → ℚ, (∀ i, 0 ≤ w i) ∧ ∑ i, w i = 1 ∧ 2 * w 1 = u ∧ w 0 + w 1 - w 2 = v) ↔
      0 ≤ u ∧ v ≤ 1 ∧ u - v ≤ 1 := by
  constructor
  · rintro ⟨w, hw, hsum, rfl, rfl⟩
    rw [Fin.sum_univ_three] at hsum
    have h0 := hw 0
    have h1 := hw 1
    have h2 := hw 2
    exact ⟨by linarith, by linarith, by linarith⟩
  · rintro ⟨hleft, hbottom, hside⟩
    refine ⟨![(1 + v - u) / 2, u / 2, (1 - v) / 2], ?_, ?_, ?_, ?_⟩
    · rw [Fin.forall_fin_succ, Fin.forall_fin_two]
      exact ⟨show 0 ≤ (1 + v - u) / 2 by linarith, show 0 ≤ u / 2 by linarith,
        show 0 ≤ (1 - v) / 2 by linarith⟩
    · rw [Fin.sum_univ_three]
      change (1 + v - u) / 2 + u / 2 + (1 - v) / 2 = 1
      ring
    · change 2 * (u / 2) = u
      ring
    · change (1 + v - u) / 2 + u / 2 - (1 - v) / 2 = v
      ring

/-- A point is drawn at one part of the frame. -/
theorem drawn_part_iff {u v : ℚ} :
    pos = ((drawnOrigin texture screen mode).1 +
          texture.width * scaleFactor texture screen mode * u,
        (drawnOrigin texture screen mode).2 +
          texture.height * scaleFactor texture screen mode * v) ↔
      u = (drawnAt texture screen mode pos).1 / texture.width ∧
        v = (drawnAt texture screen mode pos).2 / texture.height := by
  have hscale := scaleFactor_pos texture screen mode
  have htw : (0 : ℚ) < texture.width := Nat.cast_pos.mpr texture.width_pos
  have hth : (0 : ℚ) < texture.height := Nat.cast_pos.mpr texture.height_pos
  rw [Prod.ext_iff, drawnAt]
  dsimp only
  rw [div_div, div_div, eq_div_iff (by positivity), eq_div_iff (by positivity)]
  constructor
  · rintro ⟨hx, hy⟩
    exact ⟨by rw [hx]; ring, by rw [hy]; ring⟩
  · rintro ⟨hx, hy⟩
    exact ⟨by linear_combination -hx, by linear_combination -hy⟩

theorem covers_iff : Covers texture screen mode pos ↔
    0 ≤ (drawnAt texture screen mode pos).1 / texture.width ∧
      (drawnAt texture screen mode pos).2 / texture.height ≤ 1 ∧
      (drawnAt texture screen mode pos).1 / texture.width -
        (drawnAt texture screen mode pos).2 / texture.height ≤ 1 := by
  rw [Covers, div_le_one (Nat.cast_pos.mpr texture.height_pos),
    le_div_iff₀ (Nat.cast_pos.mpr texture.width_pos), zero_mul]

/-- The triangle covers these points, and gives each the part of the frame that
is drawn there. -/
theorem interpolates_iff {texCoord : ℚ × ℚ} :
    Interpolates texture screen mode pos texCoord ↔
      Covers texture screen mode pos ∧
        texCoord = inUnits texture mode
          ((drawnAt texture screen mode pos).1 / texture.width,
            (drawnAt texture screen mode pos).2 / texture.height) := by
  rw [interpolates_weights, covers_iff, ← exists_weights_iff]
  constructor
  · rintro ⟨w, hw, hsum, hpos, rfl⟩
    obtain ⟨hx, hy⟩ := drawn_part_iff.mp hpos
    exact ⟨⟨w, hw, hsum, hx, hy⟩, by rw [hx, hy]⟩
  · rintro ⟨⟨w, hw, hsum, hx, hy⟩, rfl⟩
    exact ⟨w, hw, hsum, drawn_part_iff.mpr ⟨hx, hy⟩, by rw [hx, hy]⟩

/-! Which pixel is shown. -/

/-- The shader that fills the window moves a coordinate only within its pixel. -/
theorem textureSample_fillCoordinate {count : ℕ} (hcount : 0 < count) {texels : ℚ}
    (htexels : 0 < texels) (coordinate : ℚ) :
    textureSample count (fillCoordinate coordinate texels (1 / count)) =
      min (count - 1) ⌊coordinate⌋₊ := by
  have hcast : (0 : ℚ) < count := Nat.cast_pos.mpr hcount
  have hfract := Int.fract_lt_one coordinate
  obtain ⟨offset, hoffset⟩ : ∃ offset, offset =
      max 0 (min (Int.fract coordinate / texels) 0.5) +
        max 0 (min ((Int.fract coordinate - 1) / texels + 0.5) 0.5) := ⟨_, rfl⟩
  have hnonneg : 0 ≤ offset := by
    rw [hoffset]
    exact add_nonneg (le_max_left _ _) (le_max_left _ _)
  have hlt : offset < 1 := by
    have hfirst : max 0 (min (Int.fract coordinate / texels) 0.5) ≤ 0.5 :=
      max_le (by norm_num) (min_le_right _ _)
    have hback : (Int.fract coordinate - 1) / texels < 0 :=
      div_neg_of_neg_of_pos (by linarith) htexels
    have hsecond : max 0 (min ((Int.fract coordinate - 1) / texels + 0.5) 0.5) < (0.5 : ℚ) :=
      max_lt (by norm_num) (min_lt_of_left_lt (by linarith))
    rw [hoffset]
    linarith
  have hfloor : ⌊(⌊coordinate⌋ : ℚ) + offset⌋ = ⌊coordinate⌋ := by
    rw [Int.floor_intCast_add, Int.floor_eq_zero_iff.mpr ⟨hnonneg, hlt⟩, add_zero]
  rw [textureSample, fillCoordinate, ← hoffset, mul_one_div, div_mul_cancel₀ _ hcast.ne',
    ← Int.floor_toNat, hfloor, Int.floor_toNat]

/-- A pixel of the window is as many of the frame as the scale says. -/
theorem texelsPerPixel_eq (texture screen : Extent) :
    texelsPerPixel texture screen =
      (1 / scaleFactor texture screen .fill, 1 / scaleFactor texture screen .fill) := by
  have hscale := scaleFactor_pos texture screen .fill
  have htw : (0 : ℚ) < texture.width := Nat.cast_pos.mpr texture.width_pos
  have hth : (0 : ℚ) < texture.height := Nat.cast_pos.mpr texture.height_pos
  simp only [texelsPerPixel, toSurface_vsMain, texCoord_vsMain]
  refine Prod.ext ?_ ?_
  · change ((3 * 0.5 + 0.5) * (texture.width : ℚ) - (-1 * 0.5 + 0.5) * texture.width) /
      (_ + _ * _ * (3 * 0.5 + 0.5) - (_ + _ * _ * (-1 * 0.5 + 0.5))) = _
    rw [div_eq_div_iff (by nlinarith [mul_pos htw hscale]) hscale.ne']
    ring
  · change ((3 * -0.5 + 0.5) * (texture.height : ℚ) - (-1 * -0.5 + 0.5) * texture.height) /
      (_ + _ * _ * (3 * -0.5 + 0.5) - (_ + _ * _ * (-1 * -0.5 + 0.5))) = _
    rw [div_eq_div_iff (by nlinarith [mul_pos hth hscale]) hscale.ne']
    ring

theorem fsMain_inUnits (texture screen : Extent) (mode : ScalingMode) (drawn : ℚ × ℚ) :
    fsMain texture screen mode
        (inUnits texture mode (drawn.1 / texture.width, drawn.2 / texture.height)) =
      (min (texture.width - 1) ⌊drawn.1⌋₊, min (texture.height - 1) ⌊drawn.2⌋₊) := by
  have htw : (texture.width : ℚ) ≠ 0 := Nat.cast_ne_zero.mpr texture.width_pos.ne'
  have hth : (texture.height : ℚ) ≠ 0 := Nat.cast_ne_zero.mpr texture.height_pos.ne'
  cases mode with
  | pixelPerfect =>
      rw [fsMain, inUnits]
      dsimp only
      rw [textureSample, textureSample, div_mul_cancel₀ _ htw, div_mul_cancel₀ _ hth]
  | fill =>
      have htexels := one_div_pos.mpr (scaleFactor_pos texture screen .fill)
      have hx := textureSample_fillCoordinate texture.width_pos htexels drawn.1
      have hy := textureSample_fillCoordinate texture.height_pos htexels drawn.2
      rw [fsMain, inUnits, texelsPerPixel_eq]
      dsimp only
      rw [div_mul_cancel₀ _ htw, div_mul_cancel₀ _ hth]
      exact Prod.ext hx hy

theorem shows_iff {pixel : ℕ × ℕ} :
    Shows texture screen mode pos pixel ↔
      (clipRectFor texture screen mode).Holds pos ∧ Covers texture screen mode pos ∧
        pixel = (min (texture.width - 1) ⌊(drawnAt texture screen mode pos).1⌋₊,
          min (texture.height - 1) ⌊(drawnAt texture screen mode pos).2⌋₊) := by
  rw [Shows, ← fsMain_inUnits texture screen mode]
  refine and_congr_right fun _ => ?_
  constructor
  · rintro ⟨texCoord, hcoord, rfl⟩
    obtain ⟨hcovers, rfl⟩ := interpolates_iff.mp hcoord
    exact ⟨hcovers, rfl⟩
  · rintro ⟨hcovers, rfl⟩
    exact ⟨_, interpolates_iff.mpr ⟨hcovers, rfl⟩, rfl⟩

/-! The two sides of the window. -/

/-- Half of an odd pixel, by which the drawing is moved to the centre. -/
def halfPixel (screen : ℕ) : ℚ := Int.fract ((screen : ℚ) / 2) / 2

theorem halfPixel_eq (screen : ℕ) : halfPixel screen = if screen % 2 = 0 then 0 else 1 / 4 := by
  obtain ⟨half, rfl | rfl⟩ := Nat.even_or_odd' screen
  · have hwhole : ((2 * half : ℕ) : ℚ) / 2 = (half : ℤ) := by
      push_cast
      ring
    rw [halfPixel, hwhole, Int.fract_intCast, if_pos (by omega), zero_div]
  · have hsplit : ((2 * half + 1 : ℕ) : ℚ) / 2 = (half : ℤ) + 1 / 2 := by
      push_cast
      ring
    rw [halfPixel, hsplit, Int.fract_intCast_add,
      Int.fract_eq_self.mpr ⟨by norm_num, by norm_num⟩, if_neg (by omega)]
    norm_num

theorem halfPixel_bounds (screen : ℕ) : 0 ≤ halfPixel screen ∧ halfPixel screen ≤ 1 / 4 := by
  rw [halfPixel_eq]
  split <;> norm_num

/-- What the clipping rectangle leaves out of the room beside the frame: the part
of a pixel that it is rounded by, or half of what the frame is too large by. -/
def slackPart (count screen : ℕ) (scale : ℚ) : ℚ :=
  let slack := screen - count * scale
  if 0 ≤ slack then Int.fract (slack / 2) else slack / 2

theorem clip_add_slackPart (count screen : ℕ) (scale : ℚ) :
    (⌊(screen - min (count * scale) screen) / 2⌋ : ℚ) + slackPart count screen scale =
      (screen - count * scale) / 2 := by
  rw [slackPart]
  split
  next hroom =>
    rw [min_eq_left (by linarith)]
    exact Int.floor_add_fract _
  next hover =>
    rw [min_eq_right (by linarith), sub_self, zero_div, Int.floor_zero, Int.cast_zero, zero_add]

theorem slackPart_room {count screen : ℕ} {scale : ℚ} (h : count * scale ≤ (screen : ℚ)) :
    0 ≤ slackPart count screen scale ∧ slackPart count screen scale < 1 := by
  rw [slackPart, if_pos (by linarith)]
  exact ⟨Int.fract_nonneg _, Int.fract_lt_one _⟩

theorem slackPart_over {count screen : ℕ} {scale : ℚ} (h : (screen : ℚ) < count * scale) :
    slackPart count screen scale = (screen - count * scale) / 2 :=
  if_neg (by linarith)

section Side

variable {count screen : ℕ} {scale nudge : ℚ}

theorem length_of_visible (h : 0 < ⌊min (count * scale) (screen : ℚ)⌋₊) :
    1 ≤ count * scale ∧ (1 : ℚ) ≤ screen := by
  have hone := Nat.floor_pos.mp h
  exact ⟨hone.trans (min_le_left _ _), hone.trans (min_le_right _ _)⟩

theorem frame_shift_ge (hnudge : |nudge| ≤ 1 / 4) (h : 0 < ⌊min (count * scale) (screen : ℚ)⌋₊) :
    -(count * scale) ≤ slackPart count screen scale + nudge := by
  obtain ⟨hlength, hscreen⟩ := length_of_visible h
  have hleast := (abs_le.mp hnudge).1
  rcases le_or_gt (count * scale) (screen : ℚ) with hroom | hover
  · have hslack := (slackPart_room hroom).1
    linarith
  · rw [slackPart_over hover]
    linarith

/-- Back by more than a pixel goes only a frame that is too large, at its own
size, or one that is shown much smaller. -/
theorem frame_small (hscale : 0 < scale) (hnudge : |nudge| ≤ 1 / 4)
    (hover : (screen : ℚ) < count * scale → scale = 1)
    (h : 0 < ⌊min (count * scale) (screen : ℚ)⌋₊)
    (hback : slackPart count screen scale + nudge < -scale) : scale ≤ 1 ∧ 3 ≤ count := by
  obtain ⟨hlength, hscreen⟩ := length_of_visible h
  have hleast := (abs_le.mp hnudge).1
  have hcast : (2 : ℚ) < count → 3 ≤ count := fun htwo => by exact_mod_cast htwo
  rcases le_or_gt (count * scale) (screen : ℚ) with hroom | htoo
  · have hslack := (slackPart_room hroom).1
    refine ⟨by linarith, hcast ?_⟩
    by_contra hfew
    nlinarith
  · rw [slackPart_over htoo] at hback
    obtain rfl := hover htoo
    rw [mul_one] at hback
    exact ⟨le_rfl, hcast (by linarith)⟩

end Side

/-- One side: the frame as the mouse sees it, and the misfit of the drawing. -/
def frameStrip (count screen : ℕ) (scale nudge : ℚ) (hcount : 0 < count) (hscale : 0 < scale)
    (hnudge : |nudge| ≤ 1 / 4) (hover : (screen : ℚ) < count * scale → scale = 1) : Strip where
  count := count
  size := scale
  visible := ⌊min (count * scale) (screen : ℚ)⌋₊
  shift := slackPart count screen scale + nudge
  count_pos := hcount
  size_pos := hscale
  visible_le :=
    (Nat.floor_le (le_min (mul_nonneg (Nat.cast_nonneg _) hscale.le)
      (Nat.cast_nonneg _))).trans (min_le_left _ _)
  shift_ge := frame_shift_ge hnudge
  small := frame_small hscale hnudge hover

/-- A frame is drawn at its own size where it is larger than the window. -/
theorem scaleFactor_of_over
    (h : (screen.width : ℚ) < texture.width * scaleFactor texture screen mode ∨
      (screen.height : ℚ) < texture.height * scaleFactor texture screen mode) :
    scaleFactor texture screen mode = 1 := by
  have htw : (0 : ℚ) < texture.width := Nat.cast_pos.mpr texture.width_pos
  have hth : (0 : ℚ) < texture.height := Nat.cast_pos.mpr texture.height_pos
  rw [← div_lt_iff₀' htw, ← div_lt_iff₀' hth] at h
  cases mode with
  | fill =>
      rw [scaleFactor] at h
      rcases h with h | h
      · exact absurd h (not_lt.mpr (min_le_left _ _))
      · exact absurd h (not_lt.mpr (min_le_right _ _))
  | pixelPerfect =>
      rw [scaleFactor] at h ⊢
      obtain ⟨ratio, hratio⟩ : ∃ ratio, ratio =
          min (max ((screen.width : ℚ) / texture.width) 1)
            (max ((screen.height : ℚ) / texture.height) 1) := ⟨_, rfl⟩
      rw [← hratio] at h ⊢
      have hfloor : (⌊ratio⌋ : ℚ) ≤ ratio := Int.floor_le ratio
      apply max_eq_right
      by_contra hlarge
      rw [max_eq_left (not_le.mp hlarge).le] at h
      rcases h with h | h
      · have hwidth := (hfloor.trans_eq hratio).trans (min_le_left _ _)
        exact (le_max_iff.mp hwidth).elim (not_le.mpr h) hlarge
      · have hheight := (hfloor.trans_eq hratio).trans (min_le_right _ _)
        exact (le_max_iff.mp hheight).elim (not_le.mpr h) hlarge

theorem abs_halfPixel_le (screen : ℕ) :
    |halfPixel screen| ≤ 1 / 4 ∧ |-halfPixel screen| ≤ 1 / 4 := by
  obtain ⟨hnonneg, hle⟩ := halfPixel_bounds screen
  rw [abs_neg, abs_of_nonneg hnonneg]
  exact ⟨hle, hle⟩

/-- Along the top of the window the drawing is moved to the right. -/
def acrossStrip (texture screen : Extent) (mode : ScalingMode) : Strip :=
  frameStrip texture.width screen.width (scaleFactor texture screen mode)
    (halfPixel screen.width) texture.width_pos (scaleFactor_pos texture screen mode)
    (abs_halfPixel_le screen.width).1 fun hover => scaleFactor_of_over (Or.inl hover)

/-- Along the side of the window the drawing is moved up. -/
def downStrip (texture screen : Extent) (mode : ScalingMode) : Strip :=
  frameStrip texture.height screen.height (scaleFactor texture screen mode)
    (-halfPixel screen.height) texture.height_pos (scaleFactor_pos texture screen mode)
    (abs_halfPixel_le screen.height).2 fun hover => scaleFactor_of_over (Or.inr hover)

theorem floor_clip (count screen : ℕ) (scale : ℚ) :
    (⌊(screen - min (count * scale) screen) / 2⌋ : ℚ) =
      (⌊(screen - min (count * scale) screen) / 2⌋₊ : ℕ) := by
  have hle : min (count * scale) (screen : ℚ) ≤ screen := min_le_right _ _
  exact (natCast_floor_eq_intCast_floor (by linarith)).symm

/-- The drawing begins a misfit behind the clipping rectangle. -/
theorem drawnOrigin_eq (texture screen : Extent) (mode : ScalingMode) :
    drawnOrigin texture screen mode =
      ((clipRectFor texture screen mode).x + (acrossStrip texture screen mode).shift,
        (clipRectFor texture screen mode).y + (downStrip texture screen mode).shift) := by
  have hx := clip_add_slackPart texture.width screen.width (scaleFactor texture screen mode)
  have hy := clip_add_slackPart texture.height screen.height (scaleFactor texture screen mode)
  rw [floor_clip] at hx hy
  rw [drawnOrigin, acrossStrip, downStrip, frameStrip, frameStrip, clipRectFor]
  dsimp only
  rw [← add_assoc, hx, ← add_assoc, hy, halfPixel, halfPixel, ← sub_eq_add_neg]

/-- A point as it lies in the clipping rectangle. -/
def inClip (texture screen : Extent) (mode : ScalingMode) (pos : ℚ × ℚ) : ℚ × ℚ :=
  (pos.1 - (clipRectFor texture screen mode).x, pos.2 - (clipRectFor texture screen mode).y)

theorem holds_iff :
    (clipRectFor texture screen mode).Holds pos ↔
      (0 ≤ (inClip texture screen mode pos).1 ∧
        (inClip texture screen mode pos).1 < (acrossStrip texture screen mode).visible) ∧
      0 ≤ (inClip texture screen mode pos).2 ∧
        (inClip texture screen mode pos).2 < (downStrip texture screen mode).visible := by
  rw [ClipRect.Holds, inClip, sub_nonneg, sub_nonneg, sub_lt_iff_lt_add', sub_lt_iff_lt_add']
  rfl

theorem drawnAt_eq (texture screen : Extent) (mode : ScalingMode) (pos : ℚ × ℚ) :
    drawnAt texture screen mode pos =
      (((inClip texture screen mode pos).1 - (acrossStrip texture screen mode).shift) /
          (acrossStrip texture screen mode).size,
        ((inClip texture screen mode pos).2 - (downStrip texture screen mode).shift) /
          (downStrip texture screen mode).size) := by
  rw [drawnAt, drawnOrigin_eq, inClip, ← sub_sub, ← sub_sub]
  rfl

/-- What is shown at a point is the cell of the shifted strips. -/
theorem shows_iff_shifted {pixel : ℕ × ℕ} :
    Shows texture screen mode pos pixel ↔
      (clipRectFor texture screen mode).Holds pos ∧ Covers texture screen mode pos ∧
        pixel = ((acrossStrip texture screen mode).shifted (inClip texture screen mode pos).1,
          (downStrip texture screen mode).shifted (inClip texture screen mode pos).2) := by
  rw [shows_iff, drawnAt_eq]
  rfl

/-- In the clipping rectangle the mouse is on the cell of the strips. -/
theorem windowPosToPixel_clip (h : (clipRectFor texture screen mode).Holds pos) :
    windowPosToPixel texture screen mode pos =
      .ok ((acrossStrip texture screen mode).cell (inClip texture screen mode pos).1,
        (downStrip texture screen mode).cell (inClip texture screen mode pos).2) := by
  have hscale := scaleFactor_pos texture screen mode
  obtain ⟨⟨hx, hxlt⟩, hy, hylt⟩ := holds_iff.mp h
  have hcellX := Strip.cell_lt hx hxlt
  have hcellY := Strip.cell_lt hy hylt
  have hfloorX : ⌊(pos.1 - (clipRectFor texture screen mode).x) /
      scaleFactor texture screen mode⌋ =
        ((acrossStrip texture screen mode).cell (inClip texture screen mode pos).1 : ℤ) :=
    (Int.natCast_floor_eq_floor (div_nonneg hx hscale.le)).symm
  have hfloorY : ⌊(pos.2 - (clipRectFor texture screen mode).y) /
      scaleFactor texture screen mode⌋ =
        ((downStrip texture screen mode).cell (inClip texture screen mode pos).2 : ℤ) :=
    (Int.natCast_floor_eq_floor (div_nonneg hy hscale.le)).symm
  have hcountX : (acrossStrip texture screen mode).count = texture.width := rfl
  have hcountY : (downStrip texture screen mode).count = texture.height := rfl
  rw [clipRectFor] at hfloorX hfloorY
  rw [windowPosToPixel, floor_clip, floor_clip, hfloorX, hfloorY, if_neg (by omega)]
  rfl

theorem covers_of_seen
    (hx : (acrossStrip texture screen mode).Seen (inClip texture screen mode pos).1)
    (hy : (downStrip texture screen mode).Seen (inClip texture screen mode pos).2) :
    Covers texture screen mode pos := by
  have hsize := scaleFactor_pos texture screen mode
  have htw : (0 : ℚ) < texture.width := Nat.cast_pos.mpr texture.width_pos
  have hth : (0 : ℚ) < texture.height := Nat.cast_pos.mpr texture.height_pos
  rw [Covers, drawnAt_eq]
  dsimp only
  have hleft : 0 ≤ ((inClip texture screen mode pos).1 -
      (acrossStrip texture screen mode).shift) / (acrossStrip texture screen mode).size :=
    div_nonneg hx.covered hsize.le
  have hright : ((inClip texture screen mode pos).1 - (acrossStrip texture screen mode).shift) /
      (acrossStrip texture screen mode).size ≤ texture.width :=
    (div_le_iff₀ hsize).mpr hx.within
  have htop : 0 ≤ ((inClip texture screen mode pos).2 -
      (downStrip texture screen mode).shift) / (downStrip texture screen mode).size :=
    div_nonneg hy.covered hsize.le
  have hbottom : ((inClip texture screen mode pos).2 - (downStrip texture screen mode).shift) /
      (downStrip texture screen mode).size ≤ texture.height :=
    (div_le_iff₀ hsize).mpr hy.within
  refine ⟨hleft, hbottom, ?_⟩
  have hone := (div_le_one htw).mpr hright
  have hzero := div_nonneg htop hth.le
  linarith

theorem windowPosToPixel_lt {found : ℕ × ℕ}
    (h : windowPosToPixel texture screen mode pos = .ok found) :
    found.1 < texture.width ∧ found.2 < texture.height := by
  rw [windowPosToPixel] at h
  split at h
  · cases h
  · cases h
    dsimp only
    omega

/-- No frame of less than 31 bits loses a position on the way to the host. -/
theorem remotePosition_eq (hwidth : texture.width ≤ 2 ^ 31) (hheight : texture.height ≤ 2 ^ 31) :
    remotePosition texture screen mode pos =
      (windowPosToPixel texture screen mode pos).toOption.map fun found =>
        ((found.1 : ℤ), (found.2 : ℤ)) := by
  rw [remotePosition]
  cases hfound : windowPosToPixel texture screen mode pos with
  | error outside => rfl
  | ok found =>
      obtain ⟨hx, hy⟩ := windowPosToPixel_lt hfound
      exact if_pos ⟨hx.trans_le hwidth, hy.trans_le hheight⟩

/-! When the two agree. -/

/-- Wherever a pixel is shown in the clipping rectangle, the mouse is on it or
next to it. -/
def Agrees (texture screen : Extent) (mode : ScalingMode) : Prop :=
  ∀ pos pixel, Shows texture screen mode pos pixel →
    ∃ found, windowPosToPixel texture screen mode pos = .ok found ∧
      Near found.1 pixel.1 ∧ Near found.2 pixel.2

/-- A point of the clipping rectangle is covered by the triangle. -/
def Drawn (texture screen : Extent) (mode : ScalingMode) : Prop :=
  0 < (acrossStrip texture screen mode).visible ∧ 0 < (downStrip texture screen mode).visible ∧
    (acrossStrip texture screen mode).shift < (acrossStrip texture screen mode).visible

theorem downStrip_shift_lt (texture screen : Extent) (mode : ScalingMode) :
    (downStrip texture screen mode).shift < 1 := by
  have hnudge := (halfPixel_bounds screen.height).1
  change slackPart texture.height screen.height (scaleFactor texture screen mode) +
    -halfPixel screen.height < 1
  rcases le_or_gt (texture.height * scaleFactor texture screen mode) (screen.height : ℚ) with
    hroom | hover
  · have hslack := (slackPart_room hroom).2
    linarith
  · rw [slackPart_over hover]
    linarith

/-- Nothing is shown in a rectangle without points, or if the frame begins behind
it. -/
theorem drawn_of_shows {pixel : ℕ × ℕ} (h : Shows texture screen mode pos pixel) :
    Drawn texture screen mode := by
  obtain ⟨hholds, hcovers, -⟩ := shows_iff_shifted.mp h
  obtain ⟨⟨hx, hxlt⟩, hy, hylt⟩ := holds_iff.mp hholds
  rw [Covers, drawnAt_eq] at hcovers
  have hleft : 0 ≤ (inClip texture screen mode pos).1 -
      (acrossStrip texture screen mode).shift := by
    by_contra hbefore
    exact not_lt.mpr hcovers.1
      (div_neg_of_neg_of_pos (not_le.mp hbefore) (acrossStrip texture screen mode).size_pos)
  exact ⟨Nat.cast_pos.mp (hx.trans_lt hxlt), Nat.cast_pos.mp (hy.trans_lt hylt), by linarith⟩

theorem agrees_of_aligned (hacross : (acrossStrip texture screen mode).Aligned)
    (hdown : (downStrip texture screen mode).Aligned) : Agrees texture screen mode := by
  intro pos pixel hshows
  obtain ⟨hholds, -, rfl⟩ := shows_iff_shifted.mp hshows
  obtain ⟨⟨hx, hxlt⟩, hy, hylt⟩ := holds_iff.mp hholds
  exact ⟨_, windowPosToPixel_clip hholds, Strip.near_of_aligned hacross hx hxlt,
    Strip.near_of_aligned hdown hy hylt⟩

/-- Two points of the strips are one of the surface, and it is shown. -/
theorem near_of_agrees (h : Agrees texture screen mode) {x y : ℚ}
    (hx : (acrossStrip texture screen mode).Seen x)
    (hy : (downStrip texture screen mode).Seen y) :
    Near ((acrossStrip texture screen mode).cell x) ((acrossStrip texture screen mode).shifted x) ∧
      Near ((downStrip texture screen mode).cell y)
        ((downStrip texture screen mode).shifted y) := by
  obtain ⟨pos, hpos⟩ : ∃ pos, inClip texture screen mode pos = (x, y) :=
    ⟨(x + (clipRectFor texture screen mode).x, y + (clipRectFor texture screen mode).y), by
      rw [inClip, add_sub_cancel_right, add_sub_cancel_right]⟩
  have hxpos : (inClip texture screen mode pos).1 = x := congrArg Prod.fst hpos
  have hypos : (inClip texture screen mode pos).2 = y := congrArg Prod.snd hpos
  rw [← hxpos] at hx ⊢
  rw [← hypos] at hy ⊢
  have hholds : (clipRectFor texture screen mode).Holds pos :=
    holds_iff.mpr ⟨⟨hx.start, hx.stop⟩, hy.start, hy.stop⟩
  obtain ⟨found, hfound, hnear⟩ :=
    h pos _ (shows_iff_shifted.mpr ⟨hholds, covers_of_seen hx hy, rfl⟩)
  rw [windowPosToPixel_clip hholds] at hfound
  cases hfound
  exact hnear

theorem aligned_of_agrees (hagrees : Agrees texture screen mode)
    (hdrawn : Drawn texture screen mode) :
    (acrossStrip texture screen mode).Aligned ∧ (downStrip texture screen mode).Aligned := by
  obtain ⟨hacross, hdown, hshown⟩ := hdrawn
  have hone : (1 : ℚ) ≤ (downStrip texture screen mode).visible := by exact_mod_cast hdown
  have hbegins := (downStrip_shift_lt texture screen mode).trans_le hone
  constructor
  · by_contra hnot
    obtain ⟨x, hx, hfar⟩ := Strip.exists_far hacross hshown hnot
    obtain ⟨y, hy⟩ := Strip.exists_seen hdown hbegins
    exact hfar (near_of_agrees hagrees hx hy).1
  · by_contra hnot
    obtain ⟨x, hx⟩ := Strip.exists_seen hacross hshown
    obtain ⟨y, hy, hfar⟩ := Strip.exists_far hdown hbegins hnot
    exact hfar (near_of_agrees hagrees hx hy).2

/-- The mouse is on the pixel that is shown under it, or next to it, just if no
pixel is shown or neither side has a misfit that matters. -/
theorem windowPosToPixel_agrees_iff (texture screen : Extent) (mode : ScalingMode) :
    Agrees texture screen mode ↔
      ¬ Drawn texture screen mode ∨
        (acrossStrip texture screen mode).Aligned ∧ (downStrip texture screen mode).Aligned := by
  constructor
  · intro hagrees
    by_cases hdrawn : Drawn texture screen mode
    · exact Or.inr (aligned_of_agrees hagrees hdrawn)
    · exact Or.inl hdrawn
  · rintro (hnot | ⟨hacross, hdown⟩)
    · exact fun pos pixel hshows => (hnot (drawn_of_shows hshows)).elim
    · exact agrees_of_aligned hacross hdown

/-- Of a frame larger than the window the middle is shown, and the mouse is on its
corner. -/
theorem not_agrees_larger_frame : ¬ ∀ texture screen mode, Agrees texture screen mode := by
  intro hclaim
  let texture : Extent := ⟨1920, 1080, by decide, by decide⟩
  let screen : Extent := ⟨800, 600, by decide, by decide⟩
  have hclip : clipRectFor texture screen .pixelPerfect = ⟨0, 0, 800, 600⟩ := by decide +kernel
  have hdrawn : drawnAt texture screen .pixelPerfect (0, 0) = (560, 240) := by decide +kernel
  have hholds : (clipRectFor texture screen .pixelPerfect).Holds (0, 0) := by
    rw [hclip]
    norm_num [ClipRect.Holds]
  have hcovers : Covers texture screen .pixelPerfect (0, 0) := by
    rw [Covers, hdrawn]
    norm_num [texture]
  have hshows : Shows texture screen .pixelPerfect (0, 0) (560, 240) := by
    refine shows_iff.mpr ⟨hholds, hcovers, ?_⟩
    rw [hdrawn]
    decide +kernel
  have hmouse : windowPosToPixel texture screen .pixelPerfect (0, 0) = .ok (0, 0) := by
    decide +kernel
  obtain ⟨found, hfound, hnear, -⟩ := hclaim texture screen .pixelPerfect (0, 0) (560, 240) hshows
  rw [hmouse] at hfound
  cases hfound
  exact absurd hnear.2 (by decide)

end EvertyDesk.Desktop
