import EvertyDesk.Evrtck.Sync

/-!
The look that the host takes at a frame before it encodes it. All tiles are compared, or
those that the rectangles of the capture touch; the changes of some of them are sampled for
an estimate. Floating-point numbers are those of 32 bits.
-/

namespace EvertyDesk.Evrtck

structure FrameAnalysis where
  totalTiles : UInt32
  dirtyTiles : UInt32
  dirtyRatio : Float32
  entropyScore : Float32
  estimatedPayloadBytes : UInt32
  preferSilicon : Bool

def maxSampledDirtyTiles : Nat := 96
def sampleStrideBytes : Nat := 16

/-- What is counted while the tiles are visited. -/
structure Sampling where
  dirtyTiles : Nat
  sampledDirtyTiles : Nat
  sampledBytes : Nat
  changedSampledBytes : Nat
  histogram : List UInt16
  unique : Nat

namespace Sampling

def new : Sampling where
  dirtyTiles := 0
  sampledDirtyTiles := 0
  sampledBytes := 0
  changedSampledBytes := 0
  histogram := List.replicate 256 0
  unique := 0

/-- One byte of the difference. Bins saturate. -/
def sampleByte (s : Sampling) (xor : UInt8) : Sampling :=
  let bin := s.histogram.getD xor.toNat 0
  { s with
    sampledBytes := s.sampledBytes + 1
    changedSampledBytes := s.changedSampledBytes + if xor ≠ 0 then 1 else 0
    unique := s.unique + if bin = 0 then 1 else 0
    histogram := s.histogram.set xor.toNat (if bin = 65535 then bin else bin + 1) }

/-- The bytes of a tile that are sampled: three channels of every fourth pixel of a row. -/
def sampledOffsets (rect : TileRect) (width : Nat) : List Nat :=
  rect.rows.flatMap fun y =>
    (List.range ((rect.rowBytes + (sampleStrideBytes - 1)) / sampleStrideBytes)).flatMap
      fun step => (List.range 3).map fun channel =>
        rect.rowStart width y + step * sampleStrideBytes + channel

variable (bgra prev : List UInt8) (width height : Nat)

/-- A tile is visited: it counts if it is dirty, and the first of these are sampled. -/
def visit (s : Sampling) (tile : Nat × Nat) : Sampling :=
  if !tileIsDirty bgra prev width height tile.1 tile.2 then s
  else
    let s := { s with dirtyTiles := s.dirtyTiles + 1 }
    if s.sampledDirtyTiles ≥ maxSampledDirtyTiles then s
    else
      (sampledOffsets (tileRect width height tile.1 tile.2) width).foldl
        (fun s offset => s.sampleByte (bgra.getD offset 0 ^^^ prev.getD offset 0))
        { s with sampledDirtyTiles := s.sampledDirtyTiles + 1 }

end Sampling

/-- A count as a number of 32 bits. -/
def toF32 (count : Nat) : Float32 := (UInt64.ofNat count).toFloat32

def clampUnit (x : Float32) : Float32 :=
  let x := if x < 0.0 then 0.0 else x
  if x > 1.0 then 1.0 else x

/-- What is made of the counts. -/
def Sampling.summary (s : Sampling) (width height totalTiles : Nat) : FrameAnalysis :=
  let mapBytes := (totalTiles + 7) / 8
  let dirtyRatio := toF32 s.dirtyTiles / toF32 totalTiles
  let changedDensity :=
    if s.sampledBytes = 0 then 0.0 else toF32 s.changedSampledBytes / toF32 s.sampledBytes
  let entropyScore :=
    if s.sampledBytes = 0 then 0.0 else clampUnit (toF32 s.unique / 192.0)
  let dirtyTilePixels := toF32 (width * height) / toF32 totalTiles
  let bytesPerDirtyTile : Float32 :=
    if entropyScore ≥ 0.65 then 9.0 + dirtyTilePixels * 3.0 * changedDensity * 0.92
    else if entropyScore ≥ 0.25 then 18.0 + dirtyTilePixels * 0.55
    else 8.0 + dirtyTilePixels * 0.015
  let estimatedPayloadBytes := frameHeaderLen + mapBytes +
    (toF32 s.dirtyTiles * bytesPerDirtyTile).toUInt64.toNat
  let rawBytes := min (width * height * 4) (2 ^ 64 - 1)
  { totalTiles := UInt32.ofNat totalTiles
    dirtyTiles := UInt32.ofNat s.dirtyTiles
    dirtyRatio := dirtyRatio
    entropyScore := entropyScore
    estimatedPayloadBytes := UInt32.ofNat (min estimatedPayloadBytes (2 ^ 32 - 1))
    preferSilicon := decide (s.dirtyTiles > 0) && decide (entropyScore ≥ 0.62) &&
      (decide (dirtyRatio ≥ 0.12) || decide (estimatedPayloadBytes ≥ rawBytes / 10)) }

namespace EvrtckEncoder

variable (e : EvrtckEncoder) (bgra : List UInt8)

def totalTiles : Nat := tilesInDim e.width * tilesInDim e.height

def noChange : FrameAnalysis where
  totalTiles := UInt32.ofNat e.totalTiles
  dirtyTiles := 0
  dirtyRatio := 0.0
  entropyScore := 0.0
  estimatedPayloadBytes := UInt32.ofNat frameHeaderLen
  preferSilicon := false

/-- The analysis of the tiles that are visited, in their order. -/
def analysisOf (tiles : List (Nat × Nat)) : FrameAnalysis :=
  if e.totalTiles = 0 ∨ bgra.length ≠ e.prev.length ∨ bgra = e.prev then e.noChange
  else
    (tiles.foldl (Sampling.visit bgra e.prev e.width e.height) .new).summary e.width e.height
      e.totalTiles

/-- All tiles, row by row. -/
def allTiles : List (Nat × Nat) :=
  (List.range (tilesInDim e.height)).flatMap fun ty =>
    (List.range (tilesInDim e.width)).map fun tx => (tx, ty)

/-- The tiles of some numbers, but for those that there are not. -/
def tilesAt (dirtyIndices : List Nat) : List (Nat × Nat) :=
  (dirtyIndices.filter fun idx => decide (idx < e.totalTiles)).map fun idx =>
    (idx % tilesInDim e.width, idx / tilesInDim e.width)

def analyzeNextFrame : FrameAnalysis := e.analysisOf bgra e.allTiles

def analyzeNextFrameDirtyIndices (dirtyIndices : List Nat) : FrameAnalysis :=
  e.analysisOf bgra (e.tilesAt dirtyIndices)

/-- The tiles that are visited where the capture gave rectangles. -/
def hintedTiles (dirtyRects : List DirtyRect) : List (Nat × Nat) :=
  match dirtyTileIndicesFromRects dirtyRects e.width e.height with
  | some indices => e.tilesAt indices
  | none => e.allTiles

def analyzeNextFrameWithDirtyRects (dirtyRects : List DirtyRect) : FrameAnalysis :=
  match dirtyTileIndicesFromRects dirtyRects e.width e.height with
  | some indices => e.analyzeNextFrameDirtyIndices bgra indices
  | none => e.analyzeNextFrame bgra

/-- The tiles among those visited that are found to be dirty. -/
def foundDirty (tiles : List (Nat × Nat)) : List (Nat × Nat) :=
  tiles.filter fun tile => tileIsDirty bgra e.prev e.width e.height tile.1 tile.2

end EvrtckEncoder

/-! Which tiles the rectangles name. -/

/-- A pixel of the frame lies in one of the rectangles. -/
def Touches (dirtyRects : List DirtyRect) (width height x y : Nat) : Prop :=
  x < width ∧ y < height ∧ ∃ rect ∈ dirtyRects, rect.left.toNat ≤ x ∧ x < rect.right.toNat ∧
    rect.top.toNat ≤ y ∧ y < rect.bottom.toNat

/-- The number of the tile that a pixel lies in. -/
def tileOfPixel (width x y : Nat) : Nat := y / tileSize * tilesInDim width + x / tileSize

section Rects

variable {rect : DirtyRect} {clipped : TileRect} {dirtyRects : List DirtyRect} {width height : Nat}

/-- What is left of a rectangle has the pixels of both, of which there are some. -/
theorem clamp_some (h : rect.clamp width height = some clipped) :
    clipped.x0 < clipped.x1 ∧ clipped.y0 < clipped.y1 ∧
      clipped.x0 = min rect.left.toNat width ∧ clipped.x1 = min rect.right.toNat width ∧
      clipped.y0 = min rect.top.toNat height ∧ clipped.y1 = min rect.bottom.toNat height := by
  unfold DirtyRect.clamp at h
  split at h
  · cases h
  · dsimp only at h
    split at h
    · cases h
    · cases h
      dsimp only
      omega

/-- The rectangles that are left over the frame touch what the given ones do. -/
theorem touches_iff {x y : Nat} :
    Touches dirtyRects width height x y ↔
      ∃ clipped ∈ dirtyRects.filterMap (·.clamp width height),
        clipped.x0 ≤ x ∧ x < clipped.x1 ∧ clipped.y0 ≤ y ∧ y < clipped.y1 := by
  constructor
  · rintro ⟨hx, hy, rect, hrect, hleft, hright, htop, hbottom⟩
    refine ⟨_, List.mem_filterMap.mpr
      ⟨rect, hrect, clamp_of_pixel hx hy hleft hright htop hbottom⟩, ?_⟩
    dsimp only
    omega
  · rintro ⟨clipped, hmember, hinside⟩
    obtain ⟨rect, hrect, hclamp⟩ := List.mem_filterMap.mp hmember
    obtain ⟨-, -, hx0, hx1, hy0, hy1⟩ := clamp_some hclamp
    refine ⟨by omega, by omega, rect, hrect, ?_⟩
    omega

/-- Rectangles of which nothing is left touch no pixel. -/
theorem clamped_nil_iff :
    dirtyRects.filterMap (·.clamp width height) = [] ↔
      ∀ x y, ¬ Touches dirtyRects width height x y := by
  constructor
  · intro hnil x y htouches
    rw [touches_iff, hnil] at htouches
    simp at htouches
  · intro hnone
    apply List.eq_nil_iff_forall_not_mem.mpr
    intro clipped hmember
    obtain ⟨rect, -, hclamp⟩ := List.mem_filterMap.mp hmember
    obtain ⟨hwide, hhigh, -⟩ := clamp_some hclamp
    exact hnone clipped.x0 clipped.y0 (touches_iff.mpr
      ⟨clipped, hmember, Nat.le_refl _, hwide, Nat.le_refl _, hhigh⟩)

theorem div_tile_lt {px x : Nat} (h : x < px) : x / tileSize < tilesInDim px := by
  rw [lt_tilesInDim]
  exact Nat.lt_of_le_of_lt (Nat.div_mul_le_self x tileSize) h

/-- A rectangle in the frame marks a tile just if they have a pixel in common. -/
theorem marks_iff {idx : Nat} (hwide : clipped.x0 < clipped.x1)
    (hhigh : clipped.y0 < clipped.y1) (hx : clipped.x1 ≤ width)
    (hidx : idx < tilesInDim width * tilesInDim height) :
    clipped.marks (tilesInDim width) (tilesInDim height) idx = true ↔
      ∃ x y, clipped.x0 ≤ x ∧ x < clipped.x1 ∧ clipped.y0 ≤ y ∧ y < clipped.y1 ∧
        tileOfPixel width x y = idx := by
  have hcolumns : 0 < tilesInDim width := tilesInDim_pos (by omega)
  have hrow : idx / tilesInDim width < tilesInDim height := Nat.div_lt_of_lt_mul hidx
  have hcolumn : idx % tilesInDim width < tilesInDim width := Nat.mod_lt idx hcolumns
  have hsplit := Nat.div_add_mod' idx (tilesInDim width)
  simp only [TileRect.marks, Bool.and_eq_true, decide_eq_true_eq]
  constructor
  · intro hmarks
    -- the first pixel of the tile that is not before the rectangle
    refine ⟨max clipped.x0 (idx % tilesInDim width * tileSize),
      max clipped.y0 (idx / tilesInDim width * tileSize), ?_⟩
    have hplaces : max clipped.x0 (idx % tilesInDim width * tileSize) / tileSize =
          idx % tilesInDim width ∧
        max clipped.y0 (idx / tilesInDim width * tileSize) / tileSize = idx / tilesInDim width := by
      rw [tileSize] at *
      omega
    rw [tileOfPixel, hplaces.1, hplaces.2, hsplit]
    rw [tileSize] at *
    omega
  · rintro ⟨x, y, hx0, hx1, hy0, hy1, rfl⟩
    have hlt : x / tileSize < tilesInDim width := div_tile_lt (by omega)
    have hdiv : tileOfPixel width x y / tilesInDim width = y / tileSize := by
      rw [tileOfPixel, Nat.add_comm, Nat.add_mul_div_right _ _ hcolumns, Nat.div_eq_of_lt hlt,
        Nat.zero_add]
    have hmod : tileOfPixel width x y % tilesInDim width = x / tileSize := by
      rw [tileOfPixel, Nat.mul_add_mod_self_right, Nat.mod_eq_of_lt hlt]
    rw [hdiv, hmod]
    rw [tileSize] at *
    omega

/-- What the tiles of some rectangles are: none just if the rectangles touch no pixel of the
frame, otherwise those with a pixel that they touch, in ascending order. -/
structure TilesTouched (dirtyRects : List DirtyRect) (width height : Nat)
    (found : Option (List Nat)) : Prop where
  none_iff : found = none ↔ ∀ x y, ¬ Touches dirtyRects width height x y
  ascending : ∀ indices, found = some indices → indices.Pairwise (· < ·)
  mem_iff : ∀ indices, found = some indices → ∀ idx,
    idx ∈ indices ↔ ∃ x y, Touches dirtyRects width height x y ∧ tileOfPixel width x y = idx

theorem tilesTouched_none (h : ∀ x y, ¬ Touches dirtyRects width height x y) :
    TilesTouched dirtyRects width height none := by
  constructor
  · exact ⟨fun _ => h, fun _ => rfl⟩
  · intro _ hsome
    cases hsome
  · intro _ hsome
    cases hsome

theorem tileOfPixel_lt {x y : Nat} (hx : x < width) (hy : y < height) :
    tileOfPixel width x y < tilesInDim width * tilesInDim height := by
  have hcolumn := div_tile_lt hx
  have hrow : y / tileSize + 1 ≤ tilesInDim height := div_tile_lt hy
  calc
    tileOfPixel width x y < (y / tileSize + 1) * tilesInDim width := by
      rw [tileOfPixel, Nat.add_mul, Nat.one_mul]
      omega
    _ ≤ tilesInDim height * tilesInDim width := Nat.mul_le_mul_right _ hrow
    _ = tilesInDim width * tilesInDim height := Nat.mul_comm _ _

theorem tiles_touched (dirtyRects : List DirtyRect) (width height : Nat) :
    TilesTouched dirtyRects width height (dirtyTileIndicesFromRects dirtyRects width height) := by
  have hunused : (dirtyRects.isEmpty ∨ width = 0 ∨ height = 0) →
      ∀ x y, ¬ Touches dirtyRects width height x y := by
    rintro hempty x y ⟨hx, hy, rect, hrect, -⟩
    rcases hempty with hnil | hwidth | hheight
    · rw [List.isEmpty_iff.mp hnil] at hrect
      simp at hrect
    · omega
    · omega
  unfold dirtyTileIndicesFromRects
  split
  · next hempty => exact tilesTouched_none (hunused hempty)
  · dsimp only
    split
    · next hnil =>
      exact tilesTouched_none (clamped_nil_iff.mp (List.isEmpty_iff.mp hnil))
    · next hsome =>
      constructor
      · constructor
        · intro h
          cases h
        · intro hnone
          exact absurd (List.isEmpty_iff.mpr (clamped_nil_iff.mpr hnone)) hsome
      · rintro indices ⟨⟩
        exact List.pairwise_lt_range.filter _
      · rintro indices ⟨⟩ idx
        rw [List.mem_filter, List.mem_range, List.any_eq_true]
        constructor
        · rintro ⟨hidx, clipped, hmember, hmarks⟩
          obtain ⟨rect, -, hclamp⟩ := List.mem_filterMap.mp hmember
          obtain ⟨hwide, hhigh, -, hx1, -, hy1⟩ := clamp_some hclamp
          obtain ⟨x, y, hx0, hx, hy0, hy, htile⟩ :=
            (marks_iff hwide hhigh (by omega) hidx).mp hmarks
          exact ⟨x, y, touches_iff.mpr ⟨clipped, hmember, hx0, hx, hy0, hy⟩, htile⟩
        · rintro ⟨x, y, htouches, rfl⟩
          have hidx := tileOfPixel_lt htouches.1 htouches.2.1
          obtain ⟨clipped, hmember, hx0, hx, hy0, hy⟩ := touches_iff.mp htouches
          obtain ⟨rect, -, hclamp⟩ := List.mem_filterMap.mp hmember
          obtain ⟨hwide, hhigh, -, hx1, -, hy1⟩ := clamp_some hclamp
          exact ⟨hidx, clipped, hmember, (marks_iff hwide hhigh (by omega) hidx).mpr
            ⟨x, y, hx0, hx, hy0, hy, rfl⟩⟩

end Rects

/-! Visiting all tiles, or those that are named. -/

section Visits

variable {bgra prev : List UInt8} {width height : Nat}

/-- Only dirty tiles count. -/
theorem foldl_visit (tiles : List (Nat × Nat)) (s : Sampling) :
    tiles.foldl (Sampling.visit bgra prev width height) s =
      (tiles.filter fun tile => tileIsDirty bgra prev width height tile.1 tile.2).foldl
        (Sampling.visit bgra prev width height) s := by
  induction tiles generalizing s with
  | nil => rfl
  | cons tile tiles ih =>
      rw [List.foldl_cons, List.filter_cons]
      cases hdirty : tileIsDirty bgra prev width height tile.1 tile.2 with
      | true => exact ih _
      | false =>
          have hskip : s.visit bgra prev width height tile = s := by
            simp [Sampling.visit, hdirty]
          rw [hskip]
          exact ih s

/-- The rows of a table one after the other. -/
theorem range_rows (rows columns : Nat) :
    (List.range rows).flatMap (fun ty => (List.range columns).map fun tx => (tx, ty)) =
      (List.range (columns * rows)).map fun idx => (idx % columns, idx / columns) := by
  induction rows with
  | zero => rfl
  | succ rows ih =>
      have hlast : (List.range columns).map (fun tx => (tx, rows)) =
          ((List.range columns).map fun tx => columns * rows + tx).map
            fun idx => (idx % columns, idx / columns) := by
        rw [List.map_map]
        apply List.map_congr_left
        intro tx htx
        have hlt := List.mem_range.mp htx
        rw [Function.comp_apply, Nat.mul_add_mod, Nat.mod_eq_of_lt hlt,
          Nat.mul_add_div (Nat.zero_lt_of_lt hlt), Nat.div_eq_of_lt hlt, Nat.add_zero]
      rw [List.range_succ, List.flatMap_append, ih, List.flatMap_singleton, hlast,
        Nat.mul_succ, List.range_add, List.map_append]

variable {e : EvrtckEncoder}

theorem allTiles_eq : e.allTiles = e.tilesAt (List.range e.totalTiles) := by
  have hall : (List.range e.totalTiles).filter (fun idx => decide (idx < e.totalTiles)) =
      List.range e.totalTiles :=
    List.filter_eq_self.mpr fun idx hidx => decide_eq_true (List.mem_range.mp hidx)
  rw [EvrtckEncoder.tilesAt, hall]
  exact range_rows _ _

/-- An ascending list with some elements of a range, among them all that matter. -/
theorem filter_range {indices : List Nat} {count : Nat} {p : Nat → Bool}
    (hascending : indices.Pairwise (· < ·)) (hbound : ∀ idx ∈ indices, idx < count)
    (hall : ∀ idx < count, p idx = true → idx ∈ indices) :
    indices.filter p = (List.range count).filter p := by
  apply @List.Perm.eq_of_pairwise _ (· < ·)
  · intro a b _ _ hab hba
    omega
  · exact hascending.filter p
  · exact List.pairwise_lt_range.filter p
  · rw [List.perm_ext_iff_of_nodup]
    · intro idx
      rw [List.mem_filter, List.mem_filter, List.mem_range]
      exact ⟨fun h => ⟨hbound idx h.1, h.2⟩, fun h => ⟨hall idx h.1 h.2, h.2⟩⟩
    · exact (hascending.imp Nat.ne_of_lt).filter p
    · exact List.nodup_range.filter p

/-- The rectangles touch every pixel that changed. -/
def Touched (e : EvrtckEncoder) (bgra : List UInt8) (dirtyRects : List DirtyRect) : Prop :=
  ∀ x < e.width, ∀ y < e.height,
    field bgra ((y * e.width + x) * 4) 4 ≠ field e.prev ((y * e.width + x) * 4) 4 →
      Touches dirtyRects e.width e.height x y

/-- A tile that is dirty has a pixel that changed, and so is named. -/
theorem foundDirty_hinted {dirtyRects : List DirtyRect} (h : Touched e bgra dirtyRects) :
    e.foundDirty bgra (e.hintedTiles dirtyRects) = e.foundDirty bgra e.allTiles := by
  have htouched := tiles_touched dirtyRects e.width e.height
  rw [EvrtckEncoder.hintedTiles]
  cases hindices : dirtyTileIndicesFromRects dirtyRects e.width e.height with
  | none => rfl
  | some indices =>
      have hbound : ∀ idx ∈ indices, idx < e.totalTiles := (mem_dirtyTileIndices_lt hindices).2
      have hall : indices.filter (fun idx => decide (idx < e.totalTiles)) = indices :=
        List.filter_eq_self.mpr fun idx hidx => decide_eq_true (hbound idx hidx)
      have hrange : (List.range e.totalTiles).filter (fun idx => decide (idx < e.totalTiles)) =
          List.range e.totalTiles :=
        List.filter_eq_self.mpr fun idx hidx => decide_eq_true (List.mem_range.mp hidx)
      dsimp only
      rw [allTiles_eq, EvrtckEncoder.foundDirty, EvrtckEncoder.foundDirty,
        EvrtckEncoder.tilesAt, EvrtckEncoder.tilesAt, hall, hrange, List.filter_map,
        List.filter_map]
      congr 1
      apply filter_range (htouched.ascending indices hindices) hbound
      intro idx hidx hdirty
      obtain ⟨x, y, hx0, hx1, hx, hy0, hy1, hy, hdiffers⟩ := exists_dirty_pixel hdirty
      apply (htouched.mem_iff indices hindices idx).mpr
      refine ⟨x, y, h x hx y hy hdiffers, ?_⟩
      have hcolumn : x / tileSize = idx % tilesInDim e.width := by
        dsimp only at hx0 hx1
        rw [tileSize] at *
        omega
      have hrow : y / tileSize = idx / tilesInDim e.width := by
        dsimp only at hy0 hy1
        rw [tileSize] at *
        omega
      rw [tileOfPixel, hcolumn, hrow]
      exact Nat.div_add_mod' idx (tilesInDim e.width)

/-- For any rectangles and any frame size: the tiles that are named are those that the
rectangles touch, and where these touch every changed pixel the look at the named tiles
finds the dirty tiles that the look at all tiles finds, and makes the same of them. -/
theorem dirty_rects_exact (e : EvrtckEncoder) (bgra : List UInt8) (dirtyRects : List DirtyRect) :
    TilesTouched dirtyRects e.width e.height
        (dirtyTileIndicesFromRects dirtyRects e.width e.height) ∧
      (Touched e bgra dirtyRects →
        e.foundDirty bgra (e.hintedTiles dirtyRects) = e.foundDirty bgra e.allTiles ∧
          e.analyzeNextFrameWithDirtyRects bgra dirtyRects = e.analyzeNextFrame bgra) := by
  refine ⟨tiles_touched dirtyRects e.width e.height, fun htouched => ?_⟩
  have hfound := foundDirty_hinted htouched
  refine ⟨hfound, ?_⟩
  have hhinted : e.analyzeNextFrameWithDirtyRects bgra dirtyRects =
      e.analysisOf bgra (e.hintedTiles dirtyRects) := by
    rw [EvrtckEncoder.analyzeNextFrameWithDirtyRects, EvrtckEncoder.hintedTiles]
    cases dirtyTileIndicesFromRects dirtyRects e.width e.height <;> rfl
  rw [hhinted, EvrtckEncoder.analyzeNextFrame, EvrtckEncoder.analysisOf,
    EvrtckEncoder.analysisOf, foldl_visit (e.hintedTiles dirtyRects), foldl_visit e.allTiles]
  exact if_congr Iff.rfl rfl (congrArg (fun tiles =>
    (tiles.foldl (Sampling.visit bgra e.prev e.width e.height) .new).summary e.width e.height
      e.totalTiles) hfound)

end Visits

end EvertyDesk.Evrtck
