import EvertyDesk.Evrtck.Analysis
import EvertyDesk.Evrt2.Packet
import EvertyDesk.Lib.FusedScan
import EvertyDesk.Lib.Rounding
import EvertyDesk.Lib.Streaks
import EvertyDesk.Lib.Writes
import Mathlib.Data.List.GetD
import Mathlib.Tactic.NormNum

/-!
The attention map of the host: how much each tile has changed since the frame before, and
for how many frames it had not. The tiles are compared with the frame before and copied
over it in one scan, row by row and many bytes at once.
-/

namespace EvertyDesk.Evrt2

open Evrtck (TileRect tileRect tilesInDim tileOfPixel)

/-! The scan of a row. -/

/-- The words, as the machine reads them. -/
def wordDiffers (now before : List UInt8) : Bool := leNat now != leNat before

def wordCount (now before : List UInt8) : Nat :=
  (List.range 8).countP fun k => now[k]? != before[k]?

def byteDiffers (now before : List UInt8) : Bool := now != before

def byteCount (_ _ : List UInt8) : Nat := 1

/-- The loop over the bytes that are left. -/
def diffCountBytesAndUpdate (cur prev : List UInt8) : Nat × List UInt8 :=
  scanLanes 1 byteDiffers byteCount cur prev

/-- Eight bytes at once. -/
def diffCountScalarAndUpdate (cur prev : List UInt8) : Nat × List UInt8 :=
  scanLanesThen 8 wordDiffers wordCount cur diffCountBytesAndUpdate prev

/-- One bit for each byte of a lane, set where the bytes are equal. -/
def eqMask (now before : List UInt8) : BitVec 32 :=
  (BitVec.ofBoolListLE ((List.range 32).map fun k => now[k]? == before[k]?)).cast (by simp)

def countOnes (mask : BitVec 32) : Nat := (List.range 32).countP mask.getLsbD

def laneDiffers (now before : List UInt8) : Bool := eqMask now before != BitVec.allOnes 32

def laneCount (now before : List UInt8) : Nat := countOnes (~~~eqMask now before)

/-- Thirty-two bytes at once. -/
def diffCountAvx2AndUpdate (cur prev : List UInt8) : Nat × List UInt8 :=
  scanLanesThen 32 laneDiffers laneCount cur diffCountScalarAndUpdate prev

/-- The wide lanes are taken if the machine has them. -/
def diffCountFastAndUpdate (avx2 : Bool) (cur prev : List UInt8) : Nat × List UInt8 :=
  if avx2 then diffCountAvx2AndUpdate cur prev else diffCountScalarAndUpdate cur prev

/-! The map. All numbers of it are of single precision. -/

structure AttentionWeights where
  wM : ℚ
  wT : ℚ
  wS : ℚ

namespace AttentionWeights

def ar : AttentionWeights where
  wM := roundBinary32 (30 / 100)
  wT := roundBinary32 (70 / 100)
  wS := 0

def r2 : AttentionWeights where
  wM := roundBinary32 (65 / 100)
  wT := roundBinary32 (20 / 100)
  wS := roundBinary32 (15 / 100)

def mode47 : AttentionWeights where
  wM := roundBinary32 (15 / 100)
  wT := roundBinary32 (55 / 100)
  wS := roundBinary32 (30 / 100)

def forMode : Mode → AttentionWeights
  | .ar => ar
  | .r2 => r2
  | .mode47 => mode47

end AttentionWeights

def surpriseStaticStreakFrames : Nat := 8

/-- How near the tile is to the one in focus. -/
def targetProximity (tx ty : Nat) (focus : Nat × Nat) : ℚ :=
  let dx := ((tx : Int) - focus.1).natAbs
  let dy := ((ty : Int) - focus.2).natAbs
  let dist := asF32 (max dx dy)
  max (roundBinary32 (1 - roundBinary32 (dist / 6))) 0

/-- What has been found out about a tile, so many of its rows being done. -/
structure TileScan where
  diff : Nat
  total : Nat
  prevFrame : List UInt8

/-- The part of the bytes of a tile that differ. -/
def motionRatio (diff total : Nat) : ℚ :=
  if total = 0 then 0 else roundBinary32 (asF32 diff / asF32 total)

def attentionOf (weights : AttentionWeights) (mI tI sI : ℚ) : ℚ :=
  let weighted := roundBinary32 (roundBinary32 (weights.wM * mI) + roundBinary32 (weights.wT * tI))
  max 0 (min (roundBinary32 (weighted + roundBinary32 (weights.wS * sI))) 1)

structure AttentionMapBuilder where
  width : Nat
  height : Nat
  tilesX : Nat
  tilesY : Nat
  staticStreak : List Nat
  prevFrame : List UInt8
  havePrev : Bool

namespace AttentionMapBuilder

def new (width height : Nat) : Checked AttentionMapBuilder := do
  let tilesX := tilesInDim width
  let tilesY := tilesInDim height
  let tileCount ← Checked.mul tilesX tilesY
  Checked.allocate (tileCount * 4)
  let size ← Checked.mul (← Checked.mul width height) 4
  Checked.allocate size
  return {
    width := width
    height := height
    tilesX := tilesX
    tilesY := tilesY
    staticStreak := List.replicate tileCount 0
    prevFrame := List.replicate size 0
    havePrev := false }

variable (s : AttentionMapBuilder)

def tileCount : Nat := s.tilesX * s.tilesY

/-- One row of a tile. -/
def scanRow (avx2 : Bool) (bgra : List UInt8) (width : Nat) (rect : TileRect)
    (scan : TileScan) (y : Nat) : Checked TileScan := do
  let rowStart := rect.rowStart width y
  let rowEnd := (y * width + rect.x1) * 4
  let curRow ← Checked.slice bgra rowStart rowEnd
  let prevRow ← Checked.slice scan.prevFrame rowStart rowEnd
  let (diff, updated) := diffCountFastAndUpdate avx2 curRow prevRow
  let prevFrame ← Checked.write scan.prevFrame rowStart rowEnd updated
  return {
    diff := scan.diff + diff
    total := scan.total + curRow.length
    prevFrame := prevFrame }

/-- The rows of a tile. -/
def tileScanAndUpdate (avx2 : Bool) (bgra : List UInt8) (tx ty : Nat) : Checked TileScan :=
  let rect := tileRect s.width s.height tx ty
  rect.rows.foldlM (scanRow avx2 bgra s.width rect) ⟨0, 0, s.prevFrame⟩

def tileMotionRatioAndUpdate (avx2 : Bool) (bgra : List UInt8) (tx ty : Nat) :
    Checked (ℚ × AttentionMapBuilder) := do
  let scan ← s.tileScanAndUpdate avx2 bgra tx ty
  return (motionRatio scan.diff scan.total, { s with prevFrame := scan.prevFrame })

/-- The motion of a tile, of which there is none in the first frame. -/
def motionAndUpdate (avx2 : Bool) (bgra : List UInt8) (tx ty : Nat) :
    Checked (ℚ × AttentionMapBuilder) :=
  if s.havePrev then s.tileMotionRatioAndUpdate avx2 bgra tx ty else return (0, s)

/-- One tile; the map is filled along with it. -/
def visitTile (avx2 : Bool) (bgra : List UInt8) (focusTile : Option (Nat × Nat)) (mode : Mode)
    (state : AttentionMapBuilder × List ℚ) (tile : Nat × Nat) :
    Checked (AttentionMapBuilder × List ℚ) := do
  let (s, map) := state
  let (tx, ty) := tile
  let idx := tx + ty * s.tilesX
  let (mI, s) ← s.motionAndUpdate avx2 bgra tx ty
  let isDirty := decide (mI > 0)
  let streak ← Checked.index s.staticStreak idx
  let sI := if s.havePrev ∧ isDirty ∧ streak ≥ surpriseStaticStreakFrames then 1 else 0
  -- the count saturates
  let staticStreak ← Checked.replace s.staticStreak idx
    (if isDirty then 0 else min (streak + 1) (2 ^ 32 - 1))
  let tI := (focusTile.map (targetProximity tx ty)).getD 0
  let map ← Checked.replace map idx (attentionOf (.forMode mode) mI tI sI)
  return ({ s with staticStreak := staticStreak }, map)

/-- The tiles, row by row. -/
def tiles : List (Nat × Nat) :=
  (List.range s.tilesY).flatMap fun ty => (List.range s.tilesX).map fun tx => (tx, ty)

def compute (avx2 : Bool) (bgra : List UInt8) (focusTile : Option (Nat × Nat)) (mode : Mode) :
    Checked (AttentionMapBuilder × List ℚ) := do
  -- the assertion that the frame has the size of the others
  if bgra.length ≠ s.width * s.height * 4 then Except.error .unreachable
  else do
    let (s, map) ← s.tiles.foldlM (visitTile avx2 bgra focusTile mode)
      (s, List.replicate s.tileCount 0)
    if s.havePrev then return (s, map)
    else
      return ({ s with
        prevFrame := bgra
        havePrev := true }, map)

end AttentionMapBuilder

/-! A row is counted byte by byte. -/

theorem byte_countsLanes : CountsLanes 1 byteDiffers byteCount := by
  intro now before hnow hbefore
  obtain ⟨a, rfl⟩ := List.length_eq_one_iff.mp hnow
  obtain ⟨b, rfl⟩ := List.length_eq_one_iff.mp hbefore
  constructor
  · intro hsame
    exact bne_eq_false_iff_eq.mp hsame
  · intro hdiffers
    have hne : a ≠ b := by
      rintro rfl
      exact bne_iff_ne.mp hdiffers rfl
    simp [differences, byteCount, hne]

theorem word_countsLanes : CountsLanes 8 wordDiffers wordCount := by
  intro now before hnow hbefore
  constructor
  · intro hsame
    have hword : leNat now = leNat before := bne_eq_false_iff_eq.mp hsame
    rw [← leBytes_leNat now, ← leBytes_leNat before, hword, hnow, hbefore]
  · intro _
    rw [wordCount, differences_eq_countP (hnow.trans hbefore.symm), hnow]

theorem eqMask_getLsbD (now before : List UInt8) {k : Nat} (hk : k < 32) :
    (eqMask now before).getLsbD k = (now[k]? == before[k]?) := by
  rw [eqMask, BitVec.getLsbD_cast, BitVec.getLsbD_ofBoolListLE, List.getD_eq_getElem?_getD,
    List.getElem?_map, List.getElem?_range hk]
  rfl

theorem lane_countsLanes : CountsLanes 32 laneDiffers laneCount := by
  intro now before hnow hbefore
  constructor
  · intro hsame
    have hmask : eqMask now before = BitVec.allOnes 32 := bne_eq_false_iff_eq.mp hsame
    apply List.ext_getElem?
    intro k
    rcases Nat.lt_or_ge k 32 with hk | hk
    · have hbit := eqMask_getLsbD now before hk
      rw [hmask, BitVec.getLsbD_allOnes, decide_eq_true hk] at hbit
      exact eq_of_beq hbit.symm
    · rw [List.getElem?_eq_none (by omega), List.getElem?_eq_none (by omega)]
  · intro _
    rw [laneCount, countOnes, differences_eq_countP (hnow.trans hbefore.symm), hnow]
    apply List.countP_congr
    intro k hk
    have hlt := List.mem_range.mp hk
    rw [BitVec.getLsbD_not, decide_eq_true hlt, Bool.true_and, eqMask_getLsbD now before hlt]
    rfl

theorem diffCountBytesAndUpdate_scans : Scans diffCountBytesAndUpdate := by
  intro cur prev hlength
  rw [diffCountBytesAndUpdate, scanLanes_eq byte_countsLanes hlength, Nat.div_one, Nat.mul_one,
    List.take_length, hlength, List.take_length, List.drop_length, List.append_nil]

theorem diffCountScalarAndUpdate_scans : Scans diffCountScalarAndUpdate :=
  scanLanesThen_scans word_countsLanes diffCountBytesAndUpdate_scans

theorem diffCountAvx2AndUpdate_scans : Scans diffCountAvx2AndUpdate :=
  scanLanesThen_scans lane_countsLanes diffCountScalarAndUpdate_scans

/-- Whatever the machine has, the differences are counted and nothing is left different. -/
theorem diffCountFastAndUpdate_scans (avx2 : Bool) : Scans (diffCountFastAndUpdate avx2) := by
  intro cur prev hlength
  cases avx2 with
  | false => exact diffCountScalarAndUpdate_scans cur prev hlength
  | true => exact diffCountAvx2AndUpdate_scans cur prev hlength

/-! A tile is counted row by row. -/

/-- The number of the tile that a byte of the frame lies in. -/
def tileOfByte (width i : Nat) : Nat := tileOfPixel width (i / 4 % width) (i / 4 / width)

/-- The bytes of a tile that are not those of the frame before. -/
def tileDifferences (width : Nat) (cur old : List UInt8) (idx : Nat) : Nat :=
  differencesIn cur old fun i => tileOfByte width i == idx

/-- The bytes of some rows of a tile. -/
def rowsRegion (width : Nat) (rect : TileRect) (rows : List Nat) (i : Nat) : Bool :=
  rows.any fun y => within (rect.rowStart width y) rect.rowBytes i

namespace AttentionMapBuilder

section Rows

variable {width height y i : Nat} {rect : TileRect} {rows : List Nat} {cur old : List UInt8}
  {region : Nat → Bool} {scan : TileScan}

theorem within_row (hwide : rect.x0 ≤ rect.x1) (hright : rect.x1 ≤ width) :
    within (rect.rowStart width y) rect.rowBytes i = true ↔
      i / (width * 4) = y ∧ rect.x0 * 4 ≤ i % (width * 4) ∧ i % (width * 4) < rect.x1 * 4 := by
  have hstart : rect.rowStart width y = y * (width * 4) + rect.x0 * 4 := by
    rw [TileRect.rowStart, Nat.add_mul, Nat.mul_assoc]
  have hstop : rect.rowStart width y + rect.rowBytes = y * (width * 4) + rect.x1 * 4 := by
    rw [hstart, TileRect.rowBytes]
    omega
  rw [within, decide_eq_true_iff, hstop, hstart]
  exact mem_row_iff (by omega)

theorem rowsRegion_cons : rowsRegion width rect (y :: rows) i =
    (within (rect.rowStart width y) rect.rowBytes i || rowsRegion width rect rows i) := rfl

theorem rowsRegion_iff (hwide : rect.x0 ≤ rect.x1) (hright : rect.x1 ≤ width) :
    rowsRegion width rect rows i = true ↔
      i / (width * 4) ∈ rows ∧ rect.x0 * 4 ≤ i % (width * 4) ∧ i % (width * 4) < rect.x1 * 4 := by
  rw [rowsRegion, List.any_eq_true]
  constructor
  · rintro ⟨y, hy, hi⟩
    obtain ⟨rfl, hcolumn⟩ := (within_row hwide hright).mp hi
    exact ⟨hy, hcolumn⟩
  · rintro ⟨hrow, hcolumn⟩
    exact ⟨_, hrow, (within_row hwide hright).mpr ⟨rfl, hcolumn⟩⟩

/-- A row that has not been reached is counted and copied. -/
theorem scanRow_ok {avx2 : Bool} (hcur : cur.length = width * height * 4)
    (hold : old.length = cur.length) (hwide : rect.x0 ≤ rect.x1) (hright : rect.x1 ≤ width)
    (hy : y < height) (hmerged : Merged cur old scan.prevFrame region)
    (hnew : ∀ i < cur.length, within (rect.rowStart width y) rect.rowBytes i = true →
      region i = false) :
    ∃ prevFrame, scanRow avx2 cur width rect scan y = .ok {
        diff := scan.diff + differencesIn cur old (within (rect.rowStart width y) rect.rowBytes)
        total := scan.total + rect.rowBytes
        prevFrame := prevFrame } ∧
      Merged cur old prevFrame fun i =>
        region i || within (rect.rowStart width y) rect.rowBytes i := by
  have hstop : (y * width + rect.x1) * 4 = rect.rowStart width y + rect.rowBytes := by
    rw [TileRect.rowStart, TileRect.rowBytes]
    omega
  have hrows : (y + 1) * width ≤ height * width := Nat.mul_le_mul_right width hy
  rw [Nat.succ_mul, Nat.mul_comm height] at hrows
  have hroom : rect.rowStart width y + rect.rowBytes ≤ cur.length := by
    rw [← hstop, hcur]
    omega
  have hprev := hmerged.length
  have hnow : ((cur.drop (rect.rowStart width y)).take rect.rowBytes).length =
      rect.rowBytes := by
    rw [List.length_take, List.length_drop]
    omega
  have hbefore : ((old.drop (rect.rowStart width y)).take rect.rowBytes).length =
      rect.rowBytes := by
    rw [List.length_take, List.length_drop]
    omega
  have hpart := hmerged.part_eq fun i hge hlt =>
    hnew i (hlt.trans_le hroom) (decide_eq_true ⟨hge, hlt⟩)
  refine ⟨_, ?_, hmerged.copy hroom⟩
  unfold scanRow
  dsimp only
  rw [hstop, Checked.bind_ok (Checked.slice_ok (by omega) hroom), Nat.add_sub_cancel_left,
    Checked.bind_ok (Checked.slice_ok (by omega) (by omega)), Nat.add_sub_cancel_left, hpart,
    diffCountFastAndUpdate_scans avx2 _ _ (hnow.trans hbefore.symm)]
  dsimp only
  rw [Checked.bind_ok (Checked.write_ok (by omega) (by omega)), hnow,
    differencesIn_within hold.symm hroom]
  rfl

theorem scanRows_ok {avx2 : Bool} (hcur : cur.length = width * height * 4)
    (hold : old.length = cur.length) (hwide : rect.x0 ≤ rect.x1) (hright : rect.x1 ≤ width)
    (hrows : ∀ y ∈ rows, y < height) (hnodup : rows.Nodup)
    (hmerged : Merged cur old scan.prevFrame region)
    (hnew : ∀ i < cur.length, rowsRegion width rect rows i = true → region i = false) :
    ∃ prevFrame, rows.foldlM (scanRow avx2 cur width rect) scan = .ok {
        diff := scan.diff + differencesIn cur old (rowsRegion width rect rows)
        total := scan.total + rows.length * rect.rowBytes
        prevFrame := prevFrame } ∧
      Merged cur old prevFrame fun i => region i || rowsRegion width rect rows i := by
  induction rows generalizing scan region with
  | nil =>
      refine ⟨scan.prevFrame, ?_, ?_⟩
      · have hnone := differencesIn_none cur old
        rw [List.length_nil, Nat.zero_mul, Nat.add_zero]
        unfold rowsRegion
        simp only [List.any_nil, hnone, Nat.add_zero]
        rfl
      · exact hmerged.congr (fun i _ => (Bool.or_false _).symm) hold
  | cons y rows ih =>
      obtain ⟨hfresh, hnodup⟩ := List.nodup_cons.mp hnodup
      obtain ⟨first, hfirst, hmergedFirst⟩ := @scanRow_ok width height y rect cur old region
        scan avx2 hcur hold hwide hright (hrows y List.mem_cons_self) hmerged
        fun i hlt hi => hnew i hlt (by rw [rowsRegion_cons, hi, Bool.true_or])
      have hapart : ∀ i, ¬ (within (rect.rowStart width y) rect.rowBytes i = true ∧
          rowsRegion width rect rows i = true) := by
        rintro i ⟨hrow, hlater⟩
        obtain ⟨rfl, -⟩ := (within_row hwide hright).mp hrow
        exact hfresh ((rowsRegion_iff hwide hright).mp hlater).1
      obtain ⟨prevFrame, hrest, hmergedRest⟩ := @ih _ ⟨scan.diff +
          differencesIn cur old (within (rect.rowStart width y) rect.rowBytes),
          scan.total + rect.rowBytes, first⟩
        (fun other hother => hrows other (List.mem_cons_of_mem _ hother)) hnodup hmergedFirst
        (fun i hlt hi => by
          have hbefore := hnew i hlt (by rw [rowsRegion_cons, hi, Bool.or_true])
          rw [hbefore, Bool.false_or, Bool.eq_false_iff]
          exact fun hrow => hapart i ⟨hrow, hi⟩)
      refine ⟨prevFrame, ?_, ?_⟩
      · have hcounted : differencesIn cur old (rowsRegion width rect (y :: rows)) =
            differencesIn cur old (within (rect.rowStart width y) rect.rowBytes) +
              differencesIn cur old (rowsRegion width rect rows) := differencesIn_or hapart
        rw [List.foldlM_cons, Checked.bind_ok hfirst, hrest, hcounted, List.length_cons,
          Nat.succ_mul, Nat.add_comm (rows.length * rect.rowBytes), ← Nat.add_assoc,
          ← Nat.add_assoc]
      · exact hmergedRest.congr (fun i _ => by rw [rowsRegion_cons, Bool.or_assoc]) hold

end Rows

section Tile

variable {width height tx ty i idx : Nat}

/-- The bytes of a frame that lie in a tile are those of its rows. -/
theorem rowsRegion_tile (htx : tx < tilesInDim width) (hi : i < width * height * 4) :
    rowsRegion width (tileRect width height tx ty) (tileRect width height tx ty).rows i =
      (tileOfByte width i == tx + ty * tilesInDim width) := by
  have hleft := Evrtck.lt_tilesInDim.mp htx
  have hpixel : i / 4 < width * height := by omega
  have hpos := Nat.pos_of_mul_pos_right (Nat.zero_lt_of_lt hpixel)
  have hcolumn : i / 4 % width < width := Nat.mod_lt _ hpos
  have hrow : i / 4 / width < height := Nat.div_lt_of_lt_mul hpixel
  have hrowOf : i / (width * 4) = i / 4 / width := by
    rw [Nat.mul_comm width, Nat.div_div_eq_div_mul]
  have hcolumnOf : i % (width * 4) = i / 4 % width * 4 + i % 4 := by
    rw [Nat.mul_comm width, Nat.mod_mul]
    omega
  have htile := Evrtck.div_tile_lt hcolumn
  apply Bool.eq_iff_iff.mpr
  rw [rowsRegion_iff (by simp only [tileRect]; omega) (by simp only [tileRect]; omega), hrowOf,
    hcolumnOf, beq_iff_eq, tileOfByte, tileOfPixel, TileRect.rows, List.mem_range'_1,
    Nat.add_comm tx, place_eq_iff htile htx]
  simp only [tileRect, Evrtck.tileSize]
  constructor
  · intro hinside
    omega
  · intro hinside
    omega

/-- The bytes of a tile. -/
def tileBytes (width height idx : Nat) : Nat :=
  let rect := tileRect width height (idx % tilesInDim width) (idx / tilesInDim width)
  rect.rows.length * rect.rowBytes

theorem tile_column (h : idx < tilesInDim width * tilesInDim height) :
    idx % tilesInDim width < tilesInDim width ∧ idx / tilesInDim width < tilesInDim height ∧
      idx % tilesInDim width + idx / tilesInDim width * tilesInDim width = idx := by
  have hpos := Nat.pos_of_mul_pos_right (Nat.zero_lt_of_lt h)
  exact ⟨Nat.mod_lt _ hpos, Nat.div_lt_of_lt_mul h, Nat.mod_add_div' _ _⟩

theorem tileBytes_bounds (h : idx < tilesInDim width * tilesInDim height) :
    0 < tileBytes width height idx ∧ tileBytes width height idx < 2 ^ 24 := by
  obtain ⟨htx, hty, -⟩ := tile_column h
  have hleft := Evrtck.lt_tilesInDim.mp htx
  have htop := Evrtck.lt_tilesInDim.mp hty
  simp only [tileBytes, tileRect, TileRect.rows, TileRect.rowBytes, List.length_range']
  simp only [Evrtck.tileSize] at *
  constructor
  · apply Nat.mul_pos <;> omega
  · calc _ ≤ 32 * 128 := Nat.mul_le_mul (by omega) (by omega)
      _ < 2 ^ 24 := by decide

end Tile

/-- Some part of a tile differs exactly if it counts as motion. -/
theorem motionRatio_pos_iff {diff total : Nat} (htotal : 0 < total) (hsmall : total < 2 ^ 24) :
    0 < motionRatio diff total ↔ 0 < diff := by
  have hexact : asF32 total = total := if_pos hsmall
  rw [motionRatio, if_neg htotal.ne', hexact]
  constructor
  · intro hmotion
    apply Nat.pos_of_ne_zero
    rintro rfl
    have hzero : asF32 0 = 0 := rfl
    rw [hzero, Nat.cast_zero, zero_div, roundBinary32_zero] at hmotion
    exact absurd hmotion (lt_irrefl 0)
  · intro hdiff
    apply roundBinary32_pos
    have hone : (1 : ℚ) ≤ asF32 diff := by exact_mod_cast asF32_pos hdiff
    have hlarge : (total : ℚ) ≤ 2 ^ 24 := by exact_mod_cast hsmall.le
    have hpos : (0 : ℚ) < total := by exact_mod_cast htotal
    calc (2 : ℚ) ^ (-149 : ℤ) ≤ 1 / 2 ^ 24 := by norm_num
      _ ≤ 1 / total := one_div_le_one_div_of_le hpos hlarge
      _ ≤ asF32 diff / total := (div_le_div_iff_of_pos_right hpos).mpr hone

section Visiting

variable {s : AttentionMapBuilder} {cur old : List UInt8} {idx : Nat}

/-- The lengths are those of the grid and of a frame. -/
structure Shaped (s : AttentionMapBuilder) : Prop where
  tilesX : s.tilesX = tilesInDim s.width
  tilesY : s.tilesY = tilesInDim s.height
  streaks : s.staticStreak.length = s.tileCount
  frame : s.prevFrame.length = s.width * s.height * 4

/-- A tile that has not been visited. -/
theorem tileScanAndUpdate_ok (avx2 : Bool) (hidx : idx < tilesInDim s.width * tilesInDim s.height)
    (hcur : cur.length = s.width * s.height * 4) (hold : old.length = cur.length)
    (hmerged : Merged cur old s.prevFrame fun i => decide (tileOfByte s.width i < idx)) :
    ∃ prevFrame, s.tileScanAndUpdate avx2 cur (idx % tilesInDim s.width)
        (idx / tilesInDim s.width) = .ok {
          diff := tileDifferences s.width cur old idx
          total := tileBytes s.width s.height idx
          prevFrame := prevFrame } ∧
      Merged cur old prevFrame fun i => decide (tileOfByte s.width i < idx + 1) := by
  obtain ⟨htx, hty, htile⟩ := tile_column hidx
  have hleft := Evrtck.lt_tilesInDim.mp htx
  have hregion : ∀ i < cur.length, rowsRegion s.width
      (tileRect s.width s.height (idx % tilesInDim s.width) (idx / tilesInDim s.width))
      (tileRect s.width s.height (idx % tilesInDim s.width) (idx / tilesInDim s.width)).rows i =
        (tileOfByte s.width i == idx) := by
    intro i hi
    rw [rowsRegion_tile htx (hcur ▸ hi), htile]
  obtain ⟨prevFrame, hscan, hafter⟩ := @scanRows_ok s.width s.height
    (tileRect s.width s.height (idx % tilesInDim s.width) (idx / tilesInDim s.width))
    (tileRect s.width s.height (idx % tilesInDim s.width) (idx / tilesInDim s.width)).rows
    cur old _ ⟨0, 0, s.prevFrame⟩ avx2 hcur hold (by simp only [tileRect]; omega)
    (by simp only [tileRect]; omega)
    (fun y hy => by
      rw [TileRect.rows, List.mem_range'_1] at hy
      simp only [tileRect] at hy
      omega)
    List.nodup_range' hmerged
    (fun i hi hinside => by
      rw [hregion i hi, beq_iff_eq] at hinside
      exact decide_eq_false (by omega))
  refine ⟨prevFrame, ?_, hafter.congr (fun i hi => ?_) hold⟩
  · unfold tileScanAndUpdate
    dsimp only
    rw [hscan, differencesIn_congr hregion, Nat.zero_add, Nat.zero_add]
    rfl
  · apply Bool.eq_iff_iff.mpr
    rw [hregion i hi, Bool.or_eq_true, decide_eq_true_iff, decide_eq_true_iff, beq_iff_eq]
    omega

/-! What a frame comes to, tile by tile. -/

variable (s : AttentionMapBuilder) (bgra : List UInt8) (focusTile : Option (Nat × Nat))
  (mode : Mode)

/-- The tile is not what it was in the frame before. -/
def changed (idx : Nat) : Bool :=
  s.havePrev && decide (0 < tileDifferences s.width bgra s.prevFrame idx)

def streakAfter (idx : Nat) : Nat :=
  if s.changed bgra idx then 0 else min (s.staticStreak.getD idx 0 + 1) (2 ^ 32 - 1)

def motionOf (idx : Nat) : ℚ :=
  if s.havePrev then
    motionRatio (tileDifferences s.width bgra s.prevFrame idx) (tileBytes s.width s.height idx)
  else 0

def surpriseOf (idx : Nat) : ℚ :=
  if s.changed bgra idx ∧ s.staticStreak.getD idx 0 ≥ surpriseStaticStreakFrames then 1 else 0

def priorityOf (idx : Nat) : ℚ :=
  attentionOf (.forMode mode) (s.motionOf bgra idx)
    ((focusTile.map (targetProximity (idx % s.tilesX) (idx / s.tilesX))).getD 0)
    (s.surpriseOf bgra idx)

/-- The state and the map, so many tiles having been visited. -/
structure Visited (k : Nat) (state : AttentionMapBuilder × List ℚ) : Prop where
  builder : state.1 = { s with
    staticStreak := filled s.tileCount (s.streakAfter bgra) (s.staticStreak.getD · 0) k
    prevFrame := state.1.prevFrame }
  map : state.2 = filled s.tileCount (s.priorityOf bgra focusTile mode) (fun _ => 0) k
  scanned : s.havePrev = true →
    Merged bgra s.prevFrame state.1.prevFrame fun i => decide (tileOfByte s.width i < k)
  seeded : s.havePrev = false → state.1.prevFrame = s.prevFrame

variable {s bgra focusTile mode} {k : Nat} {state : AttentionMapBuilder × List ℚ}

theorem motionOf_pos_iff (h : idx < tilesInDim s.width * tilesInDim s.height) :
    0 < s.motionOf bgra idx ↔ s.changed bgra idx = true := by
  obtain ⟨hpos, hsmall⟩ := tileBytes_bounds h
  rw [motionOf, changed]
  cases s.havePrev with
  | false =>
      rw [if_neg Bool.false_ne_true, Bool.false_and]
      exact ⟨fun hzero => absurd hzero (lt_irrefl 0), fun hfalse => nomatch hfalse⟩
  | true =>
      rw [if_pos rfl, Bool.true_and, decide_eq_true_iff]
      exact motionRatio_pos_iff hpos hsmall

/-- The tiles are visited in the order of their numbers. -/
theorem tiles_eq (s : AttentionMapBuilder) :
    s.tiles = (List.range s.tileCount).map fun idx => (idx % s.tilesX, idx / s.tilesX) := by
  rw [tiles, tileCount, Nat.mul_comm]
  induction s.tilesY with
  | zero => rw [Nat.zero_mul]; rfl
  | succ rows ih =>
      rw [List.range_succ, List.flatMap_append, ih, Nat.succ_mul, List.range_add,
        List.map_append, List.flatMap_singleton, List.map_map]
      congr 1
      apply List.map_congr_left
      intro tx htx
      have hlt := List.mem_range.mp htx
      rw [Function.comp, place_mod hlt, place_div hlt]

variable (avx2 : Bool) (hs : s.Shaped) (hbgra : bgra.length = s.width * s.height * 4)

include hs hbgra

theorem visited_none :
    s.Visited bgra focusTile mode 0 (s, List.replicate s.tileCount 0) where
  builder := by
    have hstreaks : (List.range s.tileCount).map (s.staticStreak.getD · 0) = s.staticStreak := by
      apply List.ext_getElem
      · rw [List.length_map, List.length_range, hs.streaks]
      · intro i _ hi
        rw [List.getElem_map, List.getElem_range, List.getD_eq_getElem _ _ hi]
    rw [filled_zero, hstreaks]
  map := by
    rw [filled_zero, List.map_const', List.length_range]
  scanned _ :=
    (Merged.none (hs.frame.trans hbgra.symm)).congr
      (fun i _ => (decide_eq_false (Nat.not_lt_zero _)).symm) (hs.frame.trans hbgra.symm)
  seeded _ := rfl

/-- The next tile is compared with the frame before. -/
theorem Visited.scan (h : s.Visited bgra focusTile mode k state) (hk : k < s.tileCount)
    (hprev : s.havePrev = true) :
    ∃ prevFrame, state.1.tileScanAndUpdate avx2 bgra (k % s.tilesX) (k / s.tilesX) = .ok {
        diff := tileDifferences s.width bgra s.prevFrame k
        total := tileBytes s.width s.height k
        prevFrame := prevFrame } ∧
      Merged bgra s.prevFrame prevFrame fun i => decide (tileOfByte s.width i < k + 1) := by
  have hwidth : state.1.width = s.width := by rw [h.builder]
  have hheight : state.1.height = s.height := by rw [h.builder]
  rw [tileCount, hs.tilesX, hs.tilesY] at hk
  have hscan := @tileScanAndUpdate_ok state.1 bgra s.prevFrame k avx2
  rw [hwidth, hheight] at hscan
  rw [hs.tilesX]
  exact hscan hk hbgra (hs.frame.trans hbgra.symm) (h.scanned hprev)

/-- The tile is compared if there is a frame before. -/
theorem motionAndUpdate_ok (hk : k < s.tileCount)
    (h : s.Visited bgra focusTile mode k state) :
    ∃ prevFrame, state.1.motionAndUpdate avx2 bgra (k % s.tilesX) (k / s.tilesX) =
        .ok (s.motionOf bgra k, { state.1 with prevFrame := prevFrame }) ∧
      (s.havePrev = true →
        Merged bgra s.prevFrame prevFrame fun i => decide (tileOfByte s.width i < k + 1)) ∧
      (s.havePrev = false → prevFrame = s.prevFrame) := by
  have hlast : state.1.havePrev = s.havePrev := by rw [h.builder]
  rw [motionAndUpdate, hlast, motionOf]
  cases hprev : s.havePrev with
  | false =>
      refine ⟨state.1.prevFrame, ?_, ?_, fun _ => h.seeded hprev⟩
      swap
      · intro hfalse
        cases hfalse
      rw [if_neg Bool.false_ne_true, if_neg Bool.false_ne_true]
      rfl
  | true =>
      obtain ⟨prevFrame, hscan, hmerged⟩ := h.scan avx2 hs hbgra hk hprev
      refine ⟨prevFrame, ?_, fun _ => hmerged, ?_⟩
      swap
      · intro hfalse
        cases hfalse
      rw [if_pos rfl, if_pos rfl, tileMotionRatioAndUpdate, Checked.bind_ok hscan]
      rfl

/-- One more tile. -/
theorem visitTile_ok (hk : k < s.tileCount) (h : s.Visited bgra focusTile mode k state) :
    ∃ next, visitTile avx2 bgra focusTile mode state (k % s.tilesX, k / s.tilesX) = .ok next ∧
      s.Visited bgra focusTile mode (k + 1) next := by
  have hcount : k < tilesInDim s.width * tilesInDim s.height := by
    rw [← hs.tilesX, ← hs.tilesY]
    exact hk
  obtain ⟨prevFrame, hmotion, hscanned, hseeded⟩ := motionAndUpdate_ok avx2 hs hbgra hk h
  have htile : k % s.tilesX + k / s.tilesX * state.1.tilesX = k := by
    rw [h.builder]
    exact Nat.mod_add_div' k s.tilesX
  have hstreak : Checked.index state.1.staticStreak k = .ok (s.staticStreak.getD k 0) := by
    rw [h.builder]
    exact filled_index hk
  have hstreaks : Checked.replace state.1.staticStreak k (s.streakAfter bgra k) =
      .ok (filled s.tileCount (s.streakAfter bgra) (s.staticStreak.getD · 0) (k + 1)) := by
    rw [h.builder]
    exact filled_replace hk
  have hmap : Checked.replace state.2 k (s.priorityOf bgra focusTile mode k) =
      .ok (filled s.tileCount (s.priorityOf bgra focusTile mode) (fun _ => 0) (k + 1)) := by
    rw [h.map]
    exact filled_replace hk
  have hdirty : decide (s.motionOf bgra k > 0) = s.changed bgra k := by
    rw [Bool.eq_iff_iff, decide_eq_true_iff]
    exact motionOf_pos_iff hcount
  obtain ⟨t, map⟩ := state
  have hbuilder := h.builder
  dsimp only at hmotion htile hstreak hstreaks hmap hbuilder
  refine ⟨({ t with
      staticStreak := filled s.tileCount (s.streakAfter bgra) (s.staticStreak.getD · 0) (k + 1)
      prevFrame := prevFrame },
    filled s.tileCount (s.priorityOf bgra focusTile mode) (fun _ => 0) (k + 1)), ?_, ?_⟩
  · unfold visitTile
    dsimp only
    rw [Checked.bind_ok hmotion]
    dsimp only
    rw [htile, hdirty, Checked.bind_ok hstreak]
    have hsurprise : (if t.havePrev = true ∧ s.changed bgra k = true ∧
          s.staticStreak.getD k 0 ≥ surpriseStaticStreakFrames then (1 : ℚ) else 0) =
        s.surpriseOf bgra k := by
      rw [hbuilder, surpriseOf]
      apply if_congr _ rfl rfl
      constructor
      · exact And.right
      · intro hsurprising
        exact ⟨(Bool.and_eq_true_iff.mp hsurprising.1).1, hsurprising⟩
    rw [hsurprise]
    refine (Checked.bind_ok hstreaks).trans ?_
    refine (Checked.bind_ok hmap).trans ?_
    rfl
  · constructor
    · rw [hbuilder]
    · rfl
    · exact hscanned
    · exact hseeded

theorem visitTiles_ok (hk : k ≤ s.tileCount) :
    ∃ state, (s.tiles.take k).foldlM (visitTile avx2 bgra focusTile mode)
        (s, List.replicate s.tileCount 0) = .ok state ∧
      s.Visited bgra focusTile mode k state := by
  induction k with
  | zero => exact ⟨_, rfl, visited_none hs hbgra⟩
  | succ k ih =>
      obtain ⟨state, hstate, hvisited⟩ := ih (by omega)
      obtain ⟨next, hnext, hafter⟩ := visitTile_ok avx2 hs hbgra hk hvisited
      refine ⟨next, ?_, hafter⟩
      have htile : s.tiles[k]? = some (k % s.tilesX, k / s.tilesX) := by
        rw [tiles_eq, List.getElem?_map, List.getElem?_range hk]
        rfl
      rw [List.take_add_one, htile, Option.toList_some, List.foldlM_append,
        Checked.bind_ok hstate, List.foldlM_cons, Checked.bind_ok hnext]
      rfl

/-- What the scan and the copy come to. -/
def computeNaive (s : AttentionMapBuilder) (bgra : List UInt8)
    (focusTile : Option (Nat × Nat)) (mode : Mode) : AttentionMapBuilder × List ℚ :=
  ({ s with
      staticStreak := (List.range s.tileCount).map (s.streakAfter bgra)
      prevFrame := bgra
      havePrev := true },
    (List.range s.tileCount).map (s.priorityOf bgra focusTile mode))

theorem compute_eq_naive :
    s.compute avx2 bgra focusTile mode = .ok (s.computeNaive bgra focusTile mode) := by
  obtain ⟨⟨t, map⟩, hstate, hvisited⟩ :=
    @visitTiles_ok s bgra focusTile mode s.tileCount avx2 hs hbgra (Nat.le_refl _)
  have hlength : s.tiles.length = s.tileCount := by
    rw [tiles_eq, List.length_map, List.length_range]
  rw [← hlength, List.take_length, hlength] at hstate
  have hbuilder := hvisited.builder
  have hmap := hvisited.map
  dsimp only at hbuilder hmap
  rw [filled_all] at hbuilder hmap
  rw [compute, if_neg (not_not_intro hbgra), Checked.bind_ok hstate, computeNaive, hmap]
  have hlast : t.havePrev = s.havePrev := by rw [hbuilder]
  dsimp only
  cases hprev : s.havePrev with
  | false =>
      rw [hlast, hprev, if_neg Bool.false_ne_true, hbuilder]
      rfl
  | true =>
      have hframe : t.prevFrame = bgra := by
        apply (hvisited.scanned hprev).eq_of_all
        intro i hi
        have hpixel : i / 4 < s.width * s.height := by omega
        have hpos := Nat.pos_of_mul_pos_right (Nat.zero_lt_of_lt hpixel)
        apply decide_eq_true
        rw [tileOfByte, tileOfPixel, tileCount, hs.tilesX, hs.tilesY,
          Nat.mul_comm (tilesInDim s.width)]
        exact place_lt (Evrtck.div_tile_lt (Nat.div_lt_of_lt_mul hpixel))
          (Evrtck.div_tile_lt (Nat.mod_lt _ hpos))
      rw [hlast, hprev, if_pos rfl, hbuilder, hframe, ← hprev]
      rfl

end Visiting

/-! Sequences of frames. -/

structure Call where
  bgra : List UInt8
  focusTile : Option (Nat × Nat)
  mode : Mode

def feed (avx2 : Bool) (s : AttentionMapBuilder) (calls : List Call) :
    Checked AttentionMapBuilder :=
  calls.foldlM (fun s call => do
    let (s, _) ← s.compute avx2 call.bgra call.focusTile call.mode
    return s) s

/-- Each frame with the one before it. -/
def withLast (last : Option (List UInt8)) :
    List (List UInt8) → List (Option (List UInt8) × List UInt8)
  | [] => []
  | frame :: frames => (last, frame) :: withLast (some frame) frames

theorem withLast_append_singleton (last : Option (List UInt8)) (frames : List (List UInt8))
    (frame : List UInt8) :
    withLast last (frames ++ [frame]) =
      withLast last frames ++ [(frames.getLast?.or last, frame)] := by
  induction frames generalizing last with
  | nil => rfl
  | cons first frames ih =>
      rw [List.cons_append, withLast, ih, withLast, List.cons_append, List.getLast?_cons]
      cases frames.getLast? with
      | none => rfl
      | some _ => rfl

/-- No byte of the tile differs, or there is nothing to compare it with. -/
def unchanged (width idx : Nat) : Option (List UInt8) × List UInt8 → Bool
  | (none, _) => true
  | (some old, cur) => tileDifferences width cur old idx == 0

/-- How often in a row the tile has not changed. -/
def staticCalls (width idx : Nat) (frames : List (List UInt8)) : Nat :=
  streak (unchanged width idx) (withLast none frames)

/-- What the state is after some frames. -/
structure Follows (width height : Nat) (frames : List (List UInt8)) (s : AttentionMapBuilder) :
    Prop where
  width : s.width = width
  height : s.height = height
  shaped : s.Shaped
  havePrev : s.havePrev = frames.getLast?.isSome
  prevFrame : ∀ frame, frames.getLast? = some frame → s.prevFrame = frame
  streaks : s.staticStreak =
    (List.range s.tileCount).map fun idx => min (staticCalls s.width idx frames) (2 ^ 32 - 1)

theorem new_follows {width height : Nat} {s : AttentionMapBuilder}
    (h : new width height = .ok s) : Follows width height [] s := by
  unfold new at h
  obtain ⟨tileCount, htiles, h⟩ := Checked.returns_of_bind h
  obtain ⟨_, -, h⟩ := Checked.returns_of_bind h
  obtain ⟨pixels, hpixels, h⟩ := Checked.returns_of_bind h
  obtain ⟨size, hsize, h⟩ := Checked.returns_of_bind h
  obtain ⟨_, -, h⟩ := Checked.returns_of_bind h
  have hcount := Checked.mul_returns htiles
  have hbytes := Checked.mul_returns hsize
  rw [Checked.mul_returns hpixels] at hbytes
  cases h
  constructor
  · rfl
  · rfl
  · constructor
    · rfl
    · rfl
    · exact List.length_replicate.trans hcount
    · exact List.length_replicate.trans hbytes
  · rfl
  · intro frame hframe
    cases hframe
  · have hnone : (List.range tileCount).map (fun _ => 0) = List.replicate tileCount 0 := by
      rw [List.map_const', List.length_range]
    rw [hcount] at hnone
    dsimp only [AttentionMapBuilder.tileCount]
    rw [hcount]
    exact hnone.symm

section Following

variable {width height : Nat} {frames : List (List UInt8)} {s : AttentionMapBuilder}
  {bgra : List UInt8}

theorem Follows.streakAfter (h : Follows width height frames s) {idx : Nat}
    (hidx : idx < s.tileCount) :
    s.streakAfter bgra idx = min (staticCalls s.width idx (frames ++ [bgra])) (2 ^ 32 - 1) := by
  have hstreak : s.staticStreak.getD idx 0 = min (staticCalls s.width idx frames) (2 ^ 32 - 1) := by
    rw [h.streaks, List.getD_eq_getElem?_getD, List.getElem?_map, List.getElem?_range hidx]
    rfl
  have hchanged : unchanged s.width idx (frames.getLast?, bgra) = !s.changed bgra idx := by
    rw [changed, h.havePrev]
    cases hlast : frames.getLast? with
    | none => rfl
    | some old =>
        rw [h.prevFrame old hlast, unchanged, Option.isSome_some, Bool.true_and]
        apply Bool.eq_iff_iff.mpr
        rw [beq_iff_eq, Bool.not_eq_true', decide_eq_false_iff_not]
        omega
  rw [AttentionMapBuilder.streakAfter, staticCalls, withLast_append_singleton, Option.or_none,
    streak_append_singleton, hchanged, hstreak, staticCalls]
  cases s.changed bgra idx with
  | false =>
      rw [if_neg Bool.false_ne_true, Bool.not_false, if_pos rfl]
      omega
  | true => rfl

theorem Follows.compute (h : Follows width height frames s)
    (hbgra : bgra.length = width * height * 4) (focusTile : Option (Nat × Nat)) (mode : Mode) :
    Follows width height (frames ++ [bgra]) (s.computeNaive bgra focusTile mode).1 where
  width := h.width
  height := h.height
  shaped := {
    tilesX := h.shaped.tilesX
    tilesY := h.shaped.tilesY
    streaks := by
      rw [computeNaive, List.length_map, List.length_range]
      rfl
    frame := by
      rw [computeNaive, h.width, h.height]
      exact hbgra }
  havePrev := by
    rw [List.getLast?_concat]
    rfl
  prevFrame frame hframe := by
    rw [List.getLast?_concat, Option.some_inj] at hframe
    exact hframe
  streaks := List.map_congr_left fun _ hidx => h.streakAfter (List.mem_range.mp hidx)

/-- The code follows the frames that it is given. -/
theorem feed_follows (avx2 : Bool) {start : AttentionMapBuilder}
    (hnew : new width height = .ok start) (calls : List Call)
    (hsizes : ∀ call ∈ calls, call.bgra.length = width * height * 4) :
    ∃ s, feed avx2 start calls = .ok s ∧ Follows width height (calls.map Call.bgra) s := by
  induction calls using List.reverseRecOn with
  | nil => exact ⟨start, rfl, new_follows hnew⟩
  | append_singleton calls call ih =>
      obtain ⟨s, hfeed, hfollows⟩ := ih fun other hother =>
        hsizes other (List.mem_append_left _ hother)
      have hbgra := hsizes call (List.mem_append_right _ List.mem_cons_self)
      have hcompute := @compute_eq_naive s call.bgra call.focusTile call.mode avx2
        hfollows.shaped (by rw [hfollows.width, hfollows.height]; exact hbgra)
      refine ⟨(s.computeNaive call.bgra call.focusTile call.mode).1, ?_, ?_⟩
      · rw [feed, List.foldlM_append]
        rw [feed] at hfeed
        rw [Checked.bind_ok hfeed, List.foldlM_cons, hcompute]
        rfl
      · rw [List.map_append]
        exact hfollows.compute hbgra call.focusTile call.mode

end Following

/-- The frame that is kept is the last one, each count of a tile is that of the bytes
which differ from it, and how long a tile has not changed is counted from its last change
on. -/
theorem compute_scans (avx2 : Bool) (width height : Nat) (start : AttentionMapBuilder)
    (hnew : new width height = .ok start) (calls : List Call) (call : Call)
    (hsizes : ∀ call ∈ calls, call.bgra.length = width * height * 4)
    (hsize : call.bgra.length = width * height * 4) :
    ∃ s, feed avx2 start calls = .ok s ∧
      s.tilesX = tilesInDim width ∧ s.tilesY = tilesInDim height ∧
      (∀ last, (calls.map Call.bgra).getLast? = some last → s.prevFrame = last) ∧
      (∀ idx < s.tileCount, s.staticStreak[idx]? =
        some (min (staticCalls width idx (calls.map Call.bgra)) (2 ^ 32 - 1))) ∧
      (∀ last, (calls.map Call.bgra).getLast? = some last → ∀ idx < s.tileCount,
        ∃ visiting scan,
          (s.tiles.take idx).foldlM (visitTile avx2 call.bgra call.focusTile call.mode)
            (s, List.replicate s.tileCount 0) = .ok visiting ∧
          visiting.1.tileScanAndUpdate avx2 call.bgra (idx % s.tilesX) (idx / s.tilesX) = .ok scan ∧
          scan.diff = tileDifferences width call.bgra last idx) ∧
      ∃ next map, s.compute avx2 call.bgra call.focusTile call.mode = .ok (next, map) ∧
        next.prevFrame = call.bgra := by
  obtain ⟨s, hfeed, hfollows⟩ := feed_follows avx2 hnew calls hsizes
  have hbgra : call.bgra.length = s.width * s.height * 4 := by
    rw [hfollows.width, hfollows.height]
    exact hsize
  refine ⟨s, hfeed, ?_, ?_, hfollows.prevFrame, ?_, ?_, _, _,
    compute_eq_naive avx2 hfollows.shaped hbgra, rfl⟩
  · rw [hfollows.shaped.tilesX, hfollows.width]
  · rw [hfollows.shaped.tilesY, hfollows.height]
  · intro idx hidx
    rw [hfollows.streaks, List.getElem?_map, List.getElem?_range hidx, hfollows.width]
    rfl
  · intro last hlast idx hidx
    have hprev : s.havePrev = true := by
      rw [hfollows.havePrev, hlast]
      rfl
    obtain ⟨visiting, hvisit, hvisited⟩ := @visitTiles_ok s call.bgra call.focusTile call.mode
      idx avx2 hfollows.shaped hbgra hidx.le
    obtain ⟨prevFrame, hscan, -⟩ := hvisited.scan avx2 hfollows.shaped hbgra hidx hprev
    refine ⟨visiting, _, hvisit, hscan, ?_⟩
    rw [← hfollows.prevFrame last hlast, ← hfollows.width]

/-- A row of nine pixels, a lane and a word, with a change in either. -/
def changedRow : List UInt8 := 1 :: (List.replicate 34 0 ++ [5])

theorem compute_scans_row :
    ∃ start s, new 9 1 = .ok start ∧
      feed true start [⟨List.replicate 36 0, none, .ar⟩] = .ok s ∧
      s.prevFrame = List.replicate 36 0 ∧
      ∃ scan, s.tileScanAndUpdate true changedRow 0 0 = .ok scan ∧ scan.diff = 2 := by
  obtain ⟨s, hfeed, htilesX, htilesY, hlast, -, hscans, -⟩ := compute_scans true 9 1
    ⟨9, 1, 1, 1, [0], List.replicate 36 0, false⟩ (by rfl) [⟨List.replicate 36 0, none, .ar⟩]
    ⟨changedRow, none, .ar⟩ (by decide) (by decide)
  have htiles : 0 < s.tileCount := by
    rw [tileCount, htilesX, htilesY]
    decide
  obtain ⟨visiting, scan, hvisiting, hscan, hdiff⟩ := hscans _ rfl 0 htiles
  obtain rfl := Except.ok.inj hvisiting
  refine ⟨_, s, by rfl, hfeed, hlast _ rfl, scan, ?_, hdiff.trans (by decide +kernel)⟩
  rw [Nat.zero_mod, Nat.zero_div] at hscan
  exact hscan

end AttentionMapBuilder

end EvertyDesk.Evrt2
