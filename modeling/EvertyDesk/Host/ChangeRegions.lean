import EvertyDesk.Evrt.Roi
import EvertyDesk.Host.StaticSkip
import EvertyDesk.Lib.Digests
import EvertyDesk.Lib.Writes

/-!
Which part of a picture the change detector reports, and what it can tell. Only sampled
bytes are compared, by digests of the picture and of its tiles: the digests differ if one of
those bytes does, and a change between them is not seen. In a picture so large that the
edges of its tiles wrap the rectangle may miss a tile that has changed.
-/

namespace EvertyDesk.Host

open Evrt (RoiRect)

def fullScreenRoi : RoiRect where
  frameId := 0
  x := 0
  y := 0
  w := 0
  h := 0

/-- The rows and columns of the tiles that have changed, as far as they have been visited. -/
structure DirtyBounds where
  minCol : Nat
  minRow : Nat
  maxCol : Nat
  maxRow : Nat
  any : Bool
deriving DecidableEq, Repr

namespace FrameChangeDetector

variable (d : FrameChangeDetector)

/-- The tile is not what it was. -/
def tileChanged (current : FrameFingerprint) (idx : Nat) : Bool :=
  let idx := idx % 2 ^ 32
  current.tileHashes.getD idx 0 != d.lastTileHashes.getD idx 0

def widen (current : FrameFingerprint) (bounds : DirtyBounds) (idx : Nat) : DirtyBounds :=
  let row := idx / current.tileCols
  let col := idx % current.tileCols
  if d.tileChanged current idx then
    { minCol := min bounds.minCol col
      minRow := min bounds.minRow row
      maxCol := max bounds.maxCol col
      maxRow := max bounds.maxRow row
      any := true }
  else bounds

/-- The tiles are visited row by row. -/
def dirtyBounds (current : FrameFingerprint) : DirtyBounds :=
  (List.range (current.tileRows * current.tileCols)).foldl (d.widen current)
    ⟨current.tileCols, current.tileRows, 0, 0, false⟩

def dirtyRoi (current : FrameFingerprint) : Option RoiRect :=
  if current.width ≠ d.width ∨ current.height ≠ d.height ∨
      current.tileCols ≠ d.lastTileCols ∨ current.tileRows ≠ d.lastTileRows ∨
      current.tileHashes.length ≠ d.lastTileHashes.length then
    some fullScreenRoi
  else
    let bounds := d.dirtyBounds current
    if !bounds.any then none
    else
      let x := bounds.minCol * dirtyTileSize
      let y := bounds.minRow * dirtyTileSize
      let right := min (tileEnd bounds.maxCol) current.width.toNat
      let bottom := min (tileEnd bounds.maxRow) current.height.toNat
      some {
        frameId := 0
        x := UInt32.ofNat x
        y := UInt32.ofNat y
        w := UInt32.ofNat (right - x)
        h := UInt32.ofNat (bottom - y) }

/-- The rectangle that goes with a decision. -/
def roi (width height : UInt32) (bgra : List UInt8) (periodicKey : Bool) (now : Nat) : RoiRect :=
  let current := FrameFingerprint.build width height bgra
  if d.sizeChanged width height ∨ d.lastHash = 0 ∨ periodicKey ∨ d.idleRefresh now then
    fullScreenRoi
  else if d.frameChanged current then (d.dirtyRoi current).getD fullScreenRoi
  else fullScreenRoi

end FrameChangeDetector

/-! What is sampled. -/

def fnvStep (hash : UInt64) (byte : UInt8) : UInt64 := (hash * fnvPrime) ^^^ byte.toUInt64

/-- The colours of a pixel, in the order in which they are hashed. -/
def colours (bgra : List UInt8) (base : Nat) : List UInt8 :=
  [bgra.getD (base + 2) 0, bgra.getD (base + 1) 0, bgra.getD base 0]

/-- The bytes of the whole picture that are compared. -/
def signatureSamples (bgra : List UInt8) (width height : Nat) : List UInt8 :=
  let pixels := width * height
  (samples pixels (max (pixels / 512) 1)).flatMap fun idx => colours bgra (idx * 4)

/-- The bytes of a tile that are compared. -/
def tileSamples (width : Nat) (bgra : List UInt8) (x0 y0 x1 y1 : Nat) : List UInt8 :=
  let tileW := max (x1 - x0) 1
  let tileH := max (y1 - y0) 1
  let pixels := tileW * tileH
  (samples pixels (max (pixels / tileHashTargetSamples) 1)).flatMap fun sample =>
    let base := ((y0 + sample / tileW) * width + (x0 + sample % tileW)) * 4
    if base + 2 < bgra.length then colours bgra base else []

theorem fnvStep_mixes : Mixes fnvStep where
  state s t byte hsame := by
    have hproduct : s * fnvPrime = t * fnvPrime := (UInt64.xor_left_inj _).mp hsame
    have hinverse : fnvPrime * 14886173955864302971 = 1 := by decide
    calc s = s * fnvPrime * 14886173955864302971 := by
          rw [UInt64.mul_assoc, hinverse, UInt64.mul_one]
      _ = t * fnvPrime * 14886173955864302971 := by rw [hproduct]
      _ = t := by rw [UInt64.mul_assoc, hinverse, UInt64.mul_one]
  item s byte other hsame := UInt8.toUInt64_inj.mp ((UInt64.xor_right_inj _).mp hsame)

theorem frameSignature_eq {bgra : List UInt8} {width height : Nat}
    (hfull : ¬ (bgra.length < width * height * 4 ∨ width = 0 ∨ height = 0)) :
    frameSignature bgra width height =
      (signatureSamples bgra width height).foldl fnvStep fnvOffset := by
  rw [frameSignature, if_neg hfull, signatureSamples, List.foldl_flatMap]
  rfl

theorem tileHash_eq (width : Nat) (bgra : List UInt8) (x0 y0 x1 y1 : Nat) :
    tileHash width bgra x0 y0 x1 y1 =
      (tileSamples width bgra x0 y0 x1 y1).foldl fnvStep fnvOffset := by
  rw [tileHash, tileSamples, List.foldl_flatMap]
  dsimp only
  congr 1
  funext hash sample
  split <;> rfl

attribute [ext] FrameFingerprint

/-- No edge of a tile and no number of one wraps. -/
structure FrameFingerprint.Fits (current : FrameFingerprint) : Prop where
  cols : current.tileCols * dirtyTileSize < 2 ^ 32
  rows : current.tileRows * dirtyTileSize < 2 ^ 32
  count : current.tileRows * current.tileCols ≤ 2 ^ 32

theorem tileEnd_of_fits {place : Nat} (h : (place + 1) * dirtyTileSize < 2 ^ 32) :
    tileEnd place = (place + 1) * dirtyTileSize := Nat.mod_eq_of_lt h

/-! The rectangle around the tiles that have changed. -/

namespace FrameChangeDetector

section Bounds

variable {d : FrameChangeDetector} {current : FrameFingerprint} {idx : Nat}

/-- There are bounds, and the tile lies between them. -/
structure Within (current : FrameFingerprint) (bounds : DirtyBounds) (idx : Nat) : Prop where
  any : bounds.any = true
  left : bounds.minCol ≤ idx % current.tileCols
  right : idx % current.tileCols ≤ bounds.maxCol
  top : bounds.minRow ≤ idx / current.tileCols
  bottom : idx / current.tileCols ≤ bounds.maxRow

theorem Within.widen {bounds : DirtyBounds} (h : Within current bounds idx) (other : Nat) :
    Within current (d.widen current bounds other) idx := by
  unfold FrameChangeDetector.widen
  dsimp only
  split
  · exact ⟨rfl, (Nat.min_le_left _ _).trans h.left, h.right.trans (Nat.le_max_left _ _),
      (Nat.min_le_left _ _).trans h.top, h.bottom.trans (Nat.le_max_left _ _)⟩
  · exact h

theorem widen_within (h : d.tileChanged current idx = true) (bounds : DirtyBounds) :
    Within current (d.widen current bounds idx) idx := by
  rw [FrameChangeDetector.widen, if_pos h]
  exact ⟨rfl, Nat.min_le_right _ _, Nat.le_max_right _ _, Nat.min_le_right _ _,
    Nat.le_max_right _ _⟩

/-- Every tile that has changed lies between the bounds. -/
theorem dirtyBounds_within (hidx : idx < current.tileRows * current.tileCols)
    (h : d.tileChanged current idx = true) : Within current (d.dirtyBounds current) idx := by
  rw [dirtyBounds]
  generalize current.tileRows * current.tileCols = count at hidx
  induction count with
  | zero => exact absurd hidx (Nat.not_lt_zero idx)
  | succ count ih =>
      rw [List.range_succ, List.foldl_append]
      rcases Nat.lt_succ_iff_lt_or_eq.mp hidx with hlt | rfl
      · exact (ih hlt).widen count
      · exact widen_within h _

/-- The bounds are tiles of the picture. -/
theorem dirtyBounds_lt (hidx : idx < current.tileRows * current.tileCols) :
    (d.dirtyBounds current).maxCol < current.tileCols ∧
      (d.dirtyBounds current).maxRow < current.tileRows := by
  have hcols : 0 < current.tileCols := Nat.pos_of_ne_zero fun hzero => by simp [hzero] at hidx
  have hrows : 0 < current.tileRows := Nat.pos_of_ne_zero fun hzero => by simp [hzero] at hidx
  rw [dirtyBounds]
  have hcount : ∀ idx ∈ List.range (current.tileRows * current.tileCols),
      idx / current.tileCols < current.tileRows := fun idx hidx =>
    Nat.div_lt_of_lt_mul (Nat.mul_comm current.tileRows _ ▸ List.mem_range.mp hidx)
  apply List.foldlRecOn (motive := fun bounds : DirtyBounds =>
    bounds.maxCol < current.tileCols ∧ bounds.maxRow < current.tileRows)
  · exact ⟨hcols, hrows⟩
  · rintro bounds ⟨hcol, hrow⟩ idx hidx
    unfold widen
    dsimp only
    split
    · exact ⟨max_lt hcol (Nat.mod_lt _ hcols), max_lt hrow (hcount idx hidx)⟩
    · exact ⟨hcol, hrow⟩

/-- A pixel of a tile that has changed lies in the rectangle. -/
theorem dirtyRoi_contains {px py : Nat} {roi : RoiRect} (hfits : current.Fits)
    (hpx : px < current.width.toNat) (hcol : idx % current.tileCols = px / dirtyTileSize)
    (hpy : py < current.height.toNat) (hrow : idx / current.tileCols = py / dirtyTileSize)
    (hidx : idx < current.tileRows * current.tileCols)
    (hchanged : d.tileChanged current idx = true) (h : d.dirtyRoi current = some roi) :
    roi.Contains px py := by
  unfold dirtyRoi at h
  split at h
  · cases h
    exact .inl rfl
  · obtain ⟨hany, hleft, hright, htop, hbottom⟩ := dirtyBounds_within hidx hchanged
    obtain ⟨hmaxCol, hmaxRow⟩ := dirtyBounds_lt (d := d) hidx
    have hwidth := current.width.toNat_lt
    have hheight := current.height.toNat_lt
    dsimp only at h
    rw [tileEnd_of_fits (hfits.cols.trans_le' (Nat.mul_le_mul_right _ hmaxCol)),
      tileEnd_of_fits (hfits.rows.trans_le' (Nat.mul_le_mul_right _ hmaxRow))] at h
    split at h
    · cases h
    · cases h
      rw [hcol] at hleft hright
      rw [hrow] at htop hbottom
      simp only [dirtyTileSize] at *
      refine .inr ?_
      simp only [UInt32.toNat_ofNat']
      omega

/-- Where the edge of the last column wraps, a change in this column leaves the rectangle
without columns. -/
theorem dirtyRoi_lastColumn
    (hsame : ¬ (current.width ≠ d.width ∨ current.height ≠ d.height ∨
      current.tileCols ≠ d.lastTileCols ∨ current.tileRows ≠ d.lastTileRows ∨
      current.tileHashes.length ≠ d.lastTileHashes.length))
    (hcols : current.tileCols * dirtyTileSize = 2 ^ 32)
    (hrows : current.tileRows * dirtyTileSize < 2 ^ 32)
    (hidx : idx < current.tileRows * current.tileCols)
    (hlast : idx % current.tileCols + 1 = current.tileCols)
    (hrow : idx / current.tileCols * dirtyTileSize < current.height.toNat)
    (hchanged : d.tileChanged current idx = true) :
    ∃ roi, d.dirtyRoi current = some roi ∧ roi.w = 0 ∧ roi.h ≠ 0 := by
  obtain ⟨hany, -, hright, htop, hbottom⟩ := dirtyBounds_within hidx hchanged
  obtain ⟨hmaxCol, hmaxRow⟩ := dirtyBounds_lt (d := d) hidx
  have hlastCol : (d.dirtyBounds current).maxCol + 1 = current.tileCols := by omega
  have hwraps : tileEnd (d.dirtyBounds current).maxCol = 0 := by
    rw [tileEnd, hlastCol, hcols, Nat.mod_self]
  have hheight := current.height.toNat_lt
  rw [dirtyRoi, if_neg hsame]
  dsimp only
  rw [hany, hwraps, tileEnd_of_fits (hrows.trans_le' (Nat.mul_le_mul_right _ hmaxRow))]
  refine ⟨_, rfl, ?_, ?_⟩
  · rw [Nat.zero_min, Nat.zero_sub]
    rfl
  · intro hzero
    have hnat := congrArg UInt32.toNat hzero
    simp only [UInt32.toNat_ofNat', dirtyTileSize] at hnat hrow
    change _ = 0 at hnat
    omega

end Bounds

end FrameChangeDetector

/-! Sequences of decisions and of frames that are sent. -/

structure SizedPicture where
  width : UInt32
  height : UInt32
  bgra : List UInt8
deriving DecidableEq, Repr

namespace SizedPicture

variable (picture : SizedPicture)

def fingerprint : FrameFingerprint := .build picture.width picture.height picture.bgra

/-- The picture has pixels, and all of them. -/
def Full : Prop :=
  ¬ (picture.bgra.length < picture.width.toNat * picture.height.toNat * 4 ∨
    picture.width.toNat = 0 ∨ picture.height.toNat = 0)

def signature : UInt64 := frameSignature picture.bgra picture.width.toNat picture.height.toNat

def samplesOfAll : List UInt8 :=
  signatureSamples picture.bgra picture.width.toNat picture.height.toNat

/-- The hash of the tile in which a pixel lies. -/
def hashAt (px py : Nat) : UInt64 :=
  let col := px / dirtyTileSize
  let row := py / dirtyTileSize
  tileHash picture.width.toNat picture.bgra (col * dirtyTileSize) (row * dirtyTileSize)
    (min (tileEnd col) picture.width.toNat) (min (tileEnd row) picture.height.toNat)

/-- The sampled bytes of the tile in which a pixel lies. -/
def samplesAt (px py : Nat) : List UInt8 :=
  let col := px / dirtyTileSize
  let row := py / dirtyTileSize
  tileSamples picture.width.toNat picture.bgra (col * dirtyTileSize) (row * dirtyTileSize)
    (min (tileEnd col) picture.width.toNat) (min (tileEnd row) picture.height.toNat)

end SizedPicture

inductive DetectorCall where
  | decide (picture : SizedPicture) (periodicKey : Bool) (now : Nat)
  | markSent (picture : SizedPicture) (now : Nat)

structure Watched where
  detector : FrameChangeDetector
  /-- Ghost: the picture of the last decision, if no frame was sent after it. -/
  pending : Option SizedPicture
  /-- Ghost: the picture that is on record as the one sent last. -/
  recorded : Option SizedPicture

/-- The detector under any calls. The picture on record is the one that was decided on last,
if it has the size of the one that was sent. -/
def detectorCalls : Machine Watched DetectorCall (Option (FrameDecision × RoiRect)) where
  step s
    | .decide picture periodicKey now =>
        let (detector, decision) :=
          s.detector.decide picture.width picture.height picture.bgra periodicKey now
        ({ s with
            detector := detector
            pending := some picture },
          some (decision, s.detector.roi picture.width picture.height picture.bgra periodicKey now))
    | .markSent picture now =>
        ({ detector := s.detector.markSent picture.width picture.height picture.bgra now
           pending := none
           recorded := some ((s.pending.filter fun pending =>
             pending.width = picture.width ∧ pending.height = picture.height).getD picture) },
          none)

def Watched.new : Watched where
  detector := .new
  pending := none
  recorded := none

/-- The detector knows the picture on record. -/
structure Watches (s : Watched) : Prop where
  pending : s.detector.pendingFingerprint = s.pending.map SizedPicture.fingerprint
  unrecorded : s.recorded = none → s.detector.lastHash = 0
  recorded : ∀ sent, s.recorded = some sent → s.detector.Knows sent.width sent.height sent.bgra

/-- A fingerprint has the size of its picture. -/
theorem filter_fingerprint (pending : Option SizedPicture) (width height : UInt32) :
    (pending.map SizedPicture.fingerprint).filter
        (fun fp => fp.width = width ∧ fp.height = height) =
      (pending.filter fun pending =>
        pending.width = width ∧ pending.height = height).map SizedPicture.fingerprint := by
  cases pending with
  | none => rfl
  | some pending =>
      obtain ⟨hwidth, hheight⟩ :=
        FrameChangeDetector.build_dimensions pending.width pending.height pending.bgra
      rw [Option.map_some, Option.filter_some, Option.filter_some, SizedPicture.fingerprint,
        hwidth, hheight]
      split <;> rfl

theorem markSent_knows_recorded {s : Watched} (h : Watches s) (picture : SizedPicture) (now : Nat) :
    let sent := (s.pending.filter fun pending =>
      pending.width = picture.width ∧ pending.height = picture.height).getD picture
    (s.detector.markSent picture.width picture.height picture.bgra now).Knows sent.width
      sent.height sent.bgra := by
  unfold FrameChangeDetector.markSent
  rw [h.pending, filter_fingerprint]
  cases hkept : s.pending.filter fun pending =>
      pending.width = picture.width ∧ pending.height = picture.height with
  | none => exact ⟨rfl, rfl, rfl, rfl, rfl, rfl⟩
  | some sent =>
      obtain ⟨hwidth, hheight⟩ := of_decide_eq_true (Option.filter_eq_some_iff.mp hkept).2
      exact ⟨hwidth.symm, hheight.symm, rfl, rfl, rfl, rfl⟩

theorem watches_step {s : Watched} (h : Watches s) (call : DetectorCall) :
    Watches (detectorCalls.step s call).1 := by
  cases call with
  | decide picture periodicKey now =>
      refine ⟨rfl, h.unrecorded, fun sent hsent => ?_⟩
      exact (h.recorded sent hsent).decide picture.width picture.height picture.bgra periodicKey now
  | markSent picture now =>
      refine ⟨rfl, fun hnone => (Option.some_ne_none _ hnone).elim, fun sent hsent => ?_⟩
      cases hsent
      exact markSent_knows_recorded h picture now

theorem watches_run (calls : List DetectorCall) : Watches (detectorCalls.run .new calls) := by
  have hstart : Watches .new :=
    ⟨rfl, fun _ => rfl, fun sent hsent => (Option.some_ne_none sent hsent.symm).elim⟩
  exact detectorCalls.invariant (I := Watches) (fun s call h _ => watches_step h call) hstart
    (detectorCalls.along_of_forall (fun _ _ => trivial) _ _)

section Telling

variable {s : Watched} {picture sent : SizedPicture} {periodicKey : Bool} {now px py : Nat}

theorem full_of_hash (h : picture.fingerprint.hash ≠ 0) : picture.Full := by
  intro hshort
  rw [SizedPicture.fingerprint, FrameChangeDetector.build_hash, frameSignature, if_pos hshort] at h
  exact h rfl

theorem full_iff : picture.Full ↔ ¬ (picture.width.toNat = 0 ∨ picture.height.toNat = 0 ∨
    picture.bgra.length < picture.width.toNat * picture.height.toNat * 4) := by
  rw [SizedPicture.Full]
  omega

theorem fingerprint_full (h : picture.Full) :
    picture.fingerprint = {
      width := picture.width
      height := picture.height
      hash := picture.signature
      tileCols := (picture.width.toNat + dirtyTileSize - 1) / dirtyTileSize
      tileRows := (picture.height.toNat + dirtyTileSize - 1) / dirtyTileSize
      tileHashes := picture.fingerprint.tileHashes } := by
  rw [SizedPicture.fingerprint, FrameFingerprint.build]
  dsimp only
  rw [if_neg (full_iff.mp h)]
  rfl

theorem tileHashes_full (h : picture.Full) :
    let tileCols := (picture.width.toNat + dirtyTileSize - 1) / dirtyTileSize
    let tileRows := (picture.height.toNat + dirtyTileSize - 1) / dirtyTileSize
    picture.fingerprint.tileHashes = (List.range (tileCols * tileRows)).map fun idx =>
      tileHash picture.width.toNat picture.bgra (idx % tileCols * dirtyTileSize)
        (idx / tileCols * dirtyTileSize)
        (min (tileEnd (idx % tileCols)) picture.width.toNat)
        (min (tileEnd (idx / tileCols)) picture.height.toNat) := by
  rw [SizedPicture.fingerprint, FrameFingerprint.build]
  dsimp only
  rw [if_neg (full_iff.mp h)]

/-- The number of the tile in which a pixel lies. -/
theorem tile_of_pixel (h : picture.Full) (hpx : px < picture.width.toNat)
    (hpy : py < picture.height.toNat) :
    let idx := py / dirtyTileSize * picture.fingerprint.tileCols + px / dirtyTileSize
    idx % picture.fingerprint.tileCols = px / dirtyTileSize ∧
      idx / picture.fingerprint.tileCols = py / dirtyTileSize ∧
      idx < picture.fingerprint.tileRows * picture.fingerprint.tileCols ∧
      picture.fingerprint.tileHashes.getD idx 0 = picture.hashAt px py := by
  have hcol : px / dirtyTileSize < (picture.width.toNat + dirtyTileSize - 1) / dirtyTileSize := by
    simp only [dirtyTileSize]
    omega
  have hrow : py / dirtyTileSize < (picture.height.toNat + dirtyTileSize - 1) / dirtyTileSize := by
    simp only [dirtyTileSize]
    omega
  have hplace := place_lt hrow hcol
  rw [tileHashes_full h, fingerprint_full h]
  dsimp only
  refine ⟨place_mod hcol, place_div hcol, hplace, ?_⟩
  rw [Nat.mul_comm ((picture.height.toNat + dirtyTileSize - 1) / dirtyTileSize)] at hplace
  rw [List.getD_eq_getElem?_getD, List.getElem?_map, List.getElem?_range hplace,
    Option.map_some, Option.getD_some, place_mod hcol, place_div hcol]
  rfl

/-- What is not sent has the digests of the picture on record. -/
theorem recorded_of_skip (h : Watches s)
    (hskip : (s.detector.decide picture.width picture.height picture.bgra periodicKey
      now).2.send = false) :
    ∃ sent, s.recorded = some sent ∧ sent.fingerprint = picture.fingerprint ∧ picture.Full := by
  unfold FrameChangeDetector.decide at hskip
  dsimp only at hskip
  obtain ⟨hkey, hsame⟩ := Bool.or_eq_false_iff.mp hskip
  simp only [FrameChangeDetector.frameChanged, FrameChangeDetector.sizeChanged,
    Bool.or_eq_false_iff, beq_eq_false_iff_ne, bne_eq_false_iff_eq] at hsame hkey
  obtain ⟨⟨⟨⟨hhash, hcurrent⟩, hcols⟩, hrows⟩, htiles⟩ := hsame
  obtain ⟨⟨⟨hwidth, hheight⟩, -⟩, -⟩ := hkey
  cases hsent : s.recorded with
  | none => exact absurd (h.unrecorded hsent) hhash
  | some sent =>
      have hknows := h.recorded sent hsent
      obtain ⟨hsentWidth, hsentHeight⟩ :=
        FrameChangeDetector.build_dimensions sent.width sent.height sent.bgra
      obtain ⟨hcurrentWidth, hcurrentHeight⟩ :=
        FrameChangeDetector.build_dimensions picture.width picture.height picture.bgra
      refine ⟨sent, rfl, ?_, full_of_hash (hcurrent ▸ hhash)⟩
      apply FrameFingerprint.ext
      · exact hsentWidth.trans (hknows.width_eq.symm.trans (hwidth.trans hcurrentWidth.symm))
      · exact hsentHeight.trans (hknows.height_eq.symm.trans (hheight.trans hcurrentHeight.symm))
      · exact hknows.hash.symm.trans hcurrent.symm
      · exact hknows.tileCols.symm.trans hcols.symm
      · exact hknows.tileRows.symm.trans hrows.symm
      · exact hknows.tileHashes.symm.trans htiles.symm

theorem signature_eq (h : picture.Full) :
    picture.signature = picture.samplesOfAll.foldl fnvStep fnvOffset :=
  frameSignature_eq h

theorem hashAt_eq (picture : SizedPicture) (px py : Nat) :
    picture.hashAt px py = (picture.samplesAt px py).foldl fnvStep fnvOffset :=
  tileHash_eq ..

theorem tileCols_eq_zero_iff : picture.fingerprint.tileCols = 0 ↔ ¬ picture.Full := by
  constructor
  · intro hzero hfull
    rw [fingerprint_full hfull] at hzero
    rw [SizedPicture.Full] at hfull
    simp only [dirtyTileSize] at hzero
    omega
  · intro hnot
    rw [full_iff, not_not] at hnot
    rw [SizedPicture.fingerprint, FrameFingerprint.build]
    dsimp only
    rw [if_pos hnot]

/-- A tile whose digest is another one counts as changed. -/
theorem tile_changed (h : Watches s) (hsent : s.recorded = some sent)
    (hsize : s.detector.width = picture.width ∧ s.detector.height = picture.height)
    (hsentFull : sent.Full) (hfull : picture.Full) (hpx : px < picture.width.toNat)
    (hpy : py < picture.height.toNat)
    (hcount : picture.fingerprint.tileRows * picture.fingerprint.tileCols ≤ 2 ^ 32)
    (hdiffers : sent.hashAt px py ≠ picture.hashAt px py) :
    let idx := py / dirtyTileSize * picture.fingerprint.tileCols + px / dirtyTileSize
    idx % picture.fingerprint.tileCols = px / dirtyTileSize ∧
      idx / picture.fingerprint.tileCols = py / dirtyTileSize ∧
      idx < picture.fingerprint.tileRows * picture.fingerprint.tileCols ∧
      s.detector.tileChanged picture.fingerprint idx = true := by
  have hknows := h.recorded sent hsent
  have hwidth : sent.width = picture.width := hknows.width_eq.symm.trans hsize.1
  have hheight : sent.height = picture.height := hknows.height_eq.symm.trans hsize.2
  have hcols : sent.fingerprint.tileCols = picture.fingerprint.tileCols := by
    rw [fingerprint_full hsentFull, fingerprint_full hfull, hwidth]
  obtain ⟨hcol, hrow, hidx, hnow⟩ := tile_of_pixel hfull hpx hpy
  obtain ⟨-, -, -, hbefore⟩ := tile_of_pixel hsentFull (hwidth ▸ hpx) (hheight ▸ hpy)
  rw [hcols] at hbefore
  refine ⟨hcol, hrow, hidx, ?_⟩
  rw [FrameChangeDetector.tileChanged, Nat.mod_eq_of_lt (hidx.trans_le hcount), hnow,
    hknows.tileHashes, ← SizedPicture.fingerprint, hbefore, bne_iff_ne]
  exact hdiffers.symm

/-- A pixel of a tile whose digest is another one lies in the reported rectangle. -/
theorem roi_contains (h : Watches s) (hsent : s.recorded = some sent)
    (hfits : picture.fingerprint.Fits) (hpx : px < picture.width.toNat)
    (hpy : py < picture.height.toNat)
    (hdiffers : sent.hashAt px py ≠ picture.hashAt px py) :
    (s.detector.roi picture.width picture.height picture.bgra periodicKey now).Contains px py := by
  have hknows := h.recorded sent hsent
  obtain ⟨hcurrentWidth, hcurrentHeight⟩ :=
    FrameChangeDetector.build_dimensions picture.width picture.height picture.bgra
  unfold FrameChangeDetector.roi
  dsimp only
  split
  · exact .inl rfl
  · next hkept =>
    rw [not_or, not_or] at hkept
    obtain ⟨hsize, hhash, -⟩ := hkept
    simp only [FrameChangeDetector.sizeChanged, Bool.or_eq_true, bne_iff_ne, not_or,
      not_not] at hsize
    have hsentFull : sent.Full := full_of_hash fun hzero => hhash (hknows.hash.trans hzero)
    have hroiContains : ∀ roi, s.detector.dirtyRoi picture.fingerprint = some roi →
        roi.Contains px py := by
      intro roi hroi
      by_cases hfull : picture.Full
      · obtain ⟨hcol, hrow, hidx, hchanged⟩ :=
          tile_changed h hsent hsize hsentFull hfull hpx hpy hfits.count hdiffers
        exact FrameChangeDetector.dirtyRoi_contains hfits (hcurrentWidth.symm ▸ hpx) hcol
          (hcurrentHeight.symm ▸ hpy) hrow hidx hchanged hroi
      · have hnone := tileCols_eq_zero_iff.mpr hfull
        have hsome : sent.fingerprint.tileCols ≠ 0 := fun hzero =>
          tileCols_eq_zero_iff.mp hzero hsentFull
        rw [FrameChangeDetector.dirtyRoi, if_pos (.inr (.inr (.inl fun hcols =>
          hsome (hknows.tileCols.symm.trans (hcols.symm.trans hnone)))))] at hroi
        cases hroi
        exact .inl rfl
    split
    · rw [← SizedPicture.fingerprint]
      cases hroi : s.detector.dirtyRoi picture.fingerprint with
      | none => exact .inl rfl
      | some roi => exact hroiContains roi hroi
    · exact .inl rfl

/-- In a picture of one row of tiles a change in a last column whose edge wraps is in no
rectangle. -/
theorem roi_lastColumn (h : Watches s) (hsent : s.recorded = some sent)
    (hsentFull : sent.Full) (hfull : picture.Full) (hsignature : sent.signature ≠ 0)
    (hwidth : sent.width = picture.width) (hheight : sent.height = picture.height)
    (hcols : picture.fingerprint.tileCols * dirtyTileSize = 2 ^ 32)
    (hrows : picture.fingerprint.tileRows = 1) (hidle : s.detector.idleRefresh now = false)
    (hpx : px < picture.width.toNat) (hpy : py < picture.height.toNat)
    (hlast : px / dirtyTileSize + 1 = picture.fingerprint.tileCols)
    (hdiffers : sent.hashAt px py ≠ picture.hashAt px py) :
    ¬ (s.detector.roi picture.width picture.height picture.bgra false now).Contains px py := by
  have hknows := h.recorded sent hsent
  have hsize : s.detector.width = picture.width ∧ s.detector.height = picture.height :=
    ⟨hknows.width_eq.trans hwidth, hknows.height_eq.trans hheight⟩
  have hcount : picture.fingerprint.tileRows * picture.fingerprint.tileCols ≤ 2 ^ 32 := by
    rw [hrows, ← hcols, Nat.one_mul]
    exact Nat.le_mul_of_pos_right _ (by decide)
  obtain ⟨hcol, hrow, hidx, hchanged⟩ :=
    tile_changed h hsent hsize hsentFull hfull hpx hpy hcount hdiffers
  have hsame : ¬ (picture.fingerprint.width ≠ s.detector.width ∨
      picture.fingerprint.height ≠ s.detector.height ∨
      picture.fingerprint.tileCols ≠ s.detector.lastTileCols ∨
      picture.fingerprint.tileRows ≠ s.detector.lastTileRows ∨
      picture.fingerprint.tileHashes.length ≠ s.detector.lastTileHashes.length) := by
    rw [hknows.tileCols, hknows.tileRows, hknows.tileHashes, ← SizedPicture.fingerprint,
      hsize.1, hsize.2, tileHashes_full hfull, tileHashes_full hsentFull, List.length_map,
      List.length_map, fingerprint_full hfull, fingerprint_full hsentFull, hwidth, hheight]
    simp
  have hmoved : s.detector.frameChanged picture.fingerprint = true := by
    by_contra hkept
    simp only [FrameChangeDetector.frameChanged, Bool.or_eq_true, bne_iff_ne, not_or,
      not_not] at hkept
    rw [FrameChangeDetector.tileChanged, hkept.2] at hchanged
    simp at hchanged
  have hhash : s.detector.lastHash ≠ 0 := by
    rw [hknows.hash, FrameChangeDetector.build_hash]
    exact hsignature
  have htop : py / dirtyTileSize * dirtyTileSize < picture.fingerprint.height.toNat := by
    rw [SizedPicture.fingerprint, (FrameChangeDetector.build_dimensions _ _ _).2]
    exact (Nat.div_mul_le_self _ _).trans_lt hpy
  obtain ⟨roi, hroi, hnone, hsome⟩ := FrameChangeDetector.dirtyRoi_lastColumn hsame hcols
    (by rw [hrows]; decide) hidx (hcol.symm ▸ hlast) (hrow.symm ▸ htop) hchanged
  have hpart : ¬ (s.detector.sizeChanged picture.width picture.height = true ∨
      s.detector.lastHash = 0 ∨ false = true ∨ false = true) := by
    simp [FrameChangeDetector.sizeChanged, hsize, hhash]
  have hreported : s.detector.roi picture.width picture.height picture.bgra false now = roi := by
    rw [FrameChangeDetector.roi, ← SizedPicture.fingerprint, hidle, if_neg hpart, if_pos hmoved,
      hroi, Option.getD_some]
  rw [hreported]
  rintro (hfullScreen | ⟨⟨hleft, hright⟩, -⟩)
  · simp [RoiRect.isFullScreen, hsome] at hfullScreen
  · rw [hnone] at hright
    exact absurd hright (Nat.not_lt.mpr hleft)

/-- A digest tells pictures apart that differ in one of the bytes that it is taken of. -/
theorem signature_ne (hfull : picture.Full) (hsentFull : sent.Full)
    (h : DifferInOne sent.samplesOfAll picture.samplesOfAll) :
    sent.signature ≠ picture.signature := by
  rw [signature_eq hfull, signature_eq hsentFull]
  exact fnvStep_mixes.foldl_ne h fnvOffset

theorem hashAt_ne (h : DifferInOne (sent.samplesAt px py) (picture.samplesAt px py)) :
    sent.hashAt px py ≠ picture.hashAt px py := by
  rw [hashAt_eq, hashAt_eq]
  exact fnvStep_mixes.foldl_ne h fnvOffset

/-- Pictures with one fingerprint have the same digests. -/
theorem digests_eq (h : sent.fingerprint = picture.fingerprint) (hfull : picture.Full) :
    sent.Full ∧ sent.width = picture.width ∧ sent.height = picture.height ∧
      sent.signature = picture.signature ∧
      ∀ px < picture.width.toNat, ∀ py < picture.height.toNat,
        sent.hashAt px py = picture.hashAt px py := by
  have hsentFull : sent.Full := by
    by_contra hnot
    exact tileCols_eq_zero_iff.mp (h ▸ tileCols_eq_zero_iff.mpr hnot) hfull
  obtain ⟨hsentWidth, hsentHeight⟩ :=
    FrameChangeDetector.build_dimensions sent.width sent.height sent.bgra
  obtain ⟨hpictureWidth, hpictureHeight⟩ :=
    FrameChangeDetector.build_dimensions picture.width picture.height picture.bgra
  have hwidth : sent.width = picture.width := by
    rw [← hsentWidth, ← SizedPicture.fingerprint, h]
    exact hpictureWidth
  have hheight : sent.height = picture.height := by
    rw [← hsentHeight, ← SizedPicture.fingerprint, h]
    exact hpictureHeight
  refine ⟨hsentFull, hwidth, hheight, ?_, ?_⟩
  · have hhash := congrArg FrameFingerprint.hash h
    rw [fingerprint_full hfull, fingerprint_full hsentFull] at hhash
    exact hhash
  · intro px hpx py hpy
    obtain ⟨-, -, -, hnow⟩ := tile_of_pixel hfull hpx hpy
    obtain ⟨-, -, -, hbefore⟩ := tile_of_pixel hsentFull (hwidth ▸ hpx) (hheight ▸ hpy)
    rw [← hnow, ← hbefore, h]

end Telling

/-- What is decided on and then sent is on record. -/
theorem recorded_of_sent (before : List DetectorCall) (sent : SizedPicture) (key : Bool)
    (decidedAt sentAt : Nat) :
    let calls := before ++ [.decide sent key decidedAt, .markSent sent sentAt]
    (detectorCalls.run .new calls).recorded = some sent := by
  intro calls
  have hkept : (some sent).filter (fun pending =>
      pending.width = sent.width ∧ pending.height = sent.height) = some sent := by simp
  dsimp only [calls]
  rw [Machine.run_append, Machine.run_cons, Machine.run_cons, Machine.run_nil]
  dsimp only [detectorCalls]
  rw [hkept]
  rfl

/-- A picture that is not sent has the size and the digests of the one on record, so that the
two do not differ in one of the sampled bytes only; a reported rectangle has all pixels of
the tiles with another digest, unless the edges of the tiles wrap. -/
theorem decide_tells (calls : List DetectorCall) (picture : SizedPicture) (periodicKey : Bool)
    (now : Nat) :
    let s := detectorCalls.run .new calls
    let decision := (s.detector.decide picture.width picture.height picture.bgra periodicKey now).2
    let roi := s.detector.roi picture.width picture.height picture.bgra periodicKey now
    (decision.send = false → ∃ sent, s.recorded = some sent ∧
      sent.width = picture.width ∧ sent.height = picture.height ∧
      sent.signature = picture.signature ∧
      ¬ DifferInOne sent.samplesOfAll picture.samplesOfAll ∧
      ∀ px < picture.width.toNat, ∀ py < picture.height.toNat,
        sent.hashAt px py = picture.hashAt px py ∧
        ¬ DifferInOne (sent.samplesAt px py) (picture.samplesAt px py)) ∧
    (picture.fingerprint.Fits → ∀ sent, s.recorded = some sent → ∀ px < picture.width.toNat,
      ∀ py < picture.height.toNat, sent.hashAt px py ≠ picture.hashAt px py ∨
        DifferInOne (sent.samplesAt px py) (picture.samplesAt px py) → roi.Contains px py) ∧
    ∀ before sent key decidedAt sentAt,
      calls = before ++ [.decide sent key decidedAt, .markSent sent sentAt] →
      s.recorded = some sent := by
  intro s decision roi
  have hwatches : Watches s := watches_run calls
  refine ⟨?_, ?_, ?_⟩
  · intro hskip
    obtain ⟨sent, hsent, hfingerprint, hfull⟩ := recorded_of_skip hwatches hskip
    obtain ⟨hsentFull, hwidth, hheight, hsignature, htiles⟩ := digests_eq hfingerprint hfull
    refine ⟨sent, hsent, hwidth, hheight, hsignature, ?_, ?_⟩
    · intro hdiffer
      exact signature_ne hfull hsentFull hdiffer hsignature
    · intro px hpx py hpy
      refine ⟨htiles px hpx py hpy, ?_⟩
      intro hdiffer
      exact hashAt_ne hdiffer (htiles px hpx py hpy)
  · intro hfits sent hsent px hpx py hpy hdiffers
    exact roi_contains hwatches hsent hfits hpx hpy (hdiffers.elim id hashAt_ne)
  · rintro before sent key decidedAt sentAt rfl
    exact recorded_of_sent before sent key decidedAt sentAt

/-! A change that is not seen. -/

theorem mem_samples {count step sample : Nat} (h : sample ∈ samples count step) :
    ∃ k, sample = k * step := by
  rw [samples, List.mem_map] at h
  obtain ⟨k, -, rfl⟩ := h
  exact ⟨k, rfl⟩

theorem colours_set {bgra : List UInt8} {place base : Nat} (byte : UInt8)
    (h : place < base ∨ base + 2 < place) :
    colours (bgra.set place byte) base = colours bgra base := by
  simp only [colours, List.getD_eq_getElem?_getD]
  rw [List.getElem?_set_ne (by omega), List.getElem?_set_ne (by omega),
    List.getElem?_set_ne (by omega)]

/-- In a picture of one tile the second pixel is not among the samples. -/
theorem secondPixel_unseen (bgra : List UInt8) (byte : UInt8) :
    FrameFingerprint.build 32 32 (bgra.set 4 byte) = FrameFingerprint.build 32 32 bgra := by
  have hsignature : frameSignature (bgra.set 4 byte) 32 32 = frameSignature bgra 32 32 := by
    have hsamples : signatureSamples (bgra.set 4 byte) 32 32 = signatureSamples bgra 32 32 := by
      have hstep : max (32 * 32 / 512) 1 = 2 := by decide
      rw [signatureSamples, signatureSamples, hstep]
      apply List.flatMap_congr
      intro idx hidx
      obtain ⟨k, rfl⟩ := mem_samples hidx
      exact colours_set byte (by omega)
    by_cases hfull : bgra.length < 32 * 32 * 4 ∨ 32 = 0 ∨ 32 = 0
    · rw [frameSignature, if_pos (by rwa [List.length_set]), frameSignature, if_pos hfull]
    · rw [frameSignature_eq (by rwa [List.length_set]), frameSignature_eq hfull, hsamples]
  have htile : tileHash 32 (bgra.set 4 byte) 0 0 32 32 = tileHash 32 bgra 0 0 32 32 := by
    have hsamples : tileSamples 32 (bgra.set 4 byte) 0 0 32 32 = tileSamples 32 bgra 0 0 32 32 := by
      have hside : max (32 - 0) 1 = 32 := by decide
      have hstep : max (32 * 32 / tileHashTargetSamples) 1 = 64 := by decide
      rw [tileSamples, tileSamples, hside, hstep]
      apply List.flatMap_congr
      intro sample hsample
      obtain ⟨k, rfl⟩ := mem_samples hsample
      dsimp only
      rw [List.length_set, colours_set byte (by omega)]
    rw [tileHash_eq, tileHash_eq, hsamples]
  unfold FrameFingerprint.build
  dsimp only
  rw [List.length_set]
  split
  · rw [FrameFingerprint.mk.injEq]
    exact ⟨rfl, rfl, hsignature, rfl, rfl, rfl⟩
  · rw [FrameFingerprint.mk.injEq]
    exact ⟨rfl, rfl, hsignature, rfl, rfl, congrArg (fun hash => [hash]) htile⟩

theorem foldl_fnvStep_zero {bytes : List UInt8} (h : ∀ byte ∈ bytes, byte = 0) :
    bytes.foldl fnvStep 0 = 0 := by
  induction bytes with
  | nil => rfl
  | cons byte bytes ih =>
      rw [List.forall_mem_cons] at h
      rw [List.foldl_cons, h.1]
      exact ih h.2

theorem getD_black (count place : Nat) : (List.replicate count (0 : UInt8)).getD place 0 = 0 := by
  rw [List.getD_eq_getElem?_getD, List.getElem?_replicate]
  split <;> rfl

theorem getD_set_black {count place : Nat} (byte : UInt8) (h : place < count) (other : Nat) :
    ((List.replicate count 0).set place byte).getD other 0 =
      if place = other then byte else 0 := by
  rw [List.getD_eq_getElem?_getD, List.getElem?_set, List.length_replicate, if_pos h]
  split
  · rfl
  · rw [← List.getD_eq_getElem?_getD, getD_black]

/-- The digest of a black picture is not the one that means there is no picture. -/
theorem signature_black_ne {count width height : Nat}
    (hfull : ¬ ((List.replicate count (0 : UInt8)).length < width * height * 4 ∨ width = 0 ∨
      height = 0)) : frameSignature (List.replicate count 0) width height ≠ 0 := by
  have hblack : ∀ byte ∈ signatureSamples (List.replicate count 0) width height, byte = 0 := by
    intro byte hbyte
    obtain ⟨idx, -, hcolour⟩ := List.mem_flatMap.mp hbyte
    rw [colours, getD_black, getD_black, getD_black] at hcolour
    simpa using hcolour
  rw [frameSignature_eq hfull]
  intro hzero
  have hstart : fnvOffset = 0 :=
    fnvStep_mixes.foldl_injective (hzero.trans (foldl_fnvStep_zero hblack).symm)
  exact absurd hstart (by decide)

/-- The tile at the right edge of the widest picture has one pixel that is compared. -/
theorem samplesAt_lastColumn (bgra : List UInt8) (h : bgra.length = 4 * 0xFFFFFFFF) :
    (SizedPicture.mk 0xFFFFFFFF 1 bgra).samplesAt 0xFFFFFFE0 0 = colours bgra (4 * 0xFFFFFFE0) := by
  have hsamples : samples 1 (max (1 / tileHashTargetSamples) 1) = [0] := by decide
  change tileSamples 0xFFFFFFFF bgra 0xFFFFFFE0 0 0 1 = _
  rw [tileSamples]
  dsimp only
  rw [show max (0 - 0xFFFFFFE0) 1 * max (1 - 0) 1 = 1 by decide, hsamples, List.flatMap_singleton,
    if_pos (by rw [h]; decide)]
  exact congrArg (colours bgra) (by decide)

/-- The widest picture changes where its last column begins, and no rectangle has the pixel. -/
theorem lastColumn_missed :
    let sent : SizedPicture := ⟨0xFFFFFFFF, 1, List.replicate (4 * 0xFFFFFFFF) 0⟩
    let picture : SizedPicture := ⟨0xFFFFFFFF, 1, sent.bgra.set (4 * 0xFFFFFFE0) 255⟩
    let s := detectorCalls.run .new [.decide sent false 0, .markSent sent 0]
    ¬ (s.detector.roi picture.width picture.height picture.bgra false 1).Contains 0xFFFFFFE0 0 ∧
      picture.bgra.getD (4 * 0xFFFFFFE0) 0 ≠ sent.bgra.getD (4 * 0xFFFFFFE0) 0 := by
  intro sent picture s
  have hlength : sent.bgra.length = 4 * 0xFFFFFFFF := List.length_replicate
  have hchanged : picture.bgra.length = 4 * 0xFFFFFFFF := List.length_set.trans hlength
  have hcell : picture.bgra.getD (4 * 0xFFFFFFE0) 0 = 255 := getD_set_black 255 (by decide) _
  have hbefore : colours sent.bgra (4 * 0xFFFFFFE0) = [0, 0, 0] := by
    rw [colours, getD_black, getD_black, getD_black]
  have hnow : colours picture.bgra (4 * 0xFFFFFFE0) = [0, 0, 255] := by
    rw [colours, hcell, getD_set_black 255 (by decide), getD_set_black 255 (by decide)]
    decide
  have hsentFull : sent.Full := by
    rw [SizedPicture.Full, hlength]
    decide
  have hfull : picture.Full := by
    rw [SizedPicture.Full, hchanged]
    decide
  refine ⟨?_, ?_⟩
  · apply roi_lastColumn (watches_run _) (recorded_of_sent [] sent false 0 0) hsentFull hfull
      (signature_black_ne hsentFull) rfl rfl
    · rw [fingerprint_full hfull]
      decide
    · rw [fingerprint_full hfull]
      decide
    · rfl
    · decide
    · decide
    · rw [fingerprint_full hfull]
      decide
    · apply hashAt_ne
      rw [samplesAt_lastColumn _ hlength, samplesAt_lastColumn _ hchanged, hbefore, hnow]
      exact ⟨[0, 0], 0, 255, [], by decide, rfl, rfl⟩
  · rw [hcell, getD_black]
    decide

/-- A picture that is not sent although its second pixel is not that of the picture sent, and
a change that the reported rectangle misses. -/
theorem bluePixel_skipped :
    (let sent : SizedPicture := ⟨32, 32, List.replicate 4096 0⟩
    let picture : SizedPicture := ⟨32, 32, sent.bgra.set 4 255⟩
    let s := detectorCalls.run .new [.decide sent false 0, .markSent sent 0]
    (s.detector.decide picture.width picture.height picture.bgra false 1).2.send = false ∧
      picture.bgra.getD 4 0 ≠ sent.bgra.getD 4 0) ∧
    let sent : SizedPicture := ⟨0xFFFFFFFF, 1, List.replicate (4 * 0xFFFFFFFF) 0⟩
    let picture : SizedPicture := ⟨0xFFFFFFFF, 1, sent.bgra.set (4 * 0xFFFFFFE0) 255⟩
    let s := detectorCalls.run .new [.decide sent false 0, .markSent sent 0]
    ¬ (s.detector.roi picture.width picture.height picture.bgra false 1).Contains 0xFFFFFFE0 0 ∧
      picture.bgra.getD (4 * 0xFFFFFFE0) 0 ≠ sent.bgra.getD (4 * 0xFFFFFFE0) 0 := by
  refine ⟨?_, lastColumn_missed⟩
  intro sent picture s
  refine ⟨?_, ?_⟩
  · have hknows : s.detector.Knows sent.width sent.height sent.bgra :=
      FrameChangeDetector.markSent_knows .new sent.width sent.height sent.bgra false 0 0
    have hidle : s.detector.idleRefresh 1 = false := rfl
    have hsize : s.detector.sizeChanged picture.width picture.height = false := hknows.sizeChanged
    have hframe := hknows.frameChanged (signature_black_ne (by rw [List.length_replicate]; decide))
    rw [← secondPixel_unseen sent.bgra 255] at hframe
    rw [FrameChangeDetector.decide]
    dsimp only
    rw [hsize, hidle, hframe]
    rfl
  · rw [getD_set_black 255 (by decide), getD_black]
    decide

end EvertyDesk.Host
