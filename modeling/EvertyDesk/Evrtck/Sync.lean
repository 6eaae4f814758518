import EvertyDesk.Evrtck.Packets

/-!
The encoder and a decoder in step: whatever way a frame is encoded, a decoder
that holds what the frame is predicted from holds the frame afterwards, and the
encoder predicts the next one from it. A key frame is not predicted at all.
-/

namespace EvertyDesk.Evrtck

/-- The decoder holds this captured frame. The dimensions are those that the
header has room for. -/
def holding (width height : Nat) (frame : List UInt8) : EvrtckDecoder where
  frame := bgraToRgba frame
  width := width % 2 ^ 32
  height := height % 2 ^ 32

/-- Decoding the packet makes the decoder hold the frame. -/
def Shows (zstd : Zstd) (d : EvrtckDecoder) (data : List UInt8) (width height : Nat)
    (frame : List UInt8) : Prop :=
  d.decodeWire zstd data = .ok (holding width height frame, .ok (bgraToRgba frame))

/-- The same for a decoder that paints the tiles in the order of priorities. -/
def ShowsBy (zstd : Zstd) (priority : Option (Nat → Priority)) (d : EvrtckDecoder)
    (data : List UInt8) (width height : Nat) (frame : List UInt8) : Prop :=
  ∃ order, d.decodeWirePrioritized zstd data priority =
    .ok (holding width height frame, .ok (bgraToRgba frame, order))

theorem ShowsBy.shows {zstd : Zstd} {d : EvrtckDecoder} {data : List UInt8}
    {width height : Nat} {frame : List UInt8}
    (h : ShowsBy zstd none d data width height frame) : Shows zstd d data width height frame := by
  obtain ⟨order, hdecode⟩ := h
  unfold Shows EvrtckDecoder.decodeWire
  rw [Checked.bind_ok hdecode]
  rfl

section Dimensions

variable {width height : Nat}

theorem tilesInDim_pos (h : 0 < width) : 0 < tilesInDim width := by
  rw [lt_tilesInDim, Nat.zero_mul]
  exact h

theorem le_tilesInDim_mul (width : Nat) : width ≤ tilesInDim width * tileSize := by
  by_contra hlong
  have hlt := lt_tilesInDim.mpr (Nat.lt_of_not_le hlong)
  omega

variable (h : tilesInDim width * tilesInDim height ≤ 65536)

include h

/-- So many tiles fit in the fields of the header, or there are none. -/
theorem dims_cases :
    (width % 2 ^ 32 = width ∧ height % 2 ^ 32 = height ∨
      width * height = 0 ∧ (width % 2 ^ 32) * (height % 2 ^ 32) = 0) ∧
    width * height ≤ 2 ^ 26 := by
  by_cases hempty : width * height = 0
  · refine ⟨Or.inr ⟨hempty, ?_⟩, by omega⟩
    rcases Nat.mul_eq_zero.mp hempty with rfl | rfl
    · rw [Nat.zero_mod, Nat.zero_mul]
    · rw [Nat.zero_mod, Nat.mul_zero]
  · have hwidth : 0 < width := Nat.pos_of_ne_zero fun hzero => hempty (by simp [hzero])
    have hheight : 0 < height := Nat.pos_of_ne_zero fun hzero => hempty (by simp [hzero])
    have hx := le_tilesInDim_mul width
    have hy := le_tilesInDim_mul height
    have hcolumns : tilesInDim width ≤ 65536 :=
      (Nat.le_mul_of_pos_right _ (tilesInDim_pos hheight)).trans h
    have hrows : tilesInDim height ≤ 65536 :=
      (Nat.le_mul_of_pos_left _ (tilesInDim_pos hwidth)).trans h
    rw [tileSize] at hx hy
    refine ⟨Or.inl ⟨Nat.mod_eq_of_lt (by omega), Nat.mod_eq_of_lt (by omega)⟩, ?_⟩
    calc
      width * height ≤ (tilesInDim width * 32) * (tilesInDim height * 32) := Nat.mul_le_mul hx hy
      _ = tilesInDim width * tilesInDim height * 1024 := by ring
      _ ≤ 65536 * 1024 := Nat.mul_le_mul_right _ h
      _ = 2 ^ 26 := by norm_num

theorem tileCount_mod :
    tilesInDim (width % 2 ^ 32) * tilesInDim (height % 2 ^ 32) =
      tilesInDim width * tilesInDim height := by
  have hzero : tilesInDim 0 = 0 := rfl
  rcases (dims_cases h).1 with ⟨hwidth, hheight⟩ | ⟨hempty, _⟩
  · rw [hwidth, hheight]
  · rcases Nat.mul_eq_zero.mp hempty with rfl | rfl
    · rw [Nat.zero_mod, hzero, Nat.zero_mul, Nat.zero_mul]
    · rw [Nat.zero_mod, hzero, Nat.mul_zero, Nat.mul_zero]

theorem size_mod :
    (width % 2 ^ 32) * (height % 2 ^ 32) * 4 = width * height * 4 ∧
      (width % 2 ^ 32) * (height % 2 ^ 32) * 4 < Checked.sizeLimit := by
  obtain ⟨hcases, hsmall⟩ := dims_cases h
  have hsame : (width % 2 ^ 32) * (height % 2 ^ 32) = width * height := by
    rcases hcases with ⟨hwidth, hheight⟩ | ⟨hempty, hempty'⟩
    · rw [hwidth, hheight]
    · rw [hempty, hempty']
  rw [hsame, Checked.sizeLimit]
  exact ⟨rfl, by omega⟩

/-- It is enough to know a frame where it is not empty. -/
theorem frame_eq_of_dims
    {frame target : List UInt8} (hframe : frame.length = width * height * 4)
    (htarget : target.length = width * height * 4)
    (hsame : width % 2 ^ 32 = width → height % 2 ^ 32 = height → frame = target) :
    frame = target := by
  rcases (dims_cases h).1 with ⟨hwidth, hheight⟩ | ⟨hempty, _⟩
  · exact hsame hwidth hheight
  · rw [hempty, Nat.zero_mul] at hframe htarget
    rw [List.eq_nil_of_length_eq_zero hframe, List.eq_nil_of_length_eq_zero htarget]

end Dimensions

theorem EvrtckDecoder.fitted_same {d : EvrtckDecoder} {width height : Nat}
    (hsize : width * height * 4 < Checked.sizeLimit) (hwidth : d.width = width)
    (hheight : d.height = height) (hlength : d.frame.length = width * height * 4) :
    d.fitted width height = .ok d := by
  unfold fitted
  rw [if_neg (by simp [hwidth, hheight]), Checked.bind_ok (frameSize_ok hsize),
    if_neg (not_not.mpr hlength)]
  rfl

/-! What the packets show. -/

section Packets

variable {zstd : Zstd} {width height : Nat} {rgba prev : List UInt8}
  {priority : Option (Nat → Priority)} (htiles : tilesInDim width * tilesInDim height ≤ 65536)

include htiles

section Unpainted

variable (hprev : prev.length = width * height * 4)

include hprev

theorem fitted_holding :
    (holding width height prev).fitted (width % 2 ^ 32) (height % 2 ^ 32) =
      .ok (holding width height prev) := by
  obtain ⟨hsame, hsize⟩ := size_mod htiles
  apply EvrtckDecoder.fitted_same hsize rfl rfl
  rw [hsame, ← hprev]
  exact bgraToRgba_length (by omega)

/-- A packet without tiles shows the frame with its rectangles copied. -/
theorem shows_without_tiles {data : List UInt8} {flags : UInt8}
    {rects : List CopyRect} {rest : List UInt8} (hlength : data.length < Checked.sizeLimit)
    (hheader : 18 ≤ data.length) (hmagic : field data 0 4 = magic)
    (hwidth : wireWidth data = width % 2 ^ 32)
    (hheight : wireHeight data = height % 2 ^ 32) (hkey : flags &&& flagKeyframe = 0)
    (hparse : parseFrame (width % 2 ^ 32) (height % 2 ^ 32) data = some ((flags, {
      rects := rects.filter (CopyRect.isValid · (width % 2 ^ 32) (height % 2 ^ 32))
      tiles := [] }), rest))
    (hvalid : ∀ rect ∈ rects, rect.isValid width height = true)
    (hpriority : Numbered priority) :
    ShowsBy zstd priority (holding width height prev) data width height
      (applyCopyRects prev width height rects) := by
  obtain ⟨hsame, hsize⟩ := size_mod htiles
  obtain ⟨fit, frame, order, hfit, _, horder, hframe, hframeLength, hdecode⟩ :=
    decodeWirePrioritized_run zstd (fun _ => .solid []) hlength hheader hmagic hwidth
      hheight hsize hparse (by simp) hpriority (holding width height prev)
  obtain rfl : order = [] := List.perm_nil.mp horder
  rw [fitted_holding htiles hprev] at hfit
  injection hfit with hfit
  have hshown : frame = bgraToRgba (applyCopyRects prev width height rects) := by
    have hcopied := applyCopyRects_length rects hprev
    apply frame_eq_of_dims htiles (hframeLength.trans hsame)
      ((bgraToRgba_length (by omega)).trans hcopied)
    intro hwidth hheight
    rw [hframe, ← hfit, hwidth, hheight, List.filter_eq_self.mpr hvalid]
    unfold background
    rw [if_neg (not_not.mpr hkey)]
    exact applyCopyRects_rgba (by omega) rects
  refine ⟨[], ?_⟩
  rw [hdecode, hshown]
  rfl

theorem showsBy_nop (frameId : UInt32) (hpriority : Numbered priority) :
    ShowsBy zstd priority (holding width height prev) (nopPacketData frameId width height)
      width height prev := by
  obtain ⟨hmagic, hwidth, hheight⟩ := wire_header version flagNop frameId width height 0 []
  rw [List.append_nil] at hmagic hwidth hheight
  have hlength : (nopPacketData frameId width height).length = 20 := frameHeader_length _ _ _ _ _ _
  change ShowsBy zstd priority (holding width height prev)
    (nopPacketData frameId width height) width height (applyCopyRects prev width height [])
  exact shows_without_tiles htiles hprev (by rw [hlength]; decide) (by omega)
    hmagic hwidth hheight (by decide) (parse_nop frameId width height) (by simp) hpriority

theorem shows_nop (frameId : UInt32) :
    Shows zstd (holding width height prev) (nopPacketData frameId width height) width height prev :=
  (showsBy_nop htiles hprev frameId numbered_none).shows

theorem shows_copyRectOnly (frameId : UInt32) {rects : List CopyRect}
    (hrects : rects.length ≤ 65535)
    (hvalid : ∀ rect ∈ rects, rect.isValid width height = true) :
    Shows zstd (holding width height prev)
      (copyRectOnlyPacketData frameId width height rects) width height
      (applyCopyRects prev width height rects) := by
  obtain ⟨hmagic, hwidth, hheight⟩ := wire_header versionCopyRects flagCopyRects frameId
    width height 0 (writeCopyRects rects)
  have hlength := writeCopyRects_length_le rects
  have htotal : (copyRectOnlyPacketData frameId width height rects).length =
      20 + (writeCopyRects rects).length := by
    rw [copyRectOnlyPacketData, List.length_append, frameHeader_length, frameHeaderLen]
  have hshows : ShowsBy zstd none (holding width height prev)
      (copyRectOnlyPacketData frameId width height rects) width height
      (applyCopyRects prev width height rects) :=
    shows_without_tiles htiles hprev (by rw [htotal, Checked.sizeLimit]; omega)
      (by omega) hmagic hwidth hheight (by decide)
      (parse_copyRectOnly frameId width height hrects) hvalid numbered_none
  exact hshows.shows

end Unpainted

/-- An assembled packet makes some frame of the right size out of the decoder's. -/
private theorem assembled_run (hzstd : zstd.Lawful) {ver flags : UInt8}
    {copied : List UInt8} {rects : List CopyRect} {indices : List Nat}
    (hver : ver = version ∨ ver = versionCopyRects) (hnop : flags &&& flagNop = 0)
    (hcopied : CopySection ver flags copied rects)
    (hnodup : indices.Nodup)
    (hindices : ∀ idx ∈ indices, idx < tilesInDim width * tilesInDim height)
    (rgba prev : List UInt8) (isKeyframe : Bool) (frameId : UInt32)
    (focus : Option (Nat × Nat)) (wantOffsets : Bool) (hpriority : Numbered priority)
    (d : EvrtckDecoder) :
    ∃ (order : List Nat) (fit : EvrtckDecoder) (frame : List UInt8), order.Perm indices ∧
      d.fitted (width % 2 ^ 32) (height % 2 ^ 32) = .ok fit ∧
      fit.frame.length = width * height * 4 ∧ frame.length = width * height * 4 ∧
      frame = order.foldl (fun current idx =>
          paintTile (width % 2 ^ 32) (rectOf (width % 2 ^ 32) (height % 2 ^ 32) idx) current
            (encodedPixels rgba prev width height isKeyframe idx))
        (background fit.frame (width % 2 ^ 32) (height % 2 ^ 32) flags {
          rects := rects.filter (CopyRect.isValid · (width % 2 ^ 32) (height % 2 ^ 32))
          tiles := [] }) ∧
      d.decodeWirePrioritized zstd (assembleFrame ver flags frameId width height copied
        (indices.map (encodeTile zstd rgba prev width height isKeyframe)) focus
        wantOffsets).data priority =
        .ok ({ frame := frame, width := width % 2 ^ 32, height := height % 2 ^ 32 },
          .ok (frame, order)) := by
  obtain ⟨hsame, hsize⟩ := size_mod htiles
  obtain ⟨hlength, hheader, hmagic, hwidth, hheight, packed, hpacked, hparse⟩ :=
    parse_assembled hzstd hver hnop hcopied htiles (tileCount_mod htiles) hnodup hindices
      rgba prev isKeyframe frameId focus wantOffsets
  have hpixels : ∀ tile ∈ packed.map (codedTile zstd rgba prev width height isKeyframe),
      tilePixels zstd tile = .ok (encodedPixels rgba prev width height isKeyframe tile.idx) ∧
        (encodedPixels rgba prev width height isKeyframe tile.idx).Fits
          (rectOf (width % 2 ^ 32) (height % 2 ^ 32) tile.idx) := by
    intro tile htile
    obtain ⟨idx, hidx, rfl⟩ := List.mem_map.mp htile
    have hlt := hindices idx (hpacked.subset hidx)
    refine ⟨(codedTile_spec hzstd rgba prev isKeyframe hlt).2.2, ?_⟩
    rcases (dims_cases htiles).1 with ⟨hwidth, hheight⟩ | ⟨hempty, _⟩
    · rw [hwidth, hheight]
      exact encodedPixels_fits rgba prev width height isKeyframe idx
    · have hzero : tilesInDim 0 = 0 := rfl
      rcases Nat.mul_eq_zero.mp hempty with rfl | rfl
      · rw [hzero, Nat.zero_mul] at hlt
        omega
      · rw [hzero, Nat.mul_zero] at hlt
        omega
  obtain ⟨fit, frame, order, hfit, hfitLength, horder, hframe, hframeLength, hdecode⟩ :=
    decodeWirePrioritized_run zstd (encodedPixels rgba prev width height isKeyframe) hlength
      hheader hmagic hwidth hheight hsize hparse hpixels hpriority d
  have hids : (packed.map (codedTile zstd rgba prev width height isKeyframe)).map
      TileData.idx = packed := by
    rw [List.map_map]
    exact List.map_id' packed
  rw [hids] at horder
  exact ⟨order, fit, frame, horder.trans hpacked, hfit, hfitLength.trans hsame,
    hframeLength.trans hsame, hframe, hdecode⟩

/-- A key frame shows itself, whatever the decoder held. -/
theorem showsBy_keyframe (hzstd : zstd.Lawful)
    (hrgba : rgba.length = width * height * 4) (prev : List UInt8) (frameId : UInt32)
    (focus : Option (Nat × Nat)) (wantOffsets : Bool) (hpriority : Numbered priority)
    (d : EvrtckDecoder) :
    ShowsBy zstd priority d (encodeFrameWithOffsets zstd rgba prev width height frameId true
      focus wantOffsets).data width height rgba := by
  have hrgbaTurned := (bgraToRgba_length (show 4 ∣ rgba.length by omega)).trans hrgba
  obtain ⟨order, fit, frame, hperm, _, hfitLength, hframeLength, hframe, hdecode⟩ :=
    assembled_run htiles hzstd (Or.inl rfl) (show flagKeyframe &&& flagNop = 0 by decide)
      (Or.inr ⟨by decide, rfl, rfl⟩) List.nodup_range
      (fun idx hidx => List.mem_range.mp hidx) rgba prev true frameId focus wantOffsets
      hpriority d
  have hshown : frame = bgraToRgba rgba := by
    apply frame_eq_of_dims htiles hframeLength hrgbaTurned
    intro hwidth hheight
    rw [hframe, hwidth, hheight]
    unfold background
    rw [if_pos (by decide), hfitLength]
    exact paint_key hrgba prev hperm
  rw [hshown] at hdecode
  exact ⟨order, hdecode⟩

/-- The tiles that differ from the prediction complete it. -/
theorem showsBy_delta (hzstd : zstd.Lawful)
    (hrgba : rgba.length = width * height * 4) (hprev : prev.length = width * height * 4)
    {ver flags : UInt8} {copied : List UInt8} {rects : List CopyRect} {indices : List Nat}
    (hver : ver = version ∨ ver = versionCopyRects) (hnop : flags &&& flagNop = 0)
    (hkey : flags &&& flagKeyframe = 0)
    (hcopied : CopySection ver flags copied rects)
    (hvalid : ∀ rect ∈ rects, rect.isValid width height = true) (hnodup : indices.Nodup)
    (hindices : ∀ idx ∈ indices, idx < tilesInDim width * tilesInDim height)
    (hdirty : ∀ idx < tilesInDim width * tilesInDim height,
      tileIsDirty rgba (applyCopyRects prev width height rects) width height
        (idx % tilesInDim width) (idx / tilesInDim width) = true → idx ∈ indices)
    (frameId : UInt32) (focus : Option (Nat × Nat)) (wantOffsets : Bool)
    (hpriority : Numbered priority) :
    ShowsBy zstd priority (holding width height prev)
      (assembleFrame ver flags frameId width height copied
        (indices.map (encodeTile zstd rgba (applyCopyRects prev width height rects)
          width height false)) focus wantOffsets).data width height rgba := by
  have hrgbaTurned := (bgraToRgba_length (show 4 ∣ rgba.length by omega)).trans hrgba
  obtain ⟨order, fit, frame, hperm, hfit, _, hframeLength, hframe, hdecode⟩ :=
    assembled_run htiles hzstd hver hnop hcopied hnodup hindices rgba
      (applyCopyRects prev width height rects) false frameId focus wantOffsets hpriority
      (holding width height prev)
  rw [fitted_holding htiles hprev] at hfit
  injection hfit with hfit
  have hshown : frame = bgraToRgba rgba := by
    apply frame_eq_of_dims htiles hframeLength hrgbaTurned
    intro hwidth hheight
    have hpredicted := applyCopyRects_length rects hprev
    rw [hframe, ← hfit, hwidth, hheight, List.filter_eq_self.mpr hvalid]
    unfold background
    rw [if_neg (not_not.mpr hkey)]
    dsimp only [holding]
    rw [applyCopyRects_rgba (by omega)]
    apply paint_delta hrgba hpredicted (hperm.nodup_iff.mpr hnodup)
      (fun idx hidx => hindices idx (hperm.subset hidx))
    intro idx hidx hdirt
    exact hperm.symm.subset (hdirty idx hidx hdirt)
  rw [hshown] at hdecode
  exact ⟨order, hdecode⟩

end Packets

/-! The encoder's calls. -/

/-- The decoder holds what the encoder predicts from, unless a key frame is next. -/
structure Ready (e : EvrtckEncoder) (d : EvrtckDecoder) : Prop where
  tiles : tilesInDim e.width * tilesInDim e.height ≤ 65536
  length : e.prev.length = e.width * e.height * 4
  held : e.pendingKeyframe = false → d = holding e.width e.height e.prev

/-- A call has sent the frame: the decoder shows it, and the encoder predicts
from it, or from one that looks the same. -/
structure Sent (zstd : Zstd) (e : EvrtckEncoder) (d : EvrtckDecoder) (bgra : List UInt8)
    (e' : EvrtckEncoder) (packet : EvrtckPacket) : Prop where
  width : e'.width = e.width
  height : e'.height = e.height
  length : e'.prev.length = e.width * e.height * 4
  prev : bgraToRgba e'.prev = bgraToRgba bgra
  shown : Shows zstd d packet.data e.width e.height bgra

/-- The hint's rectangles, if they are used, mark all tiles in which the frame
differs from the prediction. -/
def Marked (e : EvrtckEncoder) (bgra : List UInt8) (copyRects : List CopyRect)
    (dirtyRects : List DirtyRect) : Prop :=
  ∀ indices, dirtyTileIndicesFromRects dirtyRects e.width e.height = some indices →
    ∀ idx < tilesInDim e.width * tilesInDim e.height,
      tileIsDirty bgra (applyCopyRects e.prev e.width e.height copyRects) e.width e.height
        (idx % tilesInDim e.width) (idx / tilesInDim e.width) = true → idx ∈ indices

theorem filterMap_encodeIfDirty (zstd : Zstd) (rgba prev : List UInt8)
    (width height : Nat) (indices : List Nat) :
    indices.filterMap (encodeIfDirty zstd rgba prev width height) =
      (indices.filter fun idx => tileIsDirty rgba prev width height
        (idx % tilesInDim width) (idx / tilesInDim width)).map
          (encodeTile zstd rgba prev width height false) := by
  induction indices with
  | nil => rfl
  | cons idx indices ih =>
      rw [List.filterMap_cons, List.filter_cons, ih]
      unfold encodeIfDirty
      dsimp only
      split <;> simp_all

/-- The tiles in which two frames differ. -/
def differingTiles (rgba prev : List UInt8) (width height : Nat) : List Nat :=
  (List.range (tilesInDim width * tilesInDim height)).filter fun idx =>
    tileIsDirty rgba prev width height (idx % tilesInDim width) (idx / tilesInDim width)

theorem mem_differingTiles {rgba prev : List UInt8} {width height idx : Nat} :
    idx ∈ differingTiles rgba prev width height ↔
      idx < tilesInDim width * tilesInDim height ∧
        tileIsDirty rgba prev width height (idx % tilesInDim width)
          (idx / tilesInDim width) = true := by
  rw [differingTiles, List.mem_filter, List.mem_range]

theorem differingTiles_nodup (rgba prev : List UInt8) (width height : Nat) :
    (differingTiles rgba prev width height).Nodup := List.nodup_range.filter _

/-- A frame that is the one before it. -/
theorem encodeFrameWithOffsets_same (zstd : Zstd) {rgba prev : List UInt8}
    (hsame : rgba = prev) (width height : Nat) (frameId : UInt32)
    (focus : Option (Nat × Nat)) (wantOffsets : Bool) :
    encodeFrameWithOffsets zstd rgba prev width height frameId false focus wantOffsets =
      withoutTiles (nopPacketData frameId width height) width height 20 := by
  unfold encodeFrameWithOffsets
  dsimp only
  rw [if_pos (by simp [hsame])]

theorem encodeFrameWithOffsets_differing (zstd : Zstd) {rgba prev : List UInt8}
    (hother : rgba ≠ prev) (width height : Nat) (frameId : UInt32)
    (focus : Option (Nat × Nat)) (wantOffsets : Bool) :
    encodeFrameWithOffsets zstd rgba prev width height frameId false focus wantOffsets =
      assembleFrame version 0 frameId width height []
        ((differingTiles rgba prev width height).map
          (encodeTile zstd rgba prev width height false)) focus wantOffsets := by
  unfold encodeFrameWithOffsets
  dsimp only
  rw [if_neg (by simpa using hother), filterMap_encodeIfDirty]
  rfl

theorem applyCopyRects_filter (frame : List UInt8) (width height : Nat) (rects : List CopyRect) :
    applyCopyRects frame width height (rects.filter (CopyRect.isValid · width height)) =
      applyCopyRects frame width height rects := by
  unfold applyCopyRects
  induction rects generalizing frame with
  | nil => rfl
  | cons rect rects ih =>
      rw [List.filter_cons, List.foldl_cons]
      split
      next hvalid => rw [List.foldl_cons, ih, if_pos hvalid]
      next hvalid => exact ih frame

theorem mem_dirtyTileIndices_lt {dirtyRects : List DirtyRect} {width height : Nat}
    {indices : List Nat} (h : dirtyTileIndicesFromRects dirtyRects width height = some indices) :
    indices.Nodup ∧ ∀ idx ∈ indices, idx < tilesInDim width * tilesInDim height := by
  unfold dirtyTileIndicesFromRects at h
  split at h
  · cases h
  · dsimp only at h
    split at h
    · cases h
    · cases h
      refine ⟨List.nodup_range.filter _, ?_⟩
      intro idx hidx
      exact List.mem_range.mp (List.mem_filter.mp hidx).1

section Calls

variable {zstd : Zstd} {e : EvrtckEncoder} {d : EvrtckDecoder} {bgra : List UInt8}

/-- A packet is shown and the encoder remembers the frame. -/
theorem sent_frame {frame : EncodedFrame} (hbgra : bgra.length = e.width * e.height * 4)
    (frameId : UInt32) (hshown : Shows zstd d frame.data e.width e.height bgra) :
    Sent zstd e d bgra (e.sent bgra frameId frame).1 (e.sent bgra frameId frame).2.1 :=
  ⟨rfl, rfl, hbgra, rfl, hshown⟩

/-- The encoder predicts from the frame that it was given, or from one that looks the
same. -/
theorem encodeInnerImpl_prev (zstd : Zstd) (hlength : e.prev.length = e.width * e.height * 4)
    (hbgra : bgra.length = e.width * e.height * 4) (frameId : UInt32) (wantOffsets : Bool) :
    (e.encodeInnerImpl zstd bgra frameId wantOffsets).1.prev.length = e.width * e.height * 4 ∧
      bgraToRgba (e.encodeInnerImpl zstd bgra frameId wantOffsets).1.prev = bgraToRgba bgra := by
  unfold EvrtckEncoder.encodeInnerImpl
  dsimp only
  cases hpending : e.pendingKeyframe with
  | true =>
      rw [if_pos (Or.inr rfl)]
      exact ⟨hbgra, rfl⟩
  | false =>
      by_cases hsame : bgra = e.prev
      · rw [encodeFrameWithOffsets_same zstd hsame, if_neg (by simp [withoutTiles]), hsame]
        exact ⟨hlength, rfl⟩
      · rw [encodeFrameWithOffsets_differing zstd hsame]
        split
        · exact ⟨hbgra, rfl⟩
        · next hnone =>
          refine ⟨hlength, clean_frame hbgra hlength fun idx hidx hdirt => ?_⟩
          have hdirty := List.length_pos_of_mem (mem_differingTiles.mpr ⟨hidx, hdirt⟩)
          exact hnone (.inl (by simpa [assembleFrame] using hdirty))

theorem valid_of_mem_filter {rects : List CopyRect} {width height : Nat} :
    ∀ rect ∈ rects.filter (CopyRect.isValid · width height), rect.isValid width height = true :=
  fun _ hrect => (List.mem_filter.mp hrect).2

variable (hzstd : zstd.Lawful) (hready : Ready e d)
  (hbgra : bgra.length = e.width * e.height * 4) (frameId : UInt32)

include hzstd hready hbgra

/-- A frame is shown in any order of its tiles. -/
theorem encodeInnerImpl_showsBy (wantOffsets : Bool) {priority : Option (Nat → Priority)}
    (hpriority : Numbered priority) :
    ShowsBy zstd priority d (e.encodeInnerImpl zstd bgra frameId wantOffsets).2.1.data e.width
      e.height bgra := by
  have hdata : (e.encodeInnerImpl zstd bgra frameId wantOffsets).2.1.data =
      (encodeFrameWithOffsets zstd bgra e.prev e.width e.height frameId e.pendingKeyframe
        e.focus wantOffsets).data := rfl
  rw [hdata]
  cases hpending : e.pendingKeyframe with
  | true =>
      exact showsBy_keyframe hready.tiles hzstd hbgra e.prev frameId e.focus wantOffsets hpriority d
  | false =>
      rw [hready.held hpending]
      by_cases hsame : bgra = e.prev
      · rw [encodeFrameWithOffsets_same zstd hsame]
        rw [hsame]
        exact showsBy_nop hready.tiles hready.length frameId hpriority
      · rw [encodeFrameWithOffsets_differing zstd hsame]
        exact showsBy_delta hready.tiles hzstd hbgra hready.length (Or.inl rfl) (by decide)
          (by decide) (Or.inr ⟨by decide, rfl, rfl⟩) (by simp)
          (differingTiles_nodup _ _ _ _) (fun idx hidx => (mem_differingTiles.mp hidx).1)
          (fun idx hidx hdirt => mem_differingTiles.mpr ⟨hidx, hdirt⟩) frameId e.focus
          wantOffsets hpriority

theorem encodeInnerImpl_sent (wantOffsets : Bool) :
    Sent zstd e d bgra (e.encodeInnerImpl zstd bgra frameId wantOffsets).1
      (e.encodeInnerImpl zstd bgra frameId wantOffsets).2.1 := by
  have hshown := encodeInnerImpl_showsBy hzstd hready hbgra frameId wantOffsets numbered_none
  obtain ⟨hlength, hprev⟩ := encodeInnerImpl_prev zstd hready.length hbgra frameId wantOffsets
  exact ⟨rfl, rfl, hlength, hprev, hshown.shows⟩

theorem encodeWithCopyRectsFrame_shown (hpending : e.pendingKeyframe = false)
    {rects : List CopyRect} (hrects : rects.length ≤ 65535)
    (hvalid : ∀ rect ∈ rects, rect.isValid e.width e.height = true)
    (focus : Option (Nat × Nat)) (wantOffsets : Bool) :
    Shows zstd d (encodeFrameWithOffsetsAndCopyRects zstd bgra
      (applyCopyRects e.prev e.width e.height rects) e.width e.height frameId rects focus
      wantOffsets).data e.width e.height bgra := by
  have hheld := hready.held hpending
  have hlength := hready.length
  unfold encodeFrameWithOffsetsAndCopyRects
  dsimp only
  split
  next hsame =>
    rw [hheld]
    have hshown : Shows zstd (holding e.width e.height e.prev)
        (copyRectOnlyPacketData frameId e.width e.height rects) e.width e.height
        (applyCopyRects e.prev e.width e.height rects) :=
      shows_copyRectOnly hready.tiles hlength frameId hrects hvalid
    rw [eq_of_beq hsame]
    exact hshown
  · rw [hheld, filterMap_encodeIfDirty]
    exact (showsBy_delta hready.tiles hzstd hbgra hlength (Or.inr rfl) (by decide) (by decide)
      (Or.inl ⟨Or.inl rfl, rfl, hrects⟩) hvalid (differingTiles_nodup _ _ _ _)
      (fun idx hidx => (mem_differingTiles.mp hidx).1)
      (fun idx hidx hdirt => mem_differingTiles.mpr ⟨hidx, hdirt⟩) frameId focus wantOffsets
      numbered_none).shows

theorem hintedFrame_shown (hpending : e.pendingKeyframe = false)
    {rects : List CopyRect} (hrects : rects.length ≤ 65535)
    (hvalid : ∀ rect ∈ rects, rect.isValid e.width e.height = true)
    {indices : List Nat} (hnodup : indices.Nodup)
    (hindices : ∀ idx ∈ indices, idx < tilesInDim e.width * tilesInDim e.height)
    (hdirty : ∀ idx < tilesInDim e.width * tilesInDim e.height,
      tileIsDirty bgra (applyCopyRects e.prev e.width e.height rects) e.width e.height
        (idx % tilesInDim e.width) (idx / tilesInDim e.width) = true → idx ∈ indices) :
    Shows zstd d (e.hintedFrame zstd bgra (applyCopyRects e.prev e.width e.height rects)
      frameId rects indices).data e.width e.height bgra := by
  have hheld := hready.held hpending
  have hlength := hready.length
  have hpredicted := applyCopyRects_length rects hlength
  have hcopied : Shows zstd d (copyRectOnlyPacketData frameId e.width e.height rects)
      e.width e.height (applyCopyRects e.prev e.width e.height rects) :=
    hheld ▸ shows_copyRectOnly hready.tiles hlength frameId hrects hvalid
  unfold EvrtckEncoder.hintedFrame
  split
  next hsame =>
    split
    next hnone =>
      have hnop : Shows zstd d (nopPacketData frameId e.width e.height) e.width e.height
          e.prev := hheld ▸ shows_nop hready.tiles hlength frameId
      rw [List.isEmpty_iff.mp hnone] at hsame
      rw [hsame]
      exact hnop
    · rw [hsame]
      exact hcopied
  · split
    next hnone =>
      rw [List.isEmpty_iff.mp hnone] at hdirty ⊢
      rw [hheld]
      exact (showsBy_delta hready.tiles hzstd hbgra hlength (Or.inl rfl) (by decide)
        (by decide) (Or.inr ⟨by decide, rfl, rfl⟩) (by simp) hnodup hindices hdirty frameId
        e.focus false numbered_none).shows
    · unfold encodeCopyRectFrameFromDirtyIndices
      dsimp only
      rw [filterMap_encodeIfDirty]
      split
      next hclean =>
        have hlook : bgraToRgba (applyCopyRects e.prev e.width e.height rects) =
            bgraToRgba bgra := by
          apply clean_frame hbgra hpredicted
          intro idx hidx hdirt
          rw [List.isEmpty_iff, List.map_eq_nil_iff, List.filter_eq_nil_iff] at hclean
          exact hclean idx (hdirty idx hidx hdirt) hdirt
        rw [Shows, holding, ← hlook]
        exact hcopied
      · rw [hheld]
        refine (showsBy_delta hready.tiles hzstd hbgra hlength (Or.inr rfl) (by decide)
          (by decide) (Or.inl ⟨Or.inl rfl, rfl, hrects⟩) hvalid (hnodup.filter _) ?_ ?_ frameId
          e.focus false numbered_none).shows
        · intro idx hidx
          exact hindices idx (List.mem_filter.mp hidx).1
        · intro idx hidx hdirt
          exact List.mem_filter.mpr ⟨hdirty idx hidx hdirt, hdirt⟩

theorem encodeInner_sent :
    Sent zstd e d bgra (e.encodeInner zstd bgra frameId).1 (e.encodeInner zstd bgra frameId).2.1 :=
  encodeInnerImpl_sent hzstd hready hbgra frameId false

theorem encodeInnerWithCopyRects_sent {copyRects : List CopyRect}
    (hrects : copyRects.length ≤ 65535) :
    Sent zstd e d bgra (e.encodeInnerWithCopyRects zstd bgra frameId copyRects).1
      (e.encodeInnerWithCopyRects zstd bgra frameId copyRects).2.1 := by
  unfold EvrtckEncoder.encodeInnerWithCopyRects
  split
  · exact encodeInner_sent hzstd hready hbgra frameId
  next hpending =>
    rw [Bool.or_eq_true, not_or] at hpending
    dsimp only
    split
    · exact encodeInner_sent hzstd hready hbgra frameId
    · apply sent_frame hbgra
      exact encodeWithCopyRectsFrame_shown hzstd hready hbgra frameId
        (Bool.eq_false_of_not_eq_true hpending.1) ((List.length_filter_le _ _).trans hrects)
        valid_of_mem_filter e.focus false

theorem encodeInnerWithScrollDetection_sent :
    Sent zstd e d bgra (e.encodeInnerWithScrollDetection zstd bgra frameId).1
      (e.encodeInnerWithScrollDetection zstd bgra frameId).2.1 := by
  unfold EvrtckEncoder.encodeInnerWithScrollDetection
  split
  · exact encodeInner_sent hzstd hready hbgra frameId
  · split
    · exact encodeInner_sent hzstd hready hbgra frameId
    · split
      · exact encodeInnerWithCopyRects_sent hzstd hready hbgra frameId (by simp)
      · exact encodeInner_sent hzstd hready hbgra frameId

theorem encodeInnerWithCaptureHints_sent {copyRects : List CopyRect} {dirtyRects : List DirtyRect}
    (hrects : copyRects.length ≤ 65535)
    (hmarked : e.pendingKeyframe = false → Marked e bgra copyRects dirtyRects) :
    Sent zstd e d bgra
      (e.encodeInnerWithCaptureHints zstd bgra frameId copyRects dirtyRects).1
      (e.encodeInnerWithCaptureHints zstd bgra frameId copyRects dirtyRects).2.1 := by
  unfold EvrtckEncoder.encodeInnerWithCaptureHints
  split
  · exact encodeInner_sent hzstd hready hbgra frameId
  next hpending =>
    have hpending := Bool.eq_false_of_not_eq_true hpending
    have hfew := (List.length_filter_le (CopyRect.isValid · e.width e.height)
      copyRects).trans hrects
    dsimp only
    split
    next indices hused =>
      obtain ⟨hnodup, hindices⟩ := mem_dirtyTileIndices_lt hused
      apply sent_frame hbgra
      apply hintedFrame_shown hzstd hready hbgra frameId hpending hfew valid_of_mem_filter
        hnodup hindices
      rw [applyCopyRects_filter]
      exact hmarked hpending indices hused
    · split
      · exact encodeInnerWithScrollDetection_sent hzstd hready hbgra frameId
      · apply sent_frame hbgra
        exact encodeWithCopyRectsFrame_shown hzstd hready hbgra frameId hpending hfew
          valid_of_mem_filter e.focus false

end Calls

/-! Hints. -/

/-- The hint's rectangles cover every pixel that differs from the prediction. -/
def Covered (e : EvrtckEncoder) (bgra : List UInt8) (copyRects : List CopyRect)
    (dirtyRects : List DirtyRect) : Prop :=
  ∀ x < e.width, ∀ y < e.height,
    field bgra ((y * e.width + x) * 4) 4 ≠
      field (applyCopyRects e.prev e.width e.height copyRects) ((y * e.width + x) * 4) 4 →
    ∃ rect ∈ dirtyRects, rect.left.toNat ≤ x ∧ x < rect.right.toNat ∧
      rect.top.toNat ≤ y ∧ y < rect.bottom.toNat

/-- In a dirty tile there is a pixel that differs. -/
theorem exists_dirty_pixel {rgba prev : List UInt8} {width height tx ty : Nat}
    (h : tileIsDirty rgba prev width height tx ty = true) :
    ∃ x y, tx * tileSize ≤ x ∧ x < tx * tileSize + tileSize ∧ x < width ∧
      ty * tileSize ≤ y ∧ y < ty * tileSize + tileSize ∧ y < height ∧
      field rgba ((y * width + x) * 4) 4 ≠ field prev ((y * width + x) * 4) 4 := by
  unfold tileIsDirty at h
  obtain ⟨y, hy, hrow⟩ := List.any_eq_true.mp h
  rw [bne_iff_ne] at hrow
  rw [mem_rows] at hy
  by_contra hnone
  apply hrow
  apply field_congr
  intro i hge hlt
  simp only [tileRect, TileRect.rowStart, TileRect.rowBytes] at hy hge hlt
  have hpixel : field rgba ((y * width + (i / 4 - y * width)) * 4) 4 =
      field prev ((y * width + (i / 4 - y * width)) * 4) 4 := by
    by_contra hdiffers
    exact hnone ⟨i / 4 - y * width, y, by omega, by omega, by omega, by omega, by omega,
      by omega, hdiffers⟩
  have hat : ∀ frame : List UInt8,
      (field frame ((y * width + (i / 4 - y * width)) * 4) 4)[i % 4]? = frame[i]? := by
    intro frame
    rw [field, List.getElem?_take_of_lt (Nat.mod_lt i (by decide)), List.getElem?_drop]
    congr 1
    omega
  rw [← hat rgba, hpixel, hat]

/-- A rectangle with a pixel of the frame is used. -/
theorem clamp_of_pixel {rect : DirtyRect} {width height x y : Nat} (hx : x < width)
    (hy : y < height)
    (hleft : rect.left.toNat ≤ x) (hright : x < rect.right.toNat)
    (htop : rect.top.toNat ≤ y) (hbottom : y < rect.bottom.toNat) :
    rect.clamp width height = some {
      x0 := min rect.left.toNat width
      y0 := min rect.top.toNat height
      x1 := min rect.right.toNat width
      y1 := min rect.bottom.toNat height } := by
  unfold DirtyRect.clamp
  rw [if_neg (by simp only [UInt32.le_iff_toNat_le]; omega)]
  dsimp only
  rw [if_neg (by omega)]

theorem marked_of_covered {e : EvrtckEncoder} {bgra : List UInt8}
    {copyRects : List CopyRect} {dirtyRects : List DirtyRect}
    (h : Covered e bgra copyRects dirtyRects) : Marked e bgra copyRects dirtyRects := by
  intro indices hused idx hidx hdirt
  obtain ⟨x, y, hx0, hx1, hx, hy0, hy1, hy, hdiffers⟩ := exists_dirty_pixel hdirt
  obtain ⟨rect, hrect, hleft, hright, htop, hbottom⟩ := h x hx y hy hdiffers
  unfold dirtyTileIndicesFromRects at hused
  split at hused
  · cases hused
  · dsimp only at hused
    split at hused
    · cases hused
    · cases hused
      rw [List.mem_filter, List.mem_range]
      refine ⟨hidx, ?_⟩
      rw [List.any_eq_true]
      have hclamp := clamp_of_pixel hx hy hleft hright htop hbottom
      refine ⟨_, List.mem_filterMap.mpr ⟨rect, hrect, hclamp⟩, ?_⟩
      have hrows : idx / tilesInDim e.width < tilesInDim e.height := Nat.div_lt_of_lt_mul hidx
      have hcolumns : idx % tilesInDim e.width < tilesInDim e.width := by
        apply Nat.mod_lt
        rw [lt_tilesInDim]
        omega
      simp only [TileRect.marks, Bool.and_eq_true, decide_eq_true_eq]
      generalize idx / tilesInDim e.width = ty at *
      generalize idx % tilesInDim e.width = tx at *
      rw [tileSize] at *
      omega

end EvertyDesk.Evrtck
