import EvertyDesk.Evrtck.Sync
import Mathlib.Data.List.Dedup

/-!
Tiles of a frame laid over a picture that comes from elsewhere: every tile is
encoded by itself and painted after its place was cleared, so that it does not
matter what the decoder held there. The format has 16 bits for the size of the
bitmap, and 32 for a dimension.
-/

namespace EvertyDesk.Evrtck

/-- The tiles named that the frame has, in ascending order and once each: the
list is sorted first, so that equal ones are neighbours. -/
def subsetIndices (tileCount : Nat) (tileIndices : List UInt16) : List UInt16 :=
  ((tileIndices.filter fun idx => idx.toNat < tileCount).mergeSort (· ≤ ·)).dedup

def encodeTileSubsetAbsolute (zstd : Zstd) (rgba : List UInt8) (width height : Nat)
    (frameId : UInt32) (tileIndices : List UInt16) : List UInt8 :=
  let tilesX := tilesInDim width
  let tileCount := tilesX * tilesInDim height
  let indices := (subsetIndices tileCount tileIndices).map UInt16.toNat
  let mapBytes := (tileCount + 7) / 8
  frameHeader version 0 frameId width height mapBytes ++
    (indices.foldl setBit (List.replicate mapBytes 0) ++
      indices.flatMap fun idx => leBytes 2 idx ++
        (encodeTileBuf zstd rgba [] width height (idx % tilesX) (idx / tilesX) true).1)

def clearTile (frame : List UInt8) (width : Nat) (rect : TileRect) (tw4 : Nat) :
    Checked (List UInt8) :=
  rect.rows.foldlM (fun frame y => do
    let rs ← pixelOffset width rect.x0 y
    let stop ← Checked.add rs tw4
    Checked.write frame rs stop (List.replicate tw4 0)) frame

section Applying

variable (zstd : Zstd) (data : List UInt8) (width height : Nat)

/-- A tile is read, its place cleared, and then painted. -/
def overlayTile (tilesX tileCount : Nat) : Decode Nat := do
  let entry ← scanTile data width height tilesX tileCount
  match ← decompressTile zstd data entry.encStart entry.encEnd entry.mode with
  | .error error => Proc.fail error
  | .ok pixels => do
      let tw ← Checked.sub entry.rect.x1 entry.rect.x0
      let tw4 ← Checked.mul tw 4
      let s ← Proc.get
      let frame ← clearTile s.frame width entry.rect tw4
      Proc.set { s with frame := frame }
      paintTiles width [(entry, .ok pixels)]
      return entry.idx

def overlayTiles (tilesX tileCount : Nat) : Nat → Decode (List Nat)
  | 0 => return []
  | count + 1 => do
      let idx ← overlayTile zstd data width height tilesX tileCount
      let rest ← overlayTiles tilesX tileCount count
      return idx :: rest

/-- The header, which names the decoder's dimensions; the flags do not matter. -/
def readOverlayHead : Decode Nat := do
  let found ← readBytes data 4
  if found ≠ magic then Proc.fail .invalidMagic
  else do
    let ver ← readU8 data
    if ver ≠ version then Proc.fail (.unsupportedVersion ver)
    else do
      let _flags ← readU8 data
      let _frameId ← readU32 data
      let w ← readU32 data
      let h ← readU32 data
      if w.toNat ≠ width ∨ h.toNat ≠ height then
        Proc.fail (.dimensionMismatch (UInt32.ofNat width, UInt32.ofNat height) (w, h))
      else do
        let mapBytes ← readU16 data
        return mapBytes.toNat

def applyOverlay : Decode (List Nat) := do
  let mapBytes ← readOverlayHead data width height
  let tileMap ← readBytes data mapBytes
  let tilesX ← tilesInDimChecked width
  let tilesY ← tilesInDimChecked height
  let tileCount ← Checked.mul tilesX tilesY
  overlayTiles zstd data width height tilesX tileCount (popCount tileMap)

end Applying

/-- The decoder after the overlay, and the tiles that were applied. -/
def EvrtckDecoder.applyAbsoluteOverlay (zstd : Zstd) (d : EvrtckDecoder)
    (data : List UInt8) : Checked (EvrtckDecoder × Except EvrtckError (List Nat)) := do
  let (outcome, s) ← applyOverlay zstd data d.width d.height ⟨0, d.frame⟩
  return ({ d with frame := s.frame }, outcome)

/-- The tiles of the list that the frame has: sorted, and each of them once. -/
def listedTiles (width height : Nat) (tileIndices : List UInt16) : List Nat :=
  (List.range (tilesInDim width * tilesInDim height)).filter fun idx =>
    idx ∈ tileIndices.map UInt16.toNat

/-- The overlay replaces the listed tiles by those of the frame, and nothing else. -/
def Overlays (zstd : Zstd) (rgba : List UInt8) (width height : Nat) (frameId : UInt32)
    (tileIndices : List UInt16) (d : EvrtckDecoder) : Prop :=
  ∃ frame, d.applyAbsoluteOverlay zstd
      (encodeTileSubsetAbsolute zstd rgba width height frameId tileIndices) =
        .ok ({ d with frame := frame }, .ok (listedTiles width height tileIndices)) ∧
    frame.length = d.frame.length ∧
    ∀ i < width * height * 4, frame[i]? =
      if tileOf width i ∈ listedTiles width height tileIndices then (bgraToRgba rgba)[i]?
      else d.frame[i]?

/-! The list of tiles. -/

section Indices

theorem subsetIndices_eq (width height : Nat) (tileIndices : List UInt16) :
    (subsetIndices (tilesInDim width * tilesInDim height) tileIndices).map UInt16.toNat =
      listedTiles width height tileIndices := by
  generalize htileCount : tilesInDim width * tilesInDim height = tileCount
  have hsorted : (subsetIndices tileCount tileIndices).Pairwise (· < ·) := by
    have htrans : ∀ a b c : UInt16, decide (a ≤ b) = true → decide (b ≤ c) = true →
        decide (a ≤ c) = true := by
      intro a b c hab hbc
      rw [decide_eq_true_eq] at *
      exact UInt16.le_trans hab hbc
    have htotal : ∀ a b : UInt16, (decide (a ≤ b) || decide (b ≤ a)) = true := by
      intro a b
      simpa using UInt16.le_total a b
    have hle := List.pairwise_mergeSort htrans htotal
      (tileIndices.filter fun idx => idx.toNat < tileCount)
    have hdedup := (hle.sublist (List.dedup_sublist _)).and (List.nodup_dedup _)
    exact hdedup.imp fun ⟨hab, hne⟩ => UInt16.lt_of_le_of_ne (of_decide_eq_true hab) hne
  have hmember : ∀ idx, idx ∈ (subsetIndices tileCount tileIndices).map UInt16.toNat ↔
      idx ∈ listedTiles width height tileIndices := by
    intro idx
    rw [listedTiles, htileCount, List.mem_filter, List.mem_range, decide_eq_true_eq,
      List.mem_map, List.mem_map]
    simp only [subsetIndices, List.mem_dedup, List.mem_mergeSort, List.mem_filter,
      decide_eq_true_eq]
    constructor
    · rintro ⟨tile, ⟨htile, hlt⟩, rfl⟩
      exact ⟨hlt, tile, htile, rfl⟩
    · rintro ⟨hlt, tile, htile, rfl⟩
      exact ⟨tile, ⟨htile, hlt⟩, rfl⟩
  apply List.Subset.antisymm_of_sortedLT
  · exact fun idx hidx => (hmember idx).mp hidx
  · exact fun idx hidx => (hmember idx).mpr hidx
  · rw [List.sortedLT_iff_pairwise, List.pairwise_map]
    exact hsorted.imp fun hlt => UInt16.lt_iff_toNat_lt.mp hlt
  · rw [List.sortedLT_iff_pairwise]
    exact List.Pairwise.filter _ List.pairwise_lt_range

end Indices

/-! Applying an overlay. -/

/-- The transparent black that a place is cleared to. -/
def clearPixel : TilePixels := .solid [0, 0, 0, 0]

/-- A tile's place cleared and painted. -/
def layTile (width height : Nat) (pixels : Nat → TilePixels) (frame : List UInt8)
    (idx : Nat) : List UInt8 :=
  paintTile width (rectOf width height idx)
    (paintTile width (rectOf width height idx) frame clearPixel) (pixels idx)

def parseOverlayHead (width height : Nat) : Parse Nat := do
  let found ← takeBytes 4
  if found ≠ magic then Parse.fail
  else do
    let ver ← parse8
    if ver ≠ version then Parse.fail
    else do
      let _flags ← parse8
      let _frameId ← parse32
      let w ← parse32
      let h ← parse32
      if w.toNat ≠ width ∨ h.toNat ≠ height then Parse.fail
      else do
        let mapBytes ← parse16
        return mapBytes.toNat

/-- How many tiles the bytes after the map should have. -/
def parseOverlayCount (width height : Nat) : Parse Nat := do
  let mapBytes ← parseOverlayHead width height
  let tileMap ← takeBytes mapBytes
  return popCount tileMap

section Applying

variable {zstd : Zstd} {data : List UInt8} {width height : Nat} {s : Decoding}

theorem readOverlayHead_reads (hdata : data.length < Checked.sizeLimit) :
    Reads data (readOverlayHead data width height) (parseOverlayHead width height)
      (fun result parsed => result = parsed ∧ parsed < 2 ^ 16 ∧ width < 2 ^ 32 ∧
        height < 2 ^ 32) := by
  unfold readOverlayHead parseOverlayHead
  apply (readBytes_reads hdata (by decide)).bind
  rintro found _ ⟨rfl, _⟩
  split
  · exact reads_fail
  · apply (readU8_reads hdata).bind
    rintro ver _ rfl
    split
    · exact reads_fail
    · apply (readU8_reads hdata).bind
      rintro flags _ rfl
      apply (readU32_reads hdata).bind
      rintro frameId _ rfl
      apply (readU32_reads hdata).bind
      rintro w _ rfl
      apply (readU32_reads hdata).bind
      rintro h _ rfl
      split
      · exact reads_fail
      · apply (readU16_reads hdata).bind
        rintro mapBytes _ rfl
        exact reads_pure ⟨rfl, mapBytes.toNat_lt, by grind [UInt32.toNat_lt],
          by grind [UInt32.toNat_lt]⟩

theorem parseOverlayHead_header (frameId : UInt32) (mapBytes : Nat) (rest : List UInt8) :
    parseOverlayHead width height (frameHeader version 0 frameId width height mapBytes ++ rest) =
      if width < 2 ^ 32 ∧ height < 2 ^ 32 then some (mapBytes % 2 ^ 16, rest)
      else none := by
  unfold parseOverlayHead frameHeader
  simp only [List.append_assoc, List.cons_append]
  rw [Parse.bind_some (takeBytes_append magic_length), if_neg (not_not.mpr rfl),
    Parse.bind_some (parse8_cons _ _), if_neg (not_not.mpr rfl),
    Parse.bind_some (parse8_cons _ _), Parse.bind_some (parse32_leBytes _ _),
    Parse.bind_some (parse32_leBytes _ _), Parse.bind_some (parse32_leBytes _ _)]
  simp only [UInt32.toNat_ofNat']
  by_cases hdims : width < 2 ^ 32 ∧ height < 2 ^ 32
  · rw [if_neg (by omega), if_pos hdims, Parse.bind_some (parse16_leBytes _ _)]
    simp only [UInt16.toNat_ofNat']
    rfl
  · rw [if_pos (by omega), if_neg hdims]
    rfl

theorem clearTile_ok {rect : TileRect} {frame : List UInt8}
    (hrect : rect.Within width height) (hsize : width * height * 4 < Checked.sizeLimit)
    (hframe : frame.length = width * height * 4) :
    clearTile frame width rect rect.rowBytes = .ok (paintTile width rect frame clearPixel) ∧
      (paintTile width rect frame clearPixel).length = width * height * 4 := by
  have hrow : (List.replicate (rect.x1 - rect.x0) [(0 : UInt8), 0, 0, 0]).flatten =
      List.replicate rect.rowBytes 0 :=
    List.flatten_replicate_replicate (n := rect.x1 - rect.x0) (m := 4) (a := (0 : UInt8))
  unfold clearTile paintTile clearPixel
  dsimp only
  rw [hrow]
  exact writeRows_ok hrect hsize hframe List.length_replicate

section Tiles

variable (hsize : width * height * 4 < Checked.sizeLimit)
  (hframe : s.frame.length = width * height * 4) {tilesX tileCount : Nat}
  {entry : TileEntry} {tile : TileData} {t : Decoding}
  (hscan : scanTile data width height tilesX tileCount s = .ok (.ok entry, t))
  (hsame : t.frame = s.frame) (hmatches : Matches data width height entry tile)

include hsize hframe hscan hsame hmatches

/-- A tile that is read is decompressed before its place is cleared. -/
theorem overlayTile_scanned :
    overlayTile zstd data width height tilesX tileCount s =
      match tilePixels zstd tile with
      | .error error => .ok (.error error, t)
      | .ok pixels => (do paintTiles width [(entry, .ok pixels)]; return tile.idx) { t with
          frame := paintTile width (rectOf width height tile.idx) s.frame clearPixel } := by
  have hrect : entry.rect = rectOf width height tile.idx := hmatches.rect
  have hwithin : (rectOf width height tile.idx).Within width height :=
    tileRect_within hmatches.idx_lt
  obtain ⟨hwidth, hrowBytes⟩ := hwithin.row_size
  obtain ⟨hclear, _⟩ := clearTile_ok hwithin hsize hframe
  unfold overlayTile
  rw [Proc.bind_returns hscan, Proc.lift_bind (decompressTile_ok hmatches)]
  cases tilePixels zstd tile with
  | error error => rfl
  | ok pixels =>
      dsimp only
      rw [hrect, Proc.lift_bind hwidth, Proc.lift_bind hrowBytes, Proc.get_bind, hsame,
        Proc.lift_bind hclear, Proc.set_bind, hmatches.idx]

/-- A tile that is read is laid over. -/
theorem overlayTile_run {pixels : Nat → TilePixels}
    (hpixels : tilePixels zstd tile = .ok (pixels tile.idx))
    (hfits : (pixels tile.idx).Fits (rectOf width height tile.idx)) :
    ∃ u, overlayTile zstd data width height tilesX tileCount s = .ok (.ok tile.idx, u) ∧
      u.pos = t.pos ∧ u.frame = layTile width height pixels s.frame tile.idx ∧
      u.frame.length = width * height * 4 := by
  have hrect : entry.rect = rectOf width height tile.idx := hmatches.rect
  have hwithin : (rectOf width height tile.idx).Within width height :=
    tileRect_within hmatches.idx_lt
  obtain ⟨_, hcleared⟩ := clearTile_ok hwithin hsize hframe
  have hpaintable : ∀ other ∈ [(entry, .ok (pixels tile.idx))], Paintable width height other := by
    intro other hother
    rw [List.mem_singleton] at hother
    subst hother
    refine ⟨hrect ▸ hwithin, fun color hcolor => ?_⟩
    injection hcolor with hcolor
    rw [hcolor] at hfits
    exact hfits
  obtain ⟨outcome, u, hpaint, hpos, hdone, hpainted⟩ := paintTiles_run hsize hpaintable
    (s := { t with
      frame := paintTile width (rectOf width height tile.idx) s.frame clearPixel }) hcleared
  obtain ⟨rfl, hframe'⟩ := hpainted [(rectOf width height tile.idx, pixels tile.idx)]
    (List.Forall₂.cons ⟨hrect, rfl, hfits⟩ List.Forall₂.nil)
  refine ⟨u, ?_, hpos, hframe', hdone⟩
  rw [overlayTile_scanned hsize hframe hscan hsame hmatches, hpixels]
  exact Proc.bind_returns hpaint

end Tiles

/-- The overlay's tiles are laid over the frame if its header and its map can be read. -/
theorem applyOverlay_parse (zstd : Zstd) (width height : Nat)
    (hdata : data.length < Checked.sizeLimit) (frame : List UInt8) :
    match parseOverlayCount width height data with
    | none => ∃ error t, applyOverlay zstd data width height ⟨0, frame⟩ =
        .ok (.error error, t) ∧ t.frame = frame
    | some (count, rest) => ∃ t : Decoding, t.frame = frame ∧ t.pos ≤ data.length ∧
        data.drop t.pos = rest ∧ applyOverlay zstd data width height ⟨0, frame⟩ =
          overlayTiles zstd data width height (tilesInDim width)
            (tilesInDim width * tilesInDim height) count t := by
  have hhead : Reads data (readOverlayHead data width height) _ _ := readOverlayHead_reads hdata
  unfold parseOverlayCount applyOverlay
  rcases hhead.run (s := ⟨0, frame⟩) (Nat.zero_le _) with
    ⟨hparse, error, t, hread, hsame⟩ |
    ⟨_, rest, mapBytes, t, hparse, hread, hsame, ⟨rfl, hmap, hwidth, hheight⟩, htpos, hrest⟩
  · rw [List.drop_zero] at hparse
    rw [Parse.bind_none hparse]
    exact ⟨error, t, Proc.bind_fails hread, hsame⟩
  · rw [List.drop_zero] at hparse
    rw [Parse.bind_some hparse, ← hrest, Proc.bind_returns hread]
    have hmap' : mapBytes < Checked.sizeLimit := by
      rw [Checked.sizeLimit]
      omega
    rcases (readBytes_reads hdata hmap').run htpos with
      ⟨hparse, error, u, hread, hsame'⟩ |
      ⟨_, rest, tileMap, u, hparse, hread, hsame', ⟨rfl, _⟩, hupos, hrest⟩
    · rw [Parse.bind_none hparse]
      exact ⟨error, u, Proc.bind_fails hread, hsame'.trans hsame⟩
    · rw [Parse.bind_some hparse]
      refine ⟨u, hsame'.trans hsame, hupos, hrest, ?_⟩
      rw [Proc.bind_returns hread, Proc.lift_bind (tilesInDimChecked_ok hwidth),
        Proc.lift_bind (tilesInDimChecked_ok hheight),
        Proc.lift_bind (tileCountChecked_ok hwidth hheight)]

/-- Entries that are written one after the other are laid over in turn. -/
theorem overlayTiles_run (hzstd : zstd.Lawful) (hdata : data.length < Checked.sizeLimit)
    (hsize : width * height * 4 < Checked.sizeLimit) (rgba : List UInt8)
    {indices : List Nat}
    (hindices : ∀ idx ∈ indices, idx < tilesInDim width * tilesInDim height ∧ idx < 2 ^ 16)
    (hframe : s.frame.length = width * height * 4) (hpos : s.pos ≤ data.length)
    {rest : List UInt8} (hrest : data.drop s.pos =
      (indices.map (codedTile zstd rgba [] width height true)).flatMap TileData.entry ++ rest) :
    ∃ u, overlayTiles zstd data width height (tilesInDim width)
        (tilesInDim width * tilesInDim height) indices.length s = .ok (.ok indices, u) ∧
      u.frame = indices.foldl
        (layTile width height (encodedPixels rgba [] width height true)) s.frame ∧
      u.frame.length = width * height * 4 := by
  induction indices generalizing s with
  | nil => exact ⟨s, rfl, rfl, hframe⟩
  | cons idx indices ih =>
      obtain ⟨hidx, hshort⟩ := hindices idx List.mem_cons_self
      obtain ⟨_, hlegible, hpixels⟩ := codedTile_spec hzstd rgba [] true hidx
      rw [List.map_cons, List.flatMap_cons, List.append_assoc] at hrest
      have hparse := @parseTile_entry _ (codedTile zstd rgba [] width height true idx)
        hidx hshort hlegible ((indices.map
          (codedTile zstd rgba [] width height true)).flatMap TileData.entry ++ rest)
      rw [← hrest] at hparse
      have hscans : Reads data (scanTile data width height _ _) _ _ := scanTile_reads hdata
      rcases hscans.run hpos with
        ⟨hnone, _⟩ | ⟨tile, after, entry, t, hsome, hscan, hsame, hmatches, htpos, hafter⟩
      · rw [hparse] at hnone
        cases hnone
      · rw [hparse] at hsome
        cases hsome
        obtain ⟨u, hlay, hupos, huframe, hulength⟩ := overlayTile_run hsize hframe hscan
          hsame hmatches hpixels (encodedPixels_fits rgba [] width height true idx)
        obtain ⟨v, hrun, hvframe, hvlength⟩ := ih
          (fun other hother => hindices other (List.mem_cons_of_mem _ hother)) hulength
          (hupos ▸ htpos) (hupos ▸ hafter)
        refine ⟨v, ?_, ?_, hvlength⟩
        · rw [List.length_cons]
          unfold overlayTiles
          rw [Proc.bind_returns hlay, Proc.bind_returns hrun]
          rfl
        · rw [hvframe, huframe]
          rfl

theorem overlayTiles_length {tilesX tileCount count : Nat} {indices : List Nat} {u : Decoding}
    (h : overlayTiles zstd data width height tilesX tileCount count s = .ok (.ok indices, u)) :
    indices.length = count := by
  induction count generalizing s indices with
  | zero =>
      cases h
      rfl
  | succ count ih =>
      unfold overlayTiles at h
      rw [Proc.bind_run] at h
      split at h
      · cases h
      · cases h
      · rw [Proc.bind_run] at h
        split at h
        · cases h
        · cases h
        next hrest =>
          cases h
          rw [List.length_cons, ih hrest]

/-- A tile's place, and only it, gets the tile of the frame. -/
theorem layTile_carries {rgba frame : List UInt8} {idx : Nat}
    (hidx : idx < tilesInDim width * tilesInDim height)
    (hrgba : rgba.length = width * height * 4) (hframe : frame.length = width * height * 4) :
    let laid := layTile width height (encodedPixels rgba [] width height true) frame idx
    laid.length = width * height * 4 ∧ ∀ i, laid[i]? =
      if (rectOf width height idx).Holds width i then (bgraToRgba rgba)[i]?
      else frame[i]? := by
  intro laid
  have hrect : (rectOf width height idx).Within width height := tileRect_within hidx
  have hclear : Carries width (rectOf width height idx) frame
      (List.replicate (width * height * 4) 0) clearPixel := by
    intro y hy
    rw [field_black hrect hy]
    exact List.flatten_replicate_replicate (m := 4) (a := (0 : UInt8))
  obtain ⟨hcleared, hblack⟩ := paintTile_carries hrect List.length_replicate hframe
    (fun _ _ => rfl) hclear
  obtain ⟨hdone, hpositions⟩ := paintTile_carries hrect
    ((bgraToRgba_length (by omega)).trans hrgba) hcleared
    (fun i hi => by rw [hblack i, if_pos hi]) (encodedPixels_key hidx hrgba [])
  refine ⟨hdone, fun i => (hpositions i).trans ?_⟩
  split
  · rfl
  next hi => rw [hblack i, if_neg hi]

end Applying

/-! Overlays that may say anything. -/

section Returning

variable {data : List UInt8} {width height : Nat} {s : Decoding}

/-- Laying over a tile, whatever the bytes say, ends with a frame of the same size. -/
theorem overlayTile_returns (zstd : Zstd) (hdata : data.length < Checked.sizeLimit)
    (hsize : width * height * 4 < Checked.sizeLimit)
    (hframe : s.frame.length = width * height * 4) (hpos : s.pos ≤ data.length) :
    ∃ outcome u, overlayTile zstd data width height (tilesInDim width)
        (tilesInDim width * tilesInDim height) s = .ok (outcome, u) ∧
      u.frame.length = width * height * 4 ∧
      ∀ idx, outcome = .ok idx → u.pos ≤ data.length := by
  have hscans : Reads data (scanTile data width height _ _) _ _ := scanTile_reads hdata
  unfold overlayTile
  rcases hscans.run hpos with
    ⟨_, error, t, hscan, hsame⟩ | ⟨tile, _, entry, t, _, hscan, hsame, hmatches, htpos, _⟩
  · exact ⟨.error error, t, Proc.bind_fails hscan, hsame ▸ hframe, nofun⟩
  · rw [Proc.bind_returns hscan, Proc.lift_bind (decompressTile_ok hmatches)]
    have hframe' : t.frame.length = width * height * 4 := hsame ▸ hframe
    have hfound := paintable_of_matches zstd (List.Forall₂.cons hmatches List.Forall₂.nil)
    cases hpixels : tilePixels zstd tile with
    | error error => exact ⟨.error error, t, rfl, hframe', nofun⟩
    | ok pixels =>
        have hwithin : entry.rect.Within width height := by
          rw [hmatches.rect]
          exact tileRect_within hmatches.idx_lt
        obtain ⟨hwidth, hrowBytes⟩ := hwithin.row_size
        obtain ⟨hclear, hcleared⟩ := clearTile_ok hwithin hsize hframe'
        have hpaintable : ∀ other ∈ [(entry, Except.ok pixels)], Paintable width height other := by
          simpa [hpixels] using hfound
        obtain ⟨outcome, u, hpaint, hupos, hdone, _⟩ := paintTiles_run hsize hpaintable
          (s := { t with frame := paintTile width entry.rect t.frame clearPixel }) hcleared
        dsimp only
        rw [Proc.lift_bind hwidth, Proc.lift_bind hrowBytes, Proc.get_bind,
          Proc.lift_bind hclear, Proc.set_bind]
        cases outcome with
        | error error => exact ⟨_, u, Proc.bind_fails hpaint, hdone, nofun⟩
        | ok result =>
            exact ⟨_, u, Proc.bind_returns hpaint, hdone, fun _ _ => hupos.trans_le htpos⟩

theorem overlayTiles_returns (zstd : Zstd) (hdata : data.length < Checked.sizeLimit)
    (hsize : width * height * 4 < Checked.sizeLimit) (count : Nat)
    (hframe : s.frame.length = width * height * 4) (hpos : s.pos ≤ data.length) :
    ∃ outcome u, overlayTiles zstd data width height (tilesInDim width)
        (tilesInDim width * tilesInDim height) count s = .ok (outcome, u) ∧
      u.frame.length = width * height * 4 := by
  induction count generalizing s with
  | zero => exact ⟨_, s, rfl, hframe⟩
  | succ count ih =>
      unfold overlayTiles
      obtain ⟨outcome, t, htile, hlength, htpos⟩ := overlayTile_returns zstd hdata hsize hframe hpos
      cases outcome with
      | error error => exact ⟨_, t, Proc.bind_fails htile, hlength⟩
      | ok idx =>
          obtain ⟨rest, u, hrest, hdone⟩ := ih hlength (htpos idx rfl)
          rw [Proc.bind_returns htile]
          cases rest with
          | error error => exact ⟨_, u, Proc.bind_fails hrest, hdone⟩
          | ok indices => exact ⟨_, u, Proc.bind_returns hrest, hdone⟩

/-- An overlay is applied or refused, and the decoder's dimensions stay. -/
theorem applyAbsoluteOverlay_returns (zstd : Zstd) (hdata : data.length < Checked.sizeLimit)
    {d : EvrtckDecoder} (hframe : d.frame.length = d.width * d.height * 4)
    (hsize : d.frame.length < Checked.sizeLimit) :
    ∃ d' outcome, d.applyAbsoluteOverlay zstd data = .ok (d', outcome) ∧
      d'.width = d.width ∧ d'.height = d.height ∧ d'.frame.length = d.frame.length := by
  have hrun : ∃ outcome u, applyOverlay zstd data d.width d.height ⟨0, d.frame⟩ =
      .ok (outcome, u) ∧ u.frame.length = d.frame.length := by
    have hreads : Reads data (readOverlayHead data d.width d.height) _ _ :=
      readOverlayHead_reads hdata
    unfold applyOverlay
    rcases hreads.run (s := ⟨0, d.frame⟩) (Nat.zero_le _) with
      ⟨_, error, t, hread, hsame⟩ |
      ⟨_, _, _, t, _, hread, hsame, ⟨rfl, hmap, hwidth, hheight⟩, htpos, _⟩
    · exact ⟨_, t, Proc.bind_fails hread, by rw [hsame]⟩
    · rw [Proc.bind_returns hread]
      have hsmall := hmap.trans (show 2 ^ 16 < Checked.sizeLimit by decide)
      rcases (readBytes_reads hdata hsmall).run htpos with
        ⟨_, error, u, hread, hsame'⟩ | ⟨_, _, tileMap, u, _, hread, hsame', _, hupos, _⟩
      · exact ⟨_, u, Proc.bind_fails hread, by rw [hsame', hsame]⟩
      · have hcount : Checked.mul (tilesInDim d.width) (tilesInDim d.height) =
            .ok (tilesInDim d.width * tilesInDim d.height) := tileCountChecked_ok hwidth hheight
        rw [Proc.bind_returns hread, Proc.lift_bind (tilesInDimChecked_ok hwidth),
          Proc.lift_bind (tilesInDimChecked_ok hheight), Proc.lift_bind hcount]
        obtain ⟨outcome, v, hrun, hlength⟩ := overlayTiles_returns zstd hdata
          (hframe ▸ hsize) (popCount tileMap) (by rw [hsame', hsame]; exact hframe) hupos
        exact ⟨outcome, v, hrun, hlength.trans hframe.symm⟩
  obtain ⟨outcome, u, hrun, hlength⟩ := hrun
  refine ⟨{ d with frame := u.frame }, outcome, ?_, rfl, rfl, hlength⟩
  unfold EvrtckDecoder.applyAbsoluteOverlay
  rw [Checked.bind_ok hrun]
  rfl

end Returning

/-! When the overlay is right. -/

section Overlays

variable {zstd : Zstd} {rgba : List UInt8} {width height : Nat} {frameId : UInt32}
  {tileIndices : List UInt16}

/-- The bitmap of the listed tiles. -/
def listedMap (width height : Nat) (tileIndices : List UInt16) : List UInt8 :=
  (listedTiles width height tileIndices).foldl setBit
    (List.replicate ((tilesInDim width * tilesInDim height + 7) / 8) 0)

/-- Their entries. -/
def listedEntries (zstd : Zstd) (rgba : List UInt8) (width height : Nat)
    (tileIndices : List UInt16) : List UInt8 :=
  ((listedTiles width height tileIndices).map
    (codedTile zstd rgba [] width height true)).flatMap TileData.entry

theorem mem_listedTiles {idx : Nat} (h : idx ∈ listedTiles width height tileIndices) :
    idx < tilesInDim width * tilesInDim height ∧ idx < 2 ^ 16 := by
  rw [listedTiles, List.mem_filter, List.mem_range, decide_eq_true_eq] at h
  obtain ⟨hlt, hlisted⟩ := h
  obtain ⟨tile, _, rfl⟩ := List.mem_map.mp hlisted
  exact ⟨hlt, tile.toNat_lt⟩

theorem listedTiles_nodup (width height : Nat) (tileIndices : List UInt16) :
    (listedTiles width height tileIndices).Nodup := List.nodup_range.filter _

theorem listedMap_length (width height : Nat) (tileIndices : List UInt16) :
    (listedMap width height tileIndices).length =
      (tilesInDim width * tilesInDim height + 7) / 8 := by
  rw [listedMap, foldl_setBit_length, List.length_replicate]

theorem listedMap_popCount (width height : Nat) (tileIndices : List UInt16) :
    popCount (listedMap width height tileIndices) =
      (listedTiles width height tileIndices).length := by
  apply popCount_foldl_setBit (listedTiles_nodup width height tileIndices)
  intro idx hidx
  have hlt := (mem_listedTiles hidx).1
  omega

/-- The parts of an overlay. -/
theorem overlay_data (hzstd : zstd.Lawful) (rgba : List UInt8) (width height : Nat)
    (frameId : UInt32) (tileIndices : List UInt16) :
    encodeTileSubsetAbsolute zstd rgba width height frameId tileIndices =
      frameHeader version 0 frameId width height ((tilesInDim width * tilesInDim height + 7) / 8) ++
        (listedMap width height tileIndices ++
          listedEntries zstd rgba width height tileIndices) := by
  unfold encodeTileSubsetAbsolute
  dsimp only
  rw [subsetIndices_eq, ← listedMap, listedEntries, List.flatMap_map]
  congr 2
  apply List.flatMap_congr
  intro idx hidx
  exact (codedTile_spec hzstd rgba [] true (mem_listedTiles hidx).1).1

/-- The header has room for the dimensions, and for the size of the bitmap if
there is a tile in it. -/
def OverlayFits (width height : Nat) (tileIndices : List UInt16) : Prop :=
  width < 2 ^ 32 ∧ height < 2 ^ 32 ∧
    (tilesInDim width * tilesInDim height ≤ 524280 ∨ listedTiles width height tileIndices = [])

/-- A map of zeros that is left over is not a tile. -/
theorem parseTile_zeros (tileCount zeros : Nat) (hzeros : 3 ≤ zeros) (rest : List UInt8) :
    parseTile tileCount (List.replicate zeros 0 ++ rest) = none := by
  obtain ⟨more, rfl⟩ := Nat.exists_eq_add_of_le hzeros
  have hsplit : List.replicate (3 + more) (0 : UInt8) ++ rest =
      leBytes 2 0 ++ (0 :: (List.replicate more 0 ++ rest)) := by
    rw [List.replicate_add, List.append_assoc]
    rfl
  unfold parseTile
  rw [hsplit, Parse.bind_some (parse16_leBytes _ _)]
  split
  · rfl
  · rw [Parse.bind_some (parse8_cons _ _), if_neg (by decide), if_neg (by decide)]
    rfl

section Laid

variable (hzstd : zstd.Lawful) (hrgba : rgba.length = width * height * 4)
  (hsize : rgba.length < Checked.sizeLimit)

include hzstd hrgba hsize

theorem overlay_length :
    (encodeTileSubsetAbsolute zstd rgba width height frameId tileIndices).length <
      Checked.sizeLimit := by
  have hcolumns : tilesInDim width ≤ width := by
    rw [tilesInDim, tileSize]
    omega
  have hrows : tilesInDim height ≤ height := by
    rw [tilesInDim, tileSize]
    omega
  have htiles := Nat.mul_le_mul hcolumns hrows
  have hfew : (listedTiles width height tileIndices).length ≤ 2 ^ 16 := by
    have hsub := List.subperm_of_subset (listedTiles_nodup width height tileIndices)
      fun idx hidx => List.mem_range.mpr (mem_listedTiles hidx).2
    simpa using hsub.length_le
  have hentries := flatMap_length_le fun tile (htile : tile ∈
      (listedTiles width height tileIndices).map (codedTile zstd rgba [] width height true)) =>
    show tile.entry.length ≤ 2 ^ 32 + 7 by
      obtain ⟨idx, hidx, rfl⟩ := List.mem_map.mp htile
      exact (codedTile_spec hzstd rgba [] true (mem_listedTiles hidx).1).2.1.entry_length_le
  rw [List.length_map, ← listedEntries] at hentries
  rw [overlay_data hzstd, List.length_append, List.length_append, frameHeader_length,
    listedMap_length, frameHeaderLen]
  rw [Checked.sizeLimit] at *
  omega

/-- The overlay's header is read, and as much of its bitmap as the header says. -/
theorem applyOverlay_run (frameId : UInt32) (tileIndices : List UInt16)
    (hwidth : width < 2 ^ 32)
    (hheight : height < 2 ^ 32) (frame : List UInt8) :
    let data := encodeTileSubsetAbsolute zstd rgba width height frameId tileIndices
    let mapBytes := (tilesInDim width * tilesInDim height + 7) / 8 % 2 ^ 16
    ∃ t : Decoding, t.frame = frame ∧ t.pos ≤ data.length ∧
      data.drop t.pos = (listedMap width height tileIndices).drop mapBytes ++
        listedEntries zstd rgba width height tileIndices ∧
      applyOverlay zstd data width height ⟨0, frame⟩ =
        overlayTiles zstd data width height (tilesInDim width)
          (tilesInDim width * tilesInDim height)
          (popCount ((listedMap width height tileIndices).take mapBytes)) t := by
  intro data mapBytes
  have hhead : parseOverlayHead width height data = some (mapBytes,
      listedMap width height tileIndices ++ listedEntries zstd rgba width height tileIndices) := by
    have hparts : data = frameHeader version 0 frameId width height
          ((tilesInDim width * tilesInDim height + 7) / 8) ++
        (listedMap width height tileIndices ++ listedEntries zstd rgba width height tileIndices) :=
      overlay_data hzstd rgba width height frameId tileIndices
    rw [hparts, parseOverlayHead_header, if_pos ⟨hwidth, hheight⟩]
  have hle : mapBytes ≤ (listedMap width height tileIndices).length := by
    rw [listedMap_length]
    exact Nat.mod_le _ _
  have htake : takeBytes mapBytes (listedMap width height tileIndices ++
      listedEntries zstd rgba width height tileIndices) =
      some ((listedMap width height tileIndices).take mapBytes,
        (listedMap width height tileIndices).drop mapBytes ++
          listedEntries zstd rgba width height tileIndices) := by
    have htakeLength : ((listedMap width height tileIndices).take mapBytes).length =
        mapBytes := by
      rw [List.length_take]
      omega
    rw [← takeBytes_append htakeLength, ← List.append_assoc, List.take_append_drop]
  have hcount : parseOverlayCount width height data =
      some (popCount ((listedMap width height tileIndices).take mapBytes),
        (listedMap width height tileIndices).drop mapBytes ++
          listedEntries zstd rgba width height tileIndices) := by
    rw [parseOverlayCount, Parse.bind_some hhead, Parse.bind_some htake]
    rfl
  have hdata : data.length < Checked.sizeLimit := overlay_length hzstd hrgba hsize
  have hparse := applyOverlay_parse zstd width height hdata frame
  rw [hcount] at hparse
  exact hparse

theorem overlays_of_fits {d : EvrtckDecoder} (hdw : d.width = width)
    (hdh : d.height = height) (hd : d.frame.length = width * height * 4)
    (hfits : OverlayFits width height tileIndices) :
    Overlays zstd rgba width height frameId tileIndices d := by
  obtain ⟨hwidth, hheight, hroom⟩ := hfits
  obtain ⟨t, hframe, htpos, hrest, hrun⟩ := applyOverlay_run hzstd hrgba hsize frameId
    tileIndices hwidth hheight d.frame
  subst hdw hdh
  have hmap : popCount ((listedMap d.width d.height tileIndices).take
        ((tilesInDim d.width * tilesInDim d.height + 7) / 8 % 2 ^ 16)) =
        (listedTiles d.width d.height tileIndices).length ∧
      ∃ rest, (listedMap d.width d.height tileIndices).drop
          ((tilesInDim d.width * tilesInDim d.height + 7) / 8 % 2 ^ 16) ++
          listedEntries zstd rgba d.width d.height tileIndices =
        listedEntries zstd rgba d.width d.height tileIndices ++ rest := by
    have hlength := listedMap_length d.width d.height tileIndices
    have hcount := listedMap_popCount d.width d.height tileIndices
    rcases hroom with hfew | hnone
    · rw [Nat.mod_eq_of_lt (by omega), ← hlength, List.take_length, List.drop_length]
      exact ⟨hcount, [], (List.append_nil _).symm⟩
    · rw [← List.take_append_drop ((tilesInDim d.width * tilesInDim d.height + 7) / 8 %
        2 ^ 16) (listedMap d.width d.height tileIndices), popCount_append, hnone,
        List.length_nil] at hcount
      rw [listedEntries, hnone, List.map_nil, List.flatMap_nil, List.append_nil]
      exact ⟨by rw [List.length_nil]; omega, _, rfl⟩
  obtain ⟨hcount, rest, hentries⟩ := hmap
  rw [hentries] at hrest
  rw [hcount] at hrun
  obtain ⟨u, happlied, huframe, hulength⟩ := overlayTiles_run hzstd
    (overlay_length hzstd hrgba hsize) (hrgba ▸ hsize) rgba
    (fun idx hidx => mem_listedTiles hidx) (hframe ▸ hd) htpos hrest
  rw [happlied] at hrun
  have hlaid := paintEach_carries (listedTiles_nodup d.width d.height tileIndices)
    (fun idx hidx => (mem_listedTiles hidx).1)
    (fun idx hidx current hcurrent _ =>
      layTile_carries (mem_listedTiles hidx).1 hrgba hcurrent)
    ((bgraToRgba_length (by omega)).trans hrgba) hd (fun _ _ _ => rfl)
  rw [hframe] at huframe
  refine ⟨u.frame, ?_, hulength.trans hd.symm, fun i hi => ?_⟩
  · unfold EvrtckDecoder.applyAbsoluteOverlay
    rw [hrun]
    rfl
  · rw [huframe]
    exact hlaid.2 i hi

theorem fits_of_overlays {d : EvrtckDecoder} (hdw : d.width = width)
    (hdh : d.height = height)
    (hoverlays : Overlays zstd rgba width height frameId tileIndices d) :
    OverlayFits width height tileIndices := by
  subst hdw hdh
  obtain ⟨frame, happlied, _⟩ := hoverlays
  have hdata : (encodeTileSubsetAbsolute zstd rgba d.width d.height frameId
      tileIndices).length < Checked.sizeLimit := overlay_length hzstd hrgba hsize
  unfold EvrtckDecoder.applyAbsoluteOverlay at happlied
  have hdims : d.width < 2 ^ 32 ∧ d.height < 2 ^ 32 := by
    by_contra hlarge
    have hhead : parseOverlayHead d.width d.height (encodeTileSubsetAbsolute zstd rgba
        d.width d.height frameId tileIndices) = none := by
      rw [overlay_data hzstd, parseOverlayHead_header, if_neg hlarge]
    have hparse := applyOverlay_parse zstd d.width d.height hdata d.frame
    rw [parseOverlayCount, Parse.bind_none hhead] at hparse
    obtain ⟨error, t, hfails, _⟩ := hparse
    rw [hfails] at happlied
    cases happlied
  obtain ⟨hwidth, hheight⟩ := hdims
  refine ⟨hwidth, hheight, ?_⟩
  obtain ⟨t, hframe, htpos, hrest, hrun⟩ := applyOverlay_run hzstd hrgba hsize frameId
    tileIndices hwidth hheight d.frame
  rw [hrun] at happlied
  have hlisted : ∃ u, overlayTiles zstd (encodeTileSubsetAbsolute zstd rgba d.width d.height
      frameId tileIndices) d.width d.height (tilesInDim d.width)
      (tilesInDim d.width * tilesInDim d.height)
      (popCount ((listedMap d.width d.height tileIndices).take
        ((tilesInDim d.width * tilesInDim d.height + 7) / 8 % 2 ^ 16))) t =
        .ok (.ok (listedTiles d.width d.height tileIndices), u) := by
    obtain ⟨⟨outcome, u⟩, hoverlaid, hsame⟩ := Checked.returns_of_bind happlied
    cases hsame
    exact ⟨u, hoverlaid⟩
  obtain ⟨u, hoverlaid⟩ := hlisted
  -- All the tiles are in the part of the bitmap that the header tells of.
  have hlength := overlayTiles_length hoverlaid
  have hcount := listedMap_popCount d.width d.height tileIndices
  have hmapLength := listedMap_length d.width d.height tileIndices
  rw [← List.take_append_drop ((tilesInDim d.width * tilesInDim d.height + 7) / 8 % 2 ^ 16)
    (listedMap d.width d.height tileIndices), popCount_append, ← hlength] at hcount
  have hleft := eq_zeros_of_popCount (Nat.add_eq_left.mp hcount)
  rw [List.length_drop, hmapLength] at hleft
  rw [hleft] at hrest
  by_contra hlost
  rw [not_or] at hlost
  obtain ⟨hmany, hsome⟩ := hlost
  obtain ⟨idx, tail, hcons⟩ := List.exists_cons_of_ne_nil hsome
  rw [← hlength, hcons, List.length_cons] at hoverlaid
  have hzeros := parseTile_zeros (tilesInDim d.width * tilesInDim d.height)
    ((tilesInDim d.width * tilesInDim d.height + 7) / 8 -
      (tilesInDim d.width * tilesInDim d.height + 7) / 8 % 2 ^ 16) (by omega)
    (listedEntries zstd rgba d.width d.height tileIndices)
  have hscans : Reads _ (scanTile _ d.width d.height _ _) _ _ := scanTile_reads hdata
  rcases hscans.run htpos with
    ⟨_, error, v, hscan, _⟩ | ⟨_, _, _, _, hparsed, _⟩
  · unfold overlayTiles overlayTile at hoverlaid
    rw [Proc.bind_fails (Proc.bind_fails hscan)] at hoverlaid
    cases hoverlaid
  · rw [hrest, hzeros] at hparsed
    cases hparsed

end Laid

/-- What the header has room for is all that the overlay needs. -/
theorem overlays_iff (hzstd : zstd.Lawful) (hrgba : rgba.length = width * height * 4)
    (hsize : rgba.length < Checked.sizeLimit) {d : EvrtckDecoder} (hdw : d.width = width)
    (hdh : d.height = height) (hd : d.frame.length = width * height * 4) :
    Overlays zstd rgba width height frameId tileIndices d ↔ OverlayFits width height tileIndices :=
  ⟨fits_of_overlays hzstd hrgba hsize hdw hdh, overlays_of_fits hzstd hrgba hsize hdw hdh hd⟩

end Overlays

theorem overlays_iff_one_tile :
    Overlays EvrtckDecoder.prefixing [1, 2, 3, 4] 1 1 0 [0, 7, 0] ⟨[9, 9, 9, 9], 1, 1⟩ ↔
      OverlayFits 1 1 [0, 7, 0] :=
  @overlays_iff _ [1, 2, 3, 4] 1 1 0 [0, 7, 0] prefixing_lawful rfl (by decide)
    ⟨[9, 9, 9, 9], 1, 1⟩ rfl rfl rfl

/-- A row of pixels that is one tile too wide. -/
theorem wide_overlay_is_lost :
    ¬ ∀ (zstd : Zstd) (rgba : List UInt8) (width height : Nat) (frameId : UInt32)
      (tileIndices : List UInt16) (d : EvrtckDecoder), zstd.Lawful →
      rgba.length = width * height * 4 → rgba.length < Checked.sizeLimit →
      d.width = width → d.height = height → d.frame.length = width * height * 4 →
      Overlays zstd rgba width height frameId tileIndices d := by
  intro hall
  have hlength : (List.replicate 67107968 (0 : UInt8)).length = 16776992 * 1 * 4 :=
    List.length_replicate
  have hsize : (List.replicate 67107968 (0 : UInt8)).length < Checked.sizeLimit := by
    rw [hlength]
    decide
  have hoverlays := hall EvrtckDecoder.prefixing (List.replicate 67107968 0) 16776992 1 0
    [0] ⟨List.replicate 67107968 0, 16776992, 1⟩ prefixing_lawful hlength hsize rfl rfl
    hlength
  obtain ⟨_, _, hfew | hnone⟩ := fits_of_overlays prefixing_lawful hlength hsize rfl rfl hoverlays
  · exact absurd hfew (by decide)
  · have hlisted : 0 ∈ listedTiles 16776992 1 [0] :=
      List.mem_filter.mpr ⟨List.mem_range.mpr (by decide), by decide⟩
    rw [hnone] at hlisted
    cases hlisted

end EvertyDesk.Evrtck
