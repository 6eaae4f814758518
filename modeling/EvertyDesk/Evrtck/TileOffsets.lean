import EvertyDesk.Evrtck.Sync
import EvertyDesk.Evrtck.Totality

/-!
Where the tiles of a packet are. The encoder can tell the range of each tile's bytes, by
which a session splits the packet. A range names its tile by the 16 bits that the packet
has for it.
-/

namespace EvertyDesk.Evrtck

section Frames

variable (zstd : Zstd) (rgba prev : List UInt8) (width height : Nat)

/-- The encoder that does not tell the ranges. -/
def encodeFrame (frameId : UInt32) (isKeyframe : Bool) (focus : Option (Nat × Nat)) :
    List UInt8 × FrameStats :=
  let frame := encodeFrameWithOffsets zstd rgba prev width height frameId isKeyframe focus false
  (frame.data, frame.stats)

/-- The tiles that a frame needs. -/
def sentTiles (isKeyframe : Bool) : List Nat :=
  if isKeyframe then List.range (tilesInDim width * tilesInDim height)
  else differingTiles rgba prev width height

/-- The frame that the tiles are painted over. -/
def paintedOver (isKeyframe : Bool) : List UInt8 :=
  if isKeyframe then List.replicate (width * height * 4) 0 else bgraToRgba prev

end Frames

/-- The ranges follow one another from one position to another. -/
def Contiguous : Nat → List TileOffset → Nat → Prop
  | start, [], stop => start = stop
  | start, offset :: offsets, stop =>
      offset.byteStart = start ∧ Contiguous (start + offset.byteLen) offsets stop

/-- What the decoder makes of the entry of one tile, alone. -/
def decodeEntry (zstd : Zstd) (width height : Nat) (part frame : List UInt8) :
    Checked (Except EvrtckError Nat × Decoding) :=
  (do
    let entry ← scanTile part width height (tilesInDim width) (tilesInDim width * tilesInDim height)
    let _painted ← paintFrame zstd part width none [entry]
    return entry.idx : Decode Nat) ⟨0, frame⟩

/-- The bytes of a range are read to their end, as its tile, and make that tile the new
frame's and nothing else. -/
def DecodesAlone (zstd : Zstd) (width height : Nat) (data frame target : List UInt8)
    (offset : TileOffset) : Prop :=
  ∃ after, decodeEntry zstd width height (field data offset.byteStart offset.byteLen) frame =
      .ok (.ok offset.tileIdx.toNat, ⟨offset.byteLen, after⟩) ∧
    after.length = width * height * 4 ∧
    ∀ i < width * height * 4, after[i]? =
      if tileOf width i = offset.tileIdx.toNat then target[i]? else frame[i]?

/-- What a session relies on. -/
structure OffsetsExact (zstd : Zstd) (rgba prev : List UInt8) (width height : Nat)
    (frameId : UInt32) (isKeyframe : Bool) (focus : Option (Nat × Nat))
    (frame : EncodedFrame) : Prop where
  same_bytes : (frame.data, frame.stats) =
    encodeFrame zstd rgba prev width height frameId isKeyframe focus
  nop : isKeyframe = false → rgba = prev → frame.offsets = []
  contiguous : (isKeyframe = false → rgba ≠ prev) →
    Contiguous (frameHeaderLen + (tilesInDim width * tilesInDim height + 7) / 8)
      frame.offsets frame.data.length
  tiles : (frame.offsets.map (·.tileIdx.toNat)).Perm (sentTiles rgba prev width height isKeyframe)
  unique : (frame.offsets.map (·.tileIdx)).Nodup
  alone : ∀ offset ∈ frame.offsets, DecodesAlone zstd width height frame.data
    (paintedOver prev width height isKeyframe) (bgraToRgba rgba) offset

/-! The ranges of some tiles. -/

section Ranges

variable {tiles : List DirtyTile}

theorem contiguous_tileOffsets (start : Nat) (tiles : List DirtyTile) :
    Contiguous start (tileOffsets start tiles) (start + (tiles.flatMap tileEntry).length) := by
  induction tiles generalizing start with
  | nil => rfl
  | cons tile tiles ih =>
      rw [List.flatMap_cons, List.length_append, ← Nat.add_assoc]
      exact ⟨rfl, ih _⟩

theorem tileOffsets_idx (start : Nat) (tiles : List DirtyTile) :
    (tileOffsets start tiles).map (·.tileIdx) = tiles.map fun tile => UInt16.ofNat tile.idx := by
  induction tiles generalizing start with
  | nil => rfl
  | cons tile tiles ih => exact congrArg _ (ih _)

/-- A range has the entry of its tile. -/
theorem field_of_tileOffsets {head : List UInt8} {offset : TileOffset}
    (h : offset ∈ tileOffsets head.length tiles) (tail : List UInt8) :
    ∃ tile ∈ tiles, offset.tileIdx = UInt16.ofNat tile.idx ∧
      offset.byteLen = (tileEntry tile).length ∧
      field (head ++ (tiles.flatMap tileEntry ++ tail)) offset.byteStart offset.byteLen =
        tileEntry tile := by
  induction tiles generalizing head with
  | nil => simp [tileOffsets] at h
  | cons tile tiles ih =>
      rw [tileOffsets, List.mem_cons] at h
      rw [List.flatMap_cons, List.append_assoc]
      rcases h with rfl | hlater
      · refine ⟨tile, List.mem_cons_self, rfl, rfl, ?_⟩
        rw [field, List.drop_left, List.take_left]
      · rw [← List.length_append] at hlater
        obtain ⟨other, hother, hidx, hlength, hfield⟩ := ih hlater
        refine ⟨other, List.mem_cons_of_mem _ hother, hidx, hlength, ?_⟩
        rwa [List.append_assoc] at hfield

end Ranges

/-! One entry. -/

section Entry

variable {zstd : Zstd} {width height : Nat} {tile : TileData} {pixels : TilePixels}
  {frame : List UInt8}

theorem decodeEntry_run (hsize : width * height * 4 < Checked.sizeLimit)
    (hframe : frame.length = width * height * 4)
    (hidx : tile.idx < tilesInDim width * tilesInDim height) (hshort : tile.idx < 2 ^ 16)
    (hlegible : tile.Legible) (hpixels : tilePixels zstd tile = .ok pixels)
    (hfits : pixels.Fits (rectOf width height tile.idx)) :
    decodeEntry zstd width height tile.entry frame = .ok (.ok tile.idx,
      ⟨tile.entry.length, paintTile width (rectOf width height tile.idx) frame pixels⟩) := by
  have hlength := hlegible.entry_length_le
  have hdata : tile.entry.length < Checked.sizeLimit := by
    rw [Checked.sizeLimit]
    omega
  have hparsed := parseTile_entry hidx hshort hlegible []
  rw [List.append_nil] at hparsed
  have hscans : Reads tile.entry (scanTile tile.entry width height _ _) _ _ := scanTile_reads hdata
  rcases hscans.run (s := ⟨0, frame⟩) (Nat.zero_le _) with
    ⟨hnone, -⟩ | ⟨parsed, rest, entry, t, hparse, hrun, hsame, hmatches, htpos, hrest⟩
  · rw [List.drop_zero, hparsed] at hnone
    cases hnone
  · rw [List.drop_zero, hparsed] at hparse
    obtain ⟨rfl, rfl⟩ := Prod.mk.inj (Option.some.inj hparse)
    have hall : List.Forall₂ (Matches tile.entry width height) [entry] [tile] := .cons hmatches .nil
    have hend : t.pos = tile.entry.length := by
      have hdone := List.drop_eq_nil_iff.mp hrest
      omega
    obtain ⟨outcome, u, hpaint, hpos, -, hpainted⟩ := paintTiles_run hsize
      (paintable_of_matches zstd hall) (s := t) (hsame ▸ hframe)
    have hplace : List.Forall₂ (fun (tile : TileEntry × Except EvrtckError TilePixels)
        (place : TileRect × TilePixels) =>
          tile.1.rect = place.1 ∧ tile.2 = .ok place.2 ∧ place.2.Fits place.1)
        ([entry].zip ([tile].map (tilePixels zstd))) [(rectOf width height tile.idx, pixels)] :=
      .cons ⟨hmatches.rect, hpixels, hfits⟩ .nil
    obtain ⟨rfl, hafter⟩ := hpainted _ hplace
    have hsorted : sortByPriority none ([entry].zip ([tile].map (tilePixels zstd))) =
        .ok ([entry].zip ([tile].map (tilePixels zstd))) := rfl
    have hpaintFrame : paintFrame zstd tile.entry width none [entry] t =
        .ok (.ok [entry.idx], u) := by
      unfold paintFrame
      rw [Proc.lift_bind (decompressTiles_ok hall), Proc.lift_bind hsorted,
        Proc.bind_returns hpaint]
      rfl
    have hfinal : u = ⟨tile.entry.length,
        paintTile width (rectOf width height tile.idx) frame pixels⟩ := by
      have hover : u.frame = paintTile width (rectOf width height tile.idx) frame pixels := by
        rw [hafter, hsame]
        rfl
      rw [← hend, ← hpos, ← hover]
    unfold decodeEntry
    rw [Proc.bind_returns hrun, Proc.bind_returns hpaintFrame, hfinal, hmatches.idx]
    rfl

end Entry

/-! The ranges of a frame. -/

section Main

variable {zstd : Zstd} {rgba prev : List UInt8} {width height : Nat} {frameId : UInt32}
  {isKeyframe : Bool} {focus : Option (Nat × Nat)}

theorem differingTiles_same (frame : List UInt8) (width height : Nat) :
    differingTiles frame frame width height = [] := by
  rw [differingTiles, List.filter_eq_nil_iff]
  intro idx _
  simp [tileIsDirty]

theorem sentTiles_lt {idx : Nat} (h : idx ∈ sentTiles rgba prev width height isKeyframe) :
    idx < tilesInDim width * tilesInDim height := by
  rw [sentTiles] at h
  split at h
  · exact List.mem_range.mp h
  · exact (mem_differingTiles.mp h).1

theorem sentTiles_nodup : (sentTiles rgba prev width height isKeyframe).Nodup := by
  rw [sentTiles]
  split
  · exact List.nodup_range
  · exact differingTiles_nodup rgba prev width height

/-- A frame that is sent is the header, the bitmap and the entries in some order, each with
its range. -/
theorem encoded_parts (zstd : Zstd) (frameId : UInt32) (focus : Option (Nat × Nat))
    (hchanged : isKeyframe = false → rgba ≠ prev) :
    ∃ (order : List Nat) (head : List UInt8),
      order.Perm (sentTiles rgba prev width height isKeyframe) ∧
      head.length = frameHeaderLen + (tilesInDim width * tilesInDim height + 7) / 8 ∧
      (encodeFrameWithOffsets zstd rgba prev width height frameId isKeyframe focus true).data =
        head ++ (order.map (encodeTile zstd rgba prev width height isKeyframe)).flatMap tileEntry ∧
      (encodeFrameWithOffsets zstd rgba prev width height frameId isKeyframe focus
        true).offsets = tileOffsets head.length
          (order.map (encodeTile zstd rgba prev width height isKeyframe)) := by
  have hassembled : ∃ flags,
      encodeFrameWithOffsets zstd rgba prev width height frameId isKeyframe focus true =
        assembleFrame version flags frameId width height []
          ((sentTiles rgba prev width height isKeyframe).map
            (encodeTile zstd rgba prev width height isKeyframe)) focus true := by
    cases isKeyframe with
    | true => exact ⟨flagKeyframe, rfl⟩
    | false => exact ⟨0, encodeFrameWithOffsets_differing zstd (hchanged rfl) ..⟩
  obtain ⟨flags, hframe⟩ := hassembled
  obtain ⟨order, hperm, horder⟩ := orderByFocus_tiles
    (encodeTile zstd rgba prev width height isKeyframe) (fun _ => rfl)
    (sentTiles rgba prev width height isKeyframe) (tilesInDim width) focus
  rw [hframe]
  unfold assembleFrame
  dsimp only
  rw [horder]
  refine ⟨order, _, hperm, ?_, rfl, if_pos rfl⟩
  rw [List.nil_append, List.length_append, frameHeader_length, tileMap, foldl_setBit_length,
    List.length_replicate]

theorem offsets_unchanged (zstd : Zstd) (hsame : rgba = prev) (width height : Nat)
    (frameId : UInt32) (focus : Option (Nat × Nat)) :
    (encodeFrameWithOffsets zstd rgba prev width height frameId false focus true).offsets = [] := by
  rw [encodeFrameWithOffsets_same zstd hsame]
  rfl

/-- An entry makes its tile the new frame's. -/
theorem decodeEntry_encoded (hzstd : zstd.Lawful) (hsize : width * height * 4 < Checked.sizeLimit)
    (hrgba : rgba.length = width * height * 4) (hprev : prev.length = width * height * 4)
    {idx : Nat} (hidx : idx < tilesInDim width * tilesInDim height) (hshort : idx < 2 ^ 16) :
    let part := tileEntry (encodeTile zstd rgba prev width height isKeyframe idx)
    let frame := paintedOver prev width height isKeyframe
    ∃ after, decodeEntry zstd width height part frame = .ok (.ok idx, ⟨part.length, after⟩) ∧
      after.length = width * height * 4 ∧
      ∀ i < width * height * 4, after[i]? =
        if tileOf width i = idx then (bgraToRgba rgba)[i]? else frame[i]? := by
  intro part frame
  obtain ⟨hentry, hlegible, hpixels⟩ := codedTile_spec hzstd rgba prev isKeyframe hidx
  have hframe : frame.length = width * height * 4 := by
    simp only [frame, paintedOver]
    split
    · exact List.length_replicate
    · exact (bgraToRgba_length (by omega)).trans hprev
  have hcarries : Carries width (rectOf width height idx) frame (bgraToRgba rgba)
      (encodedPixels rgba prev width height isKeyframe idx) := by
    cases isKeyframe with
    | true => exact encodedPixels_key hidx hrgba prev
    | false => exact encodedPixels_delta hidx hrgba hprev
  obtain ⟨hlength, hpositions⟩ := paintTile_carries (tileRect_within hidx)
    ((bgraToRgba_length (by omega)).trans hrgba) hframe (fun _ _ => rfl) hcarries
  refine ⟨_, ?_, hlength, fun i hi => ?_⟩
  · simp only [part]
    rw [hentry]
    exact decodeEntry_run hsize hframe hidx hshort hlegible hpixels
      (encodedPixels_fits rgba prev width height isKeyframe idx)
  · rw [hpositions i]
    exact if_congr (tileOf_eq_iff hi).symm rfl rfl

/-- What a range says in 16 bits is the number of its tile only if it fits. -/
theorem sentTiles_short (h : OffsetsExact zstd rgba prev width height frameId isKeyframe focus
    (encodeFrameWithOffsets zstd rgba prev width height frameId isKeyframe focus true)) :
    ∀ idx ∈ sentTiles rgba prev width height isKeyframe, idx < 2 ^ 16 := by
  intro idx hidx
  obtain ⟨offset, -, rfl⟩ := List.mem_map.mp (h.tiles.symm.subset hidx)
  exact offset.tileIdx.toNat_lt

theorem offsets_exact_of_short (hzstd : zstd.Lawful)
    (hsize : width * height * 4 < Checked.sizeLimit)
    (hrgba : rgba.length = width * height * 4) (hprev : prev.length = width * height * 4)
    (hshort : ∀ idx ∈ sentTiles rgba prev width height isKeyframe, idx < 2 ^ 16) :
    OffsetsExact zstd rgba prev width height frameId isKeyframe focus
      (encodeFrameWithOffsets zstd rgba prev width height frameId isKeyframe focus true) := by
  have hplain : ((encodeFrameWithOffsets zstd rgba prev width height frameId isKeyframe focus
        true).data, (encodeFrameWithOffsets zstd rgba prev width height frameId isKeyframe
          focus true).stats) =
      encodeFrame zstd rgba prev width height frameId isKeyframe focus := by
    unfold encodeFrame encodeFrameWithOffsets
    dsimp only
    split <;> rfl
  by_cases hchanged : isKeyframe = false → rgba ≠ prev
  · obtain ⟨order, head, hperm, hhead, hdata, hoffsets⟩ :=
      @encoded_parts _ _ width height _ zstd frameId focus hchanged
    have hid : ∀ idx ∈ order, idx < 2 ^ 16 := fun idx h => hshort idx (hperm.subset h)
    have hidx : ((encodeFrameWithOffsets zstd rgba prev width height frameId isKeyframe focus
        true).offsets.map (·.tileIdx)) = order.map UInt16.ofNat := by
      rw [hoffsets, tileOffsets_idx, List.map_map]
      rfl
    have hnumbers : ((encodeFrameWithOffsets zstd rgba prev width height frameId isKeyframe
        focus true).offsets.map (·.tileIdx.toNat)) = order := by
      have hmap := congrArg (List.map UInt16.toNat) hidx
      rw [List.map_map, List.map_map] at hmap
      refine hmap.trans ?_
      calc
        order.map (UInt16.toNat ∘ UInt16.ofNat) = order.map id :=
          List.map_congr_left fun idx h => by
            rw [Function.comp_apply, UInt16.toNat_ofNat', Nat.mod_eq_of_lt (hid idx h), id]
        _ = order := List.map_id order
    constructor
    · exact hplain
    · intro hdelta hsame
      exact absurd hsame (hchanged hdelta)
    · intro _
      rw [hoffsets, hdata, List.length_append, ← hhead]
      exact contiguous_tileOffsets _ _
    · rw [hnumbers]
      exact hperm
    · apply List.Nodup.of_map UInt16.toNat
      rw [List.map_map]
      have hnodup := hperm.nodup_iff.mpr sentTiles_nodup
      rw [← hnumbers] at hnodup
      exact hnodup
    · intro offset hoffset
      rw [hoffsets] at hoffset
      obtain ⟨tile, htile, hnumber, hlength, hfield⟩ := field_of_tileOffsets hoffset []
      obtain ⟨idx, hmember, rfl⟩ := List.mem_map.mp htile
      have hfits := hid idx hmember
      have htoNat : offset.tileIdx.toNat = idx := by
        rw [hnumber, UInt16.toNat_ofNat']
        exact Nat.mod_eq_of_lt hfits
      rw [List.append_nil, ← hdata] at hfield
      rw [DecodesAlone, hfield, htoNat, hlength]
      exact decodeEntry_encoded hzstd hsize hrgba hprev (sentTiles_lt (hperm.subset hmember)) hfits
  · obtain ⟨rfl, rfl⟩ : isKeyframe = false ∧ rgba = prev := by
      simpa using hchanged
    have hnone := offsets_unchanged zstd (rfl : rgba = rgba) width height frameId focus
    constructor
    · exact hplain
    · exact fun _ _ => hnone
    · exact fun h => absurd rfl (h rfl)
    · rw [hnone, sentTiles, if_neg (by decide), differingTiles_same]
      exact List.Perm.refl []
    · rw [hnone]
      exact List.nodup_nil
    · rw [hnone]
      intro offset hoffset
      cases hoffset

end Main

/-- The ranges are exact if and only if the numbers of the tiles that are sent fit in the 16
bits that the packet has for them. -/
theorem offsets_exact_iff {zstd : Zstd} (hzstd : zstd.Lawful) {rgba prev : List UInt8}
    {width height : Nat} (hsize : width * height * 4 < Checked.sizeLimit)
    (hrgba : rgba.length = width * height * 4) (hprev : prev.length = width * height * 4)
    (frameId : UInt32) (isKeyframe : Bool) (focus : Option (Nat × Nat)) :
    OffsetsExact zstd rgba prev width height frameId isKeyframe focus
        (encodeFrameWithOffsets zstd rgba prev width height frameId isKeyframe focus true) ↔
      ∀ idx ∈ sentTiles rgba prev width height isKeyframe, idx < 2 ^ 16 :=
  ⟨sentTiles_short, offsets_exact_of_short hzstd hsize hrgba hprev⟩

/-- A key frame of two tiles. -/
theorem offsets_exact_iff_two :
    let rgba : List UInt8 := List.replicate 132 9
    let prev : List UInt8 := List.replicate 132 0
    let encoded := encodeFrameWithOffsets EvrtckDecoder.prefixing rgba prev 33 1 0 true none true
    (OffsetsExact EvrtckDecoder.prefixing rgba prev 33 1 0 true none encoded ↔
      ∀ idx ∈ sentTiles rgba prev 33 1 true, idx < 2 ^ 16) ∧
      encoded.offsets.map (·.tileIdx) = [0, 1] :=
  ⟨@offsets_exact_iff _ prefixing_lawful _ _ 33 1 (by decide) List.length_replicate
    List.length_replicate 0 true none, by decide +kernel⟩

/-- The last tile of a key frame with one row of 65537 tiles is taken for the first. -/
theorem wide_frame_offsets :
    ¬ ∀ (zstd : Zstd) (rgba prev : List UInt8) (width height : Nat) (frameId : UInt32)
      (isKeyframe : Bool) (focus : Option (Nat × Nat)), zstd.Lawful →
      width * height * 4 < Checked.sizeLimit → rgba.length = width * height * 4 →
      prev.length = width * height * 4 →
      OffsetsExact zstd rgba prev width height frameId isKeyframe focus
        (encodeFrameWithOffsets zstd rgba prev width height frameId isKeyframe focus true) := by
  intro hall
  have hexact := hall EvrtckDecoder.prefixing (List.replicate (2097153 * 1 * 4) 0)
    (List.replicate (2097153 * 1 * 4) 0) 2097153 1 0 true none prefixing_lawful
    (by decide) List.length_replicate List.length_replicate
  have hlast : 65536 ∈ sentTiles (List.replicate (2097153 * 1 * 4) 0)
      (List.replicate (2097153 * 1 * 4) 0) 2097153 1 true := by
    rw [sentTiles, if_pos rfl, List.mem_range]
    decide
  have hshort := sentTiles_short hexact 65536 hlast
  omega

end EvertyDesk.Evrtck
