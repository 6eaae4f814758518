import EvertyDesk.Evrtck.Encoder
import EvertyDesk.Evrtck.TileCoding
import EvertyDesk.Evrtck.Totality

/-!
The packets of the encoder, parsed: every part is found again, the dimensions as
far as their fields hold them.
-/

namespace EvertyDesk.Evrtck

/-! Parsing what was written. -/

section Parts

variable {part rest : List UInt8}

theorem takeBytes_append {n : Nat} (h : part.length = n) :
    takeBytes n (part ++ rest) = some (part, rest) := by
  subst h
  simp [takeBytes]

@[simp] theorem parse8_cons (byte : UInt8) (rest : List UInt8) :
    parse8 (byte :: rest) = some (byte, rest) := rfl

@[simp] theorem parse16_leBytes (n : Nat) (rest : List UInt8) :
    parse16 (leBytes 2 n ++ rest) = some (UInt16.ofNat n, rest) := by
  unfold parse16
  rw [Parse.bind_some (takeBytes_append (leBytes_length 2 n)), leNat_leBytes]
  have hmod : UInt16.ofNat (n % 256 ^ 2) = UInt16.ofNat n := by
    rw [← UInt16.toNat_inj, UInt16.toNat_ofNat', UInt16.toNat_ofNat']
    omega
  rw [hmod]
  rfl

@[simp] theorem parse32_leBytes (n : Nat) (rest : List UInt8) :
    parse32 (leBytes 4 n ++ rest) = some (UInt32.ofNat n, rest) := by
  unfold parse32
  rw [Parse.bind_some (takeBytes_append (leBytes_length 4 n)), leNat_leBytes]
  have hmod : UInt32.ofNat (n % 256 ^ 4) = UInt32.ofNat n := by
    rw [← UInt32.toNat_inj, UInt32.toNat_ofNat', UInt32.toNat_ofNat']
    omega
  rw [hmod]
  rfl

theorem parseCopyRects_bytes (width height : Nat) (rects : List CopyRect) (rest : List UInt8) :
    parseCopyRects width height rects.length (rects.flatMap CopyRect.bytes ++ rest) =
      some (rects.filter (CopyRect.isValid · width height), rest) := by
  induction rects with
  | nil => rfl
  | cons rect rects ih =>
      have hbytes : rect.bytes =
          leBytes 4 rect.srcX.toNat ++ (leBytes 4 rect.srcY.toNat ++
            (leBytes 4 rect.dstX.toNat ++ (leBytes 4 rect.dstY.toNat ++
              (leBytes 4 rect.width.toNat ++ leBytes 4 rect.height.toNat)))) := rfl
      rw [List.length_cons, List.flatMap_cons, hbytes]
      unfold parseCopyRects
      simp only [List.append_assoc]
      rw [Parse.bind_some (parse32_leBytes _ _), Parse.bind_some (parse32_leBytes _ _),
        Parse.bind_some (parse32_leBytes _ _), Parse.bind_some (parse32_leBytes _ _),
        Parse.bind_some (parse32_leBytes _ _), Parse.bind_some (parse32_leBytes _ _),
        Parse.bind_some ih]
      simp only [UInt32.ofNat_toNat]
      rw [List.filter_cons]
      rfl

theorem parseCopySection_written {ver flags : UInt8} (width height mapBytes : Nat)
    {rects : List CopyRect} (hrects : rects.length ≤ 65535)
    (hcopy : ver = versionCopyRects ∨ flags &&& flagCopyRects ≠ 0) (rest : List UInt8) :
    parseCopySection width height ⟨ver, flags, mapBytes⟩ (writeCopyRects rects ++ rest) =
      some (rects.filter (CopyRect.isValid · width height), rest) := by
  unfold parseCopySection writeCopyRects
  rw [if_pos hcopy, Nat.min_eq_left hrects, List.take_of_length_le hrects,
    List.append_assoc, Parse.bind_some (parse16_leBytes _ _)]
  rw [UInt16.toNat_ofNat', Nat.mod_eq_of_lt (by omega)]
  exact parseCopyRects_bytes width height rects rest

/-- The entry of a tile. -/
def TileData.entry (tile : TileData) : List UInt8 := leBytes 2 tile.idx ++ tile.bytes

theorem parseTile_entry {tileCount : Nat} {tile : TileData} (hidx : tile.idx < tileCount)
    (hshort : tile.idx < 2 ^ 16) (hlegible : tile.Legible) (rest : List UInt8) :
    parseTile tileCount (tile.entry ++ rest) = some (tile, rest) := by
  obtain ⟨hmodes, hpayload⟩ := hlegible
  unfold parseTile TileData.entry
  rw [List.append_assoc, Parse.bind_some (parse16_leBytes _ _), UInt16.toNat_ofNat',
    Nat.mod_eq_of_lt hshort, if_neg (by omega)]
  unfold TileData.bytes
  by_cases hsolid : tile.mode = modeSolid
  · have hlength : tile.payload.length = 4 := by
      rcases hmodes with ⟨_, hlength⟩ | hmode | hmode
      · exact hlength
      · rw [hsolid] at hmode
        exact absurd hmode (by decide)
      · rw [hsolid] at hmode
        exact absurd hmode (by decide)
    rw [if_pos hsolid, List.cons_append, Parse.bind_some (parse8_cons _ _), if_pos hsolid,
      Parse.bind_some (takeBytes_append hlength)]
    rfl
  · have hmode : tile.mode = modeDelta ∨ tile.mode = modeZstd := by
      rcases hmodes with ⟨hmode, _⟩ | hmode
      · exact absurd hmode hsolid
      · exact hmode
    rw [if_neg hsolid, List.cons_append, Parse.bind_some (parse8_cons _ _), if_neg hsolid,
      if_pos hmode, List.append_assoc, Parse.bind_some (parse32_leBytes _ _),
      UInt32.toNat_ofNat', Nat.mod_eq_of_lt hpayload,
      Parse.bind_some (takeBytes_append rfl)]
    rfl

theorem parseTiles_entries {tileCount : Nat} {tiles : List TileData}
    (h : ∀ tile ∈ tiles, tile.idx < tileCount ∧ tile.idx < 2 ^ 16 ∧ tile.Legible)
    (rest : List UInt8) :
    parseTiles tileCount tiles.length (tiles.flatMap TileData.entry ++ rest) =
      some (tiles, rest) := by
  induction tiles with
  | nil => rfl
  | cons tile tiles ih =>
      obtain ⟨hidx, hshort, hlegible⟩ := h tile List.mem_cons_self
      rw [List.length_cons, List.flatMap_cons, List.append_assoc]
      unfold parseTiles
      rw [Parse.bind_some (parseTile_entry hidx hshort hlegible _),
        Parse.bind_some (ih fun other hother => h other (List.mem_cons_of_mem _ hother))]
      rfl

end Parts

/-! The header. -/

section Header

variable {ver flags : UInt8} {width height : Nat}

theorem parsePrologue_header (hver : ver = version ∨ ver = versionCopyRects)
    (frameId : UInt32) (mapBytes : Nat) (rest : List UInt8) :
    parsePrologue (frameHeader ver flags frameId width height mapBytes ++ rest) =
      some ((ver, flags),
        leBytes 4 width ++ (leBytes 4 height ++ (leBytes 2 mapBytes ++ rest))) := by
  unfold parsePrologue frameHeader
  simp only [List.append_assoc, List.cons_append]
  rw [Parse.bind_some (takeBytes_append magic_length), if_neg (not_not.mpr rfl),
    Parse.bind_some (parse8_cons _ _),
    if_neg (fun h => hver.elim (fun heq => h.1 heq) (fun heq => h.2 heq)),
    Parse.bind_some (parse8_cons _ _), Parse.bind_some (parse32_leBytes _ _)]
  rfl

theorem parseHead_header (hnop : flags &&& flagNop = 0) (mapBytes : Nat)
    (hmap : mapBytes < 2 ^ 16) (rest : List UInt8) :
    parseHead (width % 2 ^ 32) (height % 2 ^ 32) ver flags
        (leBytes 4 width ++ (leBytes 4 height ++ (leBytes 2 mapBytes ++ rest))) =
      some (some ⟨ver, flags, mapBytes⟩, rest) := by
  unfold parseHead
  rw [Parse.bind_some (parse32_leBytes _ _), Parse.bind_some (parse32_leBytes _ _),
    UInt32.toNat_ofNat', UInt32.toNat_ofNat', if_neg (by simp), if_neg (not_not.mpr hnop),
    Parse.bind_some (parse16_leBytes _ _), UInt16.toNat_ofNat', Nat.mod_eq_of_lt hmap]
  rfl

theorem wire_header (ver flags : UInt8) (frameId : UInt32) (width height mapBytes : Nat)
    (rest : List UInt8) :
    let data := frameHeader ver flags frameId width height mapBytes ++ rest
    field data 0 4 = magic ∧ wireWidth data = width % 2 ^ 32 ∧
      wireHeight data = height % 2 ^ 32 := by
  intro data
  have hdata : data = magic ++ ([ver, flags] ++ leBytes 4 frameId.toNat ++
      (leBytes 4 width ++ (leBytes 4 height ++ (leBytes 2 mapBytes ++ rest)))) := by
    simp [data, frameHeader]
  have hfront : (magic ++ ([ver, flags] ++ leBytes 4 frameId.toNat)).length = 10 := by
    simp
  have hwidth : data = (magic ++ ([ver, flags] ++ leBytes 4 frameId.toNat)) ++
      (leBytes 4 width ++ (leBytes 4 height ++ (leBytes 2 mapBytes ++ rest))) := by
    simp [data, frameHeader]
  have hheight : data = (magic ++ ([ver, flags] ++ leBytes 4 frameId.toNat) ++
      leBytes 4 width) ++ (leBytes 4 height ++ (leBytes 2 mapBytes ++ rest)) := by
    simp [data, frameHeader]
  refine ⟨?_, ?_, ?_⟩
  · rw [hdata]
    exact field_here magic_length
  · rw [wireWidth, hwidth, field_append hfront (leBytes_length 4 width), leNat_leBytes]
    rfl
  · rw [wireHeight, hheight, field_append (by simp) (leBytes_length 4 height), leNat_leBytes]
    rfl

end Header

/-! The tiles of a frame. -/

section Assembled

variable {zstd : Zstd} {rgba prev : List UInt8} {width height : Nat}
  {isKeyframe : Bool} {indices : List Nat}

/-- What the packet says of a tile that was encoded. -/
def codedTile (zstd : Zstd) (rgba prev : List UInt8) (width height : Nat)
    (isKeyframe : Bool) (idx : Nat) : TileData :=
  let tile := encodeTile zstd rgba prev width height isKeyframe idx
  { idx := idx
    mode := tile.mode
    payload := tile.data.drop (if tile.mode = modeSolid then 1 else 5) }

theorem codedTile_spec (hzstd : zstd.Lawful) (rgba prev : List UInt8)
    (isKeyframe : Bool) {idx : Nat}
    (hidx : idx < tilesInDim width * tilesInDim height) :
    tileEntry (encodeTile zstd rgba prev width height isKeyframe idx) =
        (codedTile zstd rgba prev width height isKeyframe idx).entry ∧
      (codedTile zstd rgba prev width height isKeyframe idx).Legible ∧
      tilePixels zstd (codedTile zstd rgba prev width height isKeyframe idx) =
        .ok (encodedPixels rgba prev width height isKeyframe idx) := by
  obtain ⟨tile, hsame, hlegible, hencode, hpixels⟩ :=
    encodeTileBuf_codes hzstd rgba prev isKeyframe hidx
  have hencoded : encodeTile zstd rgba prev width height isKeyframe idx =
      ⟨idx, tile.bytes, tile.mode⟩ := by
    unfold encodeTile
    dsimp only
    rw [hencode]
  have hcoded : codedTile zstd rgba prev width height isKeyframe idx = tile := by
    unfold codedTile
    dsimp only
    rw [hencoded, ← hsame]
    dsimp only
    have hpayload : tile.bytes.drop (if tile.mode = modeSolid then 1 else 5) =
        tile.payload := by
      unfold TileData.bytes
      split
      · rfl
      · rw [List.drop_succ_cons, List.drop_left' (leBytes_length 4 _)]
    rw [hpayload]
  have hentry : tileEntry (encodeTile zstd rgba prev width height isKeyframe idx) =
      tile.entry := by
    rw [hencoded, tileEntry, TileData.entry, hsame]
  rw [hcoded]
  exact ⟨hentry, hlegible, hpixels⟩

/-- The order of the tiles in the packet. -/
theorem orderByFocus_tiles (f : Nat → DirtyTile) (hf : ∀ idx, (f idx).idx = idx)
    (indices : List Nat) (tilesX : Nat) (focus : Option (Nat × Nat)) :
    ∃ order : List Nat, order.Perm indices ∧
      orderByFocus (indices.map f) tilesX focus = order.map f := by
  cases focus with
  | none => exact ⟨indices, List.Perm.refl _, rfl⟩
  | some focus =>
      unfold orderByFocus
      dsimp only
      generalize hsorted : (indices.map f).mergeSort _ = sorted
      have hperm : sorted.Perm (indices.map f) := hsorted ▸ List.mergeSort_perm _ _
      refine ⟨sorted.map DirtyTile.idx, ?_, ?_⟩
      · have hindices := hperm.map DirtyTile.idx
        have hsame : indices.map (DirtyTile.idx ∘ f) = indices.map id :=
          List.map_congr_left fun idx _ => hf idx
        rwa [List.map_map, hsame, List.map_id] at hindices
      · have hsame : ∀ tile ∈ sorted, (f ∘ DirtyTile.idx) tile = tile := by
          intro tile htile
          obtain ⟨idx, _, rfl⟩ := List.mem_map.mp (hperm.subset htile)
          rw [Function.comp_apply, hf]
        rw [List.map_map, List.map_congr_left hsame, List.map_id']

/-- What stands between the header and the bitmap. -/
def CopySection (ver flags : UInt8) (copied : List UInt8) (rects : List CopyRect) : Prop :=
  (ver = versionCopyRects ∨ flags &&& flagCopyRects ≠ 0) ∧
      copied = writeCopyRects rects ∧ rects.length ≤ 65535 ∨
    ¬ (ver = versionCopyRects ∨ flags &&& flagCopyRects ≠ 0) ∧ copied = [] ∧ rects = []

/-- The parts of an assembled packet. -/
theorem assembleFrame_data (zstd : Zstd) (rgba prev : List UInt8) (isKeyframe : Bool)
    (ver flags : UInt8) (frameId : UInt32) (width height : Nat) (copied : List UInt8)
    (focus : Option (Nat × Nat)) (wantOffsets : Bool) (indices : List Nat) :
    let tileCount := tilesInDim width * tilesInDim height
    ∃ order : List Nat, order.Perm indices ∧
      (assembleFrame ver flags frameId width height copied
        (indices.map (encodeTile zstd rgba prev width height isKeyframe)) focus
        wantOffsets).data =
      frameHeader ver flags frameId width height ((tileCount + 7) / 8) ++ (copied ++
        (indices.foldl setBit (List.replicate ((tileCount + 7) / 8) 0) ++
          order.flatMap fun idx =>
            tileEntry (encodeTile zstd rgba prev width height isKeyframe idx))) := by
  intro tileCount
  obtain ⟨order, hperm, horder⟩ := orderByFocus_tiles
    (encodeTile zstd rgba prev width height isKeyframe) (fun _ => rfl) indices
    (tilesInDim width) focus
  refine ⟨order, hperm, ?_⟩
  have hmap : tileMap tileCount
      (indices.map (encodeTile zstd rgba prev width height isKeyframe)) =
      indices.foldl setBit (List.replicate ((tileCount + 7) / 8) 0) := by
    rw [tileMap, List.map_map]
    congr 1
    exact List.map_id' indices
  unfold assembleFrame
  dsimp only
  rw [horder, hmap, List.flatMap_map, List.append_assoc, List.append_assoc]

theorem flatMap_length_le {Index : Type} {part : Index → List UInt8} {bound : Nat}
    {items : List Index} (h : ∀ item ∈ items, (part item).length ≤ bound) :
    (items.flatMap part).length ≤ items.length * bound := by
  induction items with
  | nil => exact Nat.zero_le _
  | cons item items ih =>
      have hfirst := h item List.mem_cons_self
      have hrest := ih fun other hother => h other (List.mem_cons_of_mem _ hother)
      rw [List.flatMap_cons, List.length_append, List.length_cons, Nat.succ_mul]
      omega

theorem writeCopyRects_length_le (rects : List CopyRect) :
    (writeCopyRects rects).length ≤ 2 + 65535 * 24 := by
  have hrects := flatMap_length_le (fun rect (_ : rect ∈ rects.take 65535) =>
    (CopyRect.bytes_length rect).le)
  rw [List.length_take] at hrects
  rw [writeCopyRects, List.length_append, leBytes_length]
  omega

namespace CopySection

variable {ver flags : UInt8} {copied : List UInt8} {rects : List CopyRect}

theorem length_le (h : CopySection ver flags copied rects) : copied.length ≤ 2 + 65535 * 24 := by
  rcases h with ⟨_, rfl, _⟩ | ⟨_, rfl, _⟩
  · exact writeCopyRects_length_le rects
  · exact Nat.zero_le _

/-- The section is read back, but for the moves that do not fit in the frame. -/
theorem parse (h : CopySection ver flags copied rects) (width height mapBytes : Nat)
    (rest : List UInt8) :
    parseCopySection width height ⟨ver, flags, mapBytes⟩ (copied ++ rest) =
      some (rects.filter (CopyRect.isValid · width height), rest) := by
  rcases h with ⟨hcopy, rfl, hshort⟩ | ⟨hcopy, rfl, rfl⟩
  · exact parseCopySection_written _ _ _ hshort hcopy rest
  · unfold parseCopySection
    rw [if_neg hcopy]
    rfl

end CopySection

/-- A bitmap and as many tiles as it marks are read back. -/
theorem parseTileSection_entries {width height mapBytes : Nat} {tileMap : List UInt8}
    {tiles : List TileData} (hmap : tileMap.length = mapBytes)
    (hpop : popCount tileMap = tiles.length)
    (htiles : ∀ tile ∈ tiles, tile.idx < tilesInDim width * tilesInDim height ∧
      tile.idx < 2 ^ 16 ∧ tile.Legible) :
    parseTileSection width height mapBytes (tileMap ++ tiles.flatMap TileData.entry) =
      some (tiles, []) := by
  unfold parseTileSection
  rw [Parse.bind_some (takeBytes_append hmap), hpop]
  have hread := parseTiles_entries htiles []
  rwa [List.append_nil] at hread

theorem TileData.Legible.entry_length_le {tile : TileData} (h : tile.Legible) :
    tile.entry.length ≤ 2 ^ 32 + 7 := by
  have hshort := h.2
  unfold TileData.entry TileData.bytes
  split
  · simp only [List.length_append, leBytes_length, List.length_cons]
    omega
  · simp only [List.length_append, leBytes_length, List.length_cons]
    omega

/-- What follows the header is read back. -/
theorem parseChanges_sections {ver flags : UInt8} {copied : List UInt8} {rects : List CopyRect}
    {width height mapBytes : Nat} {tileMap : List UInt8} {tiles : List TileData}
    (hcopied : CopySection ver flags copied rects) (hmap : tileMap.length = mapBytes)
    (hpop : popCount tileMap = tiles.length)
    (htiles : ∀ tile ∈ tiles, tile.idx < tilesInDim width * tilesInDim height ∧
      tile.idx < 2 ^ 16 ∧ tile.Legible) :
    parseChanges width height (some ⟨ver, flags, mapBytes⟩)
        (copied ++ (tileMap ++ tiles.flatMap TileData.entry)) =
      some ({ rects := rects.filter (CopyRect.isValid · width height), tiles := tiles }, []) := by
  unfold parseChanges
  dsimp only
  rw [Parse.bind_some (hcopied.parse _ _ _ _),
    Parse.bind_some (parseTileSection_entries hmap hpop htiles)]
  rfl

/-- The bitmap has a bit for each of the tiles. -/
theorem popCount_tileMap {tileCount : Nat} {order : List Nat} (hperm : order.Perm indices)
    (hnodup : indices.Nodup) (hindices : ∀ idx ∈ indices, idx < tileCount) :
    popCount (indices.foldl setBit (List.replicate ((tileCount + 7) / 8) 0)) = order.length := by
  rw [hperm.length_eq]
  apply popCount_foldl_setBit hnodup
  intro idx hidx
  have := hindices idx hidx
  omega

/-- An assembled packet says what was put into it. -/
theorem parse_assembled (hzstd : zstd.Lawful) {ver flags : UInt8} {copied : List UInt8}
    {rects : List CopyRect} (hver : ver = version ∨ ver = versionCopyRects)
    (hnop : flags &&& flagNop = 0)
    (hcopied : CopySection ver flags copied rects)
    (htiles : tilesInDim width * tilesInDim height ≤ 65536)
    (hdims : tilesInDim (width % 2 ^ 32) * tilesInDim (height % 2 ^ 32) =
      tilesInDim width * tilesInDim height)
    (hnodup : indices.Nodup)
    (hindices : ∀ idx ∈ indices, idx < tilesInDim width * tilesInDim height)
    (rgba prev : List UInt8) (isKeyframe : Bool) (frameId : UInt32)
    (focus : Option (Nat × Nat)) (wantOffsets : Bool) :
    let data := (assembleFrame ver flags frameId width height copied
      (indices.map (encodeTile zstd rgba prev width height isKeyframe)) focus
      wantOffsets).data
    data.length < Checked.sizeLimit ∧ 18 ≤ data.length ∧ field data 0 4 = magic ∧
      wireWidth data = width % 2 ^ 32 ∧ wireHeight data = height % 2 ^ 32 ∧
      ∃ order : List Nat, order.Perm indices ∧
        parseFrame (width % 2 ^ 32) (height % 2 ^ 32) data = some ((flags, {
          rects := rects.filter (CopyRect.isValid · (width % 2 ^ 32) (height % 2 ^ 32))
          tiles := order.map (codedTile zstd rgba prev width height isKeyframe) }), []) := by
  intro data
  obtain ⟨order, hperm, hdata⟩ := assembleFrame_data zstd rgba prev isKeyframe ver flags
    frameId width height copied focus wantOffsets indices
  change data = _ at hdata
  generalize htileCount : tilesInDim width * tilesInDim height = tileCount at *
  have horder : ∀ idx ∈ order, idx < tileCount := fun idx hidx =>
    hindices idx (hperm.subset hidx)
  have hspec := fun idx (hidx : idx ∈ order) =>
    codedTile_spec hzstd rgba prev isKeyframe (htileCount ▸ horder idx hidx)
  have hentries : (order.flatMap fun idx =>
      tileEntry (encodeTile zstd rgba prev width height isKeyframe idx)) =
      (order.map (codedTile zstd rgba prev width height isKeyframe)).flatMap
        TileData.entry := by
    rw [List.flatMap_map]
    exact List.flatMap_congr fun idx hidx => (hspec idx hidx).1
  have hcount : order.length ≤ tileCount := by
    have hsub := List.subperm_of_subset (hperm.nodup_iff.mpr hnodup)
      (fun idx hidx => List.mem_range.mpr (horder idx hidx))
    simpa using hsub.length_le
  have hmap : (indices.foldl setBit (List.replicate ((tileCount + 7) / 8) 0)).length =
      (tileCount + 7) / 8 := by
    rw [foldl_setBit_length, List.length_replicate]
  have hpop : popCount (indices.foldl setBit (List.replicate ((tileCount + 7) / 8) 0)) =
      (order.map (codedTile zstd rgba prev width height isKeyframe)).length := by
    rw [List.length_map]
    exact popCount_tileMap hperm hnodup hindices
  obtain ⟨hmagic, hwidth, hheight⟩ := wire_header ver flags frameId width height
    ((tileCount + 7) / 8) (copied ++
      (indices.foldl setBit (List.replicate ((tileCount + 7) / 8) 0) ++
        order.flatMap fun idx =>
          tileEntry (encodeTile zstd rgba prev width height isKeyframe idx)))
  rw [← hdata] at hmagic hwidth hheight
  refine ⟨?_, ?_, hmagic, hwidth, hheight, order, hperm, ?_⟩
  · have hcopiedLength := hcopied.length_le
    have htilesLength := flatMap_length_le fun idx (hidx : idx ∈ order) =>
      ((congrArg List.length (hspec idx hidx).1).le.trans (hspec idx hidx).2.1.entry_length_le)
    rw [hdata]
    simp only [List.length_append, frameHeader_length, hmap, frameHeaderLen, Checked.sizeLimit]
    have hbound := Nat.mul_le_mul_right (2 ^ 32 + 7) (hcount.trans htiles)
    omega
  · rw [hdata, List.length_append, frameHeader_length, frameHeaderLen]
    omega
  · rw [hdata, hentries]
    unfold parseFrame
    rw [Parse.bind_some (parsePrologue_header hver frameId _ _)]
    dsimp only
    rw [Parse.bind_some (parseHead_header hnop _ (by omega) _)]
    have hlegible : ∀ tile ∈ order.map (codedTile zstd rgba prev width height isKeyframe),
        tile.idx < tilesInDim (width % 2 ^ 32) * tilesInDim (height % 2 ^ 32) ∧
          tile.idx < 2 ^ 16 ∧ tile.Legible := by
      intro tile htile
      obtain ⟨idx, hidx, rfl⟩ := List.mem_map.mp htile
      have hlt := horder idx hidx
      rw [hdims]
      exact ⟨hlt, show idx < 2 ^ 16 by omega, (hspec idx hidx).2.1⟩
    rw [Parse.bind_some (parseChanges_sections hcopied hmap hpop hlegible)]
    rfl

end Assembled

/-! Packets without tiles. -/

theorem parse_nop (frameId : UInt32) (width height : Nat) :
    parseFrame (width % 2 ^ 32) (height % 2 ^ 32) (nopPacketData frameId width height) =
      some ((flagNop, { rects := [], tiles := [] }), leBytes 2 0) := by
  have hprologue : parsePrologue (frameHeader version flagNop frameId width height 0 ++ []) =
      some ((version, flagNop), leBytes 4 width ++ (leBytes 4 height ++ (leBytes 2 0 ++ []))) :=
    parsePrologue_header (Or.inl rfl) frameId 0 []
  rw [List.append_nil] at hprologue
  unfold parseFrame nopPacketData
  rw [Parse.bind_some hprologue]
  have hhead : parseHead (width % 2 ^ 32) (height % 2 ^ 32) version flagNop
      (leBytes 4 width ++ (leBytes 4 height ++ (leBytes 2 0 ++ []))) =
      some (none, leBytes 2 0 ++ []) := by
    unfold parseHead
    rw [Parse.bind_some (parse32_leBytes _ _), Parse.bind_some (parse32_leBytes _ _),
      UInt32.toNat_ofNat', UInt32.toNat_ofNat', if_neg (by simp), if_pos (by decide)]
    rfl
  dsimp only
  rw [Parse.bind_some hhead]
  rfl

theorem parse_copyRectOnly (frameId : UInt32) (width height : Nat) {rects : List CopyRect}
    (hrects : rects.length ≤ 65535) :
    parseFrame (width % 2 ^ 32) (height % 2 ^ 32)
        (copyRectOnlyPacketData frameId width height rects) =
      some ((flagCopyRects, {
        rects := rects.filter (CopyRect.isValid · (width % 2 ^ 32) (height % 2 ^ 32))
        tiles := [] }), []) := by
  have hsection : parseCopySection (width % 2 ^ 32) (height % 2 ^ 32)
      ⟨versionCopyRects, flagCopyRects, 0⟩ (writeCopyRects rects ++ []) =
      some (rects.filter (CopyRect.isValid · (width % 2 ^ 32) (height % 2 ^ 32)), []) :=
    parseCopySection_written _ _ 0 hrects (Or.inl rfl) []
  rw [List.append_nil] at hsection
  unfold parseFrame copyRectOnlyPacketData
  rw [Parse.bind_some (parsePrologue_header (Or.inr rfl) frameId 0 _)]
  dsimp only
  rw [Parse.bind_some (parseHead_header (by decide) 0 (by decide) _)]
  unfold parseChanges
  dsimp only
  rw [Parse.bind_some (Parse.bind_some hsection)]
  rfl

/-! Decoding. -/

/-- Priorities that are numbers. -/
def Numbered (priority : Option (Nat → Priority)) : Prop :=
  ∀ p, priority = some p → ∀ idx, p idx ≠ none

theorem numbered_none : Numbered none := nofun

theorem Numbered.orderable {priority : Option (Nat → Priority)} (h : Numbered priority)
    (indices : List Nat) : Orderable priority indices :=
  fun p hp a _ hnone => absurd hnone (h p hp a)

section Decoding

variable (zstd : Zstd) {data : List UInt8} {width height : Nat}

/-- The tiles that were found, with the pixels that they are said to have. -/
theorem found_pixels {dirty : List TileEntry} {tiles : List TileData}
    {pixels : Nat → TilePixels} (hmatches : List.Forall₂ (Matches data width height) dirty tiles)
    (hpixels : ∀ tile ∈ tiles, tilePixels zstd tile = .ok (pixels tile.idx) ∧
      (pixels tile.idx).Fits (rectOf width height tile.idx)) :
    ∀ found ∈ dirty.zip (tiles.map (tilePixels zstd)),
      found.1.rect = rectOf width height found.1.idx ∧
        found.2 = .ok (pixels found.1.idx) ∧
        (pixels found.1.idx).Fits (rectOf width height found.1.idx) := by
  induction hmatches with
  | nil => simp
  | cons hfirst _ ih =>
      intro found hfound
      rw [List.map_cons, List.zip_cons_cons, List.mem_cons] at hfound
      rcases hfound with rfl | hfound
      · obtain ⟨hok, hfits⟩ := hpixels _ List.mem_cons_self
        rw [hfirst.idx]
        exact ⟨hfirst.rect, hok, hfits⟩
      · exact ih (fun tile htile => hpixels tile (List.mem_cons_of_mem _ htile)) found hfound

/-- A packet that says what it should is decoded to the frame that it makes, in the order
of the priorities. -/
theorem decodeWirePrioritized_run (pixels : Nat → TilePixels)
    {flags : UInt8} {changes : Changes} {rest : List UInt8}
    (hlength : data.length < Checked.sizeLimit) (hheader : 18 ≤ data.length)
    (hmagic : field data 0 4 = magic) (hwidth : wireWidth data = width)
    (hheight : wireHeight data = height) (hsize : width * height * 4 < Checked.sizeLimit)
    (hparse : parseFrame width height data = some ((flags, changes), rest))
    (hpixels : ∀ tile ∈ changes.tiles, tilePixels zstd tile = .ok (pixels tile.idx) ∧
      (pixels tile.idx).Fits (rectOf width height tile.idx))
    {priority : Option (Nat → Priority)} (hpriority : Numbered priority) (d : EvrtckDecoder) :
    ∃ fit frame order, d.fitted width height = .ok fit ∧
      fit.frame.length = width * height * 4 ∧
      order.Perm (changes.tiles.map TileData.idx) ∧
      frame = order.foldl (fun current idx =>
          paintTile width (rectOf width height idx) current (pixels idx))
        (background fit.frame width height flags changes) ∧
      frame.length = width * height * 4 ∧
      d.decodeWirePrioritized zstd data priority =
        .ok ({ frame := frame, width := width, height := height }, .ok (frame, order)) := by
  obtain ⟨fit, hfit, hfitLength, hfitWidth, hfitHeight⟩ := d.fitted_ok hsize
  have hrun := decodeFramePrioritized_run zstd (s := ⟨0, fit.frame⟩) hlength
    (hwidth ▸ leNat_field_lt data 10 4) (hheight ▸ leNat_field_lt data 14 4) hsize
    hfitLength rfl priority
  rw [hparse] at hrun
  obtain ⟨dirty, t, hmatches, hbackground, hdecode⟩ := hrun
  have hstart := background_length flags changes hfitLength
  rw [← hbackground] at hstart
  obtain ⟨sorted, hsorted⟩ := (sortByPriority_ok_iff priority
    (dirty.zip (changes.tiles.map (tilePixels zstd)))).mpr (hpriority.orderable _)
  have hperm := sortByPriority_perm hsorted
  have hfound := found_pixels zstd hmatches hpixels
  obtain ⟨outcome, u, hpaint, _, hdone, hpainted⟩ := paintTiles_run hsize
    (fun tile htile => paintable_of_matches zstd hmatches tile (hperm.subset htile)) hstart
  have hplaces : List.Forall₂ (fun (tile : TileEntry × Except EvrtckError TilePixels)
      (place : TileRect × TilePixels) =>
        tile.1.rect = place.1 ∧ tile.2 = .ok place.2 ∧ place.2.Fits place.1) sorted
      (sorted.map fun tile => (rectOf width height tile.1.idx, pixels tile.1.idx)) := by
    rw [List.forall₂_map_right_iff, List.forall₂_same]
    exact fun tile htile => hfound tile (hperm.subset htile)
  obtain ⟨rfl, hframe⟩ := hpainted _ hplaces
  rw [List.foldl_map, hbackground] at hframe
  refine ⟨fit, u.frame, sorted.map fun tile => tile.1.idx, hfit, hfitLength, ?_, ?_, hdone, ?_⟩
  · rw [← zip_indices hmatches]
    exact hperm.map _
  · rw [List.foldl_map]
    exact hframe
  · have hpaintFrame : paintFrame zstd data width priority dirty t =
        .ok (.ok (sorted.map fun tile => tile.1.idx), u) := by
      unfold paintFrame
      rw [Proc.lift_bind (decompressTiles_ok hmatches), Proc.lift_bind hsorted,
        Proc.bind_returns hpaint]
      rfl
    unfold EvrtckDecoder.decodeWirePrioritized
    rw [if_neg (by omega), if_neg (not_not.mpr hmagic)]
    dsimp only
    rw [← wireWidth, ← wireHeight, hwidth, hheight, Checked.bind_ok hfit, hdecode,
      hpaintFrame, Checked.bind_ok rfl, ← hfitWidth, ← hfitHeight]
    rfl

end Decoding

end EvertyDesk.Evrtck
