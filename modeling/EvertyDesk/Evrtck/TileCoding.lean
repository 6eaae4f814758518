import EvertyDesk.Evrtck.Painting

/-!
A tile of the captured frame, encoded and painted again. The tiles divide the
positions of a frame among them, so that painting some of them is told position
by position: a position in a painted tile holds what the captured frame has
there, turned around, the others are as they were.
-/

namespace EvertyDesk.Evrtck

/-- The position lies in the tile. -/
def TileRect.Holds (rect : TileRect) (width i : Nat) : Prop :=
  i / (width * 4) ∈ rect.rows ∧ rect.x0 * 4 ≤ i % (width * 4) ∧ i % (width * 4) < rect.x1 * 4

instance (rect : TileRect) (width i : Nat) : Decidable (rect.Holds width i) :=
  inferInstanceAs (Decidable (_ ∧ _ ∧ _))

/-- The tile that a position lies in. -/
def tileOf (width i : Nat) : Nat :=
  i / (width * 4) / tileSize * tilesInDim width + i % (width * 4) / (tileSize * 4)

/-- The rectangle of the tile with this index. -/
def rectOf (width height idx : Nat) : TileRect :=
  tileRect width height (idx % tilesInDim width) (idx / tilesInDim width)

/-- What the decoder gets for a tile. -/
def encodedPixels (rgba prev : List UInt8) (width height : Nat) (isKeyframe : Bool)
    (idx : Nat) : TilePixels :=
  let rect := rectOf width height idx
  if tileIsSolid rgba rect width then
    .solid (rgbaPixel (rgba.getD · 0) (rect.rowStart width rect.y0))
  else if isKeyframe then .delta (gatherPixels (rgba.getD · 0) rect width)
  else .delta (gatherPixels (fun i => rgba.getD i 0 ^^^ prev.getD i 0) rect width)

/-- Painted over the old bytes, the pixels make the tile that of the target. -/
def Carries (width : Nat) (rect : TileRect) (old target : List UInt8) : TilePixels → Prop
  | .solid color => ∀ y ∈ rect.rows,
      (List.replicate (rect.x1 - rect.x0) color).flatten =
        field target (rect.rowStart width y) rect.rowBytes
  | .delta bytes => ∀ y ∈ rect.rows,
      xorRow width rect bytes old y = field target (rect.rowStart width y) rect.rowBytes

/-- An entry's bytes after the index of its tile. -/
def TileData.bytes (tile : TileData) : List UInt8 :=
  if tile.mode = modeSolid then tile.mode :: tile.payload
  else tile.mode :: (leBytes 4 tile.payload.length ++ tile.payload)

/-- The entry can be read back. -/
def TileData.Legible (tile : TileData) : Prop :=
  (tile.mode = modeSolid ∧ tile.payload.length = 4 ∨ tile.mode = modeDelta ∨
    tile.mode = modeZstd) ∧ tile.payload.length < 2 ^ 32

/-! Positions. -/

section Positions

variable {width height idx i : Nat}

theorem row_lt (h : i < width * height * 4) :
    0 < width ∧ i / (width * 4) < height ∧ i % (width * 4) < width * 4 := by
  have hwidth : 0 < width := by
    by_contra hzero
    rw [Nat.eq_zero_of_not_pos hzero, Nat.zero_mul, Nat.zero_mul] at h
    omega
  refine ⟨hwidth, ?_, Nat.mod_lt _ (by omega)⟩
  apply Nat.div_lt_of_lt_mul
  calc
    i < width * height * 4 := h
    _ = width * 4 * height := by ring

theorem column_lt {column : Nat} (h : column < width * 4) :
    column / (tileSize * 4) < tilesInDim width := by
  rw [lt_tilesInDim, tileSize]
  omega

theorem tileOf_lt (h : i < width * height * 4) :
    tileOf width i < tilesInDim width * tilesInDim height := by
  obtain ⟨hwidth, hrow, hcolumn⟩ := row_lt h
  have hx := column_lt hcolumn
  have hy : i / (width * 4) / tileSize < tilesInDim height := by
    rw [lt_tilesInDim, tileSize]
    omega
  calc
    tileOf width i < (i / (width * 4) / tileSize + 1) * tilesInDim width := by
      rw [tileOf, Nat.succ_mul]
      omega
    _ ≤ tilesInDim height * tilesInDim width := Nat.mul_le_mul_right _ hy
    _ = tilesInDim width * tilesInDim height := Nat.mul_comm _ _

theorem tileOf_eq_iff (h : i < width * height * 4) :
    tileOf width i = idx ↔ (rectOf width height idx).Holds width i := by
  obtain ⟨hwidth, hrow, hcolumn⟩ := row_lt h
  have hx := column_lt hcolumn
  have hsplit : tileOf width i = idx ↔
      i / (width * 4) / tileSize = idx / tilesInDim width ∧
        i % (width * 4) / (tileSize * 4) = idx % tilesInDim width := by
    have hunique := Nat.div_mod_unique (a := idx) (d := i / (width * 4) / tileSize)
      (c := i % (width * 4) / (tileSize * 4)) (Nat.lt_of_le_of_lt (Nat.zero_le _) hx)
    rw [and_iff_left hx] at hunique
    rw [tileOf, Nat.mul_comm, Nat.add_comm, ← hunique]
    exact and_congr eq_comm eq_comm
  rw [hsplit, TileRect.Holds, mem_rows]
  simp only [rectOf, tileRect, tileSize]
  generalize idx / tilesInDim width = ty
  generalize idx % tilesInDim width = tx
  generalize i / (width * 4) = y at hrow
  generalize i % (width * 4) = column at hcolumn
  omega

end Positions

/-! Painting. -/

section Painting

variable {width height : Nat} {rect : TileRect} {old target items : List UInt8}

theorem rowStart_eq (rect : TileRect) (width y : Nat) :
    rect.rowStart width y = y * (width * 4) + rect.x0 * 4 := by
  rw [TileRect.rowStart]
  ring

theorem xorRow_congr {delta left right : List UInt8} {y : Nat}
    (h : field left (rect.rowStart width y) rect.rowBytes =
      field right (rect.rowStart width y) rect.rowBytes) :
    xorRow width rect delta left y = xorRow width rect delta right y := by
  rw [xorRow, xorRow, h]

/-- Parts that agree position by position. -/
theorem field_congr {left right : List UInt8} {start count : Nat}
    (h : ∀ i, start ≤ i → i < start + count → left[i]? = right[i]?) :
    field left start count = field right start count := by
  apply List.ext_getElem?
  intro k
  by_cases hk : k < count
  · rw [field, field, List.getElem?_take_of_lt hk, List.getElem?_take_of_lt hk,
      List.getElem?_drop, List.getElem?_drop]
    exact h _ (by omega) (by omega)
  · rw [field, field, List.getElem?_take_eq_none (by omega), List.getElem?_take_eq_none (by omega)]

/-- The tile is painted and nothing else. -/
theorem paintTile_carries (hrect : rect.Within width height)
    (htarget : target.length = width * height * 4)
    (hlength : items.length = width * height * 4)
    (hold : ∀ i, rect.Holds width i → items[i]? = old[i]?) {pixels : TilePixels}
    (hcarries : Carries width rect old target pixels) :
    (paintTile width rect items pixels).length = width * height * 4 ∧
      ∀ i, (paintTile width rect items pixels)[i]? =
        if rect.Holds width i then target[i]? else items[i]? := by
  have hleft := hrect.left
  have hright := hrect.right
  have hbottom := hrect.bottom
  have hsize : rect.rowBytes = rect.x1 * 4 - rect.x0 * 4 := by
    rw [TileRect.rowBytes]
    omega
  have hrows : ∀ y ∈ rect.rows, (y + 1) * (width * 4) ≤ target.length := by
    intro y hy
    rw [mem_rows] at hy
    calc
      (y + 1) * (width * 4) ≤ height * (width * 4) := Nat.mul_le_mul_right _ (by omega)
      _ = target.length := by
        rw [htarget]
        ring
  have hpaint : ∀ part : List UInt8 → Nat → List UInt8,
      (∀ current, ∀ y ∈ rect.rows,
        field current (rect.rowStart width y) rect.rowBytes =
          field old (rect.rowStart width y) rect.rowBytes →
        part current y = field target (rect.rowStart width y) rect.rowBytes) →
      let painted := rect.rows.foldl (fun current y =>
        overwrite current (rect.rowStart width y) (part current y)) items
      painted.length = width * height * 4 ∧ ∀ i, painted[i]? =
        if rect.Holds width i then target[i]? else items[i]? := by
    intro part hpart
    have hfold := @foldl_rows (width * 4) (rect.x0 * 4) (rect.x1 * 4) rect.rows part
      old target (by omega) (by omega) (List.nodup_range' ..) hrows
      (fun current y hy _ hsame => by
        rw [← rowStart_eq, ← hsize]
        apply hpart current y hy
        apply field_congr
        intro i hge hlt
        rw [rowStart_eq] at hge hlt
        exact hsame i hge (by omega))
      items (hlength.trans htarget.symm)
      (fun i hrow hge hlt => hold i ⟨hrow, hge, hlt⟩)
    simp only [← rowStart_eq, htarget] at hfold
    exact hfold
  cases pixels with
  | solid color => exact hpaint _ fun _ y hy _ => hcarries y hy
  | delta bytes =>
      apply hpaint
      intro current y hy hsame
      rw [xorRow_congr hsame]
      exact hcarries y hy

theorem TileRect.Within.lt_of_holds (hrect : rect.Within width height) {i : Nat}
    (h : rect.Holds width i) : i < width * height * 4 := by
  obtain ⟨hrow, _, hlt⟩ := h
  rw [mem_rows] at hrow
  have hbottom := hrect.bottom
  have hright := hrect.right
  have hdiv := Nat.div_add_mod' i (width * 4)
  have hrows : (i / (width * 4) + 1) * (width * 4) ≤ height * (width * 4) :=
    Nat.mul_le_mul_right _ (by omega)
  rw [Nat.succ_mul, show height * (width * 4) = width * height * 4 by ring] at hrows
  omega

/-- Tiles that are painted in some way, each of them once. -/
theorem paintEach_carries {indices : List Nat} {paint : List UInt8 → Nat → List UInt8}
    (hnodup : indices.Nodup)
    (hindices : ∀ idx ∈ indices, idx < tilesInDim width * tilesInDim height)
    (hpaint : ∀ idx ∈ indices, ∀ current : List UInt8,
      current.length = width * height * 4 →
      (∀ i, (rectOf width height idx).Holds width i → current[i]? = old[i]?) →
      (paint current idx).length = width * height * 4 ∧
        ∀ i, (paint current idx)[i]? =
          if (rectOf width height idx).Holds width i then target[i]? else current[i]?)
    (htarget : target.length = width * height * 4)
    (hlength : items.length = width * height * 4)
    (hold : ∀ i < width * height * 4, tileOf width i ∈ indices → items[i]? = old[i]?) :
    let painted := indices.foldl paint items
    painted.length = width * height * 4 ∧ ∀ i < width * height * 4,
      painted[i]? = if tileOf width i ∈ indices then target[i]? else items[i]? := by
  have hbeyond : ∀ list : List UInt8, list.length = width * height * 4 →
      ∀ i, ¬ i < width * height * 4 → list[i]? = none := by
    intro list hlist i hi
    rw [List.getElem?_eq_none_iff]
    omega
  obtain ⟨hdone, hcells⟩ := foldl_cells (tileOf width)
    (fun i => if i < width * height * 4 then old[i]? else none) (fun i => target[i]?)
    paint
    (fun current idx hidx hcurrent hsame => by
      have hrect : (rectOf width height idx).Within width height :=
        tileRect_within (hindices idx hidx)
      obtain ⟨hpainted, hpositions⟩ := hpaint idx hidx current hcurrent fun i hi => by
        have hlt := hrect.lt_of_holds hi
        rw [hsame i ((tileOf_eq_iff hlt).mpr hi), if_pos hlt]
      refine ⟨hpainted, fun i => ⟨fun hi => ?_, fun hi => ?_⟩⟩
      · by_cases hlt : i < width * height * 4
        · rw [hpositions i, if_pos ((tileOf_eq_iff hlt).mp hi)]
        · rw [hbeyond _ hpainted i hlt, hbeyond _ htarget i hlt]
      · by_cases hlt : i < width * height * 4
        · rw [hpositions i, if_neg (fun h => hi ((tileOf_eq_iff hlt).mpr h))]
        · rw [hbeyond _ hpainted i hlt, hbeyond _ hcurrent i hlt])
    hnodup hlength (fun i hi => by
      split
      next hlt => exact hold i hlt hi
      next hlt => exact hbeyond _ hlength i hlt)
  refine ⟨hdone, fun i _ => ?_⟩
  split
  next hi => exact (hcells i).1 hi
  next hi => exact (hcells i).2 hi

section Tiles

variable {indices : List Nat} {pixels : Nat → TilePixels} (hnodup : indices.Nodup)
  (hindices : ∀ idx ∈ indices, idx < tilesInDim width * tilesInDim height)
  (hcarries : ∀ idx ∈ indices, Carries width (rectOf width height idx) old target (pixels idx))
  (htarget : target.length = width * height * 4)
  (hlength : items.length = width * height * 4)
  (hold : ∀ i < width * height * 4, tileOf width i ∈ indices → items[i]? = old[i]?)

include hnodup hindices hcarries htarget hlength hold

/-- Tiles that are painted with their pixels. -/
theorem paintTiles_carries :
    let painted := indices.foldl (fun current idx =>
      paintTile width (rectOf width height idx) current (pixels idx)) items
    painted.length = width * height * 4 ∧ ∀ i < width * height * 4,
      painted[i]? = if tileOf width i ∈ indices then target[i]? else items[i]? :=
  paintEach_carries hnodup hindices
    (fun idx hidx _ hcurrent hsame => paintTile_carries (tileRect_within (hindices idx hidx))
      htarget hcurrent hsame (hcarries idx hidx))
    htarget hlength hold

/-- Tiles that hold the old bytes are painted, the others are right already. -/
theorem paintTiles_eq
    (hrest : ∀ i < width * height * 4, tileOf width i ∉ indices → items[i]? = target[i]?) :
    indices.foldl (fun current idx =>
      paintTile width (rectOf width height idx) current (pixels idx)) items = target := by
  obtain ⟨hdone, hpositions⟩ := paintTiles_carries hnodup hindices hcarries htarget hlength hold
  apply List.ext_getElem?
  intro i
  by_cases hi : i < width * height * 4
  · rw [hpositions i hi]
    split
    · rfl
    next hother => exact hrest i hi hother
  · rw [List.getElem?_eq_none (by omega), List.getElem?_eq_none (by omega)]

end Tiles

end Painting

/-! Encoding. -/

section Encoding

variable {width height : Nat} {rect : TileRect} {bytes rgba prev : List UInt8}

/-- The bytes of a row of the tile are all in the frame. -/
theorem row_field_length (hrect : rect.Within width height)
    (hlength : bytes.length = width * height * 4) {y : Nat} (hy : y ∈ rect.rows) :
    (field bytes (rect.rowStart width y) rect.rowBytes).length = rect.rowBytes := by
  rw [mem_rows] at hy
  have hleft := hrect.left
  have hend := row_end_le (Nat.lt_of_lt_of_le hy.2 hrect.bottom) hrect.right
  rw [field, List.length_take, List.length_drop, TileRect.rowStart, TileRect.rowBytes]
  omega

/-- A row of a black frame. -/
theorem field_black (hrect : rect.Within width height) {y : Nat} (hy : y ∈ rect.rows) :
    field (List.replicate (width * height * 4) (0 : UInt8)) (rect.rowStart width y)
      rect.rowBytes = List.replicate rect.rowBytes 0 := by
  have hlength := row_field_length hrect
    (List.length_replicate : (List.replicate (width * height * 4) (0 : UInt8)).length = _) hy
  rw [field, List.drop_replicate, List.take_replicate] at hlength ⊢
  rw [List.length_replicate] at hlength
  rw [hlength]

/-- A row of the tile as it is gathered, pixel by pixel. -/
def rgbaRow (byte : Nat → UInt8) (rect : TileRect) (width y : Nat) : List UInt8 :=
  (List.range (rect.x1 - rect.x0)).flatMap fun x =>
    rgbaPixel byte (rect.rowStart width y + x * 4)

theorem rgbaRow_length (byte : Nat → UInt8) (rect : TileRect) (width y : Nat) :
    (rgbaRow byte rect width y).length = rect.rowBytes := by
  simp [rgbaRow, rgbaPixel, TileRect.rowBytes, List.length_flatMap]

theorem gatherPixels_row (byte : Nat → UInt8) (rect : TileRect) (width : Nat) {y : Nat}
    (hy : y ∈ rect.rows) :
    field (gatherPixels byte rect width) ((y - rect.y0) * rect.rowBytes) rect.rowBytes =
      rgbaRow byte rect width y := by
  rw [mem_rows] at hy
  have hrow := field_gather rect.y0 (rgbaRow_length byte rect width)
    (show y - rect.y0 < rect.y1 - rect.y0 by omega)
  rw [show rect.y0 + (y - rect.y0) = y by omega] at hrow
  exact hrow

theorem gatherPixels_length (byte : Nat → UInt8) (rect : TileRect) (width : Nat) :
    (gatherPixels byte rect width).length = rect.rowBytes * (rect.y1 - rect.y0) := by
  rw [Nat.mul_comm]
  exact gather_length rect.y0 _ (rgbaRow_length byte rect width)

theorem getD_field {start count k : Nat} (hk : k < count) :
    (field bytes start count).getD k 0 = bytes.getD (start + k) 0 := by
  rw [List.getD_eq_getElem?_getD, List.getD_eq_getElem?_getD, field,
    List.getElem?_take_of_lt hk, List.getElem?_drop]

/-- The row is that of the frame, turned around. -/
theorem rgbaRow_eq (hrect : rect.Within width height)
    (hlength : bytes.length = width * height * 4) {y : Nat} (hy : y ∈ rect.rows) :
    rgbaRow (bytes.getD · 0) rect width y =
      field (bgraToRgba bytes) (rect.rowStart width y) rect.rowBytes := by
  have hfield := row_field_length hrect hlength hy
  have hturned := bgraToRgba_field (show 4 ∣ bytes.length by omega)
    (y * width + rect.x0) (rect.x1 - rect.x0)
  rw [← TileRect.rowBytes, ← TileRect.rowStart] at hturned
  rw [← hturned, ← flatMap_rgbaPixel hfield, rgbaRow]
  apply List.flatMap_congr
  intro x hx
  rw [List.mem_range] at hx
  have hinside : x * 4 + 4 ≤ rect.rowBytes := by
    rw [TileRect.rowBytes]
    omega
  simp only [rgbaPixel]
  rw [getD_field (by omega), getD_field (by omega), getD_field (by omega), getD_field (by omega)]
  simp only [Nat.add_assoc]

theorem flatten_replicate_rgba {color : List UInt8} (count : Nat) :
    (List.replicate count color).flatten = (List.range count).flatMap fun _ => color := by
  rw [List.flatMap_def, List.map_const', List.length_range]

/-- All pixels of a solid tile are that of its first row. -/
theorem rgbaRow_solid (hsolid : tileIsSolid rgba rect width = true) {y : Nat} (hy : y ∈ rect.rows) :
    rgbaRow (rgba.getD · 0) rect width y =
      (List.replicate (rect.x1 - rect.x0)
        (rgbaPixel (rgba.getD · 0) (rect.rowStart width rect.y0))).flatten := by
  have hall := List.all_eq_true.mp (List.all_eq_true.mp hsolid y hy)
  rw [flatten_replicate_rgba, rgbaRow]
  apply List.flatMap_congr
  intro x hx
  have hsame := eq_of_beq (hall x hx)
  have hbyte : ∀ k < 4, rgba.getD (rect.rowStart width y + x * 4 + k) 0 =
      rgba.getD (rect.rowStart width rect.y0 + k) 0 := by
    intro k hk
    rw [← getD_field hk, ← getD_field hk, hsame]
  have hfirst := hbyte 0 (by decide)
  rw [Nat.add_zero, Nat.add_zero] at hfirst
  simp only [rgbaPixel]
  rw [hbyte 1 (by decide), hbyte 2 (by decide), hbyte 3 (by decide), hfirst]

theorem zipWith_xor_zeros {size : Nat} (h : bytes.length ≤ size) :
    List.zipWith (fun f d => f ^^^ d) (List.replicate size 0) bytes = bytes := by
  induction bytes generalizing size with
  | nil => simp
  | cons byte bytes ih =>
      cases size with
      | zero => simp at h
      | succ size =>
          rw [List.replicate_succ, List.zipWith_cons_cons, UInt8.zero_xor, ih (by simpa using h)]

theorem zipWith_xor_cancel {left right : List UInt8} (h : left.length = right.length) :
    List.zipWith (fun f d => f ^^^ d) right (List.zipWith (fun f d => f ^^^ d) left right) =
      left := by
  induction left generalizing right with
  | nil => cases right <;> simp at h ⊢
  | cons byte left ih =>
      match right, h with
      | other :: right, h =>
          rw [List.zipWith_cons_cons, List.zipWith_cons_cons, ih (by simpa using h),
            UInt8.xor_comm byte, ← UInt8.xor_assoc, UInt8.xor_self, UInt8.zero_xor]

theorem field_zipWith (f : UInt8 → UInt8 → UInt8) (left right : List UInt8) (start count : Nat) :
    field (List.zipWith f left right) start count =
      List.zipWith f (field left start count) (field right start count) := by
  rw [field, field, field, List.drop_zipWith, List.take_zipWith]

theorem getD_zipWith_xor (h : rgba.length = prev.length) (i : Nat) :
    rgba.getD i 0 ^^^ prev.getD i 0 = (List.zipWith (fun f d => f ^^^ d) rgba prev).getD i 0 := by
  rw [List.getD_eq_getElem?_getD, List.getD_eq_getElem?_getD, List.getD_eq_getElem?_getD,
    List.getElem?_zipWith]
  by_cases hi : i < rgba.length
  · rw [List.getElem?_eq_getElem hi, List.getElem?_eq_getElem (h ▸ hi)]
    rfl
  · rw [List.getElem?_eq_none (by omega), List.getElem?_eq_none (by omega)]
    rfl

variable {idx : Nat}

/-- The colour of a solid tile carries the captured frame, whatever it is painted over. -/
theorem solid_carries {rect : TileRect} (hrect : rect.Within width height)
    (hrgba : rgba.length = width * height * 4) (hsolid : tileIsSolid rgba rect width = true)
    {old : List UInt8} :
    Carries width rect old (bgraToRgba rgba)
      (.solid (rgbaPixel (rgba.getD · 0) (rect.rowStart width rect.y0))) := by
  intro y hy
  rw [← rgbaRow_solid hsolid hy, rgbaRow_eq hrect hrgba hy]

/-- A key frame's tile carries the captured frame over black. -/
theorem encodedPixels_key (hidx : idx < tilesInDim width * tilesInDim height)
    (hrgba : rgba.length = width * height * 4) (prev : List UInt8) :
    Carries width (rectOf width height idx) (List.replicate (width * height * 4) 0)
      (bgraToRgba rgba) (encodedPixels rgba prev width height true idx) := by
  have hrect := tileRect_within hidx
  rw [← rectOf] at hrect
  unfold encodedPixels
  dsimp only
  split
  next hsolid => exact solid_carries hrect hrgba hsolid
  · intro y hy
    rw [xorRow, gatherPixels_row _ _ _ hy, rgbaRow_eq hrect hrgba hy, field_black hrect hy]
    exact zipWith_xor_zeros (field_length_le _ _ _)

/-- Another tile carries it over the frame that it was predicted from. -/
theorem encodedPixels_delta (hidx : idx < tilesInDim width * tilesInDim height)
    (hrgba : rgba.length = width * height * 4) (hprev : prev.length = width * height * 4) :
    Carries width (rectOf width height idx) (bgraToRgba prev) (bgraToRgba rgba)
      (encodedPixels rgba prev width height false idx) := by
  have hrect := tileRect_within hidx
  rw [← rectOf] at hrect
  unfold encodedPixels
  dsimp only
  split
  next hsolid => exact solid_carries hrect hrgba hsolid
  · intro y hy
    have hbyte : (fun i => rgba.getD i 0 ^^^ prev.getD i 0) =
        ((List.zipWith (fun f d => f ^^^ d) rgba prev).getD · 0) :=
      funext (getD_zipWith_xor (hrgba.trans hprev.symm))
    have hlength : (List.zipWith (fun f d => f ^^^ d) rgba prev).length = width * height * 4 := by
      rw [List.length_zipWith, hrgba, hprev, Nat.min_self]
    have hturned := bgraToRgba_zipWith (fun f d => f ^^^ d)
      (show 4 ∣ rgba.length by omega) (hrgba.trans hprev.symm)
    have hsame : (field (bgraToRgba rgba) ((rectOf width height idx).rowStart width y)
          (rectOf width height idx).rowBytes).length =
        (field (bgraToRgba prev) ((rectOf width height idx).rowStart width y)
          (rectOf width height idx).rowBytes).length := by
      rw [row_field_length hrect ((bgraToRgba_length (by omega)).trans hrgba) hy,
        row_field_length hrect ((bgraToRgba_length (by omega)).trans hprev) hy]
    rw [xorRow, hbyte, gatherPixels_row _ _ _ hy,
      rgbaRow_eq hrect hlength hy, hturned, field_zipWith]
    exact zipWith_xor_cancel hsame

theorem encodedPixels_fits (rgba prev : List UInt8) (width height : Nat)
    (isKeyframe : Bool) (idx : Nat) :
    (encodedPixels rgba prev width height isKeyframe idx).Fits (rectOf width height idx) := by
  unfold encodedPixels
  dsimp only
  split
  · rfl
  · split <;> exact gatherPixels_length _ _ _

theorem gather_small (hrect : rect.Within width height)
    (hheight : rect.y1 - rect.y0 ≤ tileSize) (byte : Nat → UInt8) :
    (gatherPixels byte rect width).length ≤ tileSize * tileSize * 4 := by
  rw [gatherPixels_length]
  calc
    rect.rowBytes * (rect.y1 - rect.y0) ≤ tileSize * 4 * tileSize :=
      Nat.mul_le_mul hrect.rowBytes_le hheight
    _ = tileSize * tileSize * 4 := by decide

/-- The entry of a tile, and that it says what the tile's pixels are. -/
theorem encodeTileBuf_codes {zstd : Zstd} (hzstd : zstd.Lawful) (rgba prev : List UInt8)
    (isKeyframe : Bool) (hidx : idx < tilesInDim width * tilesInDim height) :
    ∃ tile : TileData, tile.idx = idx ∧ tile.Legible ∧
      encodeTileBuf zstd rgba prev width height (idx % tilesInDim width)
        (idx / tilesInDim width) isKeyframe = (tile.bytes, tile.mode) ∧
      tilePixels zstd tile = .ok (encodedPixels rgba prev width height isKeyframe idx) := by
  have hrect := tileRect_within hidx
  have hheight : (rectOf width height idx).y1 - (rectOf width height idx).y0 ≤ tileSize := by
    simp only [rectOf, tileRect]
    omega
  rw [← rectOf] at hrect
  have hcompressed : ∀ byte : Nat → UInt8, ∃ stream,
      zstd.encodeAll (gatherPixels byte (rectOf width height idx) width) = some stream ∧
        stream.length < 2 ^ 32 ∧
        tilePixels zstd ⟨idx, modeZstd, stream⟩ =
          .ok (.delta (gatherPixels byte (rectOf width height idx) width)) := by
    intro byte
    obtain ⟨stream, hencode, _, hdecode⟩ :=
      hzstd.round_trip (gatherPixels byte (rectOf width height idx) width)
    refine ⟨stream, hencode, hzstd.short _ _ (gather_small hrect hheight byte) hencode, ?_⟩
    unfold tilePixels
    rw [if_neg (show modeZstd ≠ modeSolid by decide), if_neg (show modeZstd ≠ modeDelta by decide)]
    dsimp only
    rw [hdecode]
  unfold encodeTileBuf encodedPixels
  rw [← rectOf]
  dsimp only
  split
  · exact ⟨⟨idx, modeSolid, rgbaPixel (rgba.getD · 0)
      ((rectOf width height idx).rowStart width (rectOf width height idx).y0)⟩, rfl,
      ⟨Or.inl ⟨rfl, rfl⟩, show 4 < 2 ^ 32 by decide⟩, rfl, rfl⟩
  · split
    · obtain ⟨stream, hencode, hshort, hpixels⟩ := hcompressed (rgba.getD · 0)
      exact ⟨⟨idx, modeZstd, stream⟩, rfl, ⟨Or.inr (Or.inr rfl), hshort⟩,
        by rw [hencode]; rfl, hpixels⟩
    · obtain ⟨stream, hencode, hshort, hpixels⟩ :=
        hcompressed fun i => rgba.getD i 0 ^^^ prev.getD i 0
      have hsmall := gather_small hrect hheight fun i => rgba.getD i 0 ^^^ prev.getD i 0
      have hrun := zrleEncode_length_le
        (gatherPixels (fun i => rgba.getD i 0 ^^^ prev.getD i 0) (rectOf width height idx) width)
      have hround := zrleDecode_zrleEncode (Nat.lt_of_le_of_lt hsmall (by decide))
      rw [tileSize] at hsmall
      split
      · exact ⟨⟨idx, modeZstd, stream⟩, rfl, ⟨Or.inr (Or.inr rfl), hshort⟩,
          by rw [hencode]; rfl, hpixels⟩
      · refine ⟨⟨idx, modeDelta, zrleEncode (gatherPixels
          (fun i => rgba.getD i 0 ^^^ prev.getD i 0) (rectOf width height idx) width)⟩, rfl,
          ⟨Or.inr (Or.inl rfl), ?_⟩, rfl, ?_⟩
        · dsimp only
          omega
        · unfold tilePixels
          rw [if_neg (show modeDelta ≠ modeSolid by decide), if_pos rfl]
          dsimp only
          rw [hround]
          rfl

end Encoding

/-! Frames. -/

section Frames

variable {width height : Nat} {rgba prev items : List UInt8} {indices : List Nat}

/-- A tile that is not dirty is the same in both frames. -/
theorem clean_tile {idx : Nat} (hidx : idx < tilesInDim width * tilesInDim height)
    (hrgba : rgba.length = width * height * 4) (hprev : prev.length = width * height * 4)
    (hclean : tileIsDirty rgba prev width height (idx % tilesInDim width)
      (idx / tilesInDim width) = false) {i : Nat}
    (hi : (rectOf width height idx).Holds width i) :
    (bgraToRgba prev)[i]? = (bgraToRgba rgba)[i]? := by
  have hrect := tileRect_within hidx
  rw [← rectOf] at hrect
  obtain ⟨hrow, hge, hlt⟩ := hi
  unfold tileIsDirty at hclean
  rw [← rectOf] at hclean
  have hsame : field rgba ((rectOf width height idx).rowStart width (i / (width * 4)))
      (rectOf width height idx).rowBytes =
      field prev ((rectOf width height idx).rowStart width (i / (width * 4)))
        (rectOf width height idx).rowBytes := by
    simpa using List.any_eq_false.mp hclean _ hrow
  have hturned : ∀ frame : List UInt8, frame.length = width * height * 4 →
      bgraToRgba (field frame ((rectOf width height idx).rowStart width (i / (width * 4)))
        (rectOf width height idx).rowBytes) =
      field (bgraToRgba frame) ((rectOf width height idx).rowStart width (i / (width * 4)))
        (rectOf width height idx).rowBytes := by
    intro frame hframe
    exact bgraToRgba_field (show 4 ∣ frame.length by omega) _ _
  have hparts := congrArg bgraToRgba hsame
  rw [hturned rgba hrgba, hturned prev hprev] at hparts
  have hdiv := Nat.div_add_mod' i (width * 4)
  have hleft := hrect.left
  have hat : ∀ frame : List UInt8,
      (field frame ((rectOf width height idx).rowStart width (i / (width * 4)))
        (rectOf width height idx).rowBytes)[i % (width * 4) -
          (rectOf width height idx).x0 * 4]? = frame[i]? := by
    intro frame
    rw [field, List.getElem?_take_of_lt (by rw [TileRect.rowBytes]; omega),
      List.getElem?_drop, rowStart_eq]
    congr 1
    omega
  rw [← hat (bgraToRgba prev), ← hparts, hat]

/-- All tiles of a key frame, in any order, over black. -/
theorem paint_key (hrgba : rgba.length = width * height * 4) (prev : List UInt8)
    (horder : indices.Perm (List.range (tilesInDim width * tilesInDim height))) :
    indices.foldl (fun current idx => paintTile width (rectOf width height idx) current
      (encodedPixels rgba prev width height true idx))
      (List.replicate (width * height * 4) 0) = bgraToRgba rgba := by
  have hmember : ∀ idx, idx ∈ indices ↔ idx < tilesInDim width * tilesInDim height := by
    intro idx
    rw [horder.mem_iff, List.mem_range]
  apply paintTiles_eq (horder.nodup_iff.mpr List.nodup_range)
    (fun idx hidx => (hmember idx).mp hidx)
    (fun idx hidx => encodedPixels_key ((hmember idx).mp hidx) hrgba prev)
    ((bgraToRgba_length (by omega)).trans hrgba) List.length_replicate
    (fun i _ _ => rfl)
  intro i hi hother
  exact absurd ((hmember _).mpr (tileOf_lt hi)) hother

/-- Tiles that are predicted, in any order, over the prediction; among them are
all that are dirty. -/
theorem paint_delta (hrgba : rgba.length = width * height * 4)
    (hprev : prev.length = width * height * 4) (hnodup : indices.Nodup)
    (hindices : ∀ idx ∈ indices, idx < tilesInDim width * tilesInDim height)
    (hdirty : ∀ idx < tilesInDim width * tilesInDim height,
      tileIsDirty rgba prev width height (idx % tilesInDim width)
        (idx / tilesInDim width) = true → idx ∈ indices) :
    indices.foldl (fun current idx => paintTile width (rectOf width height idx) current
      (encodedPixels rgba prev width height false idx)) (bgraToRgba prev) = bgraToRgba rgba := by
  apply paintTiles_eq hnodup hindices
    (fun idx hidx => encodedPixels_delta (hindices idx hidx) hrgba hprev)
    ((bgraToRgba_length (by omega)).trans hrgba) ((bgraToRgba_length (by omega)).trans hprev)
    (fun i _ _ => rfl)
  intro i hi hother
  apply clean_tile (tileOf_lt hi) hrgba hprev
  · rw [← Bool.not_eq_true]
    exact fun hdirt => hother (hdirty _ (tileOf_lt hi) hdirt)
  · exact (tileOf_eq_iff hi).mp rfl

/-- Frames without a dirty tile look the same. -/
theorem clean_frame (hrgba : rgba.length = width * height * 4)
    (hprev : prev.length = width * height * 4)
    (hclean : ∀ idx < tilesInDim width * tilesInDim height,
      ¬ tileIsDirty rgba prev width height (idx % tilesInDim width)
        (idx / tilesInDim width) = true) :
    bgraToRgba prev = bgraToRgba rgba :=
  paint_delta hrgba hprev List.nodup_nil (by simp)
    fun idx hidx hdirt => absurd hdirt (hclean idx hidx)

end Frames

/-! Copied rectangles. -/

section Copying

variable {width height : Nat} {frame : List UInt8}

theorem four_dvd_field (hframe : 4 ∣ frame.length) (start pixels : Nat) :
    4 ∣ (field frame (start * 4) (pixels * 4)).length := by
  rw [field, List.length_take, List.length_drop]
  omega

theorem four_dvd_overwrite (hframe : 4 ∣ frame.length) {part : List UInt8}
    (hpart : 4 ∣ part.length) (start : Nat) :
    4 ∣ (overwrite frame (start * 4) part).length := by
  simp only [overwrite, List.length_append, List.length_take, List.length_drop]
  omega

theorem gatherRect_rgba (hframe : 4 ∣ frame.length) (width : Nat) (rect : CopyRect) :
    gatherRect (bgraToRgba frame) width rect = bgraToRgba (gatherRect frame width rect) ∧
      4 ∣ (gatherRect frame width rect).length := by
  unfold gatherRect
  constructor
  · rw [bgraToRgba_flatMap fun row => four_dvd_field hframe _ _]
    apply List.flatMap_congr
    intro row _
    exact (bgraToRgba_field hframe _ _).symm
  · induction List.range rect.height.toNat with
    | nil => exact Nat.dvd_zero 4
    | cons row rows ih =>
        have hrow := four_dvd_field hframe
          ((rect.srcY.toNat + row) * width + rect.srcX.toNat) rect.width.toNat
        rw [List.flatMap_cons, List.length_append]
        omega

/-- Turning a frame around and copying within it are done in either order. -/
theorem applyCopyRect_rgba (hframe : 4 ∣ frame.length) (width : Nat) (rect : CopyRect) :
    applyCopyRect (bgraToRgba frame) width rect = bgraToRgba (applyCopyRect frame width rect) ∧
    4 ∣ (applyCopyRect frame width rect).length := by
  obtain ⟨htemp, hfour⟩ := gatherRect_rgba hframe width rect
  rw [applyCopyRect_eq, applyCopyRect_eq, htemp]
  clear htemp
  generalize gatherRect frame width rect = temp at hfour
  generalize List.range rect.height.toNat = rows
  induction rows generalizing frame with
  | nil => exact ⟨rfl, hframe⟩
  | cons row rows ih =>
      have hpart := four_dvd_field hfour (row * rect.width.toNat) rect.width.toNat
      have hturned := bgraToRgba_field hfour (row * rect.width.toNat) rect.width.toNat
      rw [Nat.mul_assoc] at hpart hturned
      rw [List.foldl_cons, List.foldl_cons, ← hturned, ← bgraToRgba_overwrite hframe hpart]
      exact ih (four_dvd_overwrite hframe hpart _)

theorem applyCopyRects_rgba (hframe : 4 ∣ frame.length) (rects : List CopyRect) :
    applyCopyRects (bgraToRgba frame) width height rects =
      bgraToRgba (applyCopyRects frame width height rects) := by
  unfold applyCopyRects
  induction rects generalizing frame with
  | nil => rfl
  | cons rect rects ih =>
      rw [List.foldl_cons, List.foldl_cons]
      split
      · obtain ⟨hturned, hfour⟩ := applyCopyRect_rgba hframe width rect
        rw [hturned]
        exact ih hfour
      · exact ih hframe

end Copying

end EvertyDesk.Evrtck
