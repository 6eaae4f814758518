import EvertyDesk.Evrtck.Contents

/-!
What the decoder does with the contents of a packet, without the checks: black
for a key frame, the rectangles copied, and the tiles painted. The checks pass
whenever the frame has the size of its dimensions and that size is one that an
object can have.
-/

namespace EvertyDesk.Evrtck

/-- A row of the tile with the difference applied. -/
def xorRow (width : Nat) (rect : TileRect) (delta frame : List UInt8) (y : Nat) : List UInt8 :=
  List.zipWith (fun f d => f ^^^ d) (field frame (rect.rowStart width y) rect.rowBytes)
    (field delta ((y - rect.y0) * rect.rowBytes) rect.rowBytes)

def paintTile (width : Nat) (rect : TileRect) (frame : List UInt8) : TilePixels → List UInt8
  | .solid color =>
      rect.rows.foldl (fun frame y =>
        overwrite frame (rect.rowStart width y)
          (List.replicate (rect.x1 - rect.x0) color).flatten) frame
  | .delta delta =>
      rect.rows.foldl (fun frame y =>
        overwrite frame (rect.rowStart width y) (xorRow width rect delta frame y)) frame

/-- What an entry of the packet makes of its tile. -/
def tilePixels (zstd : Zstd) (tile : TileData) : Except EvrtckError TilePixels :=
  if tile.mode = modeSolid then .ok (.solid tile.payload)
  else if tile.mode = modeDelta then
    match zrleDecode tile.payload with
    | .ok outcome => outcome.map TilePixels.delta
    | .error _ => .error .invalidDelta
  else
    match zstd.decodeAll tile.payload with
    | some delta => .ok (.delta delta)
    | none => .error .invalidDelta

/-- What a packet says after its header: the flags and the changes. -/
def parseFrame (width height : Nat) : Parse (UInt8 × Changes) := do
  let (ver, flags) ← parsePrologue
  let head ← parseHead width height ver flags
  let changes ← parseChanges width height head
  return (flags, changes)

/-- The frame that the tiles are painted on. -/
def background (frame : List UInt8) (width height : Nat) (flags : UInt8)
    (changes : Changes) : List UInt8 :=
  let frame :=
    if flags &&& flagKeyframe ≠ 0 then List.replicate frame.length 0 else frame
  applyCopyRects frame width height changes.rects

/-- The frame after the rectangles, if they can be read. -/
def copied (frame : List UInt8) (width height : Nat) : Option FrameHead → List UInt8 → List UInt8
  | none, _ => frame
  | some head, bytes =>
      match parseCopySection width height head bytes with
      | none => frame
      | some (rects, _) => applyCopyRects frame width height rects

/-- What becomes of the frame before the painting, as far as the packet can be read. -/
def prepared (frame : List UInt8) (width height : Nat) (data : List UInt8) : List UInt8 :=
  match parsePrologue data with
  | none => frame
  | some ((ver, flags), bytes) =>
      let cleared :=
        if flags &&& flagKeyframe ≠ 0 then List.replicate frame.length 0 else frame
      match parseHead width height ver flags bytes with
      | none => cleared
      | some (head, bytes) => copied cleared width height head bytes

/-! Rectangles in a frame. -/

/-- A tile's rectangle lies in the frame and has the size of a tile at most. -/
structure TileRect.Within (rect : TileRect) (width height : Nat) : Prop where
  left : rect.x0 ≤ rect.x1
  top : rect.y0 ≤ rect.y1
  right : rect.x1 ≤ width
  bottom : rect.y1 ≤ height
  narrow : rect.x1 - rect.x0 ≤ tileSize

theorem tileRect_within {width height idx : Nat} (h : idx < tilesInDim width * tilesInDim height) :
    (tileRect width height (idx % tilesInDim width) (idx / tilesInDim width)).Within
      width height := by
  have hpos : 0 < tilesInDim width := by
    by_contra hzero
    rw [Nat.eq_zero_of_not_pos hzero, Nat.zero_mul] at h
    omega
  have hx := lt_tilesInDim.mp (Nat.mod_lt idx hpos)
  have hy := lt_tilesInDim.mp (Nat.div_lt_of_lt_mul h)
  constructor <;> simp only [tileRect] <;> omega

/-- A part of a row ends within the frame. -/
theorem row_end_le {width height y right : Nat} (hy : y < height) (hright : right ≤ width) :
    (y * width + right) * 4 ≤ width * height * 4 := by
  have hrow : (y + 1) * width ≤ height * width := Nat.mul_le_mul_right width hy
  rw [Nat.succ_mul, Nat.mul_comm height] at hrow
  omega

theorem pixelOffset_ok {width x y : Nat} (h : (y * width + x) * 4 < Checked.wordLimit) :
    pixelOffset width x y = .ok ((y * width + x) * 4) := by
  have hmul : Checked.mul y width = .ok (y * width) := Checked.mul_ok (by omega)
  have hadd : Checked.add (y * width) x = .ok (y * width + x) := Checked.add_ok (by omega)
  unfold pixelOffset
  rw [Checked.bind_ok hmul, Checked.bind_ok hadd]
  exact Checked.mul_ok h

/-- The bytes of a part of a row, as the checks see them. -/
theorem row_ok {width height x0 x1 y : Nat} (hy : y < height) (hleft : x0 ≤ x1)
    (hright : x1 ≤ width) (hsize : width * height * 4 < Checked.sizeLimit) :
    pixelOffset width x0 y = .ok ((y * width + x0) * 4) ∧
      Checked.add ((y * width + x0) * 4) ((x1 - x0) * 4) =
        .ok ((y * width + x0) * 4 + (x1 - x0) * 4) ∧
      (y * width + x0) * 4 + (x1 - x0) * 4 ≤ width * height * 4 := by
  have hend := row_end_le hy hright
  rw [Checked.sizeLimit] at hsize
  refine ⟨pixelOffset_ok ?_, Checked.add_ok ?_, ?_⟩
  · rw [Checked.wordLimit]
    omega
  · rw [Checked.wordLimit]
    omega
  · omega

section Copying

/-- The rectangle as it is read, row after row. -/
def gatherRect (frame : List UInt8) (width : Nat) (rect : CopyRect) : List UInt8 :=
  (List.range rect.height.toNat).flatMap fun row =>
    field frame (((rect.srcY.toNat + row) * width + rect.srcX.toNat) * 4) (rect.width.toNat * 4)

theorem applyCopyRect_eq (frame : List UInt8) (width : Nat) (rect : CopyRect) :
    applyCopyRect frame width rect =
      (List.range rect.height.toNat).foldl (fun current row =>
        overwrite current (((rect.dstY.toNat + row) * width + rect.dstX.toNat) * 4)
          (field (gatherRect frame width rect) (row * (rect.width.toNat * 4))
            (rect.width.toNat * 4))) frame := rfl

variable {width height : Nat} {frame : List UInt8} {rect : CopyRect}

theorem row_add_ok {row : Nat} (n : Nat) (hn : n < 2 ^ 32) (hrow : row < rect.height.toNat) :
    Checked.add n row = .ok (n + row) := by
  have := rect.height.toNat_lt
  apply Checked.add_ok
  rw [Checked.wordLimit]
  omega

section Valid

variable (hvalid : rect.isValid width height = true) (hframe : frame.length = width * height * 4)

include hvalid

/-- The rows of a valid rectangle, before and after it is copied. -/
private theorem copyRect_rows {row : Nat} (hrow : row < rect.height.toNat) :
    ((rect.srcY.toNat + row) * width + rect.srcX.toNat) * 4 + rect.width.toNat * 4 ≤
        width * height * 4 ∧
      ((rect.dstY.toNat + row) * width + rect.dstX.toNat) * 4 + rect.width.toNat * 4 ≤
        width * height * 4 := by
  obtain ⟨_, _, hsx, hdx, hsy, hdy⟩ := (rect.isValid_iff width height).mp hvalid
  have hsrc := row_end_le (show rect.srcY.toNat + row < height by omega) hsx
  have hdst := row_end_le (show rect.dstY.toNat + row < height by omega) hdx
  exact ⟨by omega, by omega⟩

include hframe

theorem gatherRect_length :
    (gatherRect frame width rect).length = rect.height.toNat * (rect.width.toNat * 4) := by
  rw [gatherRect, List.length_flatMap]
  have hrows : (List.range rect.height.toNat).map (fun row =>
      (field frame (((rect.srcY.toNat + row) * width + rect.srcX.toNat) * 4)
        (rect.width.toNat * 4)).length) =
      (List.range rect.height.toNat).map fun _ => rect.width.toNat * 4 := by
    apply List.map_congr_left
    intro row hrow
    have hend := (copyRect_rows hvalid (List.mem_range.mp hrow)).1
    rw [field, List.length_take, List.length_drop]
    omega
  rw [hrows]
  simp

theorem applyCopyRect_length : (applyCopyRect frame width rect).length = width * height * 4 := by
  rw [applyCopyRect_eq]
  refine List.foldlRecOn (motive := fun frame : List UInt8 => frame.length = width * height * 4)
    _ _ hframe ?_
  intro current hcurrent row hrow
  have hend := (copyRect_rows hvalid (List.mem_range.mp hrow)).2
  have hpart := field_length_le (gatherRect frame width rect)
    (row * (rect.width.toNat * 4)) (rect.width.toNat * 4)
  rw [overwrite_length (by omega), hcurrent]

/-- The rows are read one after the other. -/
theorem gatherRows_ok (hsize : width * height * 4 < Checked.sizeLimit) :
    (List.range rect.height.toNat).foldlM (fun temp row => do
      let y ← Checked.add rect.srcY.toNat row
      let start ← pixelOffset width rect.srcX.toNat y
      let stop ← Checked.add start (rect.width.toNat * 4)
      let bytes ← Checked.slice frame start stop
      return temp ++ bytes) [] =
      .ok (gatherRect frame width rect) := by
  obtain ⟨hw, hh, hsx, hdx, hsy, hdy⟩ := (rect.isValid_iff width height).mp hvalid
  rw [gatherRect, List.flatMap_eq_foldl]
  refine (Checked.foldlM_ok (I := fun _ : List UInt8 => True) (fun temp _ row hrow => ?_)
    trivial).1
  have hrow := List.mem_range.mp hrow
  have hend := (copyRect_rows hvalid hrow).1
  obtain ⟨hoffset, hadd, _⟩ := row_ok (show rect.srcY.toNat + row < height by omega)
    (Nat.le_add_right _ _) hsx hsize
  rw [Nat.add_sub_cancel_left] at hadd
  refine ⟨?_, trivial⟩
  rw [Checked.bind_ok (row_add_ok _ rect.srcY.toNat_lt hrow), Checked.bind_ok hoffset,
    Checked.bind_ok hadd, Checked.bind_ok (Checked.slice_ok (by omega) (by omega)),
    Nat.add_sub_cancel_left]
  rfl

theorem copyRectChecked_ok (hsize : width * height * 4 < Checked.sizeLimit) :
    copyRectChecked frame width rect = .ok (applyCopyRect frame width rect) := by
  obtain ⟨hw, hh, hsx, hdx, hsy, hdy⟩ := (rect.isValid_iff width height).mp hvalid
  have htemp := gatherRect_length hvalid hframe
  have hroom : rect.height.toNat * (rect.width.toNat * 4) ≤ width * height * 4 := by
    calc
      rect.height.toNat * (rect.width.toNat * 4) = rect.width.toNat * rect.height.toNat * 4 := by
        ring
      _ ≤ width * height * 4 := by
        apply Nat.mul_le_mul_right
        exact Nat.mul_le_mul (by omega) (by omega)
  have hlimit : Checked.sizeLimit < Checked.wordLimit := by decide
  have hrowBytes : Checked.mul rect.width.toNat 4 = .ok (rect.width.toNat * 4) := by
    apply Checked.mul_ok
    have := rect.width.toNat_lt
    rw [Checked.wordLimit]
    omega
  have hbytes : Checked.mul (rect.width.toNat * 4) rect.height.toNat =
      .ok (rect.width.toNat * 4 * rect.height.toNat) := by
    apply Checked.mul_ok
    rw [Nat.mul_comm]
    omega
  have hallocate : Checked.allocate (rect.width.toNat * 4 * rect.height.toNat) = .ok () := by
    apply Checked.allocate_ok
    rw [Nat.mul_comm]
    omega
  unfold copyRectChecked
  rw [Checked.bind_ok hrowBytes, Checked.bind_ok hbytes, Checked.bind_ok hallocate,
    Checked.bind_ok (gatherRows_ok hvalid hframe hsize), applyCopyRect_eq]
  generalize gatherRect frame width rect = temp at htemp ⊢
  refine (Checked.foldlM_ok (I := fun current : List UInt8 =>
    current.length = width * height * 4) (fun current hcurrent row hrow => ?_) hframe).1
  have hrow := List.mem_range.mp hrow
  have hend := (copyRect_rows hvalid hrow).2
  have hsrcEnd : (row + 1) * (rect.width.toNat * 4) ≤
      rect.height.toNat * (rect.width.toNat * 4) := Nat.mul_le_mul_right _ hrow
  rw [Nat.succ_mul] at hsrcEnd
  obtain ⟨hoffset, hadd, _⟩ := row_ok (show rect.dstY.toNat + row < height by omega)
    (Nat.le_add_right _ _) hdx hsize
  rw [Nat.add_sub_cancel_left] at hadd
  have hsrc : Checked.mul row (rect.width.toNat * 4) = .ok (row * (rect.width.toNat * 4)) :=
    Checked.mul_ok (by omega)
  have hsrcStop : Checked.add (row * (rect.width.toNat * 4)) (rect.width.toNat * 4) =
      .ok (row * (rect.width.toNat * 4) + rect.width.toNat * 4) :=
    Checked.add_ok (by omega)
  have hlength : (field temp (row * (rect.width.toNat * 4)) (rect.width.toNat * 4)).length =
      rect.width.toNat * 4 := by
    rw [field, List.length_take, List.length_drop]
    omega
  constructor
  · rw [Checked.bind_ok (row_add_ok _ rect.dstY.toNat_lt hrow), Checked.bind_ok hoffset,
      Checked.bind_ok hsrc, Checked.bind_ok hadd, Checked.bind_ok hsrcStop,
      Checked.bind_ok (Checked.slice_ok (by omega) (by omega)), Nat.add_sub_cancel_left]
    apply Checked.write_ok
    · omega
    · rw [← field, hlength]
  · rw [overwrite_length (by omega), hcurrent]

end Valid

theorem applyCopyRects_length (rects : List CopyRect) (hframe : frame.length = width * height * 4) :
    (applyCopyRects frame width height rects).length = width * height * 4 := by
  refine List.foldlRecOn (motive := fun frame : List UInt8 => frame.length = width * height * 4)
    _ _ hframe ?_
  intro current hcurrent rect _
  split
  next hvalid => exact applyCopyRect_length hvalid hcurrent
  · exact hcurrent

theorem applyCopyRectsChecked_ok (rects : List CopyRect)
    (hframe : frame.length = width * height * 4)
    (hsize : width * height * 4 < Checked.sizeLimit) :
    applyCopyRectsChecked frame width height rects =
      .ok (applyCopyRects frame width height rects) := by
  refine (Checked.foldlM_ok (I := fun current : List UInt8 =>
    current.length = width * height * 4) (fun current hcurrent rect _ => ?_) hframe).1
  split
  next hvalid =>
    exact ⟨copyRectChecked_ok hvalid hcurrent hsize, applyCopyRect_length hvalid hcurrent⟩
  · exact ⟨rfl, hcurrent⟩

end Copying

theorem background_length {width height : Nat} {frame : List UInt8} (flags : UInt8)
    (changes : Changes) (hframe : frame.length = width * height * 4) :
    (background frame width height flags changes).length = width * height * 4 := by
  apply applyCopyRects_length
  split
  · rw [List.length_replicate, hframe]
  · exact hframe

theorem copied_length {width height : Nat} {frame : List UInt8} (head : Option FrameHead)
    (bytes : List UInt8) (hframe : frame.length = width * height * 4) :
    (copied frame width height head bytes).length = width * height * 4 := by
  cases head with
  | none => exact hframe
  | some head =>
      unfold copied
      dsimp only
      split
      · exact hframe
      · exact applyCopyRects_length _ hframe

theorem prepared_length {width height : Nat} {frame : List UInt8} (data : List UInt8)
    (hframe : frame.length = width * height * 4) :
    (prepared frame width height data).length = width * height * 4 := by
  have hcleared : ∀ flags : UInt8, (if flags &&& flagKeyframe ≠ 0 then
      List.replicate frame.length (0 : UInt8) else frame).length = width * height * 4 := by
    intro flags
    split
    · rw [List.length_replicate, hframe]
    · exact hframe
  unfold prepared
  split
  · exact hframe
  · dsimp only
    split
    · exact hcleared _
    · exact copied_length _ _ (hcleared _)

section Tiles

variable {width height : Nat} {rect : TileRect} {frame : List UInt8}

theorem mem_rows {y : Nat} : y ∈ rect.rows ↔ rect.y0 ≤ y ∧ y < rect.y1 := by
  rw [TileRect.rows, List.mem_range'_1]
  omega

theorem flatten_replicate_length {color : List UInt8} (hcolor : color.length = 4)
    (count : Nat) : (List.replicate count color).flatten.length = count * 4 := by
  simp [hcolor]

section Within

variable (hrect : rect.Within width height)

include hrect

namespace TileRect.Within

/-- The bytes of a row of the tile, as the checks see them. -/
theorem row_ok (hsize : width * height * 4 < Checked.sizeLimit) {y : Nat} (hy : y < rect.y1) :
    pixelOffset width rect.x0 y = .ok (rect.rowStart width y) ∧
      Checked.add (rect.rowStart width y) rect.rowBytes =
        .ok (rect.rowStart width y + rect.rowBytes) ∧
      rect.rowStart width y + rect.rowBytes ≤ width * height * 4 :=
  Evrtck.row_ok (Nat.lt_of_lt_of_le hy hrect.bottom) hrect.left hrect.right hsize

/-- The bytes of the whole tile. -/
theorem bytes_le : rect.rowBytes * (rect.y1 - rect.y0) ≤ width * height * 4 := by
  have hleft := hrect.left
  have hright := hrect.right
  have hbottom := hrect.bottom
  calc
    rect.rowBytes * (rect.y1 - rect.y0) = (rect.x1 - rect.x0) * (rect.y1 - rect.y0) * 4 := by
      rw [rowBytes]
      ring
    _ ≤ width * height * 4 := by
      apply Nat.mul_le_mul_right
      exact Nat.mul_le_mul (by omega) (by omega)

theorem rowBytes_le : rect.rowBytes ≤ tileSize * 4 := by
  have hnarrow := hrect.narrow
  rw [rowBytes]
  omega

/-- The size of a row, as it is computed. -/
theorem row_size :
    Checked.sub rect.x1 rect.x0 = .ok (rect.x1 - rect.x0) ∧
      Checked.mul (rect.x1 - rect.x0) 4 = .ok rect.rowBytes := by
  have hnarrow := hrect.narrow
  rw [tileSize] at hnarrow
  refine ⟨Checked.sub_ok hrect.left, Checked.mul_ok ?_⟩
  rw [Checked.wordLimit]
  omega

/-- The size of a difference, as it is computed. -/
theorem delta_size (hsize : width * height * 4 < Checked.sizeLimit) :
    Checked.sub rect.y1 rect.y0 = .ok (rect.y1 - rect.y0) ∧
      Checked.mul rect.rowBytes (rect.y1 - rect.y0) =
        .ok (rect.rowBytes * (rect.y1 - rect.y0)) := by
  have hbytes := hrect.bytes_le
  have hlimits : Checked.sizeLimit < Checked.wordLimit := by decide
  exact ⟨Checked.sub_ok hrect.top, Checked.mul_ok (by omega)⟩

end TileRect.Within

variable (hsize : width * height * 4 < Checked.sizeLimit)
  (hframe : frame.length = width * height * 4)

include hsize hframe

/-- Rows of a tile that are overwritten with the same bytes. -/
theorem writeRows_ok {row : List UInt8} (hrow : row.length = rect.rowBytes) :
    let written := rect.rows.foldl (fun frame y =>
      overwrite frame (rect.rowStart width y) row) frame
    (rect.rows.foldlM (fun frame y => do
      let rs ← pixelOffset width rect.x0 y
      let stop ← Checked.add rs rect.rowBytes
      Checked.write frame rs stop row) frame) = .ok written ∧
      written.length = width * height * 4 := by
  apply Checked.foldlM_ok (I := fun current : List UInt8 =>
    current.length = width * height * 4)
  · intro current hcurrent y hy
    obtain ⟨hoffset, hadd, hend⟩ := hrect.row_ok hsize (mem_rows.mp hy).2
    constructor
    · rw [Checked.bind_ok hoffset, Checked.bind_ok hadd]
      apply Checked.write_ok <;> omega
    · rw [overwrite_length (by omega), hcurrent]
  · exact hframe

theorem paintSolid_ok {color : List UInt8} (hcolor : color.length = 4) :
    paintSolid frame width rect rect.rowBytes color =
        .ok (paintTile width rect frame (.solid color)) ∧
      (paintTile width rect frame (.solid color)).length = width * height * 4 := by
  have hnarrow := hrect.rowBytes_le
  have hbuffer : Checked.slice (List.replicate (tileSize * 4) (0 : UInt8)) 0 rect.rowBytes =
      .ok (List.replicate rect.rowBytes 0) := by
    rw [Checked.slice_ok (by omega) (by rw [List.length_replicate]; omega), List.drop_zero,
      Nat.sub_zero, List.take_replicate, Nat.min_eq_left hnarrow]
  have hcount : rect.rowBytes / 4 = rect.x1 - rect.x0 := by
    rw [TileRect.rowBytes]
    omega
  unfold paintSolid paintTile
  rw [Checked.bind_ok hbuffer]
  simp only [List.length_replicate, hcount]
  exact writeRows_ok hrect hsize hframe (flatten_replicate_length hcolor _)

/-- The rows of the difference are taken in turn. -/
private theorem paintDelta_rows {delta : List UInt8}
    (hdelta : delta.length = rect.rowBytes * (rect.y1 - rect.y0)) (count y : Nat)
    (hy : rect.y0 ≤ y) (hcount : y + count = rect.y1) :
    let painted := (List.range' y count).foldl (fun frame y =>
      overwrite frame (rect.rowStart width y) (xorRow width rect delta frame y)) frame
    (∃ di, (List.range' y count).foldlM (fun (state : List UInt8 × Nat) y => do
      let (frame, di) := state
      let rs ← pixelOffset width rect.x0 y
      let stop ← Checked.add rs rect.rowBytes
      let frameRow ← Checked.slice frame rs stop
      let next ← Checked.add di rect.rowBytes
      let deltaRow ← Checked.slice delta di next
      let frame ← Checked.write frame rs stop (List.zipWith (fun f d => f ^^^ d) frameRow deltaRow)
      return (frame, next)) (frame, (y - rect.y0) * rect.rowBytes) = .ok (painted, di)) ∧
      painted.length = width * height * 4 := by
  induction count generalizing y frame with
  | zero => exact ⟨⟨_, rfl⟩, hframe⟩
  | succ count ih =>
      intro painted
      have hbelow : y < rect.y1 := by omega
      obtain ⟨hoffset, hadd, hend⟩ := hrect.row_ok hsize hbelow
      have hlimits : Checked.sizeLimit < Checked.wordLimit := by decide
      have hbytes := hrect.bytes_le
      have hdi : (y - rect.y0) * rect.rowBytes + rect.rowBytes =
          (y + 1 - rect.y0) * rect.rowBytes := by
        rw [← Nat.succ_mul]
        congr 1
        omega
      have hnext : (y + 1 - rect.y0) * rect.rowBytes ≤ delta.length := by
        rw [hdelta, Nat.mul_comm]
        apply Nat.mul_le_mul_left
        omega
      have hadd' : Checked.add ((y - rect.y0) * rect.rowBytes) rect.rowBytes =
          .ok ((y + 1 - rect.y0) * rect.rowBytes) := by
        rw [← hdi]
        exact Checked.add_ok (by omega)
      have hframeRow : Checked.slice frame (rect.rowStart width y)
          (rect.rowStart width y + rect.rowBytes) =
          .ok (field frame (rect.rowStart width y) rect.rowBytes) := by
        rw [Checked.slice_ok (by omega) (by omega), Nat.add_sub_cancel_left, field]
      have hdeltaRow : Checked.slice delta ((y - rect.y0) * rect.rowBytes)
          ((y + 1 - rect.y0) * rect.rowBytes) =
          .ok (field delta ((y - rect.y0) * rect.rowBytes) rect.rowBytes) := by
        rw [← hdi, Checked.slice_ok (by omega) (by omega), Nat.add_sub_cancel_left, field]
      have hpart : (xorRow width rect delta frame y).length = rect.rowBytes := by
        simp only [xorRow, List.length_zipWith, field, List.length_take, List.length_drop]
        omega
      have hwrite : Checked.write frame (rect.rowStart width y)
          (rect.rowStart width y + rect.rowBytes) (xorRow width rect delta frame y) =
          .ok (overwrite frame (rect.rowStart width y) (xorRow width rect delta frame y)) :=
        Checked.write_ok (by omega) (by omega)
      have hlength : (overwrite frame (rect.rowStart width y)
          (xorRow width rect delta frame y)).length = frame.length :=
        overwrite_length (by omega)
      obtain ⟨⟨di, hrest⟩, hdone⟩ := ih (hlength.trans hframe) (y + 1) (by omega) (by omega)
      refine ⟨⟨di, ?_⟩, hdone⟩
      rw [List.range'_succ, List.foldlM_cons]
      dsimp only
      rw [Checked.bind_ok hoffset, Checked.bind_ok hadd, Checked.bind_ok hframeRow,
        Checked.bind_ok hadd', Checked.bind_ok hdeltaRow, ← xorRow,
        Checked.bind_ok hwrite]
      exact hrest

theorem paintDelta_ok {delta : List UInt8}
    (hdelta : delta.length = rect.rowBytes * (rect.y1 - rect.y0)) :
    paintDelta frame width rect rect.rowBytes delta =
        .ok (paintTile width rect frame (.delta delta)) ∧
      (paintTile width rect frame (.delta delta)).length = width * height * 4 := by
  have htop := hrect.top
  obtain ⟨⟨di, hrows⟩, hlength⟩ := paintDelta_rows hrect hsize hframe hdelta
    (rect.y1 - rect.y0) rect.y0 (Nat.le_refl _) (by omega)
  rw [Nat.sub_self, Nat.zero_mul] at hrows
  refine ⟨?_, hlength⟩
  unfold paintDelta paintTile TileRect.rows
  rw [Checked.bind_ok hrows]
  rfl

end Within

/-- The pixels are those of a tile of this size. -/
def TilePixels.Fits (rect : TileRect) : TilePixels → Prop
  | .solid color => color.length = 4
  | .delta bytes => bytes.length = rect.rowBytes * (rect.y1 - rect.y0)

/-- What is to be painted in a place: a solid tile has a color. -/
def Paintable (width height : Nat) (tile : TileEntry × Except EvrtckError TilePixels) :
    Prop :=
  tile.1.rect.Within width height ∧ ∀ color, tile.2 = .ok (.solid color) → color.length = 4

/-- One more tile before those that are painted already. -/
private theorem places_cons {entry : TileEntry} {pixels : TilePixels}
    {tiles : List (TileEntry × Except EvrtckError TilePixels)} {outcome : Except EvrtckError Unit}
    {frame last : List UInt8}
    (hall : ∀ painted, List.Forall₂ (fun tile (place : TileRect × TilePixels) =>
        tile.1.rect = place.1 ∧ tile.2 = .ok place.2 ∧ place.2.Fits place.1) tiles painted →
      outcome = .ok () ∧ last = painted.foldl (fun frame place =>
        paintTile width place.1 frame place.2) (paintTile width entry.rect frame pixels)) :
    ∀ painted, List.Forall₂ (fun tile (place : TileRect × TilePixels) =>
        tile.1.rect = place.1 ∧ tile.2 = .ok place.2 ∧ place.2.Fits place.1)
        ((entry, .ok pixels) :: tiles) painted →
      outcome = .ok () ∧ last = painted.foldl (fun frame place =>
        paintTile width place.1 frame place.2) frame := by
  intro painted hplaces
  cases hplaces with
  | cons hfirst hrest =>
      obtain ⟨hplace, hpixels, _⟩ := hfirst
      injection hpixels with hpixels
      rw [List.foldl_cons, ← hplace, ← hpixels]
      exact hall _ hrest

theorem paintTiles_run (hsize : width * height * 4 < Checked.sizeLimit)
    {tiles : List (TileEntry × Except EvrtckError TilePixels)}
    (hpaintable : ∀ tile ∈ tiles, Paintable width height tile) {s : Decoding}
    (hframe : s.frame.length = width * height * 4) :
    ∃ outcome t, paintTiles width tiles s = .ok (outcome, t) ∧ t.pos = s.pos ∧
      t.frame.length = width * height * 4 ∧
      ∀ painted, List.Forall₂ (fun tile (place : TileRect × TilePixels) =>
          tile.1.rect = place.1 ∧ tile.2 = .ok place.2 ∧ place.2.Fits place.1)
          tiles painted →
        outcome = .ok () ∧ t.frame =
          painted.foldl (fun frame place => paintTile width place.1 frame place.2)
            s.frame := by
  induction tiles generalizing s with
  | nil =>
      refine ⟨.ok (), s, rfl, rfl, hframe, ?_⟩
      intro painted hpainted
      cases hpainted
      exact ⟨rfl, rfl⟩
  | cons tile tiles ih =>
      obtain ⟨entry, pixels⟩ := tile
      obtain ⟨hrect, hcolor⟩ := hpaintable _ List.mem_cons_self
      dsimp only at hrect
      have hlater := fun tile h => hpaintable tile (List.mem_cons_of_mem _ h)
      obtain ⟨hwidth, hrowBytes⟩ := hrect.row_size
      unfold paintTiles
      rw [Proc.lift_bind hwidth, Proc.lift_bind hrowBytes]
      match pixels with
      | .error error =>
          refine ⟨.error error, s, rfl, rfl, hframe, ?_⟩
          intro painted hpainted
          cases hpainted with
          | cons hfirst _ => cases hfirst.2.1
      | .ok (.solid color) =>
          obtain ⟨hpaint, hpainted⟩ := paintSolid_ok hrect hsize hframe (hcolor color rfl)
          dsimp only
          rw [Proc.get_bind, Proc.lift_bind hpaint, Proc.set_bind]
          obtain ⟨outcome, t, hrun, hpos, hdone, hall⟩ :=
            ih hlater (s := { s with
              frame := paintTile width entry.rect s.frame (.solid color) }) hpainted
          exact ⟨outcome, t, hrun, hpos, hdone, places_cons hall⟩
      | .ok (.delta delta) =>
          obtain ⟨hheight, hexpected⟩ := hrect.delta_size hsize
          dsimp only
          rw [Proc.lift_bind hheight, Proc.lift_bind hexpected]
          split
          next hlong =>
            refine ⟨.error .invalidDelta, s, rfl, rfl, hframe, ?_⟩
            intro painted hplaces
            cases hplaces with
            | cons hfirst _ =>
                obtain ⟨hplace, hpixels, hfits⟩ := hfirst
                injection hpixels with hpixels
                rw [← hplace, ← hpixels] at hfits
                exact (hlong hfits).elim
          next hfits =>
            obtain ⟨hpaint, hpainted⟩ := paintDelta_ok hrect hsize hframe (not_not.mp hfits)
            rw [Proc.get_bind, Proc.lift_bind hpaint, Proc.set_bind]
            obtain ⟨outcome, t, hrun, hpos, hdone, hall⟩ :=
              ih hlater (s := { s with
                frame := paintTile width entry.rect s.frame (.delta delta) }) hpainted
            exact ⟨outcome, t, hrun, hpos, hdone, places_cons hall⟩

end Tiles

section Frames

variable {zstd : Zstd} {data : List UInt8} {width height : Nat} {s : Decoding}

/-- Decompressing what the packet says of a tile does not panic. -/
theorem decompressTile_ok {entry : TileEntry} {tile : TileData}
    (h : Matches data width height entry tile) :
    decompressTile zstd data entry.encStart entry.encEnd entry.mode =
      .ok (tilePixels zstd tile) := by
  have hslice : Checked.slice data entry.encStart entry.encEnd = .ok tile.payload := by
    rw [Checked.slice_ok h.range.1 h.range.2, ← field, h.payload]
  unfold decompressTile tilePixels
  rw [Checked.bind_ok hslice, h.mode]
  rcases h.modes with ⟨hmode, hlength⟩ | hmode | hmode
  · obtain ⟨r, g, b, a, hcolor⟩ := List.length_eq_four.mp hlength
    rw [if_pos hmode, if_pos hmode, hcolor]
    rfl
  · obtain ⟨outcome, hdecode⟩ := zrleDecode_total h.short
    rw [hmode, if_neg (by decide), if_pos rfl, if_neg (by decide), if_pos rfl, hdecode]
    rfl
  · rw [hmode, if_neg (by decide), if_neg (by decide), if_pos rfl, if_neg (by decide),
      if_neg (by decide)]
    cases zstd.decodeAll tile.payload <;> rfl

theorem decompressTiles_ok {dirty : List TileEntry} {tiles : List TileData}
    (h : List.Forall₂ (Matches data width height) dirty tiles) :
    decompressTiles zstd data dirty = .ok (tiles.map (tilePixels zstd)) := by
  unfold decompressTiles
  induction h with
  | nil => rfl
  | cons hfirst _ ih =>
      rw [List.mapM_cons, decompressTile_ok hfirst, ih]
      rfl

/-- What is painted for a packet lies in the frame, and its solid tiles have a
color. -/
theorem paintable_of_matches (zstd : Zstd) {dirty : List TileEntry} {tiles : List TileData}
    (h : List.Forall₂ (Matches data width height) dirty tiles) :
    ∀ tile ∈ dirty.zip (tiles.map (tilePixels zstd)), Paintable width height tile := by
  induction h with
  | nil => simp
  | @cons entry tile entries tiles hfirst _ ih =>
      intro other hother
      rcases List.mem_cons.mp hother with rfl | hother
      · constructor
        · dsimp only
          rw [hfirst.rect]
          exact tileRect_within hfirst.idx_lt
        · intro color hcolor
          dsimp only [tilePixels] at hcolor
          split at hcolor
          next hsolid =>
            injection hcolor with hcolor
            injection hcolor with hcolor
            rcases hfirst.modes with ⟨_, hlength⟩ | hmode | hmode
            · rw [← hcolor, hlength]
            · rw [hsolid] at hmode
              exact absurd hmode (by decide)
            · rw [hsolid] at hmode
              exact absurd hmode (by decide)
          · split at hcolor
            · split at hcolor
              next outcome _ =>
                cases outcome with
                | ok bytes => cases hcolor
                | error error => cases hcolor
              · cases hcolor
            · split at hcolor <;> cases hcolor
      · exact ih other hother

/-- The ways a reading program can go. -/
theorem Reads.run {Result Parsed : Type} {program : Decode Result}
    {parser : Parse Parsed} {R : Result → Parsed → Prop}
    (h : Reads data program parser R) (hpos : s.pos ≤ data.length) :
    (parser (data.drop s.pos) = none ∧
      ∃ error t, program s = .ok (.error error, t) ∧ t.frame = s.frame) ∨
    ∃ parsed rest result t, parser (data.drop s.pos) = some (parsed, rest) ∧
      program s = .ok (.ok result, t) ∧ t.frame = s.frame ∧ R result parsed ∧
      t.pos ≤ data.length ∧ data.drop t.pos = rest := by
  obtain ⟨outcome, t, hrun, hframe, houtcome⟩ := h s hpos
  cases outcome with
  | error error =>
      cases hparse : parser (data.drop s.pos) with
      | none => exact Or.inl ⟨rfl, error, t, hrun, hframe⟩
      | some found =>
          rw [hparse] at houtcome
          exact houtcome.elim
  | ok result =>
      cases hparse : parser (data.drop s.pos) with
      | none =>
          rw [hparse] at houtcome
          exact houtcome.elim
      | some found =>
          rw [hparse] at houtcome
          exact Or.inr ⟨found.1, found.2, result, t, rfl, hrun, hframe, houtcome⟩

theorem clearForKeyframe_run (flags : UInt8) (s : Decoding) :
    clearForKeyframe flags s = .ok (.ok (), { s with
      frame := if flags &&& flagKeyframe ≠ 0 then List.replicate s.frame.length 0
        else s.frame }) := by
  unfold clearForKeyframe
  rw [Proc.get_bind]
  split <;> rfl

theorem copyInFrame_run (rects : List CopyRect) (hframe : s.frame.length = width * height * 4)
    (hsize : width * height * 4 < Checked.sizeLimit) :
    copyInFrame width height rects s = .ok (.ok (), { s with
      frame := applyCopyRects s.frame width height rects }) := by
  unfold copyInFrame
  rw [Proc.get_bind, Proc.lift_bind (applyCopyRectsChecked_ok rects hframe hsize)]
  rfl

theorem paintFrame_nil (priority : Option (Nat → Priority)) (s : Decoding) :
    paintFrame zstd data width priority [] s = .ok (.ok [], s) := by
  unfold paintFrame
  have hdecoded : decompressTiles zstd data [] = .ok [] := rfl
  have hsorted : sortByPriority priority
      (([] : List TileEntry).zip ([] : List (Except EvrtckError TilePixels))) = .ok [] := by
    cases priority with
    | none => rfl
    | some priority =>
        unfold sortByPriority Checked.sortBy
        simp
  rw [Proc.lift_bind hdecoded, Proc.lift_bind hsorted]
  rfl

/-- What is done before the painting: the frame is cleared for a key frame, the rectangles
are copied, the tiles are found. -/
def readChanges (data : List UInt8) (width height : Nat) : Decode (List TileEntry) := do
  let (ver, flags) ← readPrologue data
  clearForKeyframe flags
  match ← readHead data width height ver flags with
  | none => return []
  | some head => do
      let rects ← readCopySection data width height head
      copyInFrame width height rects
      readTiles data width height head.mapBytes

/-- The priorities have no part in it. -/
theorem decodeFramePrioritized_eq (zstd : Zstd) (data : List UInt8) (width height : Nat)
    (priority : Option (Nat → Priority)) :
    decodeFramePrioritized zstd data width height priority =
      readChanges data width height >>= paintFrame zstd data width priority := by
  unfold decodeFramePrioritized readChanges
  rw [Proc.bind_assoc]
  refine Proc.bind_congr fun ⟨ver, flags⟩ => ?_
  dsimp only
  rw [Proc.bind_assoc]
  refine Proc.bind_congr fun _ => ?_
  rw [Proc.bind_assoc]
  refine Proc.bind_congr fun head => ?_
  cases head with
  | none => exact funext fun s => (paintFrame_nil priority s).symm
  | some head => simp only [Proc.bind_assoc]

section Reading

variable (hdata : data.length < Checked.sizeLimit) (hwidth : width < 2 ^ 32)
  (hheight : height < 2 ^ 32) (hsize : width * height * 4 < Checked.sizeLimit)
  (hframe : s.frame.length = width * height * 4)

include hdata hwidth hheight hsize hframe

/-- After the header: the rectangles are copied, the tiles are found. -/
private theorem changes_run (hpos : s.pos ≤ data.length)
    {head : Option FrameHead} (hmap : ∀ found, head = some found → found.mapBytes < 2 ^ 16) :
    let program : Option FrameHead → Decode (List TileEntry)
      | none => return []
      | some head => do
          let rects ← readCopySection data width height head
          copyInFrame width height rects
          readTiles data width height head.mapBytes
    match parseChanges width height head (data.drop s.pos) with
    | none => ∃ error t, program head s = .ok (.error error, t) ∧
        t.frame = copied s.frame width height head (data.drop s.pos)
    | some (changes, _) => ∃ dirty t, program head s = .ok (.ok dirty, t) ∧
        List.Forall₂ (Matches data width height) dirty changes.tiles ∧
        t.frame = applyCopyRects s.frame width height changes.rects := by
  cases head with
  | none => exact ⟨[], s, rfl, List.Forall₂.nil, rfl⟩
  | some head =>
      intro program
      unfold parseChanges
      dsimp only [program]
      have hmap := hmap head rfl
      rcases (readCopySection_reads hdata head).run hpos with
        ⟨hparse, error, t, hrun, hsame⟩ |
        ⟨_, rest, rects, t, hparse, hrun, hsame, rfl, htpos, hrest⟩
      · rw [Parse.bind_none hparse, Proc.bind_fails hrun]
        refine ⟨error, t, rfl, ?_⟩
        rw [hsame, copied, hparse]
      · have hframe' : t.frame.length = width * height * 4 := by rw [hsame, hframe]
        rw [Parse.bind_some hparse, Proc.bind_returns hrun,
          Proc.bind_returns (copyInFrame_run rects hframe' hsize), ← hrest]
        have hmap' : head.mapBytes < Checked.sizeLimit := by
          rw [Checked.sizeLimit]
          omega
        rcases (readTiles_reads hdata hwidth hheight hmap').run (s := { t with
            frame := applyCopyRects t.frame width height rects }) htpos with
          ⟨hparse', error, u, hrun, hsame'⟩ |
          ⟨tiles, rest', dirty, u, hparse', hrun, hsame', hmatches, _, _⟩
        · rw [Parse.bind_none hparse', hrun]
          refine ⟨error, u, rfl, ?_⟩
          rw [copied, hparse]
          dsimp only
          rw [hsame', hsame]
        · rw [Parse.bind_some hparse', hrun]
          exact ⟨dirty, u, rfl, hmatches, by rw [hsame', hsame]⟩

/-- The decoder fails before the painting where the parser does, and otherwise finds the
tiles that the packet names, with what the packet leaves of the frame. -/
theorem readChanges_run (hpos : s.pos = 0) :
    match parseFrame width height data with
    | none => ∃ error t, readChanges data width height s = .ok (.error error, t) ∧
        t.frame = prepared s.frame width height data
    | some ((flags, changes), _) => ∃ dirty t,
        readChanges data width height s = .ok (.ok dirty, t) ∧
        List.Forall₂ (Matches data width height) dirty changes.tiles ∧
        t.frame = background s.frame width height flags changes := by
  unfold readChanges parseFrame
  rcases (readPrologue_reads hdata).run (show s.pos ≤ data.length by omega) with
    ⟨hprologue, error, t, hrun, hsame⟩ |
    ⟨⟨ver, flags⟩, rest, _, t, hprologue, hrun, hsame, rfl, htpos, hrest⟩
  · rw [hpos, List.drop_zero] at hprologue
    rw [Parse.bind_none hprologue, Proc.bind_fails hrun]
    refine ⟨error, t, rfl, ?_⟩
    rw [hsame, prepared, hprologue]
  · rw [hpos, List.drop_zero] at hprologue
    rw [Parse.bind_some hprologue, Proc.bind_returns hrun, ← hrest]
    rw [← hrest] at hprologue
    dsimp only
    rw [Proc.bind_returns (clearForKeyframe_run flags t), hsame]
    generalize hcleared : (if flags &&& flagKeyframe ≠ 0 then
        List.replicate s.frame.length (0 : UInt8) else s.frame) = cleared
    have hlength : cleared.length = width * height * 4 := by
      rw [← hcleared]
      split
      · rw [List.length_replicate, hframe]
      · exact hframe
    rcases (readHead_reads hdata ver flags).run (s := { t with frame := cleared }) htpos with
      ⟨hhead, error, u, hrun, hsame⟩ |
      ⟨_, rest, head, u, hhead, hrun, hsame, ⟨rfl, hmap⟩, hupos, hrest⟩
    · rw [Parse.bind_none hhead, Proc.bind_fails hrun]
      refine ⟨error, u, rfl, ?_⟩
      rw [hsame, prepared, hprologue]
      dsimp only
      rw [hhead, hcleared]
    · rw [Parse.bind_some hhead, Proc.bind_returns hrun, ← hrest]
      have hchanges := changes_run hdata hwidth hheight hsize (hsame ▸ hlength) hupos hmap
      dsimp only at hchanges
      cases hparsed : parseChanges width height head (data.drop u.pos) with
      | none =>
          rw [hparsed] at hchanges
          rw [Parse.bind_none hparsed]
          obtain ⟨error, v, hrun, hcopied⟩ := hchanges
          refine ⟨error, v, hrun, ?_⟩
          rw [hcopied, hsame, prepared, hprologue]
          dsimp only
          rw [hhead, ← hrest, hcleared]
      | some found =>
          obtain ⟨changes, rest⟩ := found
          rw [hparsed] at hchanges
          rw [Parse.bind_some hparsed]
          obtain ⟨dirty, v, hrun, hmatches, hbackground⟩ := hchanges
          exact ⟨dirty, v, hrun, hmatches, by rw [hbackground, hsame, background, hcleared]⟩

end Reading

/-- The decoder fails where the parser does, and otherwise paints the tiles that
the packet names on what the packet leaves of the frame. -/
theorem decodeFramePrioritized_run (zstd : Zstd) (hdata : data.length < Checked.sizeLimit)
    (hwidth : width < 2 ^ 32) (hheight : height < 2 ^ 32)
    (hsize : width * height * 4 < Checked.sizeLimit)
    (hframe : s.frame.length = width * height * 4) (hpos : s.pos = 0)
    (priority : Option (Nat → Priority)) :
    match parseFrame width height data with
    | none => ∃ error t,
        decodeFramePrioritized zstd data width height priority s = .ok (.error error, t) ∧
          t.frame.length = width * height * 4
    | some ((flags, changes), _) => ∃ dirty t,
        List.Forall₂ (Matches data width height) dirty changes.tiles ∧
        t.frame = background s.frame width height flags changes ∧
        decodeFramePrioritized zstd data width height priority s =
          paintFrame zstd data width priority dirty t := by
  have hread := readChanges_run hdata hwidth hheight hsize hframe hpos
  rw [decodeFramePrioritized_eq]
  cases hparse : parseFrame width height data with
  | none =>
      rw [hparse] at hread
      obtain ⟨error, t, hrun, hprepared⟩ := hread
      exact ⟨error, t, Proc.bind_fails hrun, hprepared ▸ prepared_length data hframe⟩
  | some found =>
      rw [hparse] at hread
      obtain ⟨dirty, t, hrun, hmatches, hbackground⟩ := hread
      exact ⟨dirty, t, hmatches, hbackground, Proc.bind_returns hrun⟩

end Frames

end EvertyDesk.Evrtck
