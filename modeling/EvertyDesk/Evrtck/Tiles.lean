import EvertyDesk.Lib.Raster
import EvertyDesk.Evrtck.Zrle

/-!
Tiles of a frame: which pixels they have, whether they changed, and their
encoding. Captured frames have their channels in the order blue, green, red,
alpha; the encoder turns them around, and the decoder's frames begin with red.
Arithmetic on the sender's side is that of natural numbers: its frames exist.
-/

namespace EvertyDesk.Evrtck

/-- The pixels with `x0 ≤ x < x1` and `y0 ≤ y < y1`. -/
structure TileRect where
  x0 : Nat
  y0 : Nat
  x1 : Nat
  y1 : Nat
deriving DecidableEq, Repr

def tileRect (width height tx ty : Nat) : TileRect where
  x0 := tx * tileSize
  y0 := ty * tileSize
  x1 := min (tx * tileSize + tileSize) width
  y1 := min (ty * tileSize + tileSize) height

namespace TileRect

def rows (rect : TileRect) : List Nat := List.range' rect.y0 (rect.y1 - rect.y0)

/-- The bytes of a row of the tile begin here. -/
def rowStart (rect : TileRect) (width y : Nat) : Nat := (y * width + rect.x0) * 4

def rowBytes (rect : TileRect) : Nat := (rect.x1 - rect.x0) * 4

end TileRect

/-- The source compares the rows of inner tiles with a fixed length. -/
def tileIsDirty (rgba prev : List UInt8) (width height tx ty : Nat) : Bool :=
  let rect := tileRect width height tx ty
  rect.rows.any fun y =>
    field rgba (rect.rowStart width y) rect.rowBytes !=
      field prev (rect.rowStart width y) rect.rowBytes

/-- One pixel of a captured frame, turned around. -/
def rgbaPixel (byte : Nat → UInt8) (offset : Nat) : List UInt8 :=
  [byte (offset + 2), byte (offset + 1), byte offset, byte (offset + 3)]

def gatherPixels (byte : Nat → UInt8) (rect : TileRect) (width : Nat) : List UInt8 :=
  rect.rows.flatMap fun y =>
    (List.range (rect.x1 - rect.x0)).flatMap fun x =>
      rgbaPixel byte (rect.rowStart width y + x * 4)

/-- All pixels of the tile are like its first one. -/
def tileIsSolid (rgba : List UInt8) (rect : TileRect) (width : Nat) : Bool :=
  rect.rows.all fun y =>
    (List.range (rect.x1 - rect.x0)).all fun x =>
      field rgba (rect.rowStart width y + x * 4) 4 == field rgba (rect.rowStart width rect.y0) 4

def encodeTileBuf (zstd : Zstd) (rgba prev : List UInt8) (width height tx ty : Nat)
    (isKeyframe : Bool) : List UInt8 × UInt8 :=
  let rect := tileRect width height tx ty
  let pixelBytes := (rect.x1 - rect.x0) * (rect.y1 - rect.y0) * 4
  if tileIsSolid rgba rect width then
    (modeSolid :: rgbaPixel (rgba.getD · 0) (rect.rowStart width rect.y0), modeSolid)
  else if isKeyframe then
    let tile := gatherPixels (rgba.getD · 0) rect width
    let compressed := (zstd.encodeAll tile).getD []
    (modeZstd :: (leBytes 4 compressed.length ++ compressed), modeZstd)
  else
    let delta := gatherPixels (fun i => rgba.getD i 0 ^^^ prev.getD i 0) rect width
    let zrle := zrleEncode delta
    let z := (zstd.encodeAll delta).getD []
    if zrle.length * 4 > pixelBytes * 3 ∧ z ≠ [] ∧ z.length < zrle.length then
      (modeZstd :: (leBytes 4 z.length ++ z), modeZstd)
    else (modeDelta :: (leBytes 4 zrle.length ++ zrle), modeDelta)

/-- The rectangle is read as a whole before it is written. -/
def applyCopyRect (frame : List UInt8) (width : Nat) (rect : CopyRect) : List UInt8 :=
  let rowBytes := rect.width.toNat * 4
  let temp := (List.range rect.height.toNat).flatMap fun row =>
    field frame (((rect.srcY.toNat + row) * width + rect.srcX.toNat) * 4) rowBytes
  (List.range rect.height.toNat).foldl (fun frame row =>
    overwrite frame (((rect.dstY.toNat + row) * width + rect.dstX.toNat) * 4)
      (field temp (row * rowBytes) rowBytes)) frame

def applyCopyRects (frame : List UInt8) (width height : Nat) (rects : List CopyRect) : List UInt8 :=
  rects.foldl (fun frame rect =>
    if rect.isValid width height then applyCopyRect frame width rect else frame) frame

/-- A captured frame as the receiver shows it. -/
def bgraToRgba : List UInt8 → List UInt8
  | b :: g :: r :: a :: rest => r :: g :: b :: a :: bgraToRgba rest
  | _ => []

/-! Turning frames around. -/

section Rgba

/-- Frames are taken pixel by pixel. -/
private theorem pixel_induction
    {motive : (bytes : List UInt8) → 4 ∣ bytes.length → Prop}
    (hnil : motive [] (Nat.dvd_zero 4))
    (hcons : ∀ b g r a rest (h : 4 ∣ rest.length), motive rest h →
      motive (b :: g :: r :: a :: rest) (show 4 ∣ rest.length + 4 by omega))
    (bytes : List UInt8) (h : 4 ∣ bytes.length) : motive bytes h := by
  induction bytes using bgraToRgba.induct with
  | case1 b g r a rest ih =>
      have hrest : 4 ∣ rest.length := by
        simp only [List.length_cons] at h
        omega
      exact hcons b g r a rest hrest (ih hrest)
  | case2 bytes hshort =>
      match bytes, hshort with
      | [], _ => exact hnil
      | [_], _ | [_, _], _ | [_, _, _], _ =>
          simp only [List.length_cons, List.length_nil] at h
          omega
      | b :: g :: r :: a :: rest, hshort => exact absurd rfl (hshort b g r a rest)

theorem bgraToRgba_length {bytes : List UInt8} (h : 4 ∣ bytes.length) :
    (bgraToRgba bytes).length = bytes.length := by
  induction bytes, h using pixel_induction with
  | hnil => rfl
  | hcons b g r a rest _ ih => simp [bgraToRgba, ih]

theorem bgraToRgba_append {left : List UInt8} (h : 4 ∣ left.length) (right : List UInt8) :
    bgraToRgba (left ++ right) = bgraToRgba left ++ bgraToRgba right := by
  induction left, h using pixel_induction with
  | hnil => rfl
  | hcons b g r a rest _ ih => simp [bgraToRgba, ih]

/-- Turning around works within pixels, so it commutes with cutting between
them. -/
private theorem bgraToRgba_cut {bytes : List UInt8} (h : 4 ∣ bytes.length) (pixels : Nat) :
    bgraToRgba (bytes.take (pixels * 4)) = (bgraToRgba bytes).take (pixels * 4) ∧
      bgraToRgba (bytes.drop (pixels * 4)) = (bgraToRgba bytes).drop (pixels * 4) := by
  have hfour : 4 ∣ (bytes.take (pixels * 4)).length := by
    rw [List.length_take]
    omega
  have hsplit := bgraToRgba_append hfour (bytes.drop (pixels * 4))
  rw [List.take_append_drop] at hsplit
  have hfront := bgraToRgba_length hfour
  rw [List.length_take] at hfront
  by_cases hlong : pixels * 4 ≤ bytes.length
  · rw [Nat.min_eq_left hlong] at hfront
    rw [hsplit]
    exact ⟨(List.take_left' hfront).symm, (List.drop_left' hfront).symm⟩
  · have hall := bgraToRgba_length h
    have hshort : bytes.length ≤ pixels * 4 := by omega
    rw [List.take_of_length_le hshort, List.drop_eq_nil_of_le hshort]
    rw [← hall] at hshort
    exact ⟨(List.take_of_length_le hshort).symm, (List.drop_eq_nil_of_le hshort).symm⟩

theorem bgraToRgba_take {bytes : List UInt8} (h : 4 ∣ bytes.length) (pixels : Nat) :
    bgraToRgba (bytes.take (pixels * 4)) = (bgraToRgba bytes).take (pixels * 4) :=
  (bgraToRgba_cut h pixels).1

theorem bgraToRgba_drop {bytes : List UInt8} (h : 4 ∣ bytes.length) (pixels : Nat) :
    bgraToRgba (bytes.drop (pixels * 4)) = (bgraToRgba bytes).drop (pixels * 4) :=
  (bgraToRgba_cut h pixels).2

theorem bgraToRgba_field {bytes : List UInt8} (h : 4 ∣ bytes.length) (start pixels : Nat) :
    bgraToRgba (field bytes (start * 4) (pixels * 4)) =
      field (bgraToRgba bytes) (start * 4) (pixels * 4) := by
  have hfour : 4 ∣ (bytes.drop (start * 4)).length := by
    rw [List.length_drop]
    omega
  rw [field, field, bgraToRgba_take hfour, bgraToRgba_drop h]

theorem bgraToRgba_overwrite {bytes part : List UInt8} (h : 4 ∣ bytes.length)
    (hpart : 4 ∣ part.length) (start : Nat) :
    bgraToRgba (overwrite bytes (start * 4) part) =
      overwrite (bgraToRgba bytes) (start * 4) (bgraToRgba part) := by
  obtain ⟨pixels, hpixels⟩ := hpart
  have htake : 4 ∣ (bytes.take (start * 4)).length := by
    rw [List.length_take]
    omega
  have hstop : start * 4 + part.length = (start + pixels) * 4 := by omega
  rw [overwrite, overwrite, List.append_assoc, bgraToRgba_append htake,
    bgraToRgba_append ⟨pixels, hpixels⟩, bgraToRgba_take h,
    bgraToRgba_length ⟨pixels, hpixels⟩, hstop, bgraToRgba_drop h, List.append_assoc]

theorem bgraToRgba_zipWith (f : UInt8 → UInt8 → UInt8) {left right : List UInt8}
    (h : 4 ∣ left.length) (hlength : left.length = right.length) :
    bgraToRgba (List.zipWith f left right) =
      List.zipWith f (bgraToRgba left) (bgraToRgba right) := by
  induction left, h using pixel_induction generalizing right with
  | hnil => rfl
  | hcons b g r a rest _ ih =>
      match right, hlength with
      | b' :: g' :: r' :: a' :: rest', hlength =>
          have hrest := ih (by simpa using hlength : rest.length = rest'.length)
          simp [bgraToRgba, hrest]

theorem bgraToRgba_flatMap {Index : Type} {row : Index → List UInt8}
    (hrow : ∀ y, 4 ∣ (row y).length) (rows : List Index) :
    bgraToRgba (rows.flatMap row) = rows.flatMap fun y => bgraToRgba (row y) := by
  induction rows with
  | nil => rfl
  | cons y rows ih =>
      rw [List.flatMap_cons, List.flatMap_cons, bgraToRgba_append (hrow y), ih]

@[simp] theorem bgraToRgba_zeros (size : Nat) :
    bgraToRgba (List.replicate (size * 4) 0) = List.replicate (size * 4) 0 := by
  induction size with
  | zero => rfl
  | succ size ih =>
      rw [Nat.succ_mul]
      simp [List.replicate_succ, bgraToRgba, ih]

/-- The pixels of a row, turned around one by one. -/
theorem flatMap_rgbaPixel {bytes : List UInt8} {pixels : Nat} (h : bytes.length = pixels * 4) :
    ((List.range pixels).flatMap fun x => rgbaPixel (bytes.getD · 0) (x * 4)) =
      bgraToRgba bytes := by
  induction pixels generalizing bytes with
  | zero =>
      rw [List.eq_nil_of_length_eq_zero (by omega : bytes.length = 0)]
      rfl
  | succ pixels ih =>
      match bytes, h with
      | [], h | [_], h | [_, _], h | [_, _, _], h =>
          simp only [List.length_cons, List.length_nil] at h
          omega
      | b :: g :: r :: a :: rest, h =>
          have hrest := ih (by simpa [Nat.succ_mul] using h : rest.length = pixels * 4)
          rw [List.range_succ_eq_map, List.flatMap_cons, List.flatMap_map, bgraToRgba, ← hrest]
          simp [rgbaPixel, Nat.succ_mul]

end Rgba

end EvertyDesk.Evrtck
