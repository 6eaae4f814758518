import EvertyDesk.Lib.Writes
import Mathlib.Algebra.Group.Int.Defs
import Mathlib.Algebra.Group.Prod
import Mathlib.Data.List.GetD

/-!
From BGRA pixels to the planes that the video encoders take: one luma value for each
pixel, and one pair of chroma values for each block of two by two. There are two ways
through a frame, a fast one with unchecked reads and one that repeats the last row and
the last column of a frame of odd size, and two layouts of the chroma values.

A read or a write outside of its buffer is an error here. The buffers have the lengths
that the debug assertions ask for, and every position is less than one of them.
-/

namespace EvertyDesk.Host

/-! The values before they are cast to a byte. -/

def yValue (r g b : Int) : Int := (66 * r + 129 * g + 25 * b + 128 + 16 * 256) >>> (8 : Nat)

def uValue (r g b : Int) : Int := (-38 * r - 74 * g + 112 * b + 128 + 128 * 256) >>> (8 : Nat)

def vValue (r g b : Int) : Int := (112 * r - 94 * g - 18 * b + 128 + 128 * 256) >>> (8 : Nat)

def yBt601 (r g b : Int) : UInt8 := UInt8.ofInt (yValue r g b)

def uBt601 (r g b : Int) : UInt8 := UInt8.ofInt (uValue r g b)

def vBt601 (r g b : Int) : UInt8 := UInt8.ofInt (vValue r g b)

/-- Blue, green and red. -/
abbrev Colours := Int × Int × Int

def px (bgra : List UInt8) (base : Nat) : Checked Colours := do
  let b ← Checked.index bgra base
  let g ← Checked.index bgra (base + 1)
  let r ← Checked.index bgra (base + 2)
  return (b.toNat, g.toNat, r.toNat)

section Blocks

variable {Name : Type} [DecidableEq Name]

/-- One block of the fast way: its luma values, and its colours on average. -/
def fastBlock (bgra : List UInt8) (w rowPair colPair : Nat) (luma : Name)
    (planes : Buffers Name UInt8) : Checked (Buffers Name UInt8 × Colours) := do
  let row := rowPair * 2
  let src0 := row * w * 4
  let src1 := (row + 1) * w * 4
  let y0 := row * w
  let y1 := (row + 1) * w
  let bx := colPair * 2
  let s00 := src0 + bx * 4
  let s01 := s00 + 4
  let s10 := src1 + bx * 4
  let s11 := s10 + 4
  let (b00, g00, r00) ← px bgra s00
  let (b01, g01, r01) ← px bgra s01
  let (b10, g10, r10) ← px bgra s10
  let (b11, g11, r11) ← px bgra s11
  let planes ← planes.write luma (y0 + bx) (yBt601 r00 g00 b00)
  let planes ← planes.write luma (y0 + bx + 1) (yBt601 r01 g01 b01)
  let planes ← planes.write luma (y1 + bx) (yBt601 r10 g10 b10)
  let planes ← planes.write luma (y1 + bx + 1) (yBt601 r11 g11 b11)
  let r := (r00 + r01 + r10 + r11 + 2) >>> (2 : Nat)
  let g := (g00 + g01 + g10 + g11 + 2) >>> (2 : Nat)
  let b := (b00 + b01 + b10 + b11 + 2) >>> (2 : Nat)
  return (planes, (b, g, r))

/-- One pixel of the other way, with the sums of its block so far. -/
def paddedPixel (bgra : List UInt8) (srcW dstW row sy bx : Nat) (luma : Name)
    (lastCol : Nat) (state : Buffers Name UInt8 × Colours) (dx : Nat) :
    Checked (Buffers Name UInt8 × Colours) := do
  let (planes, (bSum, gSum, rSum)) := state
  let sx := min (bx + dx) lastCol
  let base := (sy * srcW + sx) * 4
  let b ← Checked.index bgra base
  let g ← Checked.index bgra (base + 1)
  let r ← Checked.index bgra (base + 2)
  let b : Int := b.toNat
  let g : Int := g.toNat
  let r : Int := r.toNat
  let planes ← planes.write luma (row * dstW + bx + dx) (yBt601 r g b)
  return (planes, (bSum + b, gSum + g, rSum + r))

def paddedBlock (bgra : List UInt8) (srcW srcH dstW rowPair colPair : Nat) (luma : Name)
    (planes : Buffers Name UInt8) : Checked (Buffers Name UInt8 × Colours) := do
  let row := rowPair * 2
  let bx := colPair * 2
  let (planes, (bSum, gSum, rSum)) ← [0, 1].foldlM (fun state dy => do
      let lastRow ← Checked.sub srcH 1
      let sy := min (row + dy) lastRow
      let lastCol ← Checked.sub srcW 1
      [0, 1].foldlM (paddedPixel bgra srcW dstW (row + dy) sy bx luma lastCol) state)
    (planes, (0, 0, 0))
  return (planes, ((bSum + 2) >>> (2 : Nat), (gSum + 2) >>> (2 : Nat), (rSum + 2) >>> (2 : Nat)))

end Blocks

/-! Three planes. -/

inductive Plane where
  | y
  | u
  | v
deriving DecidableEq, Repr

abbrev Planes := Buffers Plane UInt8

/-- The chroma values of a block. -/
def writeChroma (w rowPair colPair : Nat) (planes : Planes) (colours : Colours) :
    Checked Planes := do
  let uvRow := rowPair * (w / 2)
  let (b, g, r) := colours
  let planes ← planes.write .u (uvRow + colPair) (uBt601 r g b)
  planes.write .v (uvRow + colPair) (vBt601 r g b)

def bgraToI420Fast (planes : Planes) (w h : Nat) (bgra : List UInt8) : Checked Planes :=
  (List.range (h / 2)).foldlM (fun planes rowPair =>
    (List.range (w / 2)).foldlM (fun planes colPair => do
      let (planes, colours) ← fastBlock bgra w rowPair colPair .y planes
      writeChroma w rowPair colPair planes colours) planes) planes

def bgraToI420Padded (planes : Planes) (srcW srcH dstW dstH : Nat) (bgra : List UInt8) :
    Checked Planes :=
  (List.range (dstH / 2)).foldlM (fun planes rowPair =>
    (List.range (dstW / 2)).foldlM (fun planes colPair => do
      let (planes, colours) ← paddedBlock bgra srcW srcH dstW rowPair colPair .y planes
      writeChroma dstW rowPair colPair planes colours) planes) planes

def bgraToI420 (planes : Planes) (srcW srcH dstW dstH : Nat) (bgra : List UInt8) : Checked Planes :=
  if srcW = dstW ∧ srcH = dstH ∧ srcW * srcH * 4 ≤ bgra.length then
    bgraToI420Fast planes srcW srcH bgra
  else bgraToI420Padded planes srcW srcH dstW dstH bgra

/-! Luma, then the chroma values in turn. -/

inductive Nv12Plane where
  | y
  | uv
deriving DecidableEq, Repr

/-- The pair of chroma values of a block. -/
def writeChromaPair {Name : Type} [DecidableEq Name] (chroma : Name) (uv : Nat)
    (planes : Buffers Name UInt8) (colours : Colours) : Checked (Buffers Name UInt8) := do
  let (b, g, r) := colours
  let planes ← planes.write chroma uv (uBt601 r g b)
  planes.write chroma (uv + 1) (vBt601 r g b)

def bgraToNv12Fast (planes : Buffers Nv12Plane UInt8) (w h : Nat) (bgra : List UInt8) :
    Checked (Buffers Nv12Plane UInt8) :=
  (List.range (h / 2)).foldlM (fun planes rowPair =>
    let uvOff := rowPair * w
    (List.range (w / 2)).foldlM (fun planes colPair => do
      let bx := colPair * 2
      let (planes, colours) ← fastBlock bgra w rowPair colPair .y planes
      writeChromaPair .uv (uvOff + bx) planes colours) planes) planes

/-- The two parts of the output lie in one buffer. -/
def bgraToNv12Padded (out : Buffers Unit UInt8) (srcW srcH dstW dstH : Nat)
    (bgra : List UInt8) : Checked (Buffers Unit UInt8) :=
  let yLen := dstW * dstH
  (List.range (dstH / 2)).foldlM (fun out rowPair =>
    let uvOff := yLen + rowPair * dstW
    (List.range (dstW / 2)).foldlM (fun out colPair => do
      let bx := colPair * 2
      let (out, colours) ← paddedBlock bgra srcW srcH dstW rowPair colPair () out
      writeChromaPair () (uvOff + bx) out colours) out) out

/-- `Vec::resize`. -/
def resize (bytes : List UInt8) (size : Nat) (fill : UInt8) : List UInt8 :=
  bytes.take size ++ List.replicate (size - bytes.length) fill

def bgraToNv12 (out : List UInt8) (srcW srcH dstW dstH : Nat) (bgra : List UInt8) :
    Checked (List UInt8) := do
  let yLen := dstW * dstH
  let total := yLen + yLen / 2
  let out := if out.length ≠ total then resize out total 0 else out
  if srcW = dstW ∧ srcH = dstH ∧ srcW * srcH * 4 ≤ bgra.length then
    let planes ← bgraToNv12Fast (fun
      | .y => out.take yLen
      | .uv => out.drop yLen) srcW srcH bgra
    return planes .y ++ planes .uv
  else
    let planes ← bgraToNv12Padded (fun _ => out) srcW srcH dstW dstH bgra
    return planes ()

/-! What belongs at each position. -/

def pixelAt (bgra : List UInt8) (base : Nat) : Colours :=
  ((bgra.getD base 0).toNat, (bgra.getD (base + 1) 0).toNat, (bgra.getD (base + 2) 0).toNat)

/-- The pixel for a place of the output; past the last row or column of the frame it is
the last one. -/
def sourcePixel (bgra : List UInt8) (srcW srcH row col : Nat) : Colours :=
  pixelAt bgra ((min row (srcH - 1) * srcW + min col (srcW - 1)) * 4)

def luma (pixel : Nat → Nat → Colours) (row col : Nat) : UInt8 :=
  let (b, g, r) := pixel row col
  yBt601 r g b

/-- A quarter of a sum of colours, rounded to the nearest. -/
def quarter (sum : Colours) : Colours :=
  ((sum.1 + 2) >>> (2 : Nat), (sum.2.1 + 2) >>> (2 : Nat), (sum.2.2 + 2) >>> (2 : Nat))

/-- The colours of a block of two by two, on average. -/
def average (pixel : Nat → Nat → Colours) (rowPair colPair : Nat) : Colours :=
  quarter (pixel (rowPair * 2) (colPair * 2) + pixel (rowPair * 2) (colPair * 2 + 1) +
    pixel (rowPair * 2 + 1) (colPair * 2) + pixel (rowPair * 2 + 1) (colPair * 2 + 1))

def chromaU (pixel : Nat → Nat → Colours) (rowPair colPair : Nat) : UInt8 :=
  let (b, g, r) := average pixel rowPair colPair
  uBt601 r g b

def chromaV (pixel : Nat → Nat → Colours) (rowPair colPair : Nat) : UInt8 :=
  let (b, g, r) := average pixel rowPair colPair
  vBt601 r g b

section

variable {Name : Type} [DecidableEq Name] {bgra : List UInt8}
  {srcW srcH dstW dstH rowPair colPair : Nat}

/-- The luma values of one block. -/
def lumaWrites (pixel : Nat → Nat → Colours) (dstW rowPair colPair : Nat) (name : Name) :
    List (Write Name UInt8) :=
  [⟨name, rowPair * 2 * dstW + colPair * 2, luma pixel (rowPair * 2) (colPair * 2)⟩,
    ⟨name, rowPair * 2 * dstW + colPair * 2 + 1, luma pixel (rowPair * 2) (colPair * 2 + 1)⟩,
    ⟨name, (rowPair * 2 + 1) * dstW + colPair * 2, luma pixel (rowPair * 2 + 1) (colPair * 2)⟩,
    ⟨name, (rowPair * 2 + 1) * dstW + colPair * 2 + 1,
      luma pixel (rowPair * 2 + 1) (colPair * 2 + 1)⟩]

theorem px_ok {base : Nat} (h : base + 2 < bgra.length) :
    px bgra base = .ok (pixelAt bgra base) := by
  rw [px, Checked.bind_ok (Checked.index_ok (by omega)),
    Checked.bind_ok (Checked.index_ok (by omega)), Checked.bind_ok (Checked.index_ok h)]
  rw [pixelAt, List.getD_eq_getElem _ _ (by omega), List.getD_eq_getElem _ _ (by omega),
    List.getD_eq_getElem _ _ h]
  rfl

/-- A place inside the frame has its own pixel. -/
theorem px_inside {w h row col base : Nat} (hbgra : w * h * 4 ≤ bgra.length) (hrow : row < h)
    (hcol : col < w) (hbase : base = (row * w + col) * 4) :
    px bgra base = .ok (sourcePixel bgra w h row col) := by
  have hplace := place_lt hrow hcol
  rw [Nat.mul_comm h w] at hplace
  rw [sourcePixel, min_eq_left (by omega), min_eq_left (by omega), ← hbase]
  apply px_ok
  omega

variable {planes : Buffers Name UInt8} {size : Name → Nat} {name : Name}

/-- The fast way reads and writes inside the buffers. -/
theorem fastBlock_ok (hbgra : dstW * dstH * 4 ≤ bgra.length) (hsized : planes.Sized size)
    (hsize : dstW * dstH ≤ size name) (hrow : rowPair * 2 + 1 < dstH)
    (hcol : colPair * 2 + 1 < dstW) :
    fastBlock bgra dstW rowPair colPair name planes =
      .ok (planes.putAll (lumaWrites (sourcePixel bgra dstW dstH) dstW rowPair colPair name),
        average (sourcePixel bgra dstW dstH) rowPair colPair) := by
  have hrow0 : rowPair * 2 < dstH := by omega
  have hcol0 : colPair * 2 < dstW := by omega
  have h00 : px bgra (rowPair * 2 * dstW * 4 + colPair * 2 * 4) = .ok _ :=
    px_inside hbgra hrow0 hcol0 (by omega)
  have h01 : px bgra (rowPair * 2 * dstW * 4 + colPair * 2 * 4 + 4) = .ok _ :=
    px_inside hbgra hrow0 hcol (by omega)
  have h10 : px bgra ((rowPair * 2 + 1) * dstW * 4 + colPair * 2 * 4) = .ok _ :=
    px_inside hbgra hrow hcol0 (by omega)
  have h11 : px bgra ((rowPair * 2 + 1) * dstW * 4 + colPair * 2 * 4 + 4) = .ok _ :=
    px_inside hbgra hrow hcol (by omega)
  have hfirst := place_lt hrow0 hcol
  have hsecond := place_lt hrow hcol
  rw [Nat.mul_comm dstH dstW] at hfirst hsecond
  unfold fastBlock lumaWrites average luma
  dsimp only
  rw [Checked.bind_ok h00]
  generalize sourcePixel bgra dstW dstH (rowPair * 2) (colPair * 2) = p00
  obtain ⟨b00, g00, r00⟩ := p00
  dsimp only
  rw [Checked.bind_ok h01]
  generalize sourcePixel bgra dstW dstH (rowPair * 2) (colPair * 2 + 1) = p01
  obtain ⟨b01, g01, r01⟩ := p01
  dsimp only
  rw [Checked.bind_ok h10]
  generalize sourcePixel bgra dstW dstH (rowPair * 2 + 1) (colPair * 2) = p10
  obtain ⟨b10, g10, r10⟩ := p10
  dsimp only
  rw [Checked.bind_ok h11]
  generalize sourcePixel bgra dstW dstH (rowPair * 2 + 1) (colPair * 2 + 1) = p11
  obtain ⟨b11, g11, r11⟩ := p11
  dsimp only
  rw [Checked.bind_ok (Buffers.write_ok hsized (by omega)),
    Checked.bind_ok (Buffers.write_ok (hsized.put _) (by omega)),
    Checked.bind_ok (Buffers.write_ok ((hsized.put _).put _) (by omega)),
    Checked.bind_ok (Buffers.write_ok (((hsized.put _).put _).put _) (by omega))]
  rfl

section Padded

variable (hbgra : srcW * srcH * 4 ≤ bgra.length) (hw : 0 < srcW) (hh : 0 < srcH)
  (hsized : planes.Sized size)

include hbgra hw hh hsized

/-- The last row and the last column of the frame are repeated. -/
theorem paddedPixel_ok {row bx dx : Nat} (hplace : row * dstW + bx + dx < size name)
    (sums : Colours) :
    paddedPixel bgra srcW dstW row (min row (srcH - 1)) bx name (srcW - 1) (planes, sums) dx =
      .ok (planes.put ⟨name, row * dstW + bx + dx, luma (sourcePixel bgra srcW srcH) row (bx + dx)⟩,
        sums + sourcePixel bgra srcW srcH row (bx + dx)) := by
  have hrow : min row (srcH - 1) < srcH := by omega
  have hcol : min (bx + dx) (srcW - 1) < srcW := by omega
  have hbase := place_lt hrow hcol
  rw [Nat.mul_comm srcH srcW] at hbase
  obtain ⟨bSum, gSum, rSum⟩ := sums
  unfold paddedPixel
  dsimp only
  rw [Checked.bind_ok (Checked.index_ok (by omega)),
    Checked.bind_ok (Checked.index_ok (by omega)),
    Checked.bind_ok (Checked.index_ok (by omega)),
    Checked.bind_ok (Buffers.write_ok hsized hplace)]
  rw [luma, sourcePixel, pixelAt, List.getD_eq_getElem _ _ (by omega),
    List.getD_eq_getElem _ _ (by omega), List.getD_eq_getElem _ _ (by omega)]
  rfl

theorem paddedRow_ok {row bx : Nat} (hplace : row * dstW + bx + 1 < size name) (sums : Colours) :
    [0, 1].foldlM
        (paddedPixel bgra srcW dstW row (min row (srcH - 1)) bx name (srcW - 1)) (planes, sums) =
      .ok (planes.putAll
          [⟨name, row * dstW + bx, luma (sourcePixel bgra srcW srcH) row bx⟩,
            ⟨name, row * dstW + bx + 1, luma (sourcePixel bgra srcW srcH) row (bx + 1)⟩],
        sums + sourcePixel bgra srcW srcH row bx + sourcePixel bgra srcW srcH row (bx + 1)) := by
  have hfirst := paddedPixel_ok hbgra hw hh hsized (by omega : row * dstW + bx + 0 < size name) sums
  have hsecond := paddedPixel_ok hbgra hw hh
    (hsized.put ⟨name, row * dstW + bx + 0, luma (sourcePixel bgra srcW srcH) row (bx + 0)⟩)
    hplace (sums + sourcePixel bgra srcW srcH row (bx + 0))
  rw [List.foldlM_cons, Checked.bind_ok hfirst, List.foldlM_cons, Checked.bind_ok hsecond]
  rfl

theorem paddedBlock_ok (hsize : dstW * dstH ≤ size name)
    (hrow : rowPair * 2 + 1 < dstH) (hcol : colPair * 2 + 1 < dstW) :
    paddedBlock bgra srcW srcH dstW rowPair colPair name planes =
      .ok (planes.putAll (lumaWrites (sourcePixel bgra srcW srcH) dstW rowPair colPair name),
        average (sourcePixel bgra srcW srcH) rowPair colPair) := by
  have hrow0 : rowPair * 2 + 0 < dstH := by omega
  have hplace0 := place_lt hrow0 hcol
  have hplace1 := place_lt hrow hcol
  rw [Nat.mul_comm dstH dstW] at hplace0 hplace1
  have hfirst := paddedRow_ok hbgra hw hh hsized
    (by omega : (rowPair * 2 + 0) * dstW + colPair * 2 + 1 < size name) (0, 0, 0)
  have hsecond := paddedRow_ok hbgra hw hh
    (hsized.putAll [
      ⟨name, (rowPair * 2 + 0) * dstW + colPair * 2,
        luma (sourcePixel bgra srcW srcH) (rowPair * 2 + 0) (colPair * 2)⟩,
      ⟨name, (rowPair * 2 + 0) * dstW + colPair * 2 + 1,
        luma (sourcePixel bgra srcW srcH) (rowPair * 2 + 0) (colPair * 2 + 1)⟩])
    (by omega : (rowPair * 2 + 1) * dstW + colPair * 2 + 1 < size name)
    ((0, 0, 0) + sourcePixel bgra srcW srcH (rowPair * 2 + 0) (colPair * 2) +
      sourcePixel bgra srcW srcH (rowPair * 2 + 0) (colPair * 2 + 1))
  have hlastRow := Checked.sub_ok hh
  have hlastCol := Checked.sub_ok hw
  unfold paddedBlock
  dsimp only
  rw [List.foldlM_cons, Checked.bind_ok hlastRow, Checked.bind_ok hlastCol,
    Checked.bind_ok hfirst, List.foldlM_cons, Checked.bind_ok hlastRow,
    Checked.bind_ok hlastCol, Checked.bind_ok hsecond]
  apply congrArg Except.ok
  apply Prod.ext
  · rfl
  · change quarter ((0 : Colours) + sourcePixel bgra srcW srcH (rowPair * 2) (colPair * 2) +
      sourcePixel bgra srcW srcH (rowPair * 2) (colPair * 2 + 1) +
      sourcePixel bgra srcW srcH (rowPair * 2 + 1) (colPair * 2) +
      sourcePixel bgra srcW srcH (rowPair * 2 + 1) (colPair * 2 + 1)) = _
    rw [zero_add]
    rfl

end Padded

/-! Every position has one block that writes to it. -/

variable {pixel : Nat → Nat → Colours} {place : Nat}

def lumaAt (pixel : Nat → Nat → Colours) (dstW place : Nat) : UInt8 :=
  luma pixel (place / dstW) (place % dstW)

omit [DecidableEq Name] in
theorem lumaWrites_right (hcol : colPair * 2 + 1 < dstW) :
    ∀ write ∈ lumaWrites pixel dstW rowPair colPair name,
      write.buffer = name ∧ write.position < (rowPair * 2 + 2) * dstW ∧
        write.item = lumaAt pixel dstW write.position := by
  have hcol0 : colPair * 2 < dstW := by omega
  have hrow0 : rowPair * 2 < rowPair * 2 + 2 := by omega
  have hrow1 : rowPair * 2 + 1 < rowPair * 2 + 2 := by omega
  intro write hwrite
  simp only [lumaWrites, List.mem_cons, List.not_mem_nil, or_false] at hwrite
  rcases hwrite with rfl | rfl | rfl | rfl
  · refine ⟨rfl, place_lt hrow0 hcol0, ?_⟩
    rw [lumaAt, place_div hcol0, place_mod hcol0]
  · refine ⟨rfl, place_lt hrow0 hcol, ?_⟩
    rw [lumaAt, Nat.add_assoc, place_div hcol, place_mod hcol]
  · refine ⟨rfl, place_lt hrow1 hcol0, ?_⟩
    rw [lumaAt, place_div hcol0, place_mod hcol0]
  · refine ⟨rfl, place_lt hrow1 hcol, ?_⟩
    rw [lumaAt, Nat.add_assoc, place_div hcol, place_mod hcol]

omit [DecidableEq Name] in
theorem lumaWrites_cover (hw : dstW % 2 = 0) (hh : dstH % 2 = 0) (hplace : place < dstW * dstH) :
    ∃ rowPair < dstH / 2, ∃ colPair < dstW / 2,
      ∃ write ∈ lumaWrites pixel dstW rowPair colPair name,
        write.buffer = name ∧ write.position = place := by
  obtain ⟨hrow, hcol, hsame⟩ := place_split hplace
  refine ⟨place / dstW / 2, by omega, place % dstW / 2, by omega, ?_⟩
  generalize place / dstW = row at hrow hsame ⊢
  generalize place % dstW = col at hcol hsame ⊢
  rcases Nat.mod_two_eq_zero_or_one row with hrow2 | hrow2
  · have hrowPair : row / 2 * 2 = row := by omega
    rcases Nat.mod_two_eq_zero_or_one col with hcol2 | hcol2
    · refine ⟨_, List.mem_cons_self, rfl, ?_⟩
      dsimp only
      rw [hrowPair]
      omega
    · refine ⟨_, List.mem_cons_of_mem _ List.mem_cons_self, rfl, ?_⟩
      dsimp only
      rw [hrowPair]
      omega
  · have hrowPair : row / 2 * 2 + 1 = row := by omega
    rcases Nat.mod_two_eq_zero_or_one col with hcol2 | hcol2
    · refine ⟨_, List.mem_cons_of_mem _ (List.mem_cons_of_mem _ List.mem_cons_self), rfl, ?_⟩
      dsimp only
      rw [hrowPair]
      omega
    · refine ⟨_, List.mem_cons_of_mem _ (List.mem_cons_of_mem _
        (List.mem_cons_of_mem _ List.mem_cons_self)), rfl, ?_⟩
      dsimp only
      rw [hrowPair]
      omega

end

/-! Three planes. -/

section

variable {bgra : List UInt8} {srcW srcH dstW dstH rowPair colPair : Nat} {planes : Planes}

def i420Size (dstW dstH : Nat) : Plane → Nat
  | .y => dstW * dstH
  | .u => (dstW / 2) * (dstH / 2)
  | .v => (dstW / 2) * (dstH / 2)

def i420Content (pixel : Nat → Nat → Colours) (dstW : Nat) : Plane → Nat → UInt8
  | .y, place => lumaAt pixel dstW place
  | .u, place => chromaU pixel (place / (dstW / 2)) (place % (dstW / 2))
  | .v, place => chromaV pixel (place / (dstW / 2)) (place % (dstW / 2))

/-- The planes of a frame. -/
def i420Planes (pixel : Nat → Nat → Colours) (dstW dstH : Nat) : Planes := fun plane =>
  (List.range (i420Size dstW dstH plane)).map (i420Content pixel dstW plane)

def i420Writes (pixel : Nat → Nat → Colours) (dstW rowPair colPair : Nat) :
    List (Write Plane UInt8) :=
  lumaWrites pixel dstW rowPair colPair .y ++
    [⟨.u, rowPair * (dstW / 2) + colPair, chromaU pixel rowPair colPair⟩,
      ⟨.v, rowPair * (dstW / 2) + colPair, chromaV pixel rowPair colPair⟩]

/-- Both ways through a frame fill the planes alike if their blocks are alike. -/
theorem i420_filled {pixel : Nat → Nat → Colours}
    {block : Nat → Nat → Planes → Checked (Planes × Colours)}
    (hblock : ∀ planes : Planes, planes.Sized (i420Size dstW dstH) → ∀ rowPair < dstH / 2,
      ∀ colPair < dstW / 2, block rowPair colPair planes =
        .ok (planes.putAll (lumaWrites pixel dstW rowPair colPair .y),
          average pixel rowPair colPair))
    (hw : dstW % 2 = 0) (hh : dstH % 2 = 0) (h : planes.Sized (i420Size dstW dstH)) :
    (List.range (dstH / 2)).foldlM (fun planes rowPair =>
        (List.range (dstW / 2)).foldlM (fun planes colPair => do
          let (planes, colours) ← block rowPair colPair planes
          writeChroma dstW rowPair colPair planes colours) planes) planes =
      .ok (i420Planes pixel dstW dstH) := by
  have hround : ∀ planes : Planes, planes.Sized (i420Size dstW dstH) →
      ∀ rowPair < dstH / 2, ∀ colPair < dstW / 2, (do
        let (planes, colours) ← block rowPair colPair planes
        writeChroma dstW rowPair colPair planes colours) =
        .ok (planes.putAll (i420Writes pixel dstW rowPair colPair)) := by
    intro planes hsized rowPair hrow colPair hcol
    have hplace : rowPair * (dstW / 2) + colPair < (dstW / 2) * (dstH / 2) := by
      rw [Nat.mul_comm (dstW / 2)]
      exact place_lt hrow hcol
    have hluma := hsized.putAll (lumaWrites pixel dstW rowPair colPair .y)
    rw [Checked.bind_ok (hblock planes hsized rowPair hrow colPair hcol)]
    unfold writeChroma
    dsimp only
    rw [Checked.bind_ok (Buffers.write_ok hluma hplace),
      Buffers.write_ok (hluma.put _) hplace, i420Writes, Buffers.putAll_append]
    rfl
  apply Buffers.nested_loops_fill (fun _ _ _ _ => rfl) hround _ _ h
  · intro rowPair hrow colPair hcol write hwrite
    rcases List.mem_append.mp hwrite with hluma | hchroma
    · obtain ⟨hbuffer, -, hitem⟩ := lumaWrites_right (by omega) write hluma
      rw [hbuffer, hitem]
      rfl
    · simp only [List.mem_cons, List.not_mem_nil, or_false] at hchroma
      rcases hchroma with rfl | rfl
      · rw [i420Content, place_div hcol, place_mod hcol]
      · rw [i420Content, place_div hcol, place_mod hcol]
  · intro plane place hplace
    cases plane with
    | y =>
        obtain ⟨rowPair, hrow, colPair, hcol, write, hwrite, hsame⟩ := lumaWrites_cover hw hh hplace
        exact ⟨rowPair, hrow, colPair, hcol, write, List.mem_append_left _ hwrite, hsame⟩
    | u =>
        obtain ⟨hrow, hcol, hsame⟩ := place_split hplace
        exact ⟨_, hrow, _, hcol, _, List.mem_append_right _ List.mem_cons_self, rfl, hsame⟩
    | v =>
        obtain ⟨hrow, hcol, hsame⟩ := place_split hplace
        exact ⟨_, hrow, _, hcol, _,
          List.mem_append_right _ (List.mem_cons_of_mem _ List.mem_cons_self), rfl, hsame⟩

theorem bgraToI420Fast_eq (hbgra : dstW * dstH * 4 ≤ bgra.length) (hw : dstW % 2 = 0)
    (hh : dstH % 2 = 0) (h : planes.Sized (i420Size dstW dstH)) :
    bgraToI420Fast planes dstW dstH bgra =
      .ok (i420Planes (sourcePixel bgra dstW dstH) dstW dstH) := by
  apply i420_filled _ hw hh h
  intro planes hsized rowPair hrow colPair hcol
  exact fastBlock_ok hbgra hsized (le_refl _) (by omega) (by omega)

theorem bgraToI420Padded_eq (hbgra : srcW * srcH * 4 ≤ bgra.length)
    (hsrcW : 0 < dstW → 0 < srcW) (hsrcH : 0 < dstH → 0 < srcH) (hw : dstW % 2 = 0)
    (hh : dstH % 2 = 0) (h : planes.Sized (i420Size dstW dstH)) :
    bgraToI420Padded planes srcW srcH dstW dstH bgra =
      .ok (i420Planes (sourcePixel bgra srcW srcH) dstW dstH) := by
  apply i420_filled _ hw hh h
  intro planes hsized rowPair hrow colPair hcol
  exact paddedBlock_ok hbgra (hsrcW (by omega)) (hsrcH (by omega)) hsized (le_refl _)
    (by omega) (by omega)

end

/-! Luma, then the chroma values in turn. -/

section

variable {Name : Type} [DecidableEq Name] {bgra : List UInt8}
  {srcW srcH dstW dstH rowPair colPair : Nat}

/-- The chroma value at a place: first that of one kind, then that of the other. -/
def chromaPairAt (pixel : Nat → Nat → Colours) (dstW place : Nat) : UInt8 :=
  if place % 2 = 0 then chromaU pixel (place / 2 / (dstW / 2)) (place / 2 % (dstW / 2))
  else chromaV pixel (place / 2 / (dstW / 2)) (place / 2 % (dstW / 2))

def chromaPairWrites (pixel : Nat → Nat → Colours) (dstW start rowPair colPair : Nat)
    (name : Name) : List (Write Name UInt8) :=
  [⟨name, start + rowPair * dstW + colPair * 2, chromaU pixel rowPair colPair⟩,
    ⟨name, start + rowPair * dstW + colPair * 2 + 1, chromaV pixel rowPair colPair⟩]

omit [DecidableEq Name] in
theorem chromaPairWrites_right {pixel : Nat → Nat → Colours} {start : Nat} {name : Name}
    (hw : dstW % 2 = 0) (hcol : colPair < dstW / 2) :
    ∀ write ∈ chromaPairWrites pixel dstW start rowPair colPair name,
      write.buffer = name ∧ start ≤ write.position ∧
        write.item = chromaPairAt pixel dstW (write.position - start) := by
  obtain ⟨half, rfl⟩ := Nat.dvd_of_mod_eq_zero hw
  have hhalf : 2 * half / 2 = half := Nat.mul_div_cancel_left half (by decide)
  have hfirst : start + rowPair * (2 * half) + colPair * 2 - start =
      2 * (rowPair * half + colPair) := by
    rw [Nat.mul_left_comm]
    omega
  rw [hhalf] at hcol
  intro write hwrite
  simp only [chromaPairWrites, List.mem_cons, List.not_mem_nil, or_false] at hwrite
  rcases hwrite with rfl | rfl
  · refine ⟨rfl, by dsimp only; omega, ?_⟩
    have hindex : 2 * (rowPair * half + colPair) / 2 = rowPair * half + colPair := by omega
    dsimp only
    rw [chromaPairAt, hfirst, if_pos (by omega), hhalf, hindex, place_div hcol, place_mod hcol]
  · refine ⟨rfl, by dsimp only; omega, ?_⟩
    have hsecond : start + rowPair * (2 * half) + colPair * 2 + 1 - start =
        2 * (rowPair * half + colPair) + 1 := by omega
    have hindex : (2 * (rowPair * half + colPair) + 1) / 2 = rowPair * half + colPair := by
      omega
    dsimp only
    rw [chromaPairAt, hsecond, if_neg (by omega), hhalf, hindex, place_div hcol, place_mod hcol]

omit [DecidableEq Name] in
theorem chromaPairWrites_cover {pixel : Nat → Nat → Colours} {start place : Nat} {name : Name}
    (hw : dstW % 2 = 0) (hh : dstH % 2 = 0) (hplace : place < dstW * dstH / 2) :
    ∃ rowPair < dstH / 2, ∃ colPair < dstW / 2,
      ∃ write ∈ chromaPairWrites pixel dstW start rowPair colPair name,
        write.buffer = name ∧ write.position = start + place := by
  obtain ⟨half, rfl⟩ := Nat.dvd_of_mod_eq_zero hw
  obtain ⟨rows, rfl⟩ := Nat.dvd_of_mod_eq_zero hh
  have hhalf : 2 * half / 2 = half := Nat.mul_div_cancel_left half (by decide)
  have hrows : 2 * rows / 2 = rows := Nat.mul_div_cancel_left rows (by decide)
  have hindex : place / 2 < half * rows := by
    rw [Nat.mul_mul_mul_comm] at hplace
    omega
  obtain ⟨hrowPair, hcolPair, hsame⟩ := place_split hindex
  have hrow : place / 2 / half * (2 * half) = 2 * (place / 2 / half * half) :=
    Nat.mul_left_comm _ _ _
  rw [hhalf, hrows]
  refine ⟨place / 2 / half, hrowPair, place / 2 % half, hcolPair, ?_⟩
  rcases Nat.mod_two_eq_zero_or_one place with heven | hodd
  · refine ⟨_, List.mem_cons_self, rfl, ?_⟩
    dsimp only
    omega
  · refine ⟨_, List.mem_cons_of_mem _ List.mem_cons_self, rfl, ?_⟩
    dsimp only
    omega

theorem writeChromaPair_ok {pixel : Nat → Nat → Colours} {planes : Buffers Name UInt8}
    {size : Name → Nat} {start : Nat} {name : Name} (hsized : planes.Sized size)
    (hplace : start + rowPair * dstW + colPair * 2 + 1 < size name) :
    writeChromaPair name (start + rowPair * dstW + colPair * 2) planes
        (average pixel rowPair colPair) =
      .ok (planes.putAll (chromaPairWrites pixel dstW start rowPair colPair name)) := by
  unfold writeChromaPair
  dsimp only
  rw [Checked.bind_ok (Buffers.write_ok hsized (by omega)), Buffers.write_ok (hsized.put _) hplace]
  rfl

theorem chromaPair_lt (hh : dstH % 2 = 0) (hrow : rowPair < dstH / 2) (hcol : colPair < dstW / 2) :
    rowPair * dstW + colPair * 2 + 1 < dstW * dstH / 2 := by
  obtain ⟨rows, rfl⟩ := Nat.dvd_of_mod_eq_zero hh
  have hplace := place_lt hrow (by omega : colPair * 2 + 1 < dstW)
  have hsize : dstW * (2 * rows) / 2 = 2 * rows / 2 * dstW := by
    rw [Nat.mul_left_comm, Nat.mul_div_cancel_left _ (by decide : 0 < 2),
      Nat.mul_div_cancel_left _ (by decide : 0 < 2), Nat.mul_comm]
  omega

def nv12Size (dstW dstH : Nat) : Nv12Plane → Nat
  | .y => dstW * dstH
  | .uv => dstW * dstH / 2

def nv12Content (pixel : Nat → Nat → Colours) (dstW : Nat) : Nv12Plane → Nat → UInt8
  | .y, place => lumaAt pixel dstW place
  | .uv, place => chromaPairAt pixel dstW place

def nv12Planes (pixel : Nat → Nat → Colours) (dstW dstH : Nat) : Buffers Nv12Plane UInt8 :=
  fun plane => (List.range (nv12Size dstW dstH plane)).map (nv12Content pixel dstW plane)

theorem bgraToNv12Fast_eq {planes : Buffers Nv12Plane UInt8}
    (hbgra : dstW * dstH * 4 ≤ bgra.length) (hw : dstW % 2 = 0) (hh : dstH % 2 = 0)
    (h : planes.Sized (nv12Size dstW dstH)) :
    bgraToNv12Fast planes dstW dstH bgra =
      .ok (nv12Planes (sourcePixel bgra dstW dstH) dstW dstH) := by
  have hround : ∀ planes : Buffers Nv12Plane UInt8, planes.Sized (nv12Size dstW dstH) →
      ∀ rowPair < dstH / 2, ∀ colPair < dstW / 2, (do
        let (planes, colours) ← fastBlock bgra dstW rowPair colPair Nv12Plane.y planes
        writeChromaPair Nv12Plane.uv (rowPair * dstW + colPair * 2) planes colours) =
        .ok (planes.putAll
          (lumaWrites (sourcePixel bgra dstW dstH) dstW rowPair colPair .y ++
            chromaPairWrites (sourcePixel bgra dstW dstH) dstW 0 rowPair colPair .uv)) := by
    intro planes hsized rowPair hrow colPair hcol
    have hplace := chromaPair_lt hh hrow hcol
    have hchroma := @writeChromaPair_ok Nv12Plane _ dstW rowPair colPair
      (sourcePixel bgra dstW dstH) _ _ 0 .uv
      (hsized.putAll (lumaWrites (sourcePixel bgra dstW dstH) dstW rowPair colPair .y))
      (by rw [Nat.zero_add]; exact hplace)
    rw [Nat.zero_add] at hchroma
    rw [Checked.bind_ok (fastBlock_ok hbgra hsized (le_refl _) (by omega) (by omega)),
      Buffers.putAll_append]
    exact hchroma
  apply Buffers.nested_loops_fill (fun _ _ _ _ => rfl) hround _ _ h
  · intro rowPair hrow colPair hcol write hwrite
    rcases List.mem_append.mp hwrite with hluma | hchroma
    · obtain ⟨hbuffer, -, hitem⟩ := lumaWrites_right (by omega) write hluma
      rw [hbuffer, hitem]
      rfl
    · obtain ⟨hbuffer, -, hitem⟩ := chromaPairWrites_right hw hcol write hchroma
      rw [hbuffer, hitem]
      rfl
  · intro plane place hplace
    cases plane with
    | y =>
        obtain ⟨rowPair, hrow, colPair, hcol, write, hwrite, hsame⟩ := lumaWrites_cover hw hh hplace
        exact ⟨rowPair, hrow, colPair, hcol, write, List.mem_append_left _ hwrite, hsame⟩
    | uv =>
        obtain ⟨rowPair, hrow, colPair, hcol, write, hwrite, hbuffer, hsame⟩ :=
          @chromaPairWrites_cover Nv12Plane dstW dstH (sourcePixel bgra dstW dstH) 0 place .uv
            hw hh hplace
        rw [Nat.zero_add] at hsame
        exact ⟨rowPair, hrow, colPair, hcol, write, List.mem_append_right _ hwrite, hbuffer, hsame⟩

/-- The two parts, one after the other. -/
def nv12At (pixel : Nat → Nat → Colours) (dstW dstH place : Nat) : UInt8 :=
  if place < dstW * dstH then lumaAt pixel dstW place
  else chromaPairAt pixel dstW (place - dstW * dstH)

theorem bgraToNv12Padded_eq {out : Buffers Unit UInt8} (hbgra : srcW * srcH * 4 ≤ bgra.length)
    (hsrcW : 0 < dstW → 0 < srcW) (hsrcH : 0 < dstH → 0 < srcH) (hw : dstW % 2 = 0)
    (hh : dstH % 2 = 0) (h : out.Sized fun _ => dstW * dstH + dstW * dstH / 2) :
    bgraToNv12Padded out srcW srcH dstW dstH bgra =
      .ok fun _ => (List.range (dstW * dstH + dstW * dstH / 2)).map
        (nv12At (sourcePixel bgra srcW srcH) dstW dstH) := by
  have hround : ∀ out : Buffers Unit UInt8,
      (out.Sized fun _ => dstW * dstH + dstW * dstH / 2) →
      ∀ rowPair < dstH / 2, ∀ colPair < dstW / 2, (do
        let (out, colours) ← paddedBlock bgra srcW srcH dstW rowPair colPair () out
        writeChromaPair () (dstW * dstH + rowPair * dstW + colPair * 2) out colours) =
        .ok (out.putAll
          (lumaWrites (sourcePixel bgra srcW srcH) dstW rowPair colPair () ++
            chromaPairWrites (sourcePixel bgra srcW srcH) dstW (dstW * dstH) rowPair colPair
              ())) := by
    intro out hsized rowPair hrow colPair hcol
    have hplace := chromaPair_lt hh hrow hcol
    rw [Checked.bind_ok (paddedBlock_ok hbgra (hsrcW (by omega)) (hsrcH (by omega)) hsized
      (Nat.le_add_right _ _) (by omega) (by omega)), Buffers.putAll_append]
    exact writeChromaPair_ok (hsized.putAll _) (by omega)
  apply Buffers.nested_loops_fill (fun _ _ _ _ => rfl) hround _ _ h
  · intro rowPair hrow colPair hcol write hwrite
    rcases List.mem_append.mp hwrite with hluma | hchroma
    · obtain ⟨-, hplace, hitem⟩ := lumaWrites_right (by omega) write hluma
      have hle : (rowPair * 2 + 2) * dstW ≤ dstH * dstW := Nat.mul_le_mul_right dstW (by omega)
      rw [Nat.mul_comm dstH] at hle
      rw [hitem, nv12At, if_pos (by omega)]
    · obtain ⟨-, hplace, hitem⟩ := chromaPairWrites_right hw hcol write hchroma
      rw [hitem, nv12At, if_neg (by omega)]
  · intro _ place hplace
    by_cases hluma : place < dstW * dstH
    · obtain ⟨rowPair, hrow, colPair, hcol, write, hwrite, hsame⟩ := lumaWrites_cover hw hh hluma
      exact ⟨rowPair, hrow, colPair, hcol, write, List.mem_append_left _ hwrite, hsame⟩
    · obtain ⟨rowPair, hrow, colPair, hcol, write, hwrite, hbuffer, hsame⟩ :=
        @chromaPairWrites_cover Unit dstW dstH (sourcePixel bgra srcW srcH) (dstW * dstH)
          (place - dstW * dstH) () hw hh (by omega)
      exact ⟨rowPair, hrow, colPair, hcol, write, List.mem_append_right _ hwrite, hbuffer, by omega⟩

end

/-! The values. -/

def Colours.InRange (colours : Colours) : Prop :=
  (0 ≤ colours.1 ∧ colours.1 ≤ 255) ∧ (0 ≤ colours.2.1 ∧ colours.2.1 ≤ 255) ∧
    0 ≤ colours.2.2 ∧ colours.2.2 ≤ 255

theorem sourcePixel_inRange (bgra : List UInt8) (srcW srcH row col : Nat) :
    (sourcePixel bgra srcW srcH row col).InRange := by
  have hbyte : ∀ byte : UInt8, 0 ≤ (byte.toNat : Int) ∧ (byte.toNat : Int) ≤ 255 := by
    intro byte
    have hlt := byte.toNat_lt
    omega
  exact ⟨hbyte _, hbyte _, hbyte _⟩

theorem average_inRange {pixel : Nat → Nat → Colours} (h : ∀ row col, (pixel row col).InRange)
    (rowPair colPair : Nat) : (average pixel rowPair colPair).InRange := by
  have hquarter : ∀ a b c d : Int, (0 ≤ a ∧ a ≤ 255) → (0 ≤ b ∧ b ≤ 255) →
      (0 ≤ c ∧ c ≤ 255) → (0 ≤ d ∧ d ≤ 255) →
      0 ≤ (a + b + c + d + 2) >>> (2 : Nat) ∧ (a + b + c + d + 2) >>> (2 : Nat) ≤ 255 := by
    intro a b c d ha hb hc hd
    rw [Int.shiftRight_eq_div_pow]
    omega
  have h00 := h (rowPair * 2) (colPair * 2)
  have h01 := h (rowPair * 2) (colPair * 2 + 1)
  have h10 := h (rowPair * 2 + 1) (colPair * 2)
  have h11 := h (rowPair * 2 + 1) (colPair * 2 + 1)
  exact ⟨hquarter _ _ _ _ h00.1 h01.1 h10.1 h11.1,
    hquarter _ _ _ _ h00.2.1 h01.2.1 h10.2.1 h11.2.1,
    hquarter _ _ _ _ h00.2.2 h01.2.2 h10.2.2 h11.2.2⟩

theorem toNat_ofInt {value : Int} (hlow : 0 ≤ value) (hhigh : value ≤ 255) :
    ((UInt8.ofInt value).toNat : Int) = value := by
  rw [UInt8.ofInt, UInt8.toNat_ofNat_of_lt']
  · omega
  · have hsize : UInt8.size = 256 := rfl
    omega

theorem yValue_range {colours : Colours} (h : colours.InRange) :
    16 ≤ yValue colours.2.2 colours.2.1 colours.1 ∧
      yValue colours.2.2 colours.2.1 colours.1 ≤ 235 := by
  obtain ⟨hb, hg, hr⟩ := h
  rw [yValue, Int.shiftRight_eq_div_pow]
  omega

theorem uValue_range {colours : Colours} (h : colours.InRange) :
    16 ≤ uValue colours.2.2 colours.2.1 colours.1 ∧
      uValue colours.2.2 colours.2.1 colours.1 ≤ 240 := by
  obtain ⟨hb, hg, hr⟩ := h
  rw [uValue, Int.shiftRight_eq_div_pow]
  omega

theorem vValue_range {colours : Colours} (h : colours.InRange) :
    16 ≤ vValue colours.2.2 colours.2.1 colours.1 ∧
      vValue colours.2.2 colours.2.1 colours.1 ≤ 240 := by
  obtain ⟨hb, hg, hr⟩ := h
  rw [vValue, Int.shiftRight_eq_div_pow]
  omega

/-- The bytes are these values, which did not have to be cut to a byte and lie in the
limited range. -/
def HoldsValues (bytes : List UInt8) (count : Nat) (value : Nat → Int) (top : Int) : Prop :=
  bytes.map (fun byte => (byte.toNat : Int)) = (List.range count).map value ∧
    ∀ place < count, 16 ≤ value place ∧ value place ≤ top

theorem holdsValues_ofInt (count : Nat) {value : Nat → Int} {top : Int} (htop : top ≤ 255)
    (h : ∀ place, 16 ≤ value place ∧ value place ≤ top) :
    HoldsValues ((List.range count).map fun place => UInt8.ofInt (value place)) count value
      top := by
  refine ⟨?_, fun place _ => h place⟩
  rw [List.map_map]
  apply List.map_congr_left
  intro place _
  obtain ⟨hlow, hhigh⟩ := h place
  exact toNat_ofInt (by omega) (by omega)

/-- The value at each position of a plane, before the cast. -/
def planeValue (pixel : Nat → Nat → Colours) (dstW : Nat) : Plane → Nat → Int
  | .y, place =>
      let colours := pixel (place / dstW) (place % dstW)
      yValue colours.2.2 colours.2.1 colours.1
  | .u, place =>
      let colours := average pixel (place / (dstW / 2)) (place % (dstW / 2))
      uValue colours.2.2 colours.2.1 colours.1
  | .v, place =>
      let colours := average pixel (place / (dstW / 2)) (place % (dstW / 2))
      vValue colours.2.2 colours.2.1 colours.1

/-- The top of the limited range. -/
def Plane.top : Plane → Int
  | .y => 235
  | .u => 240
  | .v => 240

theorem i420Planes_holds {pixel : Nat → Nat → Colours}
    (h : ∀ row col, (pixel row col).InRange) (dstW dstH : Nat) (plane : Plane) :
    HoldsValues (i420Planes pixel dstW dstH plane) (i420Size dstW dstH plane)
      (planeValue pixel dstW plane) plane.top := by
  have htop : plane.top ≤ 255 := by cases plane <;> decide
  have hvalue : ∀ place, i420Content pixel dstW plane place =
      UInt8.ofInt (planeValue pixel dstW plane place) := by
    intro place
    cases plane <;> rfl
  have hrange : ∀ place, 16 ≤ planeValue pixel dstW plane place ∧
      planeValue pixel dstW plane place ≤ plane.top := by
    intro place
    cases plane with
    | y => exact yValue_range (h _ _)
    | u => exact uValue_range (average_inRange h _ _)
    | v => exact vValue_range (average_inRange h _ _)
  have hholds := holdsValues_ofInt (i420Size dstW dstH plane) htop hrange
  rwa [← funext hvalue] at hholds

/-- The values of both kinds in turn. -/
def interleave (us vs : List UInt8) : List UInt8 := (List.zipWith (fun u v => [u, v]) us vs).flatten

theorem interleave_range {f g : Nat → UInt8} (count : Nat) :
    interleave ((List.range count).map f) ((List.range count).map g) =
      (List.range (2 * count)).map fun place =>
        if place % 2 = 0 then f (place / 2) else g (place / 2) := by
  induction count with
  | zero => rfl
  | succ count ih =>
      have hzip : ∀ us vs : List UInt8, us.length = vs.length → ∀ u v,
          interleave (us ++ [u]) (vs ++ [v]) = interleave us vs ++ [u, v] := by
        intro us vs hlength u v
        rw [interleave, List.zipWith_append hlength, List.flatten_append]
        rfl
      have heven : 2 * count / 2 = count := by omega
      have hodd : (2 * count + 1) / 2 = count := by omega
      rw [List.range_succ, List.map_append, List.map_append, List.map_singleton,
        List.map_singleton, hzip _ _ (by simp), ih, Nat.mul_succ, List.range_succ,
        List.range_succ, List.append_assoc, List.map_append, List.singleton_append,
        List.map_cons, List.map_singleton, if_pos (by omega), if_neg (by omega), heven, hodd]

theorem resize_length (bytes : List UInt8) (size : Nat) (fill : UInt8) :
    (resize bytes size fill).length = size := by
  rw [resize, List.length_append, List.length_take, List.length_replicate]
  omega

/-- One buffer of both parts. -/
theorem map_nv12At (pixel : Nat → Nat → Colours) (dstW dstH : Nat) :
    (List.range (dstW * dstH + dstW * dstH / 2)).map (nv12At pixel dstW dstH) =
      (List.range (dstW * dstH)).map (lumaAt pixel dstW) ++
        (List.range (dstW * dstH / 2)).map (chromaPairAt pixel dstW) := by
  rw [List.range_add, List.map_append, List.map_map]
  congr 1
  · apply List.map_congr_left
    intro place hplace
    rw [nv12At, if_pos (List.mem_range.mp hplace)]
  · apply List.map_congr_left
    intro place _
    rw [Function.comp_apply, nv12At, if_neg (by omega), Nat.add_sub_cancel_left]

theorem interleave_i420Planes {pixel : Nat → Nat → Colours} {dstW dstH : Nat}
    (hw : dstW % 2 = 0) (hh : dstH % 2 = 0) :
    interleave (i420Planes pixel dstW dstH .u) (i420Planes pixel dstW dstH .v) =
      nv12Planes pixel dstW dstH .uv := by
  have hcount : 2 * ((dstW / 2) * (dstH / 2)) = dstW * dstH / 2 := by
    obtain ⟨half, rfl⟩ := Nat.dvd_of_mod_eq_zero hw
    obtain ⟨rows, rfl⟩ := Nat.dvd_of_mod_eq_zero hh
    rw [Nat.mul_div_cancel_left half (by decide), Nat.mul_div_cancel_left rows (by decide),
      Nat.mul_mul_mul_comm]
    omega
  have hrange := interleave_range
    (f := fun place => chromaU pixel (place / (dstW / 2)) (place % (dstW / 2)))
    (g := fun place => chromaV pixel (place / (dstW / 2)) (place % (dstW / 2)))
    ((dstW / 2) * (dstH / 2))
  rw [hcount] at hrange
  exact hrange

section

variable {bgra : List UInt8} {srcW srcH dstW dstH : Nat}

theorem bgraToI420_eq {planes : Planes} (hbgra : srcW * srcH * 4 ≤ bgra.length)
    (hsrcW : 0 < dstW → 0 < srcW) (hsrcH : 0 < dstH → 0 < srcH) (hw : dstW % 2 = 0)
    (hh : dstH % 2 = 0) (h : planes.Sized (i420Size dstW dstH)) :
    bgraToI420 planes srcW srcH dstW dstH bgra =
      .ok (i420Planes (sourcePixel bgra srcW srcH) dstW dstH) := by
  unfold bgraToI420
  split
  · next hsame =>
      obtain ⟨rfl, rfl, -⟩ := hsame
      exact bgraToI420Fast_eq hbgra hw hh h
  · exact bgraToI420Padded_eq hbgra hsrcW hsrcH hw hh h

theorem bgraToNv12_eq (out : List UInt8) (hbgra : srcW * srcH * 4 ≤ bgra.length)
    (hsrcW : 0 < dstW → 0 < srcW) (hsrcH : 0 < dstH → 0 < srcH) (hw : dstW % 2 = 0)
    (hh : dstH % 2 = 0) :
    bgraToNv12 out srcW srcH dstW dstH bgra =
      .ok ((List.range (dstW * dstH + dstW * dstH / 2)).map
        (nv12At (sourcePixel bgra srcW srcH) dstW dstH)) := by
  have hlength : (if out.length ≠ dstW * dstH + dstW * dstH / 2 then
      resize out (dstW * dstH + dstW * dstH / 2) 0 else out).length =
      dstW * dstH + dstW * dstH / 2 := by
    split
    · apply resize_length
    · next hsame => exact not_ne_iff.mp hsame
  unfold bgraToNv12
  dsimp only
  generalize (if out.length ≠ dstW * dstH + dstW * dstH / 2 then
    resize out (dstW * dstH + dstW * dstH / 2) 0 else out) = resized at hlength ⊢
  split
  · next hsame =>
      obtain ⟨rfl, rfl, -⟩ := hsame
      rw [Checked.bind_ok (bgraToNv12Fast_eq hbgra hw hh _), map_nv12At]
      · rfl
      · intro plane
        cases plane with
        | y =>
            dsimp only [nv12Size]
            rw [List.length_take]
            omega
        | uv =>
            dsimp only [nv12Size]
            rw [List.length_drop]
            omega
  · rw [Checked.bind_ok (bgraToNv12Padded_eq hbgra hsrcW hsrcH hw hh fun _ => hlength)]
    rfl

end

/-- All the ways from a frame to planes come to the same, in either layout, whatever was
in the buffers, and none of them leaves a buffer or the limited range. -/
theorem colorConversions_agree (srcW srcH dstW dstH : Nat) (bgra : List UInt8)
    (planes : Planes) (out : List UInt8) (hw : dstW = srcW + srcW % 2)
    (hh : dstH = srcH + srcH % 2) (hbgra : bgra.length = srcW * srcH * 4)
    (hplanes : planes.Sized (i420Size dstW dstH)) :
    ∃ converted : Planes,
      bgraToI420 planes srcW srcH dstW dstH bgra = .ok converted ∧
      bgraToI420Padded planes srcW srcH dstW dstH bgra = .ok converted ∧
      (srcW = dstW → srcH = dstH → bgraToI420Fast planes srcW srcH bgra = .ok converted) ∧
      bgraToNv12 out srcW srcH dstW dstH bgra =
        .ok (converted .y ++ interleave (converted .u) (converted .v)) ∧
      (∀ out : Buffers Unit UInt8, (out.Sized fun _ => dstW * dstH + dstW * dstH / 2) →
        bgraToNv12Padded out srcW srcH dstW dstH bgra =
          .ok fun _ => converted .y ++ interleave (converted .u) (converted .v)) ∧
      (srcW = dstW → srcH = dstH → ∀ parts : Buffers Nv12Plane UInt8,
        parts.Sized (nv12Size dstW dstH) → ∃ filled : Buffers Nv12Plane UInt8,
          bgraToNv12Fast parts srcW srcH bgra = .ok filled ∧ filled .y = converted .y ∧
            filled .uv = interleave (converted .u) (converted .v)) ∧
      ∀ plane, HoldsValues (converted plane) (i420Size dstW dstH plane)
        (planeValue (sourcePixel bgra srcW srcH) dstW plane) plane.top := by
  have hevenW : dstW % 2 = 0 := by omega
  have hevenH : dstH % 2 = 0 := by omega
  have hsrcW : 0 < dstW → 0 < srcW := by omega
  have hsrcH : 0 < dstH → 0 < srcH := by omega
  have hlong : srcW * srcH * 4 ≤ bgra.length := hbgra.ge
  have hinterleave := @interleave_i420Planes (sourcePixel bgra srcW srcH) dstW dstH hevenW hevenH
  have hboth := map_nv12At (sourcePixel bgra srcW srcH) dstW dstH
  refine ⟨i420Planes (sourcePixel bgra srcW srcH) dstW dstH,
    bgraToI420_eq hlong hsrcW hsrcH hevenW hevenH hplanes,
    bgraToI420Padded_eq hlong hsrcW hsrcH hevenW hevenH hplanes, ?_, ?_, ?_, ?_, ?_⟩
  · rintro rfl rfl
    exact bgraToI420Fast_eq hlong hevenW hevenH hplanes
  · rw [bgraToNv12_eq out hlong hsrcW hsrcH hevenW hevenH, hboth, hinterleave]
    rfl
  · intro out hsized
    rw [bgraToNv12Padded_eq hlong hsrcW hsrcH hevenW hevenH hsized, hboth, hinterleave]
    rfl
  · rintro rfl rfl parts hsized
    exact ⟨_, bgraToNv12Fast_eq hlong hevenW hevenH hsized, rfl, hinterleave.symm⟩
  · exact i420Planes_holds (sourcePixel_inRange bgra srcW srcH) dstW dstH

/-- One row of three pixels: the output has a second row and a fourth column. -/
theorem colorConversions_agree_oddFrame :
    ∃ converted : Planes,
      bgraToI420 (fun plane => List.replicate (i420Size 4 2 plane) 0) 3 1 4 2
          [255, 0, 0, 255, 0, 255, 0, 255, 0, 0, 255, 255] = .ok converted ∧
        bgraToNv12 [] 3 1 4 2 [255, 0, 0, 255, 0, 255, 0, 255, 0, 0, 255, 255] =
          .ok (converted .y ++ interleave (converted .u) (converted .v)) := by
  obtain ⟨converted, hi420, -, -, hnv12, -⟩ := colorConversions_agree 3 1 4 2
    [255, 0, 0, 255, 0, 255, 0, 255, 0, 0, 255, 255]
    (fun plane => List.replicate (i420Size 4 2 plane) 0) [] rfl rfl rfl
    (fun _ => List.length_replicate)
  exact ⟨converted, hi420, hnv12⟩

example : bgraToNv12 [] 3 1 4 2 [255, 0, 0, 255, 0, 255, 0, 255, 0, 0, 255, 255] =
    .ok [41, 144, 82, 82, 41, 144, 82, 82, 147, 72, 90, 240] := by
  decide +kernel

end EvertyDesk.Host
