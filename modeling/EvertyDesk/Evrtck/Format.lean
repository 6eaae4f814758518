import EvertyDesk.Lib.Bytes
import EvertyDesk.Lib.Bitmap

/-!
The wire format of the tile codec: a header, rectangles to be copied within the
frame, a bitmap of the tiles that changed, and an entry for each of them. The
codec's frames are byte strings of four bytes a pixel, row after row.
-/

namespace EvertyDesk.Evrtck

/-- The letters "EVCK". -/
def magic : List UInt8 := [0x45, 0x56, 0x43, 0x4B]

def version : UInt8 := 2
def versionCopyRects : UInt8 := 3

/-- Pixels on each side of a tile. -/
def tileSize : Nat := 32

def modeSolid : UInt8 := 1
def modeDelta : UInt8 := 2
def modeZstd : UInt8 := 3

def flagKeyframe : UInt8 := 0x01
def flagNop : UInt8 := 0x02
def flagCopyRects : UInt8 := 0x04

def frameHeaderLen : Nat := 20

inductive EvrtckError where
  | invalidMagic
  | unsupportedVersion (version : UInt8)
  | truncatedData
  | dimensionMismatch (expected got : UInt32 × UInt32)
  | invalidTileMode (mode : UInt8)
  | invalidDelta
  | invalidTileIndex (index : UInt16)
deriving DecidableEq, Repr

structure EvrtckPacket where
  frameId : UInt32
  width : UInt32
  height : UInt32
  data : List UInt8
deriving DecidableEq, Repr

/-- The bytes of a packet that one tile's entry takes. -/
structure TileOffset where
  tileIdx : UInt16
  byteStart : Nat
  byteLen : Nat
deriving DecidableEq, Repr

structure FrameStats where
  totalTiles : Nat
  dirtyTiles : Nat
  solidTiles : Nat
  deltaTiles : Nat
  encodedBytes : Nat
deriving DecidableEq, Repr

structure CopyRect where
  srcX : UInt32
  srcY : UInt32
  dstX : UInt32
  dstY : UInt32
  width : UInt32
  height : UInt32
deriving DecidableEq, Repr

/-- The pixels from `left` to before `right` and from `top` to before `bottom`. -/
structure DirtyRect where
  left : UInt32
  top : UInt32
  right : UInt32
  bottom : UInt32
deriving DecidableEq, Repr

/-- The compression library: what it makes of a byte string, at level 1, and
back. -/
structure Zstd where
  encodeAll : List UInt8 → Option (List UInt8)
  decodeAll : List UInt8 → Option (List UInt8)

/-- The library takes every byte string, puts out a stream that is not empty
and takes it back. The stream of a tile has a 32-bit length. -/
structure Zstd.Lawful (zstd : Zstd) : Prop where
  round_trip : ∀ bytes, ∃ stream, zstd.encodeAll bytes = some stream ∧
    stream ≠ [] ∧ zstd.decodeAll stream = some bytes
  short : ∀ bytes stream, bytes.length ≤ tileSize * tileSize * 4 →
    zstd.encodeAll bytes = some stream → stream.length < 2 ^ 32

def tilesInDim (px : Nat) : Nat := (px + tileSize - 1) / tileSize

/-- The sums are of 32-bit numbers in 64 bits and do not wrap. -/
def CopyRect.isValid (rect : CopyRect) (width height : Nat) : Bool :=
  if rect.width = 0 ∨ rect.height = 0 then false
  else
    rect.srcX.toNat + rect.width.toNat ≤ width &&
      rect.dstX.toNat + rect.width.toNat ≤ width &&
      rect.srcY.toNat + rect.height.toNat ≤ height &&
      rect.dstY.toNat + rect.height.toNat ≤ height

/-- The fields of the header; numbers too large for their field are cut. -/
def frameHeader (ver flags : UInt8) (frameId : UInt32) (width height mapBytes : Nat) : List UInt8 :=
  magic ++ ver :: flags :: (leBytes 4 frameId.toNat ++ (leBytes 4 width ++
    (leBytes 4 height ++ leBytes 2 mapBytes)))

def CopyRect.bytes (rect : CopyRect) : List UInt8 :=
  leBytes 4 rect.srcX.toNat ++ (leBytes 4 rect.srcY.toNat ++
    (leBytes 4 rect.dstX.toNat ++ (leBytes 4 rect.dstY.toNat ++
      (leBytes 4 rect.width.toNat ++ leBytes 4 rect.height.toNat))))

def writeCopyRects (rects : List CopyRect) : List UInt8 :=
  leBytes 2 (min rects.length 65535) ++ (rects.take 65535).flatMap CopyRect.bytes

@[simp] theorem magic_length : magic.length = 4 := rfl

@[simp] theorem frameHeader_length (ver flags : UInt8) (frameId : UInt32)
    (width height mapBytes : Nat) :
    (frameHeader ver flags frameId width height mapBytes).length = frameHeaderLen := by
  simp [frameHeader, frameHeaderLen]

@[simp] theorem CopyRect.bytes_length (rect : CopyRect) : rect.bytes.length = 24 := by
  simp [CopyRect.bytes]

/-- A valid rectangle is not empty, and it lies in the frame before and after
it is copied. -/
theorem CopyRect.isValid_iff (rect : CopyRect) (width height : Nat) :
    rect.isValid width height = true ↔
      0 < rect.width.toNat ∧ 0 < rect.height.toNat ∧
      rect.srcX.toNat + rect.width.toNat ≤ width ∧
      rect.dstX.toNat + rect.width.toNat ≤ width ∧
      rect.srcY.toNat + rect.height.toNat ≤ height ∧
      rect.dstY.toNat + rect.height.toNat ≤ height := by
  have hwidth : rect.width = 0 ↔ rect.width.toNat = 0 := by
    rw [← UInt32.toNat_inj]
    rfl
  have hheight : rect.height = 0 ↔ rect.height.toNat = 0 := by
    rw [← UInt32.toNat_inj]
    rfl
  simp only [CopyRect.isValid, hwidth, hheight]
  split
  next hempty =>
    constructor
    · intro h
      cases h
    · rintro ⟨_, _, _⟩
      omega
  next hsome =>
    simp only [Bool.and_eq_true, decide_eq_true_eq]
    omega

/-- The tiles along a side cover it, the last of them with at least a pixel. -/
theorem lt_tilesInDim {px tile : Nat} : tile < tilesInDim px ↔ tile * tileSize < px := by
  rw [tilesInDim, Nat.lt_div_iff_mul_lt (by decide), tileSize]
  omega

end EvertyDesk.Evrtck
