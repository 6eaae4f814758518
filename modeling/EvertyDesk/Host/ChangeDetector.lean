import EvertyDesk.Lib.Bytes

/-!
How the encoder loop finds out that a picture looks like the one sent last. Of
both only samples are compared: some pixels of the whole picture and some of
each tile, hashed. A change between the samples is not seen. The edges of the tiles
and their numbers wrap at 32 bits, as without overflow checks.
-/

namespace EvertyDesk.Host

def fnvOffset : UInt64 := 14695981039346656037

def fnvPrime : UInt64 := 1099511628211

/-- The three colours of a pixel, the last one first. -/
def hashPixel (bgra : List UInt8) (base : Nat) (hash : UInt64) : UInt64 :=
  let hash := (hash * fnvPrime) ^^^ (bgra.getD (base + 2) 0).toUInt64
  let hash := (hash * fnvPrime) ^^^ (bgra.getD (base + 1) 0).toUInt64
  (hash * fnvPrime) ^^^ (bgra.getD base 0).toUInt64

/-- The numbers below `count`, from zero on in steps. -/
def samples (count step : Nat) : List Nat := (List.range ((count + step - 1) / step)).map (· * step)

def frameSignature (bgra : List UInt8) (width height : Nat) : UInt64 :=
  if bgra.length < width * height * 4 ∨ width = 0 ∨ height = 0 then 0
  else
    let pixels := width * height
    (samples pixels (max (pixels / 512) 1)).foldl
      (fun hash idx => hashPixel bgra (idx * 4) hash) fnvOffset

def dirtyTileSize : Nat := 32

/-- Where the tile after this one begins, which is a 32-bit number. -/
def tileEnd (place : Nat) : Nat := (place + 1) * dirtyTileSize % 2 ^ 32

def tileHashTargetSamples : Nat := 16

def tileHash (width : Nat) (bgra : List UInt8) (x0 y0 x1 y1 : Nat) : UInt64 :=
  let tileW := max (x1 - x0) 1
  let tileH := max (y1 - y0) 1
  let pixels := tileW * tileH
  (samples pixels (max (pixels / tileHashTargetSamples) 1)).foldl
    (fun hash sample =>
      let x := x0 + sample % tileW
      let y := y0 + sample / tileW
      let base := (y * width + x) * 4
      if base + 2 < bgra.length then hashPixel bgra base hash else hash) fnvOffset

structure FrameFingerprint where
  width : UInt32
  height : UInt32
  hash : UInt64
  tileCols : Nat
  tileRows : Nat
  tileHashes : List UInt64
deriving DecidableEq, Repr

def FrameFingerprint.build (width height : UInt32) (bgra : List UInt8) : FrameFingerprint :=
  let w := width.toNat
  let h := height.toNat
  let hash := frameSignature bgra w h
  if w = 0 ∨ h = 0 ∨ bgra.length < w * h * 4 then
    { width := width, height := height, hash := hash, tileCols := 0, tileRows := 0
      tileHashes := [] }
  else
    let tileCols := (w + dirtyTileSize - 1) / dirtyTileSize
    let tileRows := (h + dirtyTileSize - 1) / dirtyTileSize
    { width := width, height := height, hash := hash
      tileCols := tileCols, tileRows := tileRows
      tileHashes := (List.range (tileCols * tileRows)).map fun idx =>
        let row := idx / tileCols
        let col := idx % tileCols
        tileHash w bgra (col * dirtyTileSize) (row * dirtyTileSize)
          (min (tileEnd col) w) (min (tileEnd row) h) }

/-- What is kept of the frame sent last. -/
structure FrameChangeDetector where
  width : UInt32
  height : UInt32
  lastHash : UInt64
  lastTileCols : Nat
  lastTileRows : Nat
  lastTileHashes : List UInt64
  pendingFingerprint : Option FrameFingerprint
  lastSentAt : Option Nat
deriving DecidableEq, Repr

structure FrameDecision where
  send : Bool
  forceKey : Bool
deriving DecidableEq, Repr

namespace FrameChangeDetector

def new : FrameChangeDetector where
  width := 0
  height := 0
  lastHash := 0
  lastTileCols := 0
  lastTileRows := 0
  lastTileHashes := []
  pendingFingerprint := none
  lastSentAt := none

/-- Two seconds, in nanoseconds. -/
def staticRefresh : Nat := 2000000000

variable (d : FrameChangeDetector)

def sizeChanged (width height : UInt32) : Bool := d.width != width || d.height != height

def idleRefresh (now : Nat) : Bool :=
  match d.lastSentAt with
  | some instant => decide (staticRefresh ≤ now - instant)
  | none => true

def frameChanged (current : FrameFingerprint) : Bool :=
  d.lastHash == 0 || current.hash != d.lastHash || current.tileCols != d.lastTileCols ||
    current.tileRows != d.lastTileRows || current.tileHashes != d.lastTileHashes

def decide (width height : UInt32) (bgra : List UInt8) (periodicKey : Bool) (now : Nat) :
    FrameChangeDetector × FrameDecision :=
  let current := FrameFingerprint.build width height bgra
  let key := d.sizeChanged width height || periodicKey || d.idleRefresh now
  let send := key || d.frameChanged current
  ({ d with pendingFingerprint := some current }, { send := send, forceKey := key })

def markSent (width height : UInt32) (bgra : List UInt8) (now : Nat) : FrameChangeDetector :=
  let fingerprint :=
    (d.pendingFingerprint.filter fun fp => fp.width = width ∧ fp.height = height).getD
      (FrameFingerprint.build width height bgra)
  { width := width
    height := height
    lastHash := fingerprint.hash
    lastTileCols := fingerprint.tileCols
    lastTileRows := fingerprint.tileRows
    lastTileHashes := fingerprint.tileHashes
    pendingFingerprint := none
    lastSentAt := some now }

end FrameChangeDetector

end EvertyDesk.Host
