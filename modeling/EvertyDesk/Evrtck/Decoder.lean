import EvertyDesk.Evrtck.Tiles

/-!
The decoder, with the panics it may end in: everything that it computes from
the sizes and lengths in a packet is checked machine arithmetic, and its frame
is what the program had made of it when it returned or failed.
-/

namespace EvertyDesk.Evrtck

/-- What a comparison sees of a floating-point number: `none` is not a number,
the others are in order. -/
abbrev Priority := Option Int

inductive TilePixels where
  | solid (color : List UInt8)
  | delta (bytes : List UInt8)
deriving DecidableEq, Repr

/-- The position in the packet, and the frame. -/
structure Decoding where
  pos : Nat
  frame : List UInt8
deriving DecidableEq, Repr

abbrev Decode := Proc Decoding EvrtckError

/-- One tile of the packet as it is found on the way through. -/
structure TileEntry where
  idx : Nat
  rect : TileRect
  mode : UInt8
  encStart : Nat
  encEnd : Nat
deriving DecidableEq, Repr

/-! Sizes and offsets. -/

def tilesInDimChecked (px : Nat) : Checked Nat := do
  let sum ← Checked.add px tileSize
  let rounded ← Checked.sub sum 1
  return rounded / tileSize

def tileRectChecked (width height tx ty : Nat) : Checked TileRect := do
  let x0 ← Checked.mul tx tileSize
  let y0 ← Checked.mul ty tileSize
  let x1 ← Checked.add x0 tileSize
  let y1 ← Checked.add y0 tileSize
  return { x0 := x0, y0 := y0, x1 := min x1 width, y1 := min y1 height }

/-- The offset of a pixel of the frame. -/
def pixelOffset (width x y : Nat) : Checked Nat := do
  let rowStart ← Checked.mul y width
  let pixel ← Checked.add rowStart x
  Checked.mul pixel 4

def frameSize (width height : Nat) : Checked Nat := do
  let pixels ← Checked.mul width height
  Checked.mul pixels 4

def copyRectChecked (frame : List UInt8) (width : Nat) (rect : CopyRect) :
    Checked (List UInt8) := do
  let rowBytes ← Checked.mul rect.width.toNat 4
  let room ← Checked.mul rowBytes rect.height.toNat
  Checked.allocate room
  let temp ← (List.range rect.height.toNat).foldlM (fun temp row => do
    let y ← Checked.add rect.srcY.toNat row
    let start ← pixelOffset width rect.srcX.toNat y
    let stop ← Checked.add start rowBytes
    let bytes ← Checked.slice frame start stop
    return temp ++ bytes) []
  (List.range rect.height.toNat).foldlM (fun frame row => do
    let y ← Checked.add rect.dstY.toNat row
    let dst ← pixelOffset width rect.dstX.toNat y
    let src ← Checked.mul row rowBytes
    let dstStop ← Checked.add dst rowBytes
    let srcStop ← Checked.add src rowBytes
    let bytes ← Checked.slice temp src srcStop
    Checked.write frame dst dstStop bytes) frame

def applyCopyRectsChecked (frame : List UInt8) (width height : Nat)
    (rects : List CopyRect) : Checked (List UInt8) :=
  rects.foldlM (fun frame rect =>
    if rect.isValid width height then copyRectChecked frame width rect
    else .ok frame) frame

/-! Reading. -/

section Reading

variable (data : List UInt8)

def need (n : Nat) : Decode Unit := do
  let s ← Proc.get
  let stop ← Checked.add s.pos n
  if stop > data.length then Proc.fail .truncatedData
  else return ()

def readBytes (n : Nat) : Decode (List UInt8) := do
  need data n
  let s ← Proc.get
  let stop ← Checked.add s.pos n
  let bytes ← Checked.slice data s.pos stop
  Proc.set { s with pos := stop }
  return bytes

def readU8 : Decode UInt8 := do
  let bytes ← readBytes data 1
  Checked.index bytes 0

def readU16 : Decode UInt16 := do
  let bytes ← readBytes data 2
  return UInt16.ofNat (leNat bytes)

def readU32 : Decode UInt32 := do
  let bytes ← readBytes data 4
  return UInt32.ofNat (leNat bytes)

/-- The valid ones of the rectangles. -/
def readCopyRects (width height : Nat) : Nat → Decode (List CopyRect)
  | 0 => return []
  | count + 1 => do
      let srcX ← readU32 data
      let srcY ← readU32 data
      let dstX ← readU32 data
      let dstY ← readU32 data
      let rectWidth ← readU32 data
      let rectHeight ← readU32 data
      let rect : CopyRect := ⟨srcX, srcY, dstX, dstY, rectWidth, rectHeight⟩
      let rest ← readCopyRects width height count
      return if rect.isValid width height then rect :: rest else rest

/-- The bytes of an entry, which are read later. -/
def skipBytes (n : Nat) : Decode (Nat × Nat) := do
  need data n
  let s ← Proc.get
  let stop ← Checked.add s.pos n
  Proc.set { s with pos := stop }
  return (s.pos, stop)

def readMode : Decode UInt8 := do
  need data 1
  let s ← Proc.get
  let mode ← Checked.index data s.pos
  let pos ← Checked.add s.pos 1
  Proc.set { s with pos := pos }
  return mode

def scanTile (width height tilesX tileCount : Nat) : Decode TileEntry := do
  let tileIdx ← readU16 data
  let idx := tileIdx.toNat
  if idx ≥ tileCount then Proc.fail (.invalidTileIndex tileIdx)
  else do
    let tx ← Checked.mod idx tilesX
    let ty ← Checked.div idx tilesX
    let mode ← readMode data
    let rect ← tileRectChecked width height tx ty
    if mode = modeSolid then do
      let (encStart, encEnd) ← skipBytes data 4
      return ⟨idx, rect, mode, encStart, encEnd⟩
    else if mode = modeDelta ∨ mode = modeZstd then do
      let encLen ← readU32 data
      let (encStart, encEnd) ← skipBytes data encLen.toNat
      return ⟨idx, rect, mode, encStart, encEnd⟩
    else Proc.fail (.invalidTileMode mode)

def scanTiles (width height tilesX tileCount : Nat) : Nat → Decode (List TileEntry)
  | 0 => return []
  | count + 1 => do
      let entry ← scanTile data width height tilesX tileCount
      let rest ← scanTiles width height tilesX tileCount count
      return entry :: rest

end Reading

/-! Painting. -/

def decompressTile (zstd : Zstd) (data : List UInt8) (encStart encEnd : Nat)
    (mode : UInt8) : Checked (Except EvrtckError TilePixels) := do
  let bytes ← Checked.slice data encStart encEnd
  if mode = modeSolid then do
    let r ← Checked.index bytes 0
    let g ← Checked.index bytes 1
    let b ← Checked.index bytes 2
    let a ← Checked.index bytes 3
    return .ok (.solid [r, g, b, a])
  else if mode = modeDelta then do
    let outcome ← zrleDecode bytes
    return outcome.map TilePixels.delta
  else if mode = modeZstd then
    match zstd.decodeAll bytes with
    | some delta => return .ok (.delta delta)
    | none => return .error .invalidDelta
  else .error .unreachable

def decompressTiles (zstd : Zstd) (data : List UInt8) (dirty : List TileEntry) :
    Checked (List (Except EvrtckError TilePixels)) :=
  dirty.mapM fun entry =>
    decompressTile zstd data entry.encStart entry.encEnd entry.mode

def paintSolid (frame : List UInt8) (width : Nat) (rect : TileRect) (tw4 : Nat)
    (color : List UInt8) : Checked (List UInt8) := do
  -- a row of the tile, in a buffer for the longest one
  let buffer ← Checked.slice (List.replicate (tileSize * 4) (0 : UInt8)) 0 tw4
  let rowPat := (List.replicate (buffer.length / 4) color).flatten
  rect.rows.foldlM (fun frame y => do
    let rs ← pixelOffset width rect.x0 y
    let stop ← Checked.add rs tw4
    Checked.write frame rs stop rowPat) frame

def paintDelta (frame : List UInt8) (width : Nat) (rect : TileRect) (tw4 : Nat)
    (delta : List UInt8) : Checked (List UInt8) := do
  let (frame, _) ← rect.rows.foldlM (fun (state : List UInt8 × Nat) y => do
    let (frame, di) := state
    let rs ← pixelOffset width rect.x0 y
    let stop ← Checked.add rs tw4
    let frameRow ← Checked.slice frame rs stop
    let next ← Checked.add di tw4
    let deltaRow ← Checked.slice delta di next
    let frame ← Checked.write frame rs stop (List.zipWith (fun f d => f ^^^ d) frameRow deltaRow)
    return (frame, next)) (frame, 0)
  return frame

/-- Paint the tiles in this order up to the first that is malformed. -/
def paintTiles (width : Nat) : List (TileEntry × Except EvrtckError TilePixels) → Decode Unit
  | [] => return ()
  | (entry, pixels) :: rest => do
      let tw ← Checked.sub entry.rect.x1 entry.rect.x0
      let tw4 ← Checked.mul tw 4
      match pixels with
      | .error error => Proc.fail error
      | .ok (.solid color) => do
          let s ← Proc.get
          let frame ← paintSolid s.frame width entry.rect tw4 color
          Proc.set { s with frame := frame }
          paintTiles width rest
      | .ok (.delta delta) => do
          let th ← Checked.sub entry.rect.y1 entry.rect.y0
          let expected ← Checked.mul tw4 th
          if delta.length ≠ expected then Proc.fail .invalidDelta
          else do
            let s ← Proc.get
            let frame ← paintDelta s.frame width entry.rect tw4 delta
            Proc.set { s with frame := frame }
            paintTiles width rest

/-- The first priority is not below the second; what is not a number is beside
every other. -/
def notBelow : Priority → Priority → Bool
  | some first, some second => decide (second ≤ first)
  | _, _ => true

def sortByPriority (priority : Option (Nat → Priority))
    (tiles : List (TileEntry × Except EvrtckError TilePixels)) :
    Checked (List (TileEntry × Except EvrtckError TilePixels)) :=
  match priority with
  | none => .ok tiles
  | some priority =>
      Checked.sortBy (fun left right =>
        notBelow (priority left.1.idx) (priority right.1.idx)) tiles

/-- The head of a packet that has tiles. -/
structure FrameHead where
  ver : UInt8
  flags : UInt8
  mapBytes : Nat
deriving DecidableEq, Repr

section Frames

variable (zstd : Zstd) (data : List UInt8) (width height : Nat)

/-- The version and the flags. -/
def readPrologue : Decode (UInt8 × UInt8) := do
  let found ← readBytes data 4
  if found ≠ magic then Proc.fail .invalidMagic
  else do
    let ver ← readU8 data
    if ver ≠ version ∧ ver ≠ versionCopyRects then
      Proc.fail (.unsupportedVersion ver)
    else do
      let flags ← readU8 data
      let _frameId ← readU32 data
      return (ver, flags)

/-- A key frame starts from black. -/
def clearForKeyframe (flags : UInt8) : Decode Unit := do
  let s ← Proc.get
  if flags &&& flagKeyframe ≠ 0 then
    Proc.set { s with frame := List.replicate s.frame.length 0 }
  else return ()

/-- The rest of the header; `none` says that the frame stays as it is. -/
def readHead (ver flags : UInt8) : Decode (Option FrameHead) := do
  let w ← readU32 data
  let h ← readU32 data
  if w.toNat ≠ width ∨ h.toNat ≠ height then
    Proc.fail (.dimensionMismatch (UInt32.ofNat width, UInt32.ofNat height) (w, h))
  else if flags &&& flagNop ≠ 0 then return none
  else do
    let mapBytes ← readU16 data
    return some { ver := ver, flags := flags, mapBytes := mapBytes.toNat }

/-- The rectangles to copy, if the packet has any. -/
def readCopySection (head : FrameHead) : Decode (List CopyRect) := do
  if head.ver = versionCopyRects ∨ head.flags &&& flagCopyRects ≠ 0 then do
    let count ← readU16 data
    readCopyRects data width height count.toNat
  else return []

/-- Without the section nothing is copied. -/
def copyInFrame (rects : List CopyRect) : Decode Unit := do
  let s ← Proc.get
  let frame ← applyCopyRectsChecked s.frame width height rects
  Proc.set { s with frame := frame }

/-- The number of tiles is that of the bits set in the bitmap. -/
def readTiles (mapBytes : Nat) : Decode (List TileEntry) := do
  let tileMap ← readBytes data mapBytes
  let tilesX ← tilesInDimChecked width
  let tilesY ← tilesInDimChecked height
  let tileCount ← Checked.mul tilesX tilesY
  scanTiles data width height tilesX tileCount (popCount tileMap)

/-- Decompress the tiles, all of them, and paint them in their order. -/
def paintFrame (priority : Option (Nat → Priority)) (dirty : List TileEntry) :
    Decode (List Nat) := do
  let decoded ← decompressTiles zstd data dirty
  let paintOrder ← sortByPriority priority (dirty.zip decoded)
  paintTiles width paintOrder
  return paintOrder.map fun tile => tile.1.idx

def decodeFramePrioritized (priority : Option (Nat → Priority)) : Decode (List Nat) := do
  let (ver, flags) ← readPrologue data
  clearForKeyframe flags
  match ← readHead data width height ver flags with
  | none => return []
  | some head => do
      let rects ← readCopySection data width height head
      copyInFrame width height rects
      let dirty ← readTiles data width height head.mapBytes
      paintFrame zstd data width priority dirty

end Frames

structure EvrtckDecoder where
  frame : List UInt8
  width : Nat
  height : Nat
deriving DecidableEq, Repr

namespace EvrtckDecoder

def new : EvrtckDecoder where
  frame := []
  width := 0
  height := 0

def black (width height : Nat) : Checked EvrtckDecoder := do
  let size ← frameSize width height
  Checked.allocate size
  return { frame := List.replicate size 0, width := width, height := height }

/-- The decoder with a frame of these dimensions; the size is computed on both
ways. -/
def fitted (d : EvrtckDecoder) (width height : Nat) : Checked EvrtckDecoder :=
  if d.width ≠ width ∨ d.height ≠ height then black width height
  else do
    let size ← frameSize width height
    if d.frame.length ≠ size then black width height
    else return d

/-- Decode a packet: the decoder after it, and the frame with the order in which
its tiles were painted. -/
def decodeWirePrioritized (zstd : Zstd) (d : EvrtckDecoder) (data : List UInt8)
    (priority : Option (Nat → Priority)) :
    Checked (EvrtckDecoder × Except EvrtckError (List UInt8 × List Nat)) := do
  if data.length < 18 then return (d, .error .truncatedData)
  else if field data 0 4 ≠ magic then return (d, .error .invalidMagic)
  else do
    let w := leNat (field data 10 4)
    let h := leNat (field data 14 4)
    let d ← d.fitted w h
    let (outcome, s) ← decodeFramePrioritized zstd data w h priority ⟨0, d.frame⟩
    return ({ d with frame := s.frame }, outcome.map fun order => (s.frame, order))

def decodeWire (zstd : Zstd) (d : EvrtckDecoder) (data : List UInt8) :
    Checked (EvrtckDecoder × Except EvrtckError (List UInt8)) := do
  let (d, outcome) ← d.decodeWirePrioritized zstd data none
  return (d, outcome.map Prod.fst)

/-- The picture of another codec takes the place of the frame. -/
def syncFromRgba (d : EvrtckDecoder) (rgba : List UInt8) (width height : Nat) :
    EvrtckDecoder :=
  if rgba.length ≠ width * height * 4 then d
  else { frame := rgba, width := width, height := height }

end EvrtckDecoder

end EvertyDesk.Evrtck
