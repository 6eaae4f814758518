import EvertyDesk.Lib.Machine
import EvertyDesk.Evrtck.Tiles

/-!
The encoder with its CPU backend. It predicts a frame from the one before it,
after the rectangles that moved, and sends the tiles that differ. Tiles are
encoded in parallel or not as the machine's calibration says; the list of them
is the same. The counters of a frame fit their types.
-/

namespace EvertyDesk.Evrtck

/-- A tile that is sent. -/
structure DirtyTile where
  idx : Nat
  data : List UInt8
  mode : UInt8
deriving DecidableEq, Repr

/-- What one frame is encoded to. -/
structure EncodedFrame where
  data : List UInt8
  stats : FrameStats
  offsets : List TileOffset
deriving DecidableEq, Repr

def tileDistanceKey (idx tilesX : Nat) (focus : Nat × Nat) : Nat :=
  let dx : Int := (idx % tilesX : Nat) - (focus.1 : Int)
  let dy : Int := (idx / tilesX : Nat) - (focus.2 : Int)
  ((dx * dx + dy * dy) % 2 ^ 32).toNat

/-- Tiles next to the focus first. -/
def orderByFocus (dirtyTiles : List DirtyTile) (tilesX : Nat)
    (focus : Option (Nat × Nat)) : List DirtyTile :=
  match focus with
  | some focus =>
      dirtyTiles.mergeSort fun left right =>
        tileDistanceKey left.idx tilesX focus ≤ tileDistanceKey right.idx tilesX focus
  | none => dirtyTiles

def tileEntry (tile : DirtyTile) : List UInt8 := leBytes 2 tile.idx ++ tile.data

def tileOffsets (start : Nat) : List DirtyTile → List TileOffset
  | [] => []
  | tile :: tiles =>
      { tileIdx := UInt16.ofNat tile.idx
        byteStart := start
        byteLen := (tileEntry tile).length } ::
        tileOffsets (start + (tileEntry tile).length) tiles

def tileMap (tileCount : Nat) (dirtyTiles : List DirtyTile) : List UInt8 :=
  (dirtyTiles.map DirtyTile.idx).foldl setBit (List.replicate ((tileCount + 7) / 8) 0)

/-- The common end of all encoders of a frame: header, copied rectangles if any,
bitmap, and tiles. -/
def assembleFrame (ver flags : UInt8) (frameId : UInt32) (width height : Nat)
    (copied : List UInt8) (dirtyTiles : List DirtyTile) (focus : Option (Nat × Nat))
    (wantOffsets : Bool) : EncodedFrame :=
  let tilesX := tilesInDim width
  let tileCount := tilesX * tilesInDim height
  let mapBytes := (tileCount + 7) / 8
  let ordered := orderByFocus dirtyTiles tilesX focus
  let head := frameHeader ver flags frameId width height mapBytes ++
    (copied ++ tileMap tileCount dirtyTiles)
  let data := head ++ ordered.flatMap tileEntry
  { data := data
    stats := {
      totalTiles := tileCount
      dirtyTiles := dirtyTiles.length
      solidTiles := dirtyTiles.countP fun tile => tile.mode == modeSolid
      deltaTiles := dirtyTiles.countP fun tile => tile.mode != modeSolid
      encodedBytes := data.length }
    offsets := if wantOffsets then tileOffsets head.length ordered else [] }

def nopPacketData (frameId : UInt32) (width height : Nat) : List UInt8 :=
  frameHeader version flagNop frameId width height 0

def copyRectOnlyPacketData (frameId : UInt32) (width height : Nat)
    (copyRects : List CopyRect) : List UInt8 :=
  frameHeader versionCopyRects flagCopyRects frameId width height 0 ++ writeCopyRects copyRects

/-- A packet without tiles. -/
def withoutTiles (data : List UInt8) (width height encodedBytes : Nat) : EncodedFrame where
  data := data
  stats := {
    totalTiles := tilesInDim width * tilesInDim height
    dirtyTiles := 0
    solidTiles := 0
    deltaTiles := 0
    encodedBytes := encodedBytes }
  offsets := []

section Frames

variable (zstd : Zstd) (rgba prev : List UInt8) (width height : Nat)

def encodeTile (isKeyframe : Bool) (idx : Nat) : DirtyTile :=
  let tilesX := tilesInDim width
  let (data, mode) :=
    encodeTileBuf zstd rgba prev width height (idx % tilesX) (idx / tilesX) isKeyframe
  { idx := idx, data := data, mode := mode }

/-- The tile, if it differs from the prediction. -/
def encodeIfDirty (idx : Nat) : Option DirtyTile :=
  let tilesX := tilesInDim width
  if tileIsDirty rgba prev width height (idx % tilesX) (idx / tilesX) then
    some (encodeTile zstd rgba prev width height false idx)
  else none

def encodeFrameWithOffsets (frameId : UInt32) (isKeyframe : Bool)
    (focus : Option (Nat × Nat)) (wantOffsets : Bool) : EncodedFrame :=
  let tileCount := tilesInDim width * tilesInDim height
  if !isKeyframe && rgba == prev then
    withoutTiles (nopPacketData frameId width height) width height 20
  else
    let dirtyTiles :=
      if isKeyframe then
        (List.range tileCount).map (encodeTile zstd rgba prev width height true)
      else (List.range tileCount).filterMap (encodeIfDirty zstd rgba prev width height)
    assembleFrame version (if isKeyframe then flagKeyframe else 0) frameId width height
      [] dirtyTiles focus wantOffsets

def encodeFrameWithOffsetsAndCopyRects (frameId : UInt32) (copyRects : List CopyRect)
    (focus : Option (Nat × Nat)) (wantOffsets : Bool) : EncodedFrame :=
  let tileCount := tilesInDim width * tilesInDim height
  if rgba == prev then
    let data := copyRectOnlyPacketData frameId width height copyRects
    withoutTiles data width height data.length
  else
    assembleFrame versionCopyRects flagCopyRects frameId width height
      (writeCopyRects copyRects)
      ((List.range tileCount).filterMap (encodeIfDirty zstd rgba prev width height))
      focus wantOffsets

def encodeCopyRectFrameFromDirtyIndices (frameId : UInt32) (copyRects : List CopyRect)
    (dirtyIndices : List Nat) (focus : Option (Nat × Nat)) : EncodedFrame :=
  let dirtyTiles := dirtyIndices.filterMap (encodeIfDirty zstd rgba prev width height)
  if dirtyTiles.isEmpty then
    let data := copyRectOnlyPacketData frameId width height copyRects
    withoutTiles data width height data.length
  else
    assembleFrame versionCopyRects flagCopyRects frameId width height
      (writeCopyRects copyRects) dirtyTiles focus false

/-- All tiles named are sent, whether they changed or not. -/
def encodePframeFromDirtyIndices (frameId : UInt32) (dirtyIndices : List Nat)
    (focus : Option (Nat × Nat)) : EncodedFrame :=
  assembleFrame version 0 frameId width height []
    (dirtyIndices.map (encodeTile zstd rgba prev width height false)) focus false

end Frames

/-- The rectangle as far as it lies in the frame; `none` if nothing does. -/
def DirtyRect.clamp (rect : DirtyRect) (width height : Nat) : Option TileRect :=
  if rect.right ≤ rect.left ∨ rect.bottom ≤ rect.top then none
  else
    let left := min rect.left.toNat width
    let top := min rect.top.toNat height
    let right := min rect.right.toNat width
    let bottom := min rect.bottom.toNat height
    if right ≤ left ∨ bottom ≤ top then none
    else some { x0 := left, y0 := top, x1 := right, y1 := bottom }

/-- The rectangle marks a tile. -/
def TileRect.marks (rect : TileRect) (tilesX tilesY idx : Nat) : Bool :=
  rect.y0 / tileSize ≤ idx / tilesX &&
    idx / tilesX ≤ min ((rect.y1 - 1) / tileSize) (tilesY - 1) &&
    rect.x0 / tileSize ≤ idx % tilesX &&
    idx % tilesX ≤ min ((rect.x1 - 1) / tileSize) (tilesX - 1)

/-- The tiles that some rectangle marks, or `none` if no rectangle is usable. -/
def dirtyTileIndicesFromRects (dirtyRects : List DirtyRect) (width height : Nat) :
    Option (List Nat) :=
  if dirtyRects.isEmpty ∨ width = 0 ∨ height = 0 then none
  else
    let tilesX := tilesInDim width
    let tilesY := tilesInDim height
    let rects := dirtyRects.filterMap fun rect => rect.clamp width height
    if rects.isEmpty then none
    else some ((List.range (tilesX * tilesY)).filter fun idx =>
      rects.any fun rect => rect.marks tilesX tilesY idx)

def chooseLargerScroll (current : Option (Nat × Bool)) (dy : Nat) (up : Bool) :
    Option (Nat × Bool) :=
  match current with
  | some (best, direction) => if best ≥ dy then some (best, direction) else some (dy, up)
  | none => some (dy, up)

def scrollOffsets : List Nat :=
  [8, 16, tileSize, tileSize * 2, tileSize * 3, tileSize * 4, tileSize * 5,
    tileSize * 6, tileSize * 7, tileSize * 8]

def detectFullWidthVerticalScroll (prev bgra : List UInt8) (width height : Nat) : Option CopyRect :=
  if prev.length ≠ bgra.length ∨ width = 0 ∨ height = 0 then none
  else
    let rowBytes := width * 4
    let best := scrollOffsets.foldl (fun best dy =>
      if dy ≥ height then best
      else
        let movedBytes := (height - dy) * rowBytes
        let best :=
          if field prev (dy * rowBytes) movedBytes = bgra.take movedBytes then
            chooseLargerScroll best dy true
          else best
        if prev.take movedBytes = field bgra (dy * rowBytes) movedBytes then
          chooseLargerScroll best dy false
        else best) none
    best.map fun (dy, up) =>
      { srcX := 0
        srcY := if up then UInt32.ofNat dy else 0
        dstX := 0
        dstY := if up then 0 else UInt32.ofNat dy
        width := UInt32.ofNat width
        height := UInt32.ofNat (height - dy) }

/-- The encoder: the frame it predicts from, in the order of captured frames. -/
structure EvrtckEncoder where
  prev : List UInt8
  width : Nat
  height : Nat
  pendingKeyframe : Bool
  focus : Option (Nat × Nat)
deriving DecidableEq, Repr

namespace EvrtckEncoder

def new (width height : Nat) : EvrtckEncoder where
  prev := List.replicate (width * height * 4) 0
  width := width
  height := height
  pendingKeyframe := true
  focus := none

variable (zstd : Zstd)

def packet (e : EvrtckEncoder) (frameId : UInt32) (data : List UInt8) : EvrtckPacket where
  frameId := frameId
  width := UInt32.ofNat e.width
  height := UInt32.ofNat e.height
  data := data

def encodeInnerImpl (e : EvrtckEncoder) (bgra : List UInt8) (frameId : UInt32)
    (wantOffsets : Bool) : EvrtckEncoder × EvrtckPacket × FrameStats × List TileOffset :=
  let isKf := e.pendingKeyframe
  let frame := encodeFrameWithOffsets zstd bgra e.prev e.width e.height frameId isKf
    e.focus wantOffsets
  let stats := frame.stats
  let prev := if stats.dirtyTiles > 0 ∨ isKf then bgra else e.prev
  -- a frame that changed nearly everywhere is followed by a key frame
  let escalate := !isKf && decide (stats.totalTiles > 0) &&
    decide (stats.dirtyTiles * 10 ≥ stats.totalTiles * 9)
  ({ e with prev := prev, pendingKeyframe := escalate },
    e.packet frameId frame.data, stats, frame.offsets)

def encodeInner (e : EvrtckEncoder) (bgra : List UInt8) (frameId : UInt32) :
    EvrtckEncoder × EvrtckPacket × FrameStats :=
  let (next, packet, stats, _) := e.encodeInnerImpl zstd bgra frameId false
  (next, packet, stats)

def encodeInnerWithOffsets (e : EvrtckEncoder) (bgra : List UInt8) (frameId : UInt32) :
    EvrtckEncoder × EvrtckPacket × FrameStats × List TileOffset :=
  e.encodeInnerImpl zstd bgra frameId true

/-- The frame has been sent: it is what the next one is predicted from. -/
def sent (e : EvrtckEncoder) (bgra : List UInt8) (frameId : UInt32)
    (frame : EncodedFrame) : EvrtckEncoder × EvrtckPacket × FrameStats :=
  ({ e with prev := bgra, pendingKeyframe := false }, e.packet frameId frame.data, frame.stats)

def encodeInnerWithCopyRects (e : EvrtckEncoder) (bgra : List UInt8) (frameId : UInt32)
    (copyRects : List CopyRect) : EvrtckEncoder × EvrtckPacket × FrameStats :=
  if e.pendingKeyframe || copyRects.isEmpty then e.encodeInner zstd bgra frameId
  else
    let validCopyRects := copyRects.filter fun rect => rect.isValid e.width e.height
    if validCopyRects.isEmpty then e.encodeInner zstd bgra frameId
    else
      let predicted := applyCopyRects e.prev e.width e.height validCopyRects
      e.sent bgra frameId (encodeFrameWithOffsetsAndCopyRects zstd bgra predicted
        e.width e.height frameId validCopyRects e.focus false)

def encodeInnerWithScrollDetection (e : EvrtckEncoder) (bgra : List UInt8)
    (frameId : UInt32) : EvrtckEncoder × EvrtckPacket × FrameStats :=
  if e.pendingKeyframe then e.encodeInner zstd bgra frameId
  else if bgra = e.prev then e.encodeInner zstd bgra frameId
  else
    match detectFullWidthVerticalScroll e.prev bgra e.width e.height with
    | some copyRect => e.encodeInnerWithCopyRects zstd bgra frameId [copyRect]
    | none => e.encodeInner zstd bgra frameId

/-- The frame that is encoded when the capture told which tiles may differ from
the prediction. -/
def hintedFrame (e : EvrtckEncoder) (bgra predicted : List UInt8) (frameId : UInt32)
    (validCopyRects : List CopyRect) (indices : List Nat) : EncodedFrame :=
  if bgra = predicted then
    if validCopyRects.isEmpty then
      withoutTiles (nopPacketData frameId e.width e.height) e.width e.height frameHeaderLen
    else
      withoutTiles (copyRectOnlyPacketData frameId e.width e.height validCopyRects)
        e.width e.height (frameHeaderLen + 2 + validCopyRects.length * 24)
  else if validCopyRects.isEmpty then
    encodePframeFromDirtyIndices zstd bgra predicted e.width e.height frameId indices e.focus
  else
    encodeCopyRectFrameFromDirtyIndices zstd bgra predicted e.width e.height frameId
      validCopyRects indices e.focus

def encodeInnerWithCaptureHints (e : EvrtckEncoder) (bgra : List UInt8)
    (frameId : UInt32) (copyRects : List CopyRect) (dirtyRects : List DirtyRect) :
    EvrtckEncoder × EvrtckPacket × FrameStats :=
  if e.pendingKeyframe then e.encodeInner zstd bgra frameId
  else
    let validCopyRects := copyRects.filter fun rect => rect.isValid e.width e.height
    let predicted := applyCopyRects e.prev e.width e.height validCopyRects
    match dirtyTileIndicesFromRects dirtyRects e.width e.height with
    | some indices =>
        e.sent bgra frameId (e.hintedFrame zstd bgra predicted frameId validCopyRects indices)
    | none =>
        if validCopyRects.isEmpty then
          e.encodeInnerWithScrollDetection zstd bgra frameId
        else
          e.sent bgra frameId (encodeFrameWithOffsetsAndCopyRects zstd bgra predicted
            e.width e.height frameId validCopyRects e.focus false)

def requestKeyframe (e : EvrtckEncoder) : EvrtckEncoder :=
  { e with prev := List.replicate e.prev.length 0, pendingKeyframe := true }

def setFocusPixel (e : EvrtckEncoder) (x y : UInt32) : EvrtckEncoder :=
  let tx := min (x.toNat / tileSize) (tilesInDim e.width - 1)
  let ty := min (y.toNat / tileSize) (tilesInDim e.height - 1)
  { e with focus := some (tx, ty) }

def clearFocus (e : EvrtckEncoder) : EvrtckEncoder := { e with focus := none }

end EvrtckEncoder

/-- A call on the encoder. For another resolution there is another encoder. -/
inductive Call where
  | encode (bgra : List UInt8) (frameId : UInt32)
  | encodeWithOffsets (bgra : List UInt8) (frameId : UInt32)
  | encodeWithCopyRects (bgra : List UInt8) (frameId : UInt32)
      (copyRects : List CopyRect)
  | encodeWithCaptureHints (bgra : List UInt8) (frameId : UInt32)
      (copyRects : List CopyRect) (dirtyRects : List DirtyRect)
  | encodeWithScrollDetection (bgra : List UInt8) (frameId : UInt32)
  | requestKeyframe
  | setFocusPixel (x y : UInt32)
  | clearFocus
  | new (width height : Nat)

/-- The frame that a call is given. -/
def Call.frame : Call → Option (List UInt8)
  | .encode bgra _ | .encodeWithOffsets bgra _ | .encodeWithCopyRects bgra _ _
  | .encodeWithCaptureHints bgra _ _ _ | .encodeWithScrollDetection bgra _ => some bgra
  | .requestKeyframe | .setFocusPixel _ _ | .clearFocus | .new _ _ => none

def EvrtckEncoder.call (zstd : Zstd) (e : EvrtckEncoder) :
    Call → EvrtckEncoder × Option EvrtckPacket
  | .encode bgra frameId =>
      let (next, packet, _) := e.encodeInner zstd bgra frameId
      (next, some packet)
  | .encodeWithOffsets bgra frameId =>
      let (next, packet, _) := e.encodeInnerWithOffsets zstd bgra frameId
      (next, some packet)
  | .encodeWithCopyRects bgra frameId copyRects =>
      let (next, packet, _) := e.encodeInnerWithCopyRects zstd bgra frameId copyRects
      (next, some packet)
  | .encodeWithCaptureHints bgra frameId copyRects dirtyRects =>
      let (next, packet, _) := e.encodeInnerWithCaptureHints zstd bgra frameId copyRects dirtyRects
      (next, some packet)
  | .encodeWithScrollDetection bgra frameId =>
      let (next, packet, _) := e.encodeInnerWithScrollDetection zstd bgra frameId
      (next, some packet)
  | .requestKeyframe => (e.requestKeyframe, none)
  | .setFocusPixel x y => (e.setFocusPixel x y, none)
  | .clearFocus => (e.clearFocus, none)
  | .new width height => (EvrtckEncoder.new width height, none)

def encoder (zstd : Zstd) : Machine EvrtckEncoder Call (Option EvrtckPacket) where
  step := EvrtckEncoder.call zstd

end EvertyDesk.Evrtck
