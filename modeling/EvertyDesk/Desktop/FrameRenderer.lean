import EvertyDesk.Lib.Strips
import Mathlib.Algebra.BigOperators.Fin
import Mathlib.Data.Fin.VecNotation
import Mathlib.Data.Rat.Floor

/-!
How the viewer draws a frame, and which pixel of the frame it takes the mouse to
be on. Drawing is one triangle under a matrix with the frame as its texture, cut
by a rectangle; the mouse has a mapping of its own. Numbers are exact.
-/

namespace EvertyDesk.Desktop

inductive ScalingMode where
  | pixelPerfect | fill
deriving DecidableEq, Repr

/-- The size of a texture or a surface; neither is ever without pixels. -/
structure Extent where
  width : ℕ
  height : ℕ
  width_pos : 0 < width
  height_pos : 0 < height

def scaleFactor (texture screen : Extent) : ScalingMode → ℚ
  | .pixelPerfect =>
      let widthRatio := max ((screen.width : ℚ) / texture.width) 1
      let heightRatio := max ((screen.height : ℚ) / texture.height) 1
      max (⌊min widthRatio heightRatio⌋ : ℚ) 1
  | .fill =>
      let widthRatio := (screen.width : ℚ) / texture.width
      let heightRatio := (screen.height : ℚ) / texture.height
      min widthRatio heightRatio

structure ClipRect where
  x : ℕ
  y : ℕ
  width : ℕ
  height : ℕ
deriving DecidableEq, Repr

def clipRectFor (texture screen : Extent) (mode : ScalingMode) : ClipRect :=
  let scale := scaleFactor texture screen mode
  let scaledWidth := min (texture.width * scale) screen.width
  let scaledHeight := min (texture.height * scale) screen.height
  { x := ⌊(screen.width - scaledWidth) / 2⌋₊
    y := ⌊(screen.height - scaledHeight) / 2⌋₊
    width := ⌊scaledWidth⌋₊
    height := ⌊scaledHeight⌋₊ }

/-- The uniform buffer: the columns of the transform, and the size of the texture
with its inverse. -/
structure Locals where
  transform : Fin 4 → Fin 4 → ℚ
  inputSize : Fin 4 → ℚ

def uniformBuffer (texture screen : Extent) (mode : ScalingMode) : Locals :=
  let scale := scaleFactor texture screen mode
  let scaledWidth := texture.width * scale
  let scaledHeight := texture.height * scale
  let sw := scaledWidth / screen.width
  let sh := scaledHeight / screen.height
  let tx := Int.fract ((screen.width : ℚ) / 2) / screen.width
  let ty := Int.fract ((screen.height : ℚ) / 2) / screen.height
  { transform := ![![sw, 0, 0, 0], ![0, sh, 0, 0], ![0, 0, 1, 0], ![tx, ty, 0, 1]]
    inputSize := ![texture.width, texture.height, 1 / texture.width, 1 / texture.height] }

/-! The render pass. -/

/-- One triangle, larger than the surface. -/
def vertexData : Fin 3 → ℚ × ℚ := ![(-1, -1), (3, -1), (-1, 3)]

structure VertexOutput where
  texCoord : ℚ × ℚ
  position : Fin 4 → ℚ

def vsMain (locals : Locals) (mode : ScalingMode) (position : ℚ × ℚ) : VertexOutput :=
  let texCoord := (position.1 * 0.5 + 0.5, position.2 * -0.5 + 0.5)
  let vector : Fin 4 → ℚ := ![position.1, position.2, 0, 1]
  { texCoord :=
      match mode with
      | .pixelPerfect => texCoord
      | .fill => (texCoord.1 * locals.inputSize 0, texCoord.2 * locals.inputSize 1)
    position := fun row => ∑ column, locals.transform column row * vector column }

/-- Where a vertex comes to lie on the surface, whose first row is the top one. -/
def toSurface (screen : Extent) (position : Fin 4 → ℚ) : ℚ × ℚ :=
  ((position 0 / position 3 + 1) / 2 * screen.width,
    (1 - position 1 / position 3) / 2 * screen.height)

/-- The texture coordinate at a point of the triangle: that of the three vertices
in the proportions in which the point lies between them. -/
def Interpolates (texture screen : Extent) (mode : ScalingMode) (pos texCoord : ℚ × ℚ) : Prop :=
  let vertex i := vsMain (uniformBuffer texture screen mode) mode (vertexData i)
  ∃ weights : Fin 3 → ℚ, (∀ i, 0 ≤ weights i) ∧ ∑ i, weights i = 1 ∧
    pos = (∑ i, weights i * (toSurface screen (vertex i).position).1,
      ∑ i, weights i * (toSurface screen (vertex i).position).2) ∧
    texCoord = (∑ i, weights i * (vertex i).texCoord.1, ∑ i, weights i * (vertex i).texCoord.2)

/-- How the coordinate changes from one pixel to the next, along the side of the
triangle that lies in this direction. -/
def texelsPerPixel (texture screen : Extent) : ℚ × ℚ :=
  let vertex i := vsMain (uniformBuffer texture screen .fill) .fill (vertexData i)
  let point i := toSurface screen (vertex i).position
  (((vertex 1).texCoord.1 - (vertex 0).texCoord.1) / ((point 1).1 - (point 0).1),
    ((vertex 2).texCoord.2 - (vertex 0).texCoord.2) / ((point 2).2 - (point 0).2))

/-- One coordinate of the fragment shader that fills the window. -/
def fillCoordinate (texCoord texelsPerPixel texelSize : ℚ) : ℚ :=
  let texCoordFract := Int.fract texCoord
  let offset := max 0 (min (texCoordFract / texelsPerPixel) 0.5) +
    max 0 (min ((texCoordFract - 1) / texelsPerPixel + 0.5) 0.5)
  (⌊texCoord⌋ + offset) * texelSize

/-- The texel that holds a coordinate between 0 and 1, and the last one beyond. A
sampler that blends neighbours gives this one the most weight. -/
def textureSample (count : ℕ) (coordinate : ℚ) : ℕ := min (count - 1) ⌊coordinate * count⌋₊

def fsMain (texture screen : Extent) (mode : ScalingMode) (texCoord : ℚ × ℚ) : ℕ × ℕ :=
  match mode with
  | .pixelPerfect =>
      (textureSample texture.width texCoord.1, textureSample texture.height texCoord.2)
  | .fill =>
      let texels := texelsPerPixel texture screen
      let locals := uniformBuffer texture screen .fill
      (textureSample texture.width (fillCoordinate texCoord.1 texels.1 (locals.inputSize 2)),
        textureSample texture.height (fillCoordinate texCoord.2 texels.2 (locals.inputSize 3)))

def ClipRect.Holds (rect : ClipRect) (pos : ℚ × ℚ) : Prop :=
  (rect.x ≤ pos.1 ∧ pos.1 < rect.x + rect.width) ∧ rect.y ≤ pos.2 ∧ pos.2 < rect.y + rect.height

/-- The pass shows this pixel of the texture at a point of the surface. -/
def Shows (texture screen : Extent) (mode : ScalingMode) (pos : ℚ × ℚ) (pixel : ℕ × ℕ) :
    Prop :=
  (clipRectFor texture screen mode).Holds pos ∧
    ∃ texCoord, Interpolates texture screen mode pos texCoord ∧
      pixel = fsMain texture screen mode texCoord

/-! The mouse. -/

def windowPosToPixel (texture screen : Extent) (mode : ScalingMode) (pos : ℚ × ℚ) :
    Except (ℤ × ℤ) (ℕ × ℕ) :=
  let scale := scaleFactor texture screen mode
  let scaledWidth := texture.width * scale
  let scaledHeight := texture.height * scale
  let clipX := ⌊(screen.width - min scaledWidth screen.width) / 2⌋
  let clipY := ⌊(screen.height - min scaledHeight screen.height) / 2⌋
  let pixelX := ⌊(pos.1 - clipX) / scale⌋
  let pixelY := ⌊(pos.2 - clipY) / scale⌋
  if pixelX < 0 ∨ pixelX ≥ texture.width ∨ pixelY < 0 ∨ pixelY ≥ texture.height then
    .error (pixelX, pixelY)
  else .ok (pixelX.toNat, pixelY.toNat)

/-- The viewer keeps positions in 32 bits. -/
def remotePosition (texture screen : Extent) (mode : ScalingMode) (pos : ℚ × ℚ) :
    Option (ℤ × ℤ) :=
  match windowPosToPixel texture screen mode pos with
  | .error _ => none
  | .ok (x, y) => if x < 2 ^ 31 ∧ y < 2 ^ 31 then some (x, y) else none

end EvertyDesk.Desktop
