import ShadeGraph.Color.Conversion
import ShadeGraph.Network.Basic
import ShadeGraph.Text.Reading

/-!
# Sampling textures

An image is read at the pixel that holds the wrapped coordinates, without filtering. Rows are
counted along `v` and columns along `u`. Coordinates and images are tensors that the host describes;
one that cannot be read is an error only where its values are needed.
-/

namespace ShadeGraph

/-- Scalars in row-major order. -/
structure Tensor (α : Type) where
  shape : List Nat
  values : Array α

/-- Along how many dimensions tensors can be divided, or chosen from item by item. -/
def Tensor.pairingLimit : Nat := 32

def Tensor.pairingText (dimensions : Nat) : String :=
  s!"this function only supports up to {pairingLimit} dimensions but the array has {dimensions}."

/-- A tensor, or why its description cannot be read. -/
abbrev GivenTensor (α : Type) := Except Json.ReadError (Tensor α)

/-- Why a network has no value. -/
inductive EvaluationError where
  | noImage (textureName texturePath : String)
  | imageShape (shape : List Nat)
  | coordinateShape (shape : List Nat)
  /-- An image or the coordinates cannot be read. -/
  | unreadable (e : Json.ReadError)
  /-- Tensors would have to be divided or chosen from along too many dimensions. -/
  | dimensions (n : Nat)
  /-- A component is named by a number that is no whole one. -/
  | label
  /-- The parts of a swizzle lie along different dimensions. -/
  | stacked
  /-- Two operands have no dimensions in common. -/
  | operands (left right : List Nat)
  /-- A dividend and a divisor have no dimensions in common. -/
  | paired (left right : List Nat)
  /-- Values cannot be written over those that lie along other dimensions. -/
  | written (source target : List Nat)
deriving DecidableEq, Repr

/-- The lengths of dimensions without blanks. -/
def EvaluationError.shapeText : List Nat → String
  | [n] => s!"({n},)"
  | shape => "(" ++ ",".intercalate (shape.map toString) ++ ")"

def EvaluationError.message : EvaluationError → String
  | noImage name path => s!"No image for texture '{name}' ({path})"
  | imageShape shape =>
    "Expected a (height, width, 3|4) image, got shape " ++ Text.tuple (shape.map toString)
  | coordinateShape [] => "tuple index out of range"
  | coordinateShape shape =>
    "UV array must end in a dimension of 2, got shape " ++ Text.tuple (shape.map toString)
  | unreadable e => e.message
  | dimensions n => Tensor.pairingText n
  | label => "a component is named by a whole number"
  | stacked => "all input arrays must have the same shape"
  | operands left right =>
    s!"operands could not be broadcast together with shapes {shapeText left} {shapeText right} "
  | paired left right =>
    "shape mismatch: objects cannot be broadcast to a single shape.  Mismatch is between " ++
      s!"arg 0 with shape {shapeText left} and arg 1 with shape {shapeText right}."
  | written source target =>
    s!"could not broadcast input array from shape {shapeText source} into shape " ++
      shapeText target

/-- The pixels of a rectangle, row by row. -/
structure Image (α : Type) where
  height : Nat
  width : Nat
  pixels : Array (Rgba α)

/-- Texture coordinates. -/
structure Uv (α : Type) where
  u : α
  v : α
deriving DecidableEq, Repr

/-- Coordinates along dimensions of these lengths, in row-major order. -/
structure UvGrid (α : Type) where
  lengths : List Nat
  points : Array (Uv α)

/-- Images by texture path or texture name. -/
abbrev ImageTable (α : Type) := List (String × GivenTensor α)

variable {α : Type} [Scalar α]

/-- The value at `i`, or zero. -/
def Tensor.getD (t : Tensor α) (i : Nat) : α := (t.values[i]?).getD 0.0

/-- The `n` pixels of a tensor with four components each, or with three and opaque. -/
def Tensor.pixels (t : Tensor α) (components n : Nat) : Array (Rgba α) :=
  Array.ofFn fun (i : Fin n) =>
    let value (c : Nat) := t.getD (components * i + c)
    ⟨value 0, value 1, value 2, if components = 4 then value 3 else 1.0⟩

def Image.ofTensor (t : Tensor α) : Except EvaluationError (Image α) :=
  match t.shape with
  | [height, width, 3] => .ok ⟨height, width, t.pixels 3 (height * width)⟩
  | [height, width, 4] => .ok ⟨height, width, t.pixels 4 (height * width)⟩
  | shape => .error (.imageShape shape)

def Image.getD (image : Image α) (row column : Nat) : Rgba α :=
  (image.pixels[row * image.width + column]?).getD (.replicate 0.0)

/-- The cell of `n` equal ones between zero and one that holds `x`, or the nearest. -/
def cell (n : Nat) (x : α) : Nat := min ((Scalar.floor? (x * n)).getD 0).toNat (n - 1)

/-- The image of a texture: by its path, or else by its name. -/
def TextureLookup.image (lookup : TextureLookup α) (images : ImageTable α) :
    Except EvaluationError (Image α) :=
  match images.lookup lookup.texturePath <|> images.lookup lookup.textureName with
  | some t => (t.mapError .unreadable).bind Image.ofTensor
  | none => .error (.noImage lookup.textureName lookup.texturePath)

/-- Tiled and offset, and wrapped into the unit square. -/
def TextureLookup.place (lookup : TextureLookup α) (uv : Uv α) : Uv α :=
  ⟨Scalar.wrap (uv.u * lookup.tileU + lookup.offsetU) 1.0,
    Scalar.wrap (uv.v * lookup.tileV + lookup.offsetV) 1.0⟩

/-- The components of a display-referred pixel, linear. -/
def Rgba.toLinear (c : Rgba α) : Rgba α :=
  ⟨srgbToLinear c.red, srgbToLinear c.green, srgbToLinear c.blue, c.alpha⟩

/-- The value of a texture at one pair of coordinates. -/
def TextureLookup.sample (lookup : TextureLookup α) (image : Image α) (uv : Uv α) : Rgba α :=
  let p := lookup.place uv
  let pixel := image.getD (cell image.height p.v) (cell image.width p.u)
  if lookup.srgb.toBool then pixel.toLinear else pixel

/-- The centers of the pixels that begin within a length, as shares of it. -/
def pixelCenters (length : α) : List α :=
  let count := -((Scalar.floor? (-length)).getD 0)
  (List.range count.toNat).map fun (i : Nat) => ((i : α) + 0.5) / length

/-- The coordinates of the pixel centers of an image, row by row. -/
def pixelGrid (width height : α) : Tensor α :=
  let us := pixelCenters width
  let vs := pixelCenters height
  { shape := [vs.length, us.length, 2]
    values := (vs.flatMap fun v => us.flatMap fun u => [u, v]).toArray }

/-- The pairs of a tensor whose last dimension is two. -/
def UvGrid.ofTensor (t : Tensor α) : Except EvaluationError (UvGrid α) :=
  if t.shape.getLast? = some 2 then
    .ok
      { lengths := t.shape.dropLast
        points := Array.ofFn fun (i : Fin (t.values.size / 2)) =>
          ⟨t.getD (2 * i), t.getD (2 * i + 1)⟩ }
  else .error (.coordinateShape t.shape)

/-- The coordinates that the host gives. -/
def UvGrid.ofGiven (t : GivenTensor α) : Except EvaluationError (UvGrid α) :=
  (t.mapError .unreadable).bind ofTensor

end ShadeGraph
