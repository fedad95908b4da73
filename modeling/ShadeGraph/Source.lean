import ShadeGraph.Network.Basic

/-!
# What the host describes

A host describes a channel of a material by a source: a tree of textures, flat colors and operators
on them. Maps without a counterpart stay in the tree as unsupported ones. Overrides replace a
channel by a flat color or a texture file, or choose the coordinates that its textures read.
-/

namespace ShadeGraph

variable {α : Type}

/-- Where the alpha of a texture comes from. -/
inductive AlphaSource where
  | rgbAverage
  | opaqueAlpha
  | file
deriving DecidableEq, Repr

namespace AlphaSource

def name : AlphaSource → String
  | rgbAverage => "rgb_average"
  | opaqueAlpha => "none"
  | file => "file"

def ofName? : String → Option AlphaSource
  | "rgb_average" => some rgbAverage
  | "none" => some opaqueAlpha
  | "file" => some file
  | _ => none

theorem ofName?_name (a : AlphaSource) : ofName? a.name = some a := by cases a <;> rfl

end AlphaSource

/-- Which alpha a product of two sources has. -/
inductive ProductAlpha where
  | first
  | second
  | blend
deriving DecidableEq, Repr

def ProductAlpha.ofName? : String → Option ProductAlpha
  | "first" => some .first
  | "second" => some .second
  | "blend" => some .blend
  | _ => none

/-- The first stage of a color correction. -/
inductive RewireMode where
  | normal
  | monochrome
  | invert
  | custom
deriving DecidableEq, Repr

def RewireMode.ofName? : String → Option RewireMode
  | "normal" => some .normal
  | "monochrome" => some .monochrome
  | "invert" => some .invert
  | "custom" => some .custom
  | _ => none

/-- What a custom rewiring selects for one component. -/
inductive RewireChannel where
  | direct (c : Component)
  | inverted (c : Component)
  | average
  | one
  | zero
deriving DecidableEq, Repr

def RewireChannel.ofName? : String → Option RewireChannel
  | "red" => some (.direct .red)
  | "green" => some (.direct .green)
  | "blue" => some (.direct .blue)
  | "alpha" => some (.direct .alpha)
  | "inv_red" => some (.inverted .red)
  | "inv_green" => some (.inverted .green)
  | "inv_blue" => some (.inverted .blue)
  | "inv_alpha" => some (.inverted .alpha)
  | "monochrome" => some .average
  | "one" => some .one
  | "zero" => some .zero
  | _ => none

/-- How the exposure model reads its gain. -/
inductive ExposureMode where
  | gain
  | fstops
  | printer
deriving DecidableEq, Repr

def ExposureMode.ofName? : String → Option ExposureMode
  | "gain" => some .gain
  | "fstops" => some .fstops
  | "printer" => some .printer
  | _ => none

/-- Scale and offset of texture coordinates. -/
structure UvTransform (α : Type) where
  scaleU : α
  scaleV : α
  offsetU : α
  offsetV : α
deriving DecidableEq, Repr

def UvTransform.identity [OfScientific α] : UvTransform α := ⟨1.0, 1.0, 0.0, 0.0⟩

/-- A texture with all that a texture node needs. -/
structure TextureBinding (α : Type) extends TextureLookup α where
  alphaSource : AlphaSource := .file
  premultiplied : Value α := .flag false
deriving DecidableEq

/-- A bitmap of the host. Its transform may depend on time. -/
structure TextureSource (α : Type) where
  name : String
  path : Option String := none
  uvTransform : Option (α → UvTransform α) := none
  mappingChannel : Option (Value α) := none
  alphaSource : AlphaSource := .file
  premultiplied : Value α := .flag false
  srgb : Option (Value α) := none

/-- The settings of a product of two sources. A source that is switched off or missing stands for
its flat color. -/
structure ProductSettings (α : Type) where
  firstEnabled : Bool := true
  secondEnabled : Bool := true
  firstColor : Shade α
  secondColor : Shade α
  alphaFrom : ProductAlpha := .blend

/-- The product of two sources that stand for white where they are missing. -/
def ProductSettings.plain [OfScientific α] : ProductSettings α :=
  { firstColor := .components [1.0, 1.0, 1.0, 1.0], secondColor := .components [1.0, 1.0, 1.0, 1.0] }

/-- What red, green and blue become. -/
structure TintColumns (α : Type) where
  red : Shade α
  green : Shade α
  blue : Shade α

/-- Every component stays as it is. -/
def TintColumns.identity [OfScientific α] : TintColumns α :=
  ⟨.components [1.0, 0.0, 0.0], .components [0.0, 1.0, 0.0], .components [0.0, 0.0, 1.0]⟩

/-- The settings of a layer; its opacity is in percent. -/
structure LayerSettings (α : Type) where
  blendMode : Value α := .text "normal"
  opacity : α
  enabled : Bool := true
  maskEnabled : Bool := true

/-- A layer that covers what is below. -/
def LayerSettings.plain [OfScientific α] : LayerSettings α := { opacity := 100.0 }

/-- One set of exposure settings. -/
structure Exposure (α : Type) where
  gain : α
  gamma : α
  pivot : α
  lift : α
deriving DecidableEq, Repr

/-- No change in gain mode. -/
def Exposure.neutral [OfScientific α] : Exposure α := ⟨1.0, 1.0, 1.0, 0.0⟩

/-- Hue is in degrees and saturation in percent; brightness and contrast are offsets. -/
structure Correction (α : Type) where
  rewire : RewireMode := .normal
  customChannels : List RewireChannel :=
    [.direct .red, .direct .green, .direct .blue, .direct .alpha]
  hueShift : α
  saturation : α
  brightness : α
  contrast : α
  useExposure : Bool := false
  exposureMode : ExposureMode := .gain
  globalExposure : Exposure α
  redExposure : Exposure α
  greenExposure : Exposure α
  blueExposure : Exposure α
  redEnabled : Bool := false
  greenEnabled : Bool := false
  blueEnabled : Bool := false

/-- No change up to the final clamp. -/
def Correction.neutral [OfScientific α] : Correction α :=
  { hueShift := 0.0, saturation := 100.0, brightness := 0.0, contrast := 0.0
    globalExposure := .neutral, redExposure := .neutral, greenExposure := .neutral
    blueExposure := .neutral }

mutual

/-- A description of a channel. -/
inductive Source (α : Type) where
  | texture (source : TextureSource α)
  | color (color : Shade α)
  | product (first second : Option (Source α)) (settings : ProductSettings α)
  | tint (source : Option (Source α)) (columns : TintColumns α)
  /-- The first layer is the bottom one. -/
  | composite (layers : List (Layer α))
  | correction (source : Option (Source α)) (parameters : Correction α)
  | unsupported (className description : String)
  /-- Something of an unknown kind. -/
  | unknown (className : String)

/-- A layer of a composite. -/
inductive Layer (α : Type) where
  | mk (source mask : Option (Source α)) (settings : LayerSettings α)

end

/-- A material and one of its channels, by whatever they are called. -/
structure ChannelKey (α : Type) where
  material : Value α
  channel : Value α
deriving DecidableEq

/-- What a channel is called in tables. -/
def ChannelKey.label {α : Type} (key : ChannelKey α) : Value α := .list [key.material, key.channel]

/-- A texture file that replaces a channel. -/
structure TextureFile (α : Type) where
  path : String
  srgb : Value α := .flag false
deriving DecidableEq

/-- What is set for a channel beside its source. -/
inductive ChannelOverride (α : Type) where
  | color (color : Shade α)
  | texture (file : TextureFile α)
  /-- The coordinates for all textures; this does not replace the channel. -/
  | mapping (channel : Value α)
deriving DecidableEq

/-- One channel of a host material. -/
structure ChannelDescriptor (α : Type) where
  name : String
  source : Option (Source α) := none
  override : Option (ChannelOverride α) := none

end ShadeGraph
