import ShadeGraph.Network.Basic

/-!
# Operators

Everything that is compiled is put together from these. An operator adds its nodes to the network
and returns the place of the last one, so an input that is used several times stays shared.
-/

namespace ShadeGraph

/-- Adds nodes to a network. -/
abbrev Build (α : Type) := StateM (Network α)

namespace Build

variable {α : Type}

def named (operation : Operation α) (inputs : List NodeId) (name : String) : Build α NodeId :=
  modifyGet fun net => (net.size, net.insert { operation, inputs, name })

def node (operation : Operation α) (inputs : List NodeId) : Build α NodeId :=
  named operation inputs ""

def color (value : Rgba α) : Build α NodeId := node (.color value) []

/-- A texture node is named for its texture. -/
def texture (lookup : TextureLookup α) : Build α NodeId :=
  named (.texture lookup) [] lookup.textureName

/-- Component `i` of the output is the selected component of source `i`. -/
def swizzle (sources : Rgba NodeId) (selection : Rgba Component) : Build α NodeId :=
  node (.swizzle (selection.map .index)) sources.toList

/-- One component in all four places. -/
def broadcast (a : NodeId) (c : Component) : Build α NodeId :=
  swizzle (.replicate a) (.replicate c)

/-- The colors of `rgb` with one component of `alpha` for their alpha. -/
def replaceAlphaFrom (rgb alpha : NodeId) (c : Component) : Build α NodeId :=
  swizzle ⟨rgb, rgb, rgb, alpha⟩ ⟨.red, .green, .blue, c⟩

def replaceAlpha (rgb alpha : NodeId) : Build α NodeId := replaceAlphaFrom rgb alpha .alpha

def add (a b : NodeId) : Build α NodeId := node .add [a, b]

def subtract (a b : NodeId) : Build α NodeId := node .subtract [a, b]

def multiply (a b : NodeId) : Build α NodeId := node .multiply [a, b]

def divide (a b : NodeId) : Build α NodeId := node .divide [a, b]

def power (base exponent : NodeId) : Build α NodeId := node .pow [base, exponent]

def clamp (value lower upper : NodeId) : Build α NodeId := node .clamp [value, lower, upper]

def interpolate (a b weight : NodeId) : Build α NodeId := node .interpolate [a, b, weight]

def colorCorrection (value control : NodeId) : Build α NodeId :=
  node .colorCorrection [value, control]

/-- Blends the layers, the bottom one first. -/
def layeredBlend (layers : List (NodeId × BlendType)) : Build α NodeId :=
  node (.layeredBlend (layers.map (·.2))) (layers.map (·.1))

/-- `((r + g) + b) / 3` in all four places. -/
def rgbAverage [OfScientific α] (a : NodeId) : Build α NodeId := do
  let red ← broadcast a .red
  let green ← broadcast a .green
  let sum ← add red green
  let blue ← broadcast a .blue
  let total ← add sum blue
  let three ← color (.replicate 3.0)
  divide total three

/-- The colors times alpha, with alpha kept. -/
def premultiply (a : NodeId) : Build α NodeId := do
  let alpha ← broadcast a .alpha
  let multiplied ← multiply a alpha
  replaceAlpha multiplied a

end Build

end ShadeGraph
