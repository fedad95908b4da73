import ShadeGraph.Session.Context

/-!
# Products, tints and layers

These operators put compiled sources together. A layer over others is weighted by its mask and its
opacity through its alpha.
-/

namespace ShadeGraph

variable {α : Type} [Scalar α]

/-- The blend of a layer mode, whatever the case of its name. -/
def BlendType.ofMode? (mode : String) : Option BlendType :=
  match Text.lower mode with
  | "normal" => some .alpha
  | "addition" => some .add
  | "add" => some .add
  | "subtract" => some .subtract
  | "multiply" => some .multiply
  | "darken" => some .min
  | "lighten" => some .max
  | _ => none

/-- The share of a layer, from its opacity in percent. -/
def LayerSettings.share (settings : LayerSettings α) : α :=
  Scalar.smaller (Scalar.larger settings.opacity 0.0) 100.0 / 100.0

namespace Build

/-- The product of two nodes. -/
def product (first second : NodeId) (alpha : ProductAlpha) : Build α NodeId := do
  let n ← multiply first second
  replaceAlpha n
    (match alpha with
    | .first => first
    | .second => second
    | .blend => n)

/-- The mask of a layer times the alpha of the layer. -/
def maskedAlpha (constants : Constants) (n mask : NodeId) : Build α NodeId := do
  let cover ← clamp (← rgbAverage mask) constants.zero constants.one
  multiply cover (← broadcast n .alpha)

/-- The alpha `own` of a layer, weighted by its share; the alpha of `n` if there is none. -/
def sharedAlpha (n : NodeId) (own : Option NodeId) (share : α) : Build α (Option NodeId) := do
  if Scalar.eq share 1.0 then return own
  else
    let alpha ← match own with
      | some alpha => pure alpha
      | none => broadcast n .alpha
    return some (← multiply alpha (← color (.replicate share)))

/-- A layer with its mask and its share in its alpha. -/
def weightedLayer (constants : Constants) (n : NodeId) (mask : Option NodeId) (share : α) :
    Build α NodeId := do
  let own ← match mask with
    | some mask => some <$> maskedAlpha constants n mask
    | none => pure none
  match ← sharedAlpha n own share with
  | some alpha => replaceAlpha n alpha
  | none => return n

/-- The blend of layers in a channel. -/
def blendChannel (scope : Scope) (layers : List (NodeId × BlendType)) : Build α NodeId := do
  let n ← layeredBlend layers
  if scope.premultiply && !scope.isOpacity then premultiply n else return n

end Build

namespace Compile

def unsupportedModeText (scope : Scope) (mode : String) : String :=
  s!"Blend mode '{mode}' on {scope.place} is not supported, using normal"

/-- The blend of a layer mode. Unsupported modes are blended as normal ones. -/
def blendTypeFor (scope : Scope) : Value α → Compile α BlendType
  | .text mode => do
    match BlendType.ofMode? mode with
    | some blend => return blend
    | none =>
      warn (unsupportedModeText scope mode)
      return .alpha
  | mode => throw (.layerMode mode.kindName)

/-- `r * red + g * green + b * blue` for the components of `n`, with alpha kept. -/
def tint (n : NodeId) (columns : TintColumns α) : Compile α NodeId := do
  let column (c : Component) (shade : Shade α) : Compile α NodeId := do
    let share ← build (Build.broadcast n c)
    let value ← color shade
    build (Build.multiply share value)
  let red ← column .red columns.red
  let green ← column .green columns.green
  let blue ← column .blue columns.blue
  build do
    let sum ← Build.add (← Build.add red green) blue
    Build.replaceAlpha sum n

end Compile

end ShadeGraph
