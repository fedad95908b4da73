import ShadeGraph.Channel.Composite
import ShadeGraph.Channel.Correction
import ShadeGraph.Channel.Texture

/-!
# Compiling sources

A source is compiled by recursion on its tree. What cannot be compiled is told in a warning and has
no node; the operator above it decides what stands in its place, and a channel falls back to a flat
color.
-/

namespace ShadeGraph.Compile

variable {α : Type} [Scalar α]

def unsupportedText (scope : Scope) (className description : String) : String :=
  let detail := if description.isEmpty then "" else s!" ({description})"
  s!"Unsupported map '{className}'{detail} on {scope.place}, using a fallback color"

def unknownText (scope : Scope) (className : String) : String :=
  s!"Unknown source type {className} on {scope.place}, using a fallback color"

def disabledLayerText (scope : Scope) (index : Nat) : String :=
  s!"Skipping disabled layer {index} on {scope.place}"

def failedLayerText (scope : Scope) (index : Nat) : String :=
  s!"Layer {index} on {scope.place} could not be compiled, skipping it"

def noLayersText (scope : Scope) : String := s!"Composite on {scope.place} has no usable layers"

/-- A node, or else a flat color. -/
def orColor (n : Option NodeId) (shade : Shade α) : Compile α NodeId :=
  match n with
  | some n => return n
  | none => color shade

/-- The blend of the layers that could be compiled. -/
def blendLayers (scope : Scope) (layers : List (NodeId × BlendType)) :
    Compile α (Option NodeId) := do
  if layers.isEmpty then
    warn (noLayersText scope)
    return none
  else return some (← build (Build.blendChannel scope layers))

mutual

/-- The node of a source, if it can be compiled. -/
def compileSource (scope : Scope) : Source α → Compile α (Option NodeId)
  | .texture source => compileTextureSource scope source
  | .color shade => return some (← color shade)
  | .product first second settings => do
    let a ← if settings.firstEnabled then compileOptional scope first else pure none
    let a ← orColor a settings.firstColor
    let b ← if settings.secondEnabled then compileOptional scope second else pure none
    let b ← orColor b settings.secondColor
    return some (← build (Build.product a b settings.alphaFrom))
  | .tint source columns => do
    match ← compileOptional scope source with
    | some n => return some (← tint n columns)
    | none => return none
  | .composite layers => do blendLayers scope (← compileLayers scope 0 true layers)
  | .correction source parameters => do
    match ← compileOptional scope source with
    | some n => return some (← correct scope n parameters)
    | none => return none
  | .unsupported className description => do
    warn (unsupportedText scope className description)
    return none
  | .unknown className => do
    warn (unknownText scope className)
    return none

def compileOptional (scope : Scope) : Option (Source α) → Compile α (Option NodeId)
  | some source => compileSource scope source
  | none => return none

/-- The layer at an index with its blend, if it can be compiled. The bottom one replaces. -/
def compileLayer (scope : Scope) (index : Nat) (bottom : Bool) :
    Layer α → Compile α (Option (NodeId × BlendType))
  | .mk source mask settings => do
    if !settings.enabled then
      debug (disabledLayerText scope index)
      return none
    else
      match ← compileOptional scope.inner source with
      | none =>
        if source.isSome then warn (failedLayerText scope index)
        return none
      | some n =>
        let mask ← if settings.maskEnabled then compileOptional scope.inner mask else pure none
        let n ← build (Build.weightedLayer (← constants) n mask settings.share)
        let blend ← if bottom then pure .replace else blendTypeFor scope settings.blendMode
        return some (n, blend)

/-- The usable layers from an index on. -/
def compileLayers (scope : Scope) (index : Nat) (bottom : Bool) :
    List (Layer α) → Compile α (List (NodeId × BlendType))
  | [] => return []
  | layer :: layers => do
    match ← compileLayer scope index bottom layer with
    | some entry => return entry :: (← compileLayers scope (index + 1) false layers)
    | none => compileLayers scope (index + 1) bottom layers

end

/-- The flat color for a channel whose source cannot be compiled. -/
def fallbackNode (channel : String) : Build α NodeId := Build.color (Channel.fallback channel)

/-- The exit node of a channel; none if nothing describes it. -/
def compileChannel (material : String) (d : ChannelDescriptor α) : Compile α (Option NodeId) := do
  let scope := Scope.ofChannel material d.name
  match ← resolveOverride scope d.override with
  | some n => return some n
  | none =>
    match d.source with
    | none => return none
    | some source =>
      match ← compileSource scope source with
      | some n => return some n
      | none => return some (← build (fallbackNode d.name))

end ShadeGraph.Compile
