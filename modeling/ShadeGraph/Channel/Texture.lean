import ShadeGraph.Session.Context
import ShadeGraph.Text.Path

/-!
# Texture channels

A bitmap becomes a texture node, and behind it come the source of its alpha and the multiplication by
it. Opacity channels read the texture node itself.
-/

namespace ShadeGraph

variable {α : Type} [Scalar α]

/-- The offset of a texture that is scaled about its center, in `[0, 1)`. Hosts offset against the
direction of the engine. -/
def centerScaledOffset (scale offset : α) : α :=
  let r := Scalar.wrap (-offset - (scale - 1.0) * (0.5 + offset)) 1.0
  if Scalar.le 1.0 r then 0.0 else r

/-- A lookup with its coordinates transformed. -/
def TextureLookup.transform (lookup : TextureLookup α) (t : UvTransform α) : TextureLookup α :=
  { lookup with
    tileU := t.scaleU
    tileV := t.scaleV
    offsetU := centerScaledOffset t.scaleU t.offsetU
    offsetV := centerScaledOffset t.scaleV t.offsetV }

/-- A lookup without tiling and offset. -/
def TextureLookup.plain (textureName texturePath : String) (mapping srgb : Value α) :
    TextureLookup α :=
  { textureName, texturePath, uvSet := .text mapping.display, srgb
    tileU := 1.0, tileV := 1.0, offsetU := 0.0, offsetV := 0.0 }

/-- The mapping channel of the textures in a channel: that of an override, or their own, or the
default of the session. -/
def Context.mappingChannel (ctx : Context α) (scope : Scope)
    (own : Option (Value α)) : Value α :=
  ((ctx.overrides.mappings.get? scope.key.label) <|> own).getD ctx.options.defaultMappingChannel

/-- Whether textures in a channel are display-referred where they do not tell. -/
def Options.srgb (options : Options α) (scope : Scope) : Value α :=
  if options.defaultSrgb.toBool then .flag scope.isColor else options.defaultSrgb

namespace Build

def applyAlphaSource (constants : Constants) (n : NodeId) : AlphaSource → Build α NodeId
  | .rgbAverage => do replaceAlpha n (← rgbAverage n)
  | .opaqueAlpha => replaceAlpha n constants.one
  | .file => pure n

/-- The network of a texture in a channel. -/
def textureChannel (constants : Constants) (scope : Scope) (b : TextureBinding α) :
    Build α NodeId := do
  let n ← texture b.toTextureLookup.settled
  if scope.isOpacity then return n
  else
    let n ← applyAlphaSource constants n b.alphaSource
    if scope.premultiply && !b.premultiplied.toBool then premultiply n else return n

end Build

/-- The name of a texture: its own, or else that of its file. -/
def TextureSource.nodeName (source : TextureSource α) (path : String) : String :=
  let name := Identity.cleanName source.name
  if name.isEmpty then Identity.cleanName (Text.fileStem path) else name

namespace Compile

def noFileText (scope : Scope) (name : String) : String :=
  s!"Texture '{name}' on {scope.place} has no file, using a fallback color"

def textureText (scope : Scope) (b : TextureBinding α) : String :=
  let number (a : α) : String := Scalar.text a
  s!"Texture '{b.textureName}' on {scope.place}: uv set {b.uvSet.display}, " ++
    s!"tiling ({number b.tileU}, {number b.tileV}), " ++
    s!"offset ({number b.offsetU}, {number b.offsetV}), " ++
    s!"srgb {b.srgb.display}"

/-- All that the texture node of a bitmap needs, unless the bitmap has no file. -/
def bindTexture (scope : Scope) (source : TextureSource α) :
    Compile α (Option (TextureBinding α)) := do
  let path := source.path.getD ""
  if path.isEmpty then
    warn (noFileText scope source.name)
    return none
  else
    let ctx ← get
    let mapping := ctx.mappingChannel scope source.mappingChannel
    let srgb := source.srgb.getD (ctx.options.srgb scope)
    let lookup := TextureLookup.plain (source.nodeName path) path mapping srgb
    let lookup :=
      match source.uvTransform with
      | some transform => lookup.transform (transform ctx.options.time)
      | none => lookup
    let binding ← applyProxy
      { lookup with alphaSource := source.alphaSource, premultiplied := source.premultiplied }
    note (·.addTexture (.text scope.material) (.text scope.channel) (.text path) mapping)
    return some binding

def compileTexture (scope : Scope) (binding : TextureBinding α) : Compile α NodeId := do
  let n ← build (Build.textureChannel (← constants) scope binding)
  if !scope.isOpacity then debug (textureText scope binding)
  return n

def compileTextureSource (scope : Scope) (source : TextureSource α) :
    Compile α (Option NodeId) := do
  match ← bindTexture scope source with
  | some binding => return some (← compileTexture scope binding)
  | none => return none

/-! ### Overrides -/

/-- The texture that replaces a channel. Proxies do not change it. -/
def overrideTexture (scope : Scope) (file : TextureFile α) : Compile α NodeId := do
  let mapping := (← get).mappingChannel scope none
  let name := Identity.cleanName (Text.fileStem file.path)
  let lookup := TextureLookup.plain name file.path mapping file.srgb
  note (·.addTexture (.text scope.material) (.text scope.channel) (.text file.path) mapping)
  compileTexture scope { lookup with }

/-- A color as messages show it. -/
def shadeText : Shade α → String
  | .gray v => Scalar.text v
  | .components vs => Text.tuple (vs.map Scalar.text)

/-- The override of a channel: its own one, or else one from the tables. -/
def overrideFor (scope : Scope) (own : Option (ChannelOverride α)) :
    Compile α (Option (ChannelOverride α)) := do
  let ctx ← get
  return own <|> ctx.overrides.find? scope.key ctx.options.useColorOverrides

/-- The exit node of an overridden channel. A mapping channel has none. -/
def resolveOverride (scope : Scope) (own : Option (ChannelOverride α)) :
    Compile α (Option NodeId) := do
  match ← overrideFor scope own with
  | none => return none
  | some (.color shade) =>
    debug s!"Color override on {scope.place}: {shadeText shade}"
    return some (← color shade)
  | some (.texture file) =>
    debug s!"Texture override on {scope.place}: {file.path}"
    return some (← overrideTexture scope file)
  | some (.mapping _) => throw .mappingOverride

end Compile

end ShadeGraph
