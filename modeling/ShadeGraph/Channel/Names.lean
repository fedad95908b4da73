import ShadeGraph.Color.Basic

/-!
# Channels

A material is described channel by channel. Color channels carry three components, scalar channels
one value that also serves as the fallback for a source that cannot be compiled.
-/

namespace ShadeGraph.Channel

def colorNames : List String :=
  ["base_color", "refl_color", "trans_color", "sss_color", "sss_scatter_color", "emit_color",
    "coat_color", "sheen_color"]

variable {α : Type} [OfScientific α]

/-- The scalar channels with the values they fall back to. -/
def scalarDefaults : List (String × α) :=
  [("base_weight", 1.0), ("reflectivity", 1.0), ("roughness", 0.0), ("metalness", 0.0),
    ("diff_roughness", 0.0), ("anisotropy", 1.0), ("aniso_angle", 0.0), ("transparency", 0.0),
    ("trans_depth", 0.0), ("trans_roughness", 0.0), ("trans_ior", 1.52), ("scattering", 0.0),
    ("sss_depth", 10.0), ("sss_scale", 1.0), ("emission", 0.0), ("emit_luminance", 1500.0),
    ("emit_kelvin", 6500.0), ("coat", 0.0), ("coat_roughness", 0.0), ("coat_affect_color", 0.5),
    ("coat_affect_roughness", 0.5), ("coat_ior", 1.52), ("bump", 0.0), ("coat_bump", 0.0),
    ("displacement", 0.0), ("cutout", 1.0), ("sheen", 0.0), ("sheen_roughness", 0.3)]

def scalarNames : List String := (scalarDefaults : List (String × Float)).map (·.1)

/-- These channels read the output of a texture as it is. -/
def opacityNames : List String := ["transparency", "cutout", "opacity"]

def isColor (name : String) : Bool := colorNames.contains name

def isScalar (name : String) : Bool := scalarNames.contains name

def isKnown (name : String) : Bool := isColor name || isScalar name

def isOpacity (name : String) : Bool := opacityNames.contains name

def default? (name : String) : Option α := scalarDefaults.lookup name

/-- Opaque black. -/
def black : Rgba α := ⟨0.0, 0.0, 0.0, 1.0⟩

/-- Black for color channels and unknown ones, the opaque gray of its default for a scalar one. -/
def fallback (name : String) : Rgba α :=
  if isColor name then black
  else
    match default? name with
    | some v => ⟨v, v, v, 1.0⟩
    | none => black

end ShadeGraph.Channel
