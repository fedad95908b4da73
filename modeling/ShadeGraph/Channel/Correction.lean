import ShadeGraph.Session.Context

/-!
# Color correction

A color is rewired, its hue and saturation are changed, its lightness is changed by one of two
models, and the result is clamped to `[0, 1]`. The exposure model makes a pass with common settings
and then one with settings for single components:
`pivot * (value * gain / pivot) ^ (1 / gamma) + lift`.
-/

namespace ShadeGraph

variable {α : Type} [Scalar α]

/-- Gammas below this are not used. -/
def leastGamma : α := 0.01

/-- Pivots below this are not used. -/
def leastPivot : α := 0.0001

/-- Neither brightness nor contrast is changed. -/
def Correction.isPlain (p : Correction α) : Bool :=
  Scalar.eq p.brightness 0.0 && Scalar.eq p.contrast 0.0

namespace Build

/-- The colors subtracted from one, alpha included. -/
def inverted (constants : Constants) (n : NodeId) : Build α NodeId := subtract constants.one n

/-- Where a rewired component comes from. -/
def rewireSource (constants : Constants) (n inverse average : NodeId) :
    RewireChannel → NodeId × Component
  | .direct c => (n, c)
  | .inverted c => (inverse, c)
  | .average => (average, .red)
  | .one => (constants.one, .red)
  | .zero => (constants.zero, .red)

/-- Every component of the result is selected by itself. -/
def customRewire (constants : Constants) (n : NodeId) (channels : Rgba RewireChannel) :
    Build α NodeId := do
  let inverse ← inverted constants n
  let average ← rgbAverage n
  let sources := channels.map (rewireSource constants n inverse average)
  swizzle (sources.map (·.1)) (sources.map (·.2))

/-- Turns the hue and scales the saturation. -/
def hslTint (n : NodeId) (p : Correction α) : Build α NodeId := do
  let control ← color ⟨p.hueShift / 360.0, p.saturation / 100.0, 0.0, 1.0⟩
  colorCorrection n control

/-- An opaque gray. -/
def gray (v : α) : Build α NodeId := color ⟨v, v, v, 1.0⟩

/-- `0.5 + brightness + (value - 0.5) * (1 + contrast)`, with alpha kept. -/
def simpleLightness (n : NodeId) (p : Correction α) : Build α NodeId := do
  if p.isPlain then return n
  else
    let centered ← subtract n (← gray 0.5)
    let scaled ← multiply centered (← gray (1.0 + p.contrast))
    let shifted ← add scaled (← gray (0.5 + p.brightness))
    replaceAlpha shifted n

end Build

/-- The factors of an exposure pass, for each component. -/
structure ExposureTerms (α : Type) where
  gain : Rgba α
  inverseGamma : Rgba α
  pivot : Rgba α
  lift : Rgba α
deriving DecidableEq, Repr

/-- The factors of an exposure pass for one component. -/
structure ExposureTerm (α : Type) where
  gain : α
  inverseGamma : α
  pivot : α
  lift : α
deriving DecidableEq, Repr

namespace ExposureTerm

/-- No change. -/
def neutral : ExposureTerm α := ⟨1.0, 1.0, 1.0, 0.0⟩

def spread (t : Rgba (ExposureTerm α)) : ExposureTerms α :=
  ⟨t.map (·.gain), t.map (·.inverseGamma), t.map (·.pivot), t.map (·.lift)⟩

end ExposureTerm

/-- The network of an exposure pass. Printer mode keeps the alpha that results. -/
def Build.exposurePass (n : NodeId) (mode : ExposureMode) (t : ExposureTerms α) :
    Build α NodeId := do
  let scaled ← divide (← multiply n (← color t.gain)) (← color t.pivot)
  let curved ← power scaled (← color t.inverseGamma)
  let result ← add (← multiply curved (← color t.pivot)) (← color t.lift)
  match mode with
  | .printer => return result
  | _ => replaceAlpha result n

namespace Compile

/-- The node after its first stage. -/
def rewire (n : NodeId) (p : Correction α) : Compile α NodeId := do
  let constants ← constants
  match p.rewire with
  | .normal => return n
  | .monochrome => build do Build.replaceAlpha (← Build.rgbAverage n) n
  | .invert => build do Build.replaceAlpha (← Build.inverted constants n) n
  | .custom =>
    match p.customChannels with
    | [r, g, b, a] => build (Build.customRewire constants n ⟨r, g, b, a⟩)
    | channels => throw (.rewireChannels channels.length)

def tooSmallText (what : String) (scope : Scope) (value least : α) : String :=
  s!"Exposure {what} {Scalar.text value} on {scope.place} is too small, using {Scalar.text least}"

/-- A value, or the least one if its magnitude is less. -/
def atLeast (what : String) (scope : Scope) (value least : α) : Compile α α := do
  if Scalar.lt (Scalar.abs value) least then
    warn (tooSmallText what scope value least)
    return least
  else return value

/-- The factors for one set of settings. -/
def exposureTerm (scope : Scope) (mode : ExposureMode) (e : Exposure α) :
    Compile α (ExposureTerm α) := do
  let gamma ← atLeast "gamma" scope e.gamma leastGamma
  let pivot ← atLeast "pivot" scope e.pivot leastPivot
  let gain ← match mode with
    | .gain => pure e.gain
    | _ =>
      match Scalar.exp2? e.gain with
      | some gain => pure gain
      | none => throw .gainRange
  return ⟨gain, 1.0 / gamma, pivot, e.lift⟩

/-- The exposure model. A component without settings of its own keeps the result of the common pass,
and alpha is that of `n`. -/
def exposureLightness (scope : Scope) (n : NodeId) (p : Correction α) : Compile α NodeId := do
  let mode := p.exposureMode
  let common ← exposureTerm scope mode p.globalExposure
  let result ← build (Build.exposurePass n mode (ExposureTerm.spread (.replicate common)))
  if p.redEnabled || p.greenEnabled || p.blueEnabled then
    let red ← exposureTerm scope mode p.redExposure
    let green ← exposureTerm scope mode p.greenExposure
    let blue ← exposureTerm scope mode p.blueExposure
    let single ← build
      (Build.exposurePass result mode (ExposureTerm.spread ⟨red, green, blue, .neutral⟩))
    let pick (enabled : Bool) : NodeId := if enabled then single else result
    build (Build.swizzle ⟨pick p.redEnabled, pick p.greenEnabled, pick p.blueEnabled, n⟩
      ⟨.red, .green, .blue, .alpha⟩)
  else build (Build.swizzle ⟨result, result, result, n⟩ ⟨.red, .green, .blue, .alpha⟩)

/-- The lightness of the model that is in use. -/
def lightness (scope : Scope) (n : NodeId) (p : Correction α) : Compile α NodeId :=
  if p.useExposure then exposureLightness scope n p else build (Build.simpleLightness n p)

/-- All stages and the final clamp. -/
def correct (scope : Scope) (n : NodeId) (p : Correction α) : Compile α NodeId := do
  let rewired ← rewire n p
  let tinted ← build (Build.hslTint rewired p)
  let result ← lightness scope tinted p
  let constants ← constants
  build (Build.clamp result constants.zero constants.one)

end Compile

end ShadeGraph
