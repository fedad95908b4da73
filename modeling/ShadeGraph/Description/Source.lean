import ShadeGraph.Host
import ShadeGraph.Text.Reading

/-!
# Sources and materials in descriptions

A source is described by an object that names its kind and holds its settings and the sources below
it; a missing setting has its usual value. Everything that is measured is read as a double, so a
description is refused where one of these is out of range.
-/

namespace ShadeGraph

namespace Json

theorem sizeOf_lookup_le (entries : List (String × Json)) (key : String) :
    sizeOf ((entries.lookup key).getD null) ≤ sizeOf entries := by
  induction entries with
  | nil => simp
  | cons e es ih =>
    obtain ⟨k, v⟩ := e
    simp only [List.lookup_cons, List.cons.sizeOf_spec, Prod.mk.sizeOf_spec]
    split
    · simp only [Option.getD_some]
      omega
    · omega

theorem sizeOf_get_lt {j : Json} (key : String) (h : j.isObject = true) :
    sizeOf (j.get key) < sizeOf j := by
  cases j with
  | object entries =>
    have := sizeOf_lookup_le entries key
    simp only [get, object.sizeOf_spec]
    omega
  | _ => simp [isObject] at h

theorem sizeOf_lt_of_mem_items {j item : Json} (h : item ∈ j.items) : sizeOf item < sizeOf j := by
  cases j with
  | list items =>
    have : sizeOf item < sizeOf items := List.sizeOf_lt_of_mem h
    simp only [list.sizeOf_spec]
    omega
  | _ => simp [items] at h

end Json

open Json (ReadError)

/-- A number for all components, or one number for each. -/
def Shade.ofJson? : Json → Except ReadError (Shade Float)
  | .list items => .components <$> items.mapM Json.number?
  | j => .gray <$> j.number?

def AlphaSource.ofJson? (j : Json) : Except ReadError AlphaSource :=
  j.readAt "alpha_source" (Json.choice? "AlphaSource" ofName?) .file

def TextureBinding.ofJson? (j : Json) : Except ReadError (TextureBinding Float) :=
  return {
    textureName := j.textAt "texture_name"
    texturePath := j.textAt "texture_path"
    uvSet := j.valueAt "uv_set" (.text "1")
    tileU := ← j.numberAt "tile_u" 1.0
    tileV := ← j.numberAt "tile_v" 1.0
    offsetU := ← j.numberAt "offset_u" 0.0
    offsetV := ← j.numberAt "offset_v" 0.0
    srgb := j.valueAt "srgb" (.flag true)
    alphaSource := ← AlphaSource.ofJson? j
    premultiplied := j.valueAt "premultiplied" (.flag false) }

/-- A number, or a start and a speed. -/
def Json.course? : Json → Except ReadError (Float → Float)
  | .list [start, speed] => do
    let a ← start.number?
    let b ← speed.number?
    return fun time => a + b * time
  | j => do
    let a ← j.number?
    return fun _ => a

/-- A transform that may depend on time. -/
def UvTransform.ofJson? (j : Json) : Except ReadError (Float → UvTransform Float) := do
  let fields := if j.contains "animated" then j.get "animated" else j
  let scaleU ← fields.readAt "scale_u" Json.course? fun _ => 1.0
  let scaleV ← fields.readAt "scale_v" Json.course? fun _ => 1.0
  let offsetU ← fields.readAt "offset_u" Json.course? fun _ => 0.0
  let offsetV ← fields.readAt "offset_v" Json.course? fun _ => 0.0
  return fun time => ⟨scaleU time, scaleV time, offsetU time, offsetV time⟩

def TextureSource.ofJson? (j : Json) : Except ReadError (TextureSource Float) :=
  return {
    name := j.textAt "name"
    path := if (j.get "path").toBool then some (j.textAt "path") else none
    uvTransform := ← j.optionAt "uv_transform" UvTransform.ofJson?
    mappingChannel := (j.get "mapping_channel").toOption Json.toValue
    alphaSource := ← AlphaSource.ofJson? j
    premultiplied := j.valueAt "premultiplied" (.flag false)
    srgb := (j.get "srgb").toOption Json.toValue }

def Exposure.ofJson? (j : Json) : Except ReadError (Exposure Float) := do
  let d : Exposure Float := .neutral
  return {
    gain := ← j.numberAt "gain" d.gain
    gamma := ← j.numberAt "gamma" d.gamma
    pivot := ← j.numberAt "pivot" d.pivot
    lift := ← j.numberAt "lift" d.lift }

def Correction.ofJson? (j : Json) : Except ReadError (Correction Float) := do
  let d : Correction Float := .neutral
  return {
    rewire := ← j.readAt "rewire" (Json.choice? "RewireMode" RewireMode.ofName?) d.rewire
    customChannels := ← j.readAt "custom_channels"
      (fun names => do (← names.iterate?).mapM (Json.choice? "RewireChannel" RewireChannel.ofName?))
      d.customChannels
    hueShift := ← j.numberAt "hue_shift" d.hueShift
    saturation := ← j.numberAt "saturation" d.saturation
    brightness := ← j.numberAt "brightness" d.brightness
    contrast := ← j.numberAt "contrast" d.contrast
    useExposure := j.flagAt "use_exposure_model" d.useExposure
    exposureMode := ← j.readAt "exposure_mode" (Json.choice? "ExposureMode" ExposureMode.ofName?)
      d.exposureMode
    globalExposure := ← Exposure.ofJson? (j.get "global_exposure")
    redExposure := ← Exposure.ofJson? (j.get "red_exposure")
    greenExposure := ← Exposure.ofJson? (j.get "green_exposure")
    blueExposure := ← Exposure.ofJson? (j.get "blue_exposure")
    redEnabled := j.flagAt "red_enabled" d.redEnabled
    greenEnabled := j.flagAt "green_enabled" d.greenEnabled
    blueEnabled := j.flagAt "blue_enabled" d.blueEnabled }

def ProductSettings.ofJson? (j : Json) : Except ReadError (ProductSettings Float) := do
  let d : ProductSettings Float := .plain
  return {
    firstEnabled := j.flagAt "first_enabled" d.firstEnabled
    secondEnabled := j.flagAt "second_enabled" d.secondEnabled
    firstColor := ← j.readAt "first_color" Shade.ofJson? d.firstColor
    secondColor := ← j.readAt "second_color" Shade.ofJson? d.secondColor
    alphaFrom := ← j.readAt "alpha_from" (Json.choice? "MultiplyAlpha" ProductAlpha.ofName?)
      d.alphaFrom }

def TintColumns.ofJson? (j : Json) : Except ReadError (TintColumns Float) := do
  let d : TintColumns Float := .identity
  return {
    red := ← j.readAt "red" Shade.ofJson? d.red
    green := ← j.readAt "green" Shade.ofJson? d.green
    blue := ← j.readAt "blue" Shade.ofJson? d.blue }

def LayerSettings.ofJson? (j : Json) : Except ReadError (LayerSettings Float) := do
  let d : LayerSettings Float := .plain
  return {
    blendMode := j.valueAt "blend_mode" d.blendMode
    opacity := ← j.numberAt "opacity" d.opacity
    enabled := j.flagAt "enabled" d.enabled
    maskEnabled := j.flagAt "mask_enabled" d.maskEnabled }

mutual

/-- A source of the kind that is named, or of an unknown class. What is no object is no source. -/
def Source.ofJson? (j : Json) : Except ReadError (Option (Source Float)) :=
  if _h : j.isObject = true then
    some <$>
      match j.textAt "t" with
      | "texture" => .texture <$> TextureSource.ofJson? j
      | "color" => .color <$> j.readAt "color" Shade.ofJson? (.components [0.0, 0.0, 0.0, 1.0])
      | "multiply" => do
        let first ← Source.ofJson? (j.get "first")
        let second ← Source.ofJson? (j.get "second")
        return .product first second (← ProductSettings.ofJson? j)
      | "tint" => do
        let source ← Source.ofJson? (j.get "source")
        return .tint source (← TintColumns.ofJson? j)
      | "composite" =>
        .composite <$> (j.get "layers").items.attach.mapM fun ⟨layer, _⟩ => Layer.ofJson? layer
      | "color_correction" => do
        let source ← Source.ofJson? (j.get "source")
        return .correction source (← Correction.ofJson? (j.get "parameters"))
      | "unsupported" => return .unsupported (j.textAt "class_name") (j.optionalTextAt "description")
      | _ => return .unknown (j.textAt "class")
  else .ok none
termination_by sizeOf j
decreasing_by
  · exact Json.sizeOf_get_lt _ _h
  · exact Json.sizeOf_get_lt _ _h
  · exact Json.sizeOf_get_lt _ _h
  · exact Nat.lt_trans (Json.sizeOf_lt_of_mem_items (by assumption)) (Json.sizeOf_get_lt _ _h)
  · exact Json.sizeOf_get_lt _ _h

def Layer.ofJson? (j : Json) : Except ReadError (Layer Float) :=
  if _h : j.isObject = true then do
    let source ← Source.ofJson? (j.get "source")
    let mask ← Source.ofJson? (j.get "mask")
    return .mk source mask (← LayerSettings.ofJson? j)
  else return .mk none none .plain
termination_by sizeOf j
decreasing_by
  · exact Json.sizeOf_get_lt _ _h
  · exact Json.sizeOf_get_lt _ _h

end

/-- An override of the kind that is named; without a name it chooses coordinates. -/
def ChannelOverride.ofJson? (kind : String) (j : Json) :
    Except ReadError (ChannelOverride Float) :=
  match kind with
  | "color" => .color <$> j.readAt "color" Shade.ofJson? (.components [0.0, 0.0, 0.0, 0.0])
  | "texture" => return .texture ⟨j.textAt "texture_path", j.valueAt "is_srgb" (.flag false)⟩
  | _ => return .mapping (j.valueAt "mapping_channel" (.integer 0))

/-- A channel with its source; its override is read first. -/
def ChannelDescriptor.ofJson? (j : Json) : Except ReadError (ChannelDescriptor Float) := do
  let override ← j.optionAt "override" fun o => ChannelOverride.ofJson? (o.textAt "kind") o
  let source ← Source.ofJson? (j.get "source")
  return { name := j.textAt "name", source, override }

/-- A material without its slots. -/
def HostMaterial.ofJson? (j : Json) : Except ReadError (HostMaterial Float) :=
  return {
    handle := j.intAt "handle"
    name := j.textAt "name"
    channels := ← (← j.itemsAt "channels").mapM ChannelDescriptor.ofJson? }

/-- The slots of one of `size` materials. -/
def HostMaterial.slots? (size : Nat) (j : Json) : Except ReadError (List (Option HostId)) := do
  (← j.itemsAt "sub").mapM fun slot =>
    if slot.isNull then return none else some <$> slot.index? size

/-- All materials, and then their slots. -/
def HostTable.ofJson? (items : List Json) : Except ReadError (HostTable Float) := do
  let materials ← items.mapM HostMaterial.ofJson?
  let slots ← items.mapM (HostMaterial.slots? items.length)
  return ⟨(materials.zipWith (fun m slots => { m with slots }) slots).toArray⟩

end ShadeGraph
