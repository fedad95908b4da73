import ShadeGraph.Description.Lookup
import ShadeGraph.Description.Source
import ShadeGraph.Scene.Process

/-!
# Scenes and engines in descriptions

A scene to be compiled names its materials by their places in the table of the host. An engine is
described by what it reports and by what it makes of the scene that it is given; where that cannot be
followed, the engine fails.
-/

namespace ShadeGraph

open Json (ReadError)

namespace Json

/-- The bytes of a hexadecimal text. -/
def bytes? : Json → Except ReadError (List UInt8)
  | text s => (Bytes.ofHex? s).mapError .hexDigit
  | null => .error (.bytes "None")
  | j => .error (.bytes j.kindName)

/-- Places in a list of `size` items. -/
def places? (size : Nat) (j : Json) : Except ReadError (List Nat) := do
  (← j.iterate?).mapM (index? size)

end Json

def AttachmentChange.ofJson? (j : Json) : Except ReadError AttachmentChange :=
  return {
    replaced := ← j.readAt "hex" (some <$> ·.bytes?) none
    kept := ← j.optionAt "take" Json.bound?
    overwritten := ← (← j.pairsAt "set").mapM fun (offset, byte) =>
      return (← offset.bound?, ← byte.byte?)
    dropped := j.flagAt "drop" false }

/-- A change of a scene with `size` materials. -/
def SceneChange.ofJson? (size : Nat) (j : Json) : Except ReadError SceneChange :=
  return {
    picked := ← j.readAt "materials" (some <$> ·.places? size) none
    added := (← j.optionalItemsAt "forge").map (·.toValue.display)
    attachment := ← AttachmentChange.ofJson? (j.get "attachment") }

/-- The scene after the change that is described. -/
def ExchangeScene.changeBy? (scene : ExchangeScene) (j : Json) : Except ReadError ExchangeScene :=
  return scene.change (← SceneChange.ofJson? scene.materials.length j)

/-! ### Engines -/

/-- An event of an engine, or the text of the exception instead of it. -/
def RunEvent.ofJson? (j : Json) : Except String (RunEvent Float) :=
  if j.contains "progress" then
    ((j.get "progress").number?.map RunEvent.progress).mapError (·.message)
  else if j.contains "poll" then .ok .poll
  else if j.contains "log" then .ok (.log (j.textAt "log"))
  else .error "'log'"

/-- The events up to the first that is none. -/
def RunEvent.listOfJson : List Json → List (RunEvent Float) × Option String
  | [] => ([], none)
  | j :: js =>
    match RunEvent.ofJson? j with
    | .error text => ([], some text)
    | .ok event => let (events, error) := listOfJson js; (event :: events, error)

/-- What an engine returns that changes the scene it was given. -/
def ExchangeScene.processedBy? (scene : ExchangeScene) (j : Json) : Except ReadError Processed :=
  match j.get "return" with
  | .list changes => .scenes <$> changes.mapM scene.changeBy?
  | change =>
    if change.isNull && j.contains "return" then .ok .nothing
    else .scene <$> scene.changeBy? change

/-- How an engine ends when it is through with its events. -/
def RunEnding.ofJson (scene : ExchangeScene) (j : Json) : RunEnding Processed :=
  if j.contains "raise" then .raises (j.textAt "raise")
  else
    match scene.processedBy? j with
    | .ok processed => .returns processed
    | .error e => .raises e.message

def Engine.ofJson (j : Json) : Engine Float := fun scene =>
  let (events, error) := RunEvent.listOfJson (j.get "events").items
  { events, ending := error.elim (RunEnding.ofJson scene j) .raises }

/-! ### Requests -/

/-- The channel that an override is for, and the override. -/
def ChannelOverride.entryOfJson? (kind : String) (j : Json) :
    Except ReadError (ChannelKey Float × ChannelOverride Float) := do
  let override ← ChannelOverride.ofJson? kind j
  let name (key : String) : Value Float := j.valueAt key (.text "")
  return (← ChannelKey.ofPair? (name "material_name") (name "channel_name"), override)

/-- A scene of `size` host materials at most. -/
def SceneRequest.ofJson? (size : Nat) (j : Json) : Except ReadError (SceneRequest Float) := do
  let materials ← j.readAt "ms" (·.places? size) []
  let overrides ← ["color", "texture", "mapping"].mapM fun kind => do
    (← j.optionalItemsAt (kind ++ "_overrides")).mapM (ChannelOverride.entryOfJson? kind)
  let meshes ← (← j.pairsAt "meshes").mapM fun (mesh, ids) => do
    let ids ← ids.places? size
    return (← mesh.label?, ids)
  return { materials, overrides := overrides.flatten, meshes := LabelTable.insertAll [] meshes }

end ShadeGraph
