import ShadeGraph.Channel.Material

/-!
# Exchange scenes

A scene that travels to the engine and back consists of materials, in generated order, and of named
attachments. The identity map is one of these, so the materials of a processed scene are matched with
live ones without anything else from the session.
-/

namespace ShadeGraph

structure ExchangeScene where
  materials : List Material := []
  attachments : Table String (List UInt8) := []

namespace ExchangeScene

def materialIds (scene : ExchangeScene) : List String :=
  scene.materials.map (·.identity.materialId)

/-- The bytes of the identity map. -/
def identityMap? (scene : ExchangeScene) : Option (List UInt8) :=
  scene.attachments.get? Attachment.mapName

end ExchangeScene

/-- What an engine did to the attachment of the scene it was given. -/
structure AttachmentChange where
  replaced : Option (List UInt8) := none
  /-- The end of the part that is kept. -/
  kept : Option Int := none
  overwritten : List (Int × UInt8) := []
  dropped : Bool := false

/-- The bytes after the change. -/
def AttachmentChange.apply (change : AttachmentChange) (bytes : List UInt8) : List UInt8 :=
  let bytes := change.replaced.getD bytes
  let bytes := change.kept.elim bytes (Bytes.before · bytes)
  change.overwritten.foldl (fun bytes (offset, byte) => Bytes.overwrite offset byte bytes) bytes

/-- What an engine did to the scene it was given: which materials it gives back, the ids of those it
adds, and its changes to the identity map. -/
structure SceneChange where
  picked : Option (List Nat) := none
  added : List String := []
  attachment : AttachmentChange := {}

/-- A material that only an engine knows. -/
def Material.forged (id : String) : Material :=
  { name := "forged", identity := { handle := 0, materialId := id, name := .ofString "forged" } }

def ExchangeScene.change (scene : ExchangeScene) (change : SceneChange) : ExchangeScene where
  materials :=
    (match change.picked with
      | some indices => indices.filterMap fun i => scene.materials[i]?
      | none => scene.materials) ++
    change.added.map Material.forged
  attachments :=
    if change.attachment.dropped then scene.attachments.erase Attachment.mapName
    else scene.attachments.modify Attachment.mapName change.attachment.apply

namespace Compile

variable {α : Type}

def exchangeText (materials bytes : Nat) : String :=
  s!"Exchange scene: {materials} materials, identity map {bytes} bytes"

/-- Materials together with the identity map of the session. -/
def exchangeScene (materials : List Material) : Compile α ExchangeScene := do
  match ← register (Registrar.toAttachment (← get).options.versioned) with
  | .ok bytes =>
    debug (exchangeText materials.length bytes.length)
    return { materials, attachments := [(Attachment.mapName, bytes)] }
  | .error e => throw (.attachment e)

end Compile

/-- The live materials by id; `none` for an id that cannot be resolved. -/
abbrev Resolved := Table String (Option HostId)

namespace Registrar

variable {α : Type} (hosts : HostTable α) (live : HostScene)

def noMapText : String :=
  s!"Processed scene has no {Attachment.mapName} attachment, materials cannot be matched"

/-- Matches the materials of a processed scene with live ones. The registry is replaced by what the
attachment of the scene holds; if that is corrupt, it stays as it is. -/
def restore (scene : ExchangeScene) (allowUnsafe : Bool) :
    Register (Except Attachment.FormatError Resolved) := do
  match scene.identityMap? with
  | none =>
    log (·.warn noMapText)
    return .ok (scene.materialIds.foldl (fun t id => Table.insert t id none) [])
  | some bytes =>
    match (← get).registry.loadAttachment bytes with
    | .error e => return .error e
    | .ok registry =>
      change fun _ => registry
      .ok <$> scene.materialIds.foldlM
        (fun t id => return Table.insert t id (← resolve hosts live allowUnsafe id)) []

/-- Runs a step on a registry without records and puts the old one back. -/
def apart {β : Type} (allowUnsafe : Bool) (step : Register β) : Register β := do
  let registry := (← get).registry
  change fun _ => { allowUnsafe }
  let b ← step
  change fun _ => registry
  return b

end Registrar

end ShadeGraph
