import ShadeGraph.Channel.Names
import ShadeGraph.Session.LabelTable

/-!
# What uses what

While a scene is compiled, a session notes which meshes use which materials, which materials sit in
the slots of others, and which texture each channel was bound to. The notes are read again when the
processed scene comes back. Scripts may add notes of their own, under labels of any kind.
-/

namespace ShadeGraph

/-- The mapping channel where nothing else is known. -/
def defaultMappingChannel : Int := 1

/-- The texture that a channel was bound to. -/
structure BoundTexture (α : Type) where
  path : Value α
  mapping : Value α

structure Usage (α : Type) where
  meshMaterials : LabelTable α (List (Value α)) := []
  meshIds : LabelTable α (List (Value α)) := []
  meshReused : LabelTable α (List (Value α)) := []
  slots : LabelTable α (List (Value α × Value α)) := []
  channelTextures : LabelTable α (LabelTable α (BoundTexture α)) := []

namespace Usage

variable {α : Type} [Scalar α] (usage : Usage α)

/-- Whether a label is one of several. -/
def mentions (labels : List (Value α)) (label : Value α) : Bool := labels.any (·.same label)

/-! ### Noting -/

/-- Notes a material of a mesh. Its first mention counts, and empty ids are left out. -/
def addMaterial (mesh material id : Value α) : Usage α :=
  let materials := (usage.meshMaterials.get? mesh).getD []
  if mentions materials material then usage
  else
    { usage with
      meshMaterials := usage.meshMaterials.upsert mesh [] (· ++ [material])
      meshIds := if id.toBool then usage.meshIds.upsert mesh [] (· ++ [id]) else usage.meshIds }

/-- Notes a material that a mesh uses again. -/
def addReused (mesh material : Value α) : Usage α :=
  { usage with
    meshReused := usage.meshReused.upsert mesh [] fun reused =>
      if mentions reused material then reused else reused ++ [material] }

/-- Notes the material in a slot. -/
def addSlot (material index sub : Value α) : Usage α :=
  { usage with slots := usage.slots.upsert material [] (· ++ [(index, sub)]) }

/-- Notes the texture of a channel, unless it has one. -/
def addTexture (material channel path mapping : Value α) : Usage α :=
  { usage with
    channelTextures := usage.channelTextures.upsert material []
      (LabelTable.insertIfNew · channel { path, mapping }) }

/-! ### Reading -/

def materials (mesh : Value α) : List (Value α) := (usage.meshMaterials.get? mesh).getD []

def materialIds (mesh : Value α) : List (Value α) := (usage.meshIds.get? mesh).getD []

def reused (mesh : Value α) : List (Value α) := (usage.meshReused.get? mesh).getD []

def reuses (mesh : Value α) : Bool := !(usage.reused mesh).isEmpty

def subMaterials (material : Value α) : List (Value α × Value α) :=
  (usage.slots.get? material).getD []

/-- The first slot with a material, or `-1`. -/
def slotOf (material sub : Value α) : Value α :=
  (((usage.subMaterials material).find? (·.2.same sub)).map (·.1)).getD (.integer (-1))

/-- Whether a material sits in several slots. -/
def reusesSub (material sub : Value α) : Bool :=
  1 < (usage.subMaterials material).countP (·.2.same sub)

def textures (material : Value α) : LabelTable α (BoundTexture α) :=
  (usage.channelTextures.get? material).getD []

/-- Whether a label is that of a known channel. -/
def isKnownChannel : Value α → Bool
  | .text name => Channel.isKnown name
  | _ => false

/-- The channels of a table that are none of the known ones. -/
def customOf (textures : LabelTable α (BoundTexture α)) : List (Value α) :=
  (textures.map (·.1)).filter (!isKnownChannel ·)

def customChannels (material : Value α) : List (Value α) := customOf (usage.textures material)

def customMaterials : List (Value α) :=
  (usage.channelTextures.filter fun e => !(customOf e.2).isEmpty).map (·.1)

def texturePath (material channel : Value α) : Value α :=
  (((usage.textures material).get? channel).map (·.path)).getD (.text "")

def mappingChannel (material channel : Value α) : Value α :=
  (((usage.textures material).get? channel).map (·.mapping)).getD (.integer defaultMappingChannel)

end Usage

end ShadeGraph
