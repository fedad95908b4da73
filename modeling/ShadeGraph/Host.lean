import ShadeGraph.Source
import ShadeGraph.Table

/-!
# Host materials and scenes

Materials refer to each other by their places in a table, so slots can share materials, nest and
form cycles. Two places are two materials even if handle and name agree. A scene holds the live
materials by handle.
-/

namespace ShadeGraph

/-- The place of a host material in its table. -/
abbrev HostId := Nat

/-- A plain material has channels and no slots; a multi-material has slots, some of them empty. -/
structure HostMaterial (α : Type) where
  handle : Int
  name : String
  channels : List (ChannelDescriptor α) := []
  slots : List (Option HostId) := []

namespace HostMaterial

variable {α : Type}

def isMulti (m : HostMaterial α) : Bool := !m.slots.isEmpty

/-- The number of slots up to the last one in use; one for a plain material. -/
def slotCount (m : HostMaterial α) : Nat :=
  if m.isMulti then (m.slots.reverse.dropWhile (·.isNone)).length else 1

/-- The slots in use with their places. -/
def filledSlots (m : HostMaterial α) : List (Nat × HostId) :=
  m.slots.zipIdx.filterMap fun (slot, index) => slot.map fun id => (index, id)

def channelIndex? (m : HostMaterial α) (name : String) : Option Nat :=
  m.channels.findIdx? (·.name == name)

end HostMaterial

/-- All host materials. -/
structure HostTable (α : Type) where
  materials : Array (HostMaterial α)

namespace HostTable

variable {α : Type} (hosts : HostTable α)

/-- A material; beyond the table, one without content. -/
def get (id : HostId) : HostMaterial α :=
  (hosts.materials[id]?).getD { handle := 0, name := "" }

def size : Nat := hosts.materials.size

/-- The slots of a material that lead to other materials. -/
def followed (id : HostId) : List (Nat × HostId) :=
  (hosts.get id).filledSlots.filter fun (_, sub) => sub ≠ id

end HostTable

/-- The live materials by handle. -/
structure HostScene where
  byHandle : Table Int HostId := []

namespace HostScene

variable {α : Type} (hosts : HostTable α)

/-- Adds a material and, as far as their handles are new, the materials in its slots. Every step
down adds a handle of the table, so `depth` steps are enough when the table has no more of them. -/
def addWithin : Nat → HostScene → HostId → HostScene
  | 0, scene, _ => scene
  | depth + 1, scene, id =>
    let m := hosts.get id
    m.filledSlots.foldl
      (fun scene (_, sub) =>
        if scene.byHandle.contains (hosts.get sub).handle then scene else addWithin depth scene sub)
      ⟨scene.byHandle.insert m.handle id⟩

def add (scene : HostScene) (id : HostId) : HostScene := addWithin hosts (hosts.size + 1) scene id

def ofList (ids : List HostId) : HostScene := ids.foldl (add hosts) {}

def remove (scene : HostScene) (handle : Int) : HostScene := ⟨scene.byHandle.erase handle⟩

def get? (scene : HostScene) (handle : Int) : Option HostId := scene.byHandle.get? handle

def materials (scene : HostScene) : List HostId := scene.byHandle.map (·.2)

end HostScene

end ShadeGraph
