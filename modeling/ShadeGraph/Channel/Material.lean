import ShadeGraph.Channel.Compile
import ShadeGraph.Network.Describe

/-!
# Compiling materials

Every plain material that a list of host materials leads to is compiled once, in the order of the
generated material table. Multi-materials have no network of their own.
-/

namespace ShadeGraph

/-- A compiled material: one exit node for each channel. -/
structure Material where
  name : String
  channels : Table String NodeId := []
  identity : MaterialRecord

namespace Material

variable {α : Type} [Scalar α]

/-- The number of nodes below the exits, counted for each channel. -/
def nodeCount (m : Material) (net : Network α) : Nat :=
  m.channels.foldl (fun n (_, exit) => n + net.countNodes exit) 0

def describe (m : Material) (net : Network α) : Element :=
  net.describe m.name (some m.identity.materialId) m.channels

end Material

/-- The nodes of materials, each once. -/
def distinctNodes {α : Type} (net : Network α) (materials : List Material) : List NodeId :=
  net.reachable (materials.flatMap fun m => m.channels.map (·.2))

/-- Materials as one document. -/
def describeLibrary {α : Type} [Scalar α] (net : Network α) (materials : List Material) : Element :=
  .mk "MaterialLibrary" [] (materials.map (·.describe net))

namespace Compile

variable {α : Type} [Scalar α] (hosts : HostTable α)

def repeatedText (material channel : String) : String :=
  s!"Material '{material}' lists channel '{channel}' twice, keeping the first"

def compiledText (m : Material) (net : Network α) : String :=
  s!"Compiled material '{m.name}': {m.channels.length} channels, {m.nodeCount net} nodes"

def writtenText (m : Material) (net : Network α) : String :=
  s!"Wrote {(distinctNodes net [m]).length} nodes for {m.channels.length} channels of material " ++
    s!"'{m.name}'"

/-- Compiles channels behind those that are there. The first one of a name that has a node is kept. -/
def compileChannels (material : String) :
    List (ChannelDescriptor α) → Table String NodeId → Compile α (Table String NodeId)
  | [], channels => return channels
  | d :: ds, channels => do
    if channels.contains d.name then
      warn (repeatedText material d.name)
      compileChannels material ds channels
    else
      match ← compileChannel material d with
      | some n => compileChannels material ds (channels.insert d.name n)
      | none => compileChannels material ds channels

/-- Registers a material and compiles its channels. -/
def compileMaterial (id : HostId) : Compile α Material := do
  let m := hosts.get id
  let identity ← register (Registrar.register hosts id)
  let material : Material :=
    { name := m.name, channels := ← compileChannels m.name m.channels [], identity }
  debug (compiledText material (← get).network)
  return material

/-- What has been met on the way through a list of host materials. -/
structure Tour where
  multis : List HostId := []
  compiled : List MaterialKey := []
  materials : List Material := []

/-- Compiles what a material leads to, following slots through `depth` materials. Every step down
meets another multi-material, so one step more than there are materials is enough. -/
def visitWithin : Nat → HostId → Tour → Compile α Tour
  | 0, _, tour => return tour
  | depth + 1, id, tour => do
    let m := hosts.get id
    if m.isMulti then
      if tour.multis.contains id then return tour
      else
        let _ ← register (Registrar.register hosts id)
        (hosts.followed id).foldlM
          (fun tour (slot, sub) => do
            let name := (hosts.get sub).name
            note (·.addSlot (.text m.name) (.integer slot) (.text name))
            visitWithin depth sub tour)
          { tour with multis := id :: tour.multis }
    else
      let r ← register (Registrar.register hosts id)
      if tour.compiled.contains r.key then return tour
      else
        let material ← compileMaterial hosts id
        return { tour with
          compiled := r.key :: tour.compiled
          materials := tour.materials ++ [material] }

/-- Compiles a list of host materials. -/
def compileMaterials (ids : List HostId) : Compile α (List Material) := do
  let tour ← ids.foldlM (fun tour id => visitWithin hosts (hosts.size + 1) id tour) {}
  return tour.materials

/-- Materials as one document, with a message for each. -/
def library (materials : List Material) : Compile α Element := do
  let net := (← get).network
  materials.forM fun m => debug (writtenText m net)
  return describeLibrary net materials

end Compile

end ShadeGraph
