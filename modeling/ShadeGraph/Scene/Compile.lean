import ShadeGraph.Exchange.Scene

/-!
# Compiling scenes

A scene is compiled in a context of its own. Its overrides are added first, then its materials are
compiled, and then the materials of its meshes are registered and noted.
-/

namespace ShadeGraph

/-- A scene of the host. -/
structure SceneRequest (α : Type) where
  materials : List HostId
  overrides : List (ChannelKey α × ChannelOverride α) := []
  /-- The materials of each mesh, in the order of their use. -/
  meshes : LabelTable α (List HostId) := []

structure CompiledScene where
  materials : List Material
  scene : ExchangeScene

namespace Compile

variable {α : Type} [Scalar α] (hosts : HostTable α)

/-- Registers a material of a mesh and notes it, and that it is used again if its name was `seen`. -/
def noteMeshMaterial (mesh : Value α) (seen : List String) (id : HostId) :
    Compile α (List String) := do
  let r ← register (Registrar.register hosts id)
  let name := (hosts.get id).name
  if seen.contains name then note (·.addReused mesh (.text name))
  note (·.addMaterial mesh (.text name) (.text r.materialId))
  return name :: seen

def sceneText (materials warnings : Nat) : String :=
  s!"Compiled {materials} materials with {warnings} warnings"

def compileScene (request : SceneRequest α) : Compile α CompiledScene := do
  request.overrides.forM fun (key, entry) => discard (override key entry)
  let materials ← compileMaterials hosts request.materials
  request.meshes.forM fun (mesh, ids) => discard (ids.foldlM (noteMeshMaterial hosts mesh) [])
  let scene ← exchangeScene materials
  debug (sceneText materials.length (← get).warnings.length)
  return { materials, scene }

end Compile

/-- Compiles a scene in a context of its own, which is returned with the outcome. -/
def Context.compileScene {α : Type} [Scalar α] (ctx : Context α) (hosts : HostTable α)
    (request : SceneRequest α) : Except CompileError CompiledScene × Context α :=
  (Compile.compileScene hosts request).run.run ctx.renew

end ShadeGraph
