import ShadeGraph.Channel.Material
import ShadeGraph.Exchange.Disk

/-!
# Textures for the engine

Every texture file that materials refer to is copied once into the directory of the engine, and the
texture nodes are pointed to the copies. Names that would collide are numbered, whatever their case.
A channel that reads a missing file becomes a flat color.
-/

namespace ShadeGraph

/-- What copying textures reads and changes. -/
structure TextureCopies (α : Type) where
  bench : Workbench α
  network : Network α
  materials : List Material
  /-- The copies by source path. -/
  copied : Table String String := []
  missing : List String := []
  /-- File names in the directory, in lower case. -/
  used : List String := []
  warnings : List String := []

/-- A file name with a number behind its stem, or without one for zero. -/
def numberedFile (name : String) (n : Nat) : String :=
  if n = 0 then name
  else
    let (stem, extension) := Text.splitExtension name
    s!"{stem}_{n}{extension}"

/-- The first numbered form of a name that is not in use. One of `used.length + 1` forms is free. -/
def freeName (used : List String) (name : String) : String :=
  (((List.range (used.length + 1)).map (numberedFile name)).find? fun candidate =>
    !used.contains (Text.lower candidate)).getD name

/-- The node reads another file. -/
def Network.setTexturePath {α : Type} (net : Network α) (id : NodeId) (path : String) : Network α :=
  match net.get? id with
  | some node =>
    match node.operation with
    | .texture lookup => net.setOperation id (.texture { lookup with texturePath := path })
    | _ => net
  | none => net

/-- The texture nodes below an exit with their paths, as far as they have one. -/
def Network.texturePaths {α : Type} (net : Network α) (exit : NodeId) : List (NodeId × String) :=
  (net.walk exit).filterMap fun id => do
    let lookup ← (← net.get? id).operation.texture?
    if lookup.texturePath.isEmpty then none else some (id, lookup.texturePath)

namespace TextureCopies

variable {α : Type} [Scalar α]

abbrev Step (α β : Type) := ExceptT CopyError (StateM (TextureCopies α)) β

def onBench {β : Type} (step : StateM (Workbench α) β) : Step α β :=
  modifyGet fun s => let (b, bench) := step.run s.bench; (b, { s with bench })

def absentText (path : String) : String :=
  s!"Texture file {path} does not exist, using a fallback color"

/-- Tells of a missing file, unless that was done before. -/
def warnAbsent (path : String) : Step α Unit := do
  if !(← get).missing.contains path then
    modify fun s =>
      { s with missing := path :: s.missing, warnings := s.warnings ++ [absentText path] }
    onBench (Workbench.log (·.warn (absentText path)))

/-- A channel gets another exit node. -/
def setExit (index : Nat) (channel : String) (exit : NodeId) : Step α Unit :=
  modify fun s =>
    { s with
      materials := s.materials.modify index fun m =>
        { m with channels := m.channels.insert channel exit } }

/-- Copies a file, unless it was copied before or is a copy itself. -/
def copyFile (policy : RetryPolicy α) (directory : Value α) (path : String) : Step α Unit := do
  let s ← get
  if !s.copied.contains path && !(s.copied.map (·.2)).contains path then
    let name := freeName s.used (Text.fileName path)
    let destination := Text.joinPath (← MonadExcept.ofExcept directory.path?) name
    set { s with used := Text.lower name :: s.used }
    match ← onBench (Workbench.copy policy path destination) with
    | .ok () => modify fun s => { s with copied := s.copied.insert path destination }
    | .error e => throw e

def repoint (id : NodeId) (path : String) : Step α Unit :=
  modify fun s =>
    { s with network := s.network.setTexturePath id ((s.copied.get? path).getD path) }

/-- The files of a channel that are neither copied nor on the disk. -/
def absent (s : TextureCopies α) (textures : List (NodeId × String)) : List String :=
  (textures.map (·.2)).filter fun path => !s.copied.contains path && !s.bench.disk.isFile path

def copyChannel (policy : RetryPolicy α) (directory : Value α) (index : Nat) (channel : String)
    (exit : NodeId) : Step α Unit := do
  let s ← get
  let textures := s.network.texturePaths exit
  let absent := s.absent textures
  if absent.isEmpty then
    textures.forM fun (id, path) => do
      copyFile policy directory path
      repoint id path
  else
    absent.forM warnAbsent
    let (exit, network) := (Compile.fallbackNode channel).run (← get).network
    modify fun s => { s with network }
    setExit index channel exit

/-- Copies the textures of all channels of all materials. -/
def copyAll (policy : RetryPolicy α) (directory : Value α) : Step α Unit := do
  (← get).materials.zipIdx.forM fun (m, index) =>
    m.channels.forM fun (channel, exit) => copyChannel policy directory index channel exit

end TextureCopies

end ShadeGraph
