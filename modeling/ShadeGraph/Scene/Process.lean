import ShadeGraph.Exchange.Run
import ShadeGraph.Exchange.Textures
import ShadeGraph.Scene.Compile

/-!
# Processing scenes

A scene is compiled, its textures are copied for the engine, the engine runs, and the materials of
every scene it returns are matched with live ones. What fails behind the compiler cancels the rest
and keeps what was there; only settings that cannot be followed are errors.
-/

namespace ShadeGraph

variable {α : Type} [Scalar α]

/-- What an engine may return. -/
inductive Processed where
  | nothing
  | scene (scene : ExchangeScene)
  | scenes (scenes : List ExchangeScene)

def Processed.toList : Processed → List ExchangeScene
  | nothing => []
  | scene s => [s]
  | scenes ss => ss

/-- The scenes that came out of a run. -/
def RunResult.scenes (r : RunResult Processed) : List ExchangeScene := r.result.elim [] (·.toList)

/-- What an engine makes of a scene. -/
abbrev Engine (α : Type) := ExchangeScene → EngineRun α Processed

structure ProcessRequest (α : Type) extends SceneRequest α where
  engine : Engine α
  /-- The live materials to match with. -/
  live : Option HostScene := none
  /-- Where the engine reads textures, if this has a name. -/
  directory : Value α := .absent
  /-- Where it reads them otherwise. -/
  temporary : String
  /-- How many messages are kept between two polls, if that is a size. -/
  bufferSize : Except BufferError Int := .ok 64
  policy : RetryPolicy α
  disk : Disk := {}

structure ProcessResult (α : Type) where
  finished : Bool := true
  scenes : List ExchangeScene := []
  resolved : Resolved := []
  log : List String := []
  warnings : List String := []
  /-- The materials that the engine was given, if it ran. -/
  sent : Option (List Material) := none
  polls : List (Poll α) := []
  disk : Disk := {}

namespace ProcessResult

def status (r : ProcessResult α) : String := if r.finished then "FINISHED" else "CANCELLED"

def cancel (r : ProcessResult α) (text : String) : ProcessResult α :=
  { r with finished := false, warnings := r.warnings ++ [text] }

end ProcessResult

/-- The directory that was asked for, or else the temporary one. -/
def ProcessRequest.textureDirectory (request : ProcessRequest α) : Value α :=
  if request.directory.toBool then request.directory else .text request.temporary

namespace Compile

/-- Copies the textures of materials for the engine. -/
def copyTextures (policy : RetryPolicy α) (directory : Value α) (timer : Timer) (disk : Disk)
    (materials : List Material) : Compile α (Except CopyError Unit × TextureCopies α) :=
  modifyGet fun ctx =>
    let start : TextureCopies α :=
      { bench := { disk, timer, journal := ctx.registrar.journal }, network := ctx.network, materials }
    let (outcome, copies) := (TextureCopies.copyAll policy directory).run.run start
    ((outcome, copies),
      { ctx with network := copies.network }.log fun _ => copies.bench.journal)

def directoryText (directory : String) : String :=
  s!"Textures for the engine are in {Text.absolutePath directory}"

def corruptText (e : Attachment.FormatError) : String :=
  s!"Processed scene has a corrupt identity map: {e.message}"

/-- Adds what the materials of the scenes are matched with. A corrupt scene ends that. -/
def matchScenes (hosts : HostTable α) (live : HostScene) :
    List ExchangeScene → ProcessResult α → Compile α (ProcessResult α)
  | [], r => return r
  | scene :: scenes, r => do
    let allowUnsafe := (← get).options.allowUnsafe
    let step := Registrar.restore hosts live scene allowUnsafe
    match ← register (Registrar.apart allowUnsafe step) with
    | .ok resolved =>
      matchScenes hosts live scenes { r with resolved := r.resolved.insertAll resolved }
    | .error e =>
      modify (·.log (·.error (corruptText e)))
      return r.cancel e.message

/-- Runs the engine and matches what it returns. A buffer that cannot be had is an error. -/
def runEngine (hosts : HostTable α) (request : ProcessRequest α) (scene : ExchangeScene)
    (r : ProcessResult α) : Compile α (ProcessResult α) := do
  let size ← MonadExcept.ofExcept (request.bufferSize.mapError CompileError.buffer)
  let watch := (request.engine scene).watch size
  modify (·.log watch.record)
  let r := { r with sent := some scene.materials, polls := watch.polls }
  match watch.result with
  | .error e => return r.cancel e.message
  | .ok run =>
    let r := { r with
      scenes := run.scenes, log := run.log, warnings := r.warnings ++ run.warnings }
    match request.live with
    | some live => matchScenes hosts live r.scenes r
    | none => return r

def processScene (hosts : HostTable α) (request : ProcessRequest α) :
    Compile α (ProcessResult α) := do
  let compiled ← compileScene hosts request.toSceneRequest
  let directory := request.textureDirectory
  let (outcome, copies) ← copyTextures request.policy directory .clock request.disk
    compiled.materials
  let r : ProcessResult α :=
    { warnings := (← get).warningTexts ++ copies.warnings, disk := copies.bench.disk }
  match outcome with
  | .error (.directory e) => throw (.directory e.message)
  | .error (.delay e) => throw (.delay e)
  | .error (.unordered kind) => throw (.retries kind)
  | .error (.path kind) => throw (.path kind)
  | .error e => return r.cancel e.message
  | .ok () =>
    match directory with
    | .text directory => debug (directoryText directory)
    | directory => throw (.path directory.kindName)
    runEngine hosts request { compiled.scene with materials := copies.materials } r

end Compile

/-- Processes a scene in a context of its own, which is returned with the outcome. -/
def Context.processScene (ctx : Context α) (hosts : HostTable α) (request : ProcessRequest α) :
    Except CompileError (ProcessResult α) × Context α :=
  (Compile.processScene hosts request).run.run ctx.renew

end ShadeGraph
