import ShadeGraph.Exchange.Progress
import ShadeGraph.Exchange.Timer
import ShadeGraph.Identity.Resolve
import ShadeGraph.Network.Request
import ShadeGraph.Session.Overrides
import ShadeGraph.Session.Proxies
import ShadeGraph.Session.Usage

/-!
# Compile sessions

A context holds all that compiling a scene reads and changes. The steps of `Compile` keep the changes
that were made before an error. Two constants are put into the network when a context is made, so
every material of the session shares them.
-/

namespace ShadeGraph

variable {α : Type}

/-- The settings of a user. -/
structure Options (α : Type) where
  time : α
  defaultSrgb : Value α := .flag true
  defaultMappingChannel : Value α := .integer ShadeGraph.defaultMappingChannel
  allowUnsafe : Bool := false
  versioned : Bool := false
  useColorOverrides : Bool := true

def Options.standard [OfScientific α] : Options α := { time := 0.0 }

/-- The channel that something is compiled for. Premultiplication is switched off below a blend,
which premultiplies its own output. -/
structure Scope where
  material : String
  channel : String
  isOpacity : Bool := false
  premultiply : Bool := true
deriving DecidableEq, Repr

namespace Scope

def isColor (scope : Scope) : Bool := Channel.isColor scope.channel

def key {α : Type} (scope : Scope) : ChannelKey α := ⟨.text scope.material, .text scope.channel⟩

/-- The channel as messages name it. -/
def place (scope : Scope) : String := s!"{scope.material}/{scope.channel}"

/-- The scope of the layers of a blend. -/
def inner (scope : Scope) : Scope := { scope with premultiply := false }

/-- The scope of a channel of a material. -/
def ofChannel (material channel : String) : Scope :=
  { material, channel, isOpacity := Channel.isOpacity channel }

end Scope

/-- Nodes that a whole session shares. -/
structure Constants where
  one : NodeId
  zero : NodeId
deriving DecidableEq, Repr

def Constants.build [OfScientific α] : Build α Constants := do
  let white ← Build.named (.color (.replicate 1.0)) [] "one"
  let black ← Build.named (.color (.replicate 0.0)) [] "zero"
  return { one := white, zero := black }

structure Context (α : Type) where
  options : Options α
  reporter : Reporter
  registrar : Registrar
  network : Network α
  constants : Constants
  overrides : Overrides α := {}
  proxies : ProxyTable α := {}
  usage : Usage α := {}
  warnings : List Message := []

namespace Context

/-- A context over a network and a registrar, whose records are dropped. -/
def start [OfScientific α] (options : Options α) (reporter : Reporter) (registrar : Registrar)
    (network : Network α) : Context α :=
  let (constants, network) := Constants.build.run network
  { options, reporter, network, constants
    registrar := { registrar with registry := { allowUnsafe := options.allowUnsafe } } }

variable (ctx : Context α)

/-- A context for another scene, with the settings of this one. -/
def renew [OfScientific α] : Context α :=
  start ctx.options ctx.reporter ctx.registrar ctx.network

/-- This context after another one has used its network, its ids and its journal. -/
def resume (other : Context α) : Context α :=
  { ctx with
    network := other.network
    registrar := { other.registrar with registry := ctx.registrar.registry } }

def log (f : Journal → Journal) : Context α :=
  { ctx with registrar := { ctx.registrar with journal := f ctx.registrar.journal } }

/-- Hands a message to the reporter of the host. -/
def report (level : Value Float) (message : Message) : Context α :=
  ctx.log (·.report ctx.reporter level message)

/-- Records and reports something that compiling can go on after. -/
def warn (message : Message) : Context α :=
  { ctx with warnings := ctx.warnings ++ [message] }.report (.text "WARNING") message

/-- The warnings as texts. -/
def warningTexts : List String := ctx.warnings.map (·.display)

end Context

/-- Why something cannot be compiled. -/
inductive CompileError where
  | components (e : ComponentCount)
  | rewireChannels (count : Nat)
  | gainRange
  /-- A mapping channel stands where a color or a texture file should. -/
  | mappingOverride
  /-- The mode of a layer is no text. -/
  | layerMode (kind : String)
  /-- The buffer for the messages of an engine. -/
  | buffer (e : BufferError)
  /-- A directory for copies cannot be made. -/
  | directory (text : String)
  /-- The delay before a further attempt to copy a file. -/
  | delay (e : DelayError)
  /-- The bound on further attempts is of a kind that has no order. -/
  | retries (kind : String)
  /-- What should be a path is no text. -/
  | path (kind : String)
  | request (e : RequestError)
  | attachment (e : Attachment.EncodeError)
deriving DecidableEq, Repr

def CompileError.message : CompileError → String
  | components e => e.message
  | rewireChannels count => s!"Custom rewire needs four channels, got {count}"
  | gainRange => "(34, 'Numerical result out of range')"
  | mappingOverride => "'MappingChannelOverride' object has no attribute 'texture_path'"
  | layerMode kind => s!"'{kind}' object has no attribute 'lower'"
  | buffer e => e.message
  | directory text => text
  | delay e => e.message
  | retries kind => s!"'>=' not supported between instances of 'int' and '{kind}'"
  | path kind => s!"expected str, bytes or os.PathLike object, not {kind}"
  | request e => e.message
  | attachment e => e.message

/-- The steps of compiling. -/
abbrev Compile (α β : Type) := ExceptT CompileError (StateM (Context α)) β

namespace Compile

def build {β : Type} (step : Build α β) : Compile α β :=
  modifyGet fun ctx => let (b, network) := step.run ctx.network; (b, { ctx with network })

def register {β : Type} (step : Register β) : Compile α β :=
  modifyGet fun ctx => let (b, registrar) := step.run ctx.registrar; (b, { ctx with registrar })

def debug (text : String) : Compile α Unit := modify (·.log (·.debug text))

def warn (text : String) : Compile α Unit := modify (·.warn (.text text))

def note (f : Usage α → Usage α) : Compile α Unit :=
  modify fun ctx => { ctx with usage := f ctx.usage }

def constants : Compile α Constants := return (← get).constants

/-- A color node. -/
def color [OfScientific α] (shade : Shade α) : Compile α NodeId :=
  match shade.toRgba 1.0 with
  | .ok value => build (Build.color value)
  | .error e => throw (.components e)

/-- Adds an override. The flag tells whether it was the first one for its channel. -/
def override [Scalar α] (key : ChannelKey α) (entry : ChannelOverride α) : Compile α Bool := do
  if (← get).overrides.holds key entry then
    debug ("Ignoring duplicate override for " ++
      Text.tuple [key.material.inner, key.channel.inner])
    return false
  else
    modify fun ctx => { ctx with overrides := ctx.overrides.add key entry }
    return true

/-- A binding with what the proxy for its texture sets. -/
def applyProxy [Scalar α] (binding : TextureBinding α) : Compile α (TextureBinding α) := do
  let proxies := (← get).proxies
  match proxies.number? (.text binding.textureName) with
  | some n => debug s!"Applying node proxy {n} to texture '{binding.textureName}'"
  | none => pure ()
  return { binding with toTextureLookup := proxies.apply binding.toTextureLookup }

end Compile

end ShadeGraph
