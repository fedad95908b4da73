import ShadeGraph.Channel.Correction

/-!
# Single stages of a correction

Scripts apply the stages of a color correction one by one, also where the source before them had no
node. A stage that builds nothing from the missing node goes through; any other one names the first
node that would have had it as an input.
-/

namespace ShadeGraph

/-- A stage of a color correction. -/
inductive Stage where
  | rewire
  | hslTint
  | simpleLightness
  | exposureLightness
deriving DecidableEq, Repr

/-- The stage with a short name; any other name stands for the exposure model. -/
def Stage.ofName (name : String) : Stage :=
  match name with
  | "rewire" => .rewire
  | "hsl_tint" => .hslTint
  | "simple" => .simpleLightness
  | _ => .exposureLightness

/-- The kind of the node that is built first from the input of a channel, before the channels are
put together. -/
def RewireChannel.firstKind? : RewireChannel → Option String
  | inverted _ => some "Subtract"
  | average => some "Swizzle"
  | _ => none

/-- Whether a channel is taken from the input as it is. -/
def RewireChannel.isDirect : RewireChannel → Bool
  | direct _ => true
  | _ => false

namespace Compile

variable {α : Type} [Scalar α]

/-- A node of this kind lacks an input. -/
def missing {β : Type} (kind : String) : Compile α β := throw (.request (.missingInput kind))

/-- Custom rewiring of nothing. Constant channels need no input. -/
def rewireMissing (channels : List RewireChannel) : Compile α NodeId := do
  match channels with
  | [r, g, b, a] =>
    match channels.findSome? (·.firstKind?) with
    | some kind => missing kind
    | none =>
      if channels.any (·.isDirect) then missing "Swizzle"
      else
        let constants ← constants
        build (Build.customRewire constants constants.one ⟨r, g, b, a⟩)
  | _ => throw (.rewireChannels channels.length)

/-- A stage without a node to start from. -/
def stageMissing (stage : Stage) (scope : Scope) (p : Correction α) :
    Compile α (Option NodeId) := do
  match stage with
  | .rewire =>
    match p.rewire with
    | .normal => return none
    | .monochrome => missing "Swizzle"
    | .invert => missing "Subtract"
    | .custom => return some (← rewireMissing p.customChannels)
  | .hslTint => missing "ColorCorrection"
  | .simpleLightness => if p.isPlain then return none else missing "Subtract"
  | .exposureLightness => do
    let _ ← exposureTerm scope p.exposureMode p.globalExposure
    missing "Multiply"

/-- The node after a stage. -/
def stage (stage : Stage) (scope : Scope) (p : Correction α) :
    Option NodeId → Compile α (Option NodeId)
  | none => stageMissing stage scope p
  | some n => do
    match stage with
    | .rewire => return some (← rewire n p)
    | .hslTint => return some (← build (Build.hslTint n p))
    | .simpleLightness => return some (← build (Build.simpleLightness n p))
    | .exposureLightness => return some (← exposureLightness scope n p)

end Compile

end ShadeGraph
