import ShadeGraph.Network.Operators

/-!
# Requested nodes

Scripts build networks node by node from data that need not make sense: an input may be missing, and
a count or a component number may be wrong. A request is checked in a fixed order, first the number
of inputs, then the inputs themselves, then the parameters, and a refused one leaves the network as
it was.
-/

namespace ShadeGraph

/-- Why a requested node cannot be built. -/
inductive RequestError where
  | arity (kind : String) (expected given : Nat)
  | noInputs (kind : String)
  | missingInput (kind : String)
  | selection (given : List String)
  | unknownBlend (shown : String)
  | blendCount (inputs blends : Nat)
  | components (e : ComponentCount)
deriving DecidableEq, Repr

def RequestError.message : RequestError → String
  | arity kind expected given => s!"{kind} node takes {expected} inputs, got {given}"
  | noInputs kind => s!"{kind} node needs at least one input"
  | missingInput kind => s!"{kind} node input must be a ShadingNode, got NoneType"
  | selection given =>
    "Swizzle channels must be four indices in 0..3, got " ++ Text.tuple given
  | unknownBlend shown => s!"{shown} is not a valid BlendType"
  | blendCount inputs blends =>
    s!"LayeredBlend needs one blend type per input ({inputs} inputs, {blends} blend types)"
  | components e => e.message

/-- The operation of a requested node. Components are still given by values. -/
inductive RequestedOperation (α : Type) where
  | plain (operation : Operation α)
  | swizzle (selection : List (Value α))

/-- A node as it was asked for. -/
structure Request (α : Type) where
  operation : RequestedOperation α
  inputs : List (Option NodeId)
  name : String := ""

namespace Request

variable {α : Type} [Scalar α]

/-- The four components that values name. -/
def selection? : List (Value α) → Option (Rgba ComponentLabel)
  | [r, g, b, a] => do
    let label := ComponentLabel.ofValue?
    return ⟨← label r, ← label g, ← label b, ← label a⟩
  | _ => none

def checkInputs (kind : String) (arity : Option Nat) (inputs : List (Option NodeId)) :
    Except RequestError (List NodeId) := do
  match arity with
  | some n => if inputs.length ≠ n then throw (.arity kind n inputs.length)
  | none => if inputs.isEmpty then throw (.noInputs kind)
  match inputs.mapM id with
  | some ids => return ids
  | none => throw (.missingInput kind)

/-- The node that is asked for. -/
def check (request : Request α) : Except RequestError (Node α) := do
  match request.operation with
  | .swizzle numbers =>
    let inputs ← checkInputs "Swizzle" (some 4) request.inputs
    match selection? numbers with
    | some selection => return { operation := .swizzle selection, inputs, name := request.name }
    | none => throw (.selection (numbers.map Value.inner))
  | .plain operation =>
    let inputs ← checkInputs operation.kind operation.arity request.inputs
    match operation with
    | .layeredBlend blends =>
      if blends.length ≠ inputs.length then throw (.blendCount inputs.length blends.length)
    | _ => pure ()
    return { operation, inputs, name := request.name }

/-- Builds the node, or says what is wrong with the request. -/
def build (request : Request α) : ExceptT RequestError (Build α) NodeId := do
  let node ← ExceptT.mk (pure request.check)
  ExceptT.lift (Build.named node.operation node.inputs node.name)

/-- The requested nodes of one kind: inputs alone, and the least of parameters. -/
def ofKind? (kind : String) (inputs : List (Option NodeId)) : Option (Request α) :=
  let plain (operation : Operation α) := some { operation := .plain operation, inputs }
  match kind with
  | "Texture" =>
    plain (.texture
      { textureName := "", texturePath := "", tileU := 1.0, tileV := 1.0, offsetU := 0.0
        offsetV := 0.0 })
  | "Color" => plain (.color ⟨0.0, 0.0, 0.0, 1.0⟩)
  | "Swizzle" => some { operation := .swizzle ([0, 1, 2, 3].map .integer), inputs }
  | "Add" => plain .add
  | "Subtract" => plain .subtract
  | "Multiply" => plain .multiply
  | "Divide" => plain .divide
  | "Clamp" => plain .clamp
  | "Pow" => plain .pow
  | "Interpolate" => plain .interpolate
  | "LayeredBlend" => plain (.layeredBlend [])
  | "ColorCorrection" => plain .colorCorrection
  | _ => none

def texture (lookup : TextureLookup α) (name : String) : ExceptT RequestError (Build α) NodeId :=
  ExceptT.lift (Build.named (.texture lookup.settled) [] name)

/-- A color node of these components. -/
def color (value : Shade α) (name : String) :
    ExceptT RequestError (Build α) NodeId := do
  let value ← ExceptT.mk (pure ((value.toRgba 1.0).mapError .components))
  ExceptT.lift (Build.named (.color value) [] name)

def swizzle (inputs : List (Option NodeId)) (numbers : List (Value α)) :
    ExceptT RequestError (Build α) NodeId :=
  build { operation := .swizzle numbers, inputs }

def broadcast (a : Option NodeId) (number : Value α) :
    ExceptT RequestError (Build α) NodeId :=
  swizzle (List.replicate 4 a) (List.replicate 4 number)

def replaceAlpha (rgb alpha : Option NodeId) (number : Value α) :
    ExceptT RequestError (Build α) NodeId :=
  swizzle [rgb, rgb, rgb, alpha] [.integer 0, .integer 1, .integer 2, number]

/-- The blend that a value names. -/
def blend? : Value α → Option BlendType
  | .text name => BlendType.ofName? name
  | _ => none

def layeredBlend (inputs : List (Option NodeId)) (names : List (Value α)) :
    ExceptT RequestError (Build α) NodeId := do
  let blends ← names.mapM fun name =>
    match blend? name with
    | some blend => pure blend
    | none => throw (.unknownBlend name.inner)
  build { operation := .plain (.layeredBlend blends), inputs }

/-- Operators of several nodes begin with a swizzle of their input. -/
def compound (f : NodeId → Build α NodeId) : Option NodeId → ExceptT RequestError (Build α) NodeId
  | some a => ExceptT.lift (f a)
  | none => throw (.missingInput "Swizzle")

end Request

end ShadeGraph
