import ShadeGraph.Network.Sample

/-!
# Values of networks

A network is evaluated at many coordinates at once. `Network.evaluate` keeps the values of the nodes
it has met, so each node is computed once; `Network.plainValues` computes every input of every node
again. Two operations are refused where the coordinates lie along too many dimensions.
-/

namespace ShadeGraph

variable {α : Type} [Scalar α]

/-- One component of `layer` laid over `below`, where the layer covers the share `cover`. -/
def BlendType.component (blend : BlendType) (below layer cover : α) : α :=
  match blend with
  | .replace => layer
  | .alpha => below + (layer - below) * cover
  | .add => below + layer * cover
  | .subtract => below - layer * cover
  | .multiply => below * (1.0 + (layer - 1.0) * cover)
  | .min => below + (Scalar.minimum below layer - below) * cover
  | .max => below + (Scalar.maximum below layer - below) * cover

/-- One layer over those below it. -/
def BlendType.over (blend : BlendType) (below layer : Rgba α) : Rgba α :=
  let cover := layer.alpha
  match blend with
  | .replace => layer
  | _ =>
    ⟨blend.component below.red layer.red cover, blend.component below.green layer.green cover,
      blend.component below.blue layer.blue cover, cover + below.alpha * (1.0 - cover)⟩

/-- The layers over nothing, the bottom one first. -/
def blendLayers (layers : List (BlendType × Rgba α)) : Rgba α :=
  layers.foldl (fun below layer => layer.1.over below layer.2) (.replicate 0.0)

/-- The value of a node at one point from those of its inputs. Textures have none of their own. -/
def Operation.combine : Operation α → List (Rgba α) → Rgba α
  | .color c, _ => c
  | .swizzle s, [r, g, b, a] =>
    ⟨r.get s.red.component, g.get s.green.component, b.get s.blue.component,
      a.get s.alpha.component⟩
  | .add, [a, b] => a.map₂ (· + ·) b
  | .subtract, [a, b] => a.map₂ (· - ·) b
  | .multiply, [a, b] => a.map₂ (· * ·) b
  | .divide, [a, b] => a.map₂ Scalar.quotient b
  | .pow, [a, b] => a.map₂ Scalar.power b
  | .clamp, [v, lower, upper] => (v.map₂ Scalar.maximum lower).map₂ Scalar.minimum upper
  | .interpolate, [a, b, w] => a.map₂ (· + ·) ((b.map₂ (· - ·) a).map₂ (· * ·) w)
  | .layeredBlend blends, layers => blendLayers (blends.zip layers)
  | .colorCorrection, [v, control] => v.correct control
  | _, _ => .replicate 0.0

/-- The values of a node at all points. -/
abbrev Samples (α : Type) := Array (Rgba α)

/-- Along how many dimensions an operation divides, or chooses item by item, where the points lie
along `n` dimensions. A correction takes the components one by one, a division all at once. -/
def Operation.pairedDimensions : Operation α → Nat → Nat
  | .divide, n => n + 1
  | .colorCorrection, n => n
  | _, _ => 0

/-- The values of a node from those of its inputs. -/
def Operation.samples (operation : Operation α) (images : ImageTable α) (uv : UvGrid α)
    (inputs : List (Samples α)) : Except EvaluationError (Samples α) :=
  match operation with
  | .texture lookup => do
    let image ← lookup.image images
    return uv.points.map (lookup.sample image)
  | operation =>
    let dimensions := operation.pairedDimensions uv.lengths.length
    if Tensor.pairingLimit < dimensions then .error (.dimensions dimensions)
    else
      .ok (Array.ofFn fun (i : Fin uv.points.size) =>
        operation.combine (inputs.map fun s => (s[i.val]?).getD (.replicate 0.0)))

namespace Network

variable (net : Network α) (images : ImageTable α) (uv : UvGrid α)

def nodeSamples (id : NodeId) (inputs : List (Samples α)) : Except EvaluationError (Samples α) :=
  match net.get? id with
  | some node => node.operation.samples images uv inputs
  | none => .ok #[]

/-- The values of the nodes computed so far, the latest first. -/
abbrev Memo (α : Type) := List (NodeId × Samples α)

/-- The values of a node; they are computed only if the memo does not hold them. -/
def memoValues (id : NodeId) : StateT (Memo α) (Except EvaluationError) (Samples α) := do
  match (← get).lookup id with
  | some values => return values
  | none =>
    let inputs ← (net.inputs id).attach.mapM fun j => memoValues j.1
    let values ← net.nodeSamples images uv id inputs
    modify ((id, values) :: ·)
    return values
termination_by id
decreasing_by exact net.lt_of_mem_inputs j.2

/-- The values of a node, each of its inputs computed anew. -/
def plainValues (id : NodeId) : Except EvaluationError (Samples α) := do
  let inputs ← (net.inputs id).attach.mapM fun j => plainValues j.1
  net.nodeSamples images uv id inputs
termination_by id
decreasing_by exact net.lt_of_mem_inputs j.2

/-- The values of `root` at all points. -/
def evaluate (root : NodeId) : Except EvaluationError (Samples α) :=
  (net.memoValues images uv root).run' []

end Network

end ShadeGraph
