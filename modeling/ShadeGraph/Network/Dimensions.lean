import ShadeGraph.Network.Evaluate
import ShadeGraph.Network.Walk
import ShadeGraph.Table

/-!
# Values along other dimensions

A swizzle may name its components by flags. A flag selects nothing: it puts the components of its
input along a dimension of their own, before one of length one, or of length zero if the flag is
false. Values of networks with such nodes lie along their own dimensions. An operator lines up the
dimensions of its inputs from the last one on, and one of length one goes with any other.

`Network.block` computes such values. Where all components are selected by whole numbers it is not
needed, since all values lie along the dimensions of the coordinates.
-/

namespace ShadeGraph

/-! ### Dimensions -/

namespace Lengths

/-- The number of points along dimensions of these lengths. -/
def volume (lengths : List Nat) : Nat := lengths.foldr (· * ·) 1

/-- The common dimensions of two lists, the last ones first. -/
def alignFromLast : List Nat → List Nat → Option (List Nat)
  | [], ns => some ns
  | ms, [] => some ms
  | m :: ms, n :: ns => do
    let rest ← alignFromLast ms ns
    if m = n ∨ n = 1 then some (m :: rest) else if m = 1 then some (n :: rest) else none

/-- The common dimensions of two lists, if there are such. -/
def align? (ms ns : List Nat) : Option (List Nat) :=
  (alignFromLast ms.reverse ns.reverse).map List.reverse

theorem alignFromLast_self (ms : List Nat) : alignFromLast ms ms = some ms := by
  induction ms with
  | nil => rfl
  | cons m ms ih => simp [alignFromLast, ih]

theorem align?_self (ms : List Nat) : align? ms ms = some ms := by
  simp [align?, alignFromLast_self]

/-- The place along `ns` of what stands in place `i` along `ms`, the last dimensions first. -/
def placeFromLast : (ms ns : List Nat) → Nat → Nat
  | m :: ms, n :: ns, i => (if n = 1 then 0 else i % m) + n * placeFromLast ms ns (i / m)
  | _, _, _ => 0

/-- The place along `ns` of what stands in place `i` along their common dimensions `ms`. -/
def place (ms ns : List Nat) (i : Nat) : Nat := placeFromLast ms.reverse ns.reverse i

/-- Drops dimensions of length one in front until no more than `count` are left. -/
def strip (count : Nat) : List Nat → List Nat
  | [] => []
  | n :: ns => if n = 1 ∧ count ≤ ns.length then strip count ns else n :: ns

end Lengths

/-- Values along dimensions of these lengths, in row-major order. -/
structure Block (α : Type) where
  lengths : List Nat
  points : Samples α

namespace Block

variable {α : Type} [Scalar α]

def getD (b : Block α) (i : Nat) : Rgba α := (b.points[i]?).getD (.replicate 0.0)

/-- The value in a place along the dimensions that `b` has in common with others. -/
def stretched (b : Block α) (lengths : List Nat) (i : Nat) : Rgba α :=
  b.getD (Lengths.place lengths b.lengths i)

end Block

/-! ### Selections -/

/-- The dimensions of what a label selects. -/
def ComponentLabel.lengths? (label : ComponentLabel) (lengths : List Nat) :
    Except EvaluationError (List Nat) :=
  match label with
  | index _ => .ok lengths
  | flag b => .ok (lengths ++ [4, if b then 1 else 0])
  | number _ | negativeZero => .error .label

/-- What a label selects, in one place. -/
def ComponentLabel.select {α : Type} [Scalar α] (label : ComponentLabel) (b : Block α) (i : Nat) :
    α :=
  match label with
  | flag _ => (b.getD (i / 4)).get ((Component.ofIndex? (i % 4 : Nat)).getD .red)
  | label => (b.getD i).get label.component

/-! ### Operators -/

/-- The dimensions that two operands have in common. Their parts at a point lie along `tail`. -/
def operandLengths (tail ms ns : List Nat) : Except EvaluationError (List Nat) :=
  match Lengths.align? ms ns with
  | some lengths => .ok lengths
  | none => .error (.operands (ms ++ tail) (ns ++ tail))

/-- Whether values along `ms` can be written over values along `ns`. -/
def checkWritten (tail ms ns : List Nat) : Except EvaluationError Unit :=
  let stripped := Lengths.strip (ns.length + tail.length) (ms ++ tail)
  if stripped = ns ++ tail then .ok () else .error (.written stripped (ns ++ tail))

/-- The dimensions of a layer laid over those below it. -/
def BlendType.lengths? (blend : BlendType) (below layer : List Nat) :
    Except EvaluationError (List Nat) :=
  match blend with
  | .replace => .ok layer
  | .alpha => do
    checkWritten [3] (← operandLengths [3] layer below) below
    return below
  | _ => do
    checkWritten [3] (← operandLengths [3] below layer) below
    return below

namespace Operation

variable {α : Type} [Scalar α]

/-- The dimensions of a value from those of its operands. -/
def lengths? : Operation α → List (List Nat) → Except EvaluationError (List Nat)
  | .add, [a, b] | .subtract, [a, b] | .multiply, [a, b] | .pow, [a, b] => operandLengths [4] a b
  | .divide, [a, b] =>
    match Lengths.align? a b with
    | some lengths => .ok lengths
    | none => .error (.paired (a ++ [4]) (b ++ [4]))
  | .clamp, [v, lower, upper] => do operandLengths [4] (← operandLengths [4] v lower) upper
  | .interpolate, [a, b, w] => do
    operandLengths [4] a (← operandLengths [4] (← operandLengths [4] b a) w)
  | .layeredBlend blends, layer :: layers =>
    (blends.drop 1).zip layers |>.foldlM (fun below (blend, layer) => blend.lengths? below layer)
      layer
  | .colorCorrection, [v, control] => do
    checkWritten [] (← operandLengths [] v control) v
    return v
  | _, _ => .ok []

/-- The value of a node from those of its inputs. -/
def block (operation : Operation α) (images : ImageTable α) (uv : UvGrid α)
    (inputs : List (Block α)) : Except EvaluationError (Block α) :=
  match operation, inputs with
  | .texture _, _ | .color _, _ => return ⟨uv.lengths, ← operation.samples images uv []⟩
  | .swizzle s, [r, g, b, a] => do
    let red ← s.red.lengths? r.lengths
    let others ← [(s.green, g), (s.blue, b), (s.alpha, a)].mapM fun (label, b) =>
      label.lengths? b.lengths
    if others.any (· ≠ red) then throw .stacked
    return ⟨red, Array.ofFn fun (i : Fin (Lengths.volume red)) =>
      ⟨s.red.select r i, s.green.select g i, s.blue.select b i, s.alpha.select a i⟩⟩
  | operation, inputs => do
    let dimensions := operation.pairedDimensions
      ((inputs.map (·.lengths.length)).foldl max 0)
    if Tensor.pairingLimit < dimensions then throw (.dimensions dimensions)
    let lengths ← operation.lengths? (inputs.map (·.lengths))
    return ⟨lengths, Array.ofFn fun (i : Fin (Lengths.volume lengths)) =>
      operation.combine (inputs.map (·.stretched lengths i))⟩

end Operation

namespace Network

variable {α : Type} [Scalar α] (net : Network α)

/-- Whether everything below a node selects components by whole numbers alone. -/
def isRegular (root : NodeId) : Bool :=
  (net.walk root).all fun id => (net.get? id).all (·.operation.isRegular)

/-- The value of `root`, whatever dimensions it lies along. Each node below it is computed once. -/
def block (images : ImageTable α) (uv : UvGrid α) (root : NodeId) :
    Except EvaluationError (Block α) := do
  let value (blocks : Table NodeId (Block α)) (id : NodeId) : Block α :=
    (blocks.get? id).getD ⟨[0], #[]⟩
  let blocks ← (net.walk root).foldlM (fun blocks id =>
    match net.get? id with
    | some node =>
      return (id, ← node.operation.block images uv (node.inputs.map (value blocks))) :: blocks
    | none => .ok blocks) []
  return value blocks root

/-- The values of `root` over a tensor of coordinates, as a tensor. -/
def evaluateTensor (images : ImageTable α) (uv : GivenTensor α) (root : NodeId) :
    Except EvaluationError (Tensor α) := do
  let grid ← UvGrid.ofGiven uv
  let block ← if net.isRegular root then
    (Block.mk grid.lengths) <$> net.evaluate images grid root
  else net.block images grid root
  return { shape := block.lengths ++ [4], values := block.points.flatMap fun v => v.toList.toArray }

end Network

end ShadeGraph
