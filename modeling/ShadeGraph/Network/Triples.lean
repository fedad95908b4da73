import ShadeGraph.Network.Sample

/-!
# Triples in tensors

Colors without alpha stand along the last dimension of a tensor. A function on three components that
chooses between cases is applied to each of them; components behind the third one are dropped.
-/

namespace ShadeGraph

/-- Why there are no triples along the last dimension. -/
inductive TripleError where
  | noDimension
  /-- The last dimension ends before its third item. -/
  | missing (index axis : Nat)
  /-- There are too many dimensions before the last one to choose along them. -/
  | dimensions (n : Nat)
deriving DecidableEq, Repr

def TripleError.message : TripleError → String
  | noDimension => "too many indices for array: array is 0-dimensional, but 1 were indexed"
  | missing index axis => s!"index {index} is out of bounds for axis {axis} with size {index}"
  | dimensions n => Tensor.pairingText n

namespace Tensor

variable {α : Type} [Scalar α]

/-- The triples at the beginnings of groups of `n` values. -/
def triples (t : Tensor α) (n : Nat) : List (α × α × α) :=
  (List.range (t.values.size / n)).map fun i =>
    (t.getD (n * i), t.getD (n * i + 1), t.getD (n * i + 2))

def mapTriples (f : α → α → α → List α) (t : Tensor α) : Except TripleError (Tensor α) :=
  match t.shape.getLast? with
  | none => .error .noDimension
  | some n =>
    let dimensions := t.shape.length - 1
    if n < 3 then .error (.missing n dimensions)
    else if Tensor.pairingLimit < dimensions then .error (.dimensions dimensions)
    else .ok
      { shape := t.shape.dropLast ++ [3]
        values := ((t.triples n).flatMap fun (a, b, c) => f a b c).toArray }

end Tensor

end ShadeGraph
