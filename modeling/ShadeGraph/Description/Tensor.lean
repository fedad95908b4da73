import ShadeGraph.Network.Sample
import ShadeGraph.Text.Reading

/-!
# Tensors in descriptions

A tensor is written as lists inside lists, which must have one length on each level. A number alone
is a tensor without dimensions, and where no number is given there is none. A tensor has at most
`Json.maxDimensions` dimensions.
-/

namespace ShadeGraph

/-- The lengths that two shapes agree on. -/
def commonLengths : List Nat → List Nat → List Nat
  | m :: ms, n :: ns => if m = n then m :: commonLengths ms ns else []
  | _, _ => []

/-- The lengths on the levels of nested lists, and whether that is all there is. -/
structure ListShape where
  lengths : List Nat
  complete : Bool
deriving DecidableEq, Repr

/-- What two lists that stand beside each other have in common. -/
def ListShape.join (a b : ListShape) : ListShape :=
  ⟨commonLengths a.lengths b.lengths, a.complete && b.complete && a.lengths = b.lengths⟩

namespace Json

def maxDimensions : Nat := 64

mutual

/-- The shape of nested lists down to `depth` levels. -/
def listShape (depth : Nat) : Json → ListShape
  | list items =>
    match depth, items with
    | 0, _ => ⟨[], false⟩
    | _ + 1, [] => ⟨[0], true⟩
    | depth + 1, item :: items =>
      let inner := joinShapes depth (item.listShape depth) items
      ⟨(items.length + 1) :: inner.lengths, inner.complete⟩
  | _ => ⟨[], true⟩

/-- What a shape and those of some items have in common. -/
def joinShapes (depth : Nat) (shape : ListShape) : List Json → ListShape
  | [] => shape
  | item :: items => joinShapes depth (shape.join (item.listShape depth)) items

end

/-- An item of a tensor. -/
def item? : Json → Except ReadError Float
  | null => .ok (0.0 / 0.0)
  | j => j.number?

mutual

/-- Numbers, and behind them those in nested lists. -/
def addLeaves (numbers : Array Float) : Json → Except ReadError (Array Float)
  | list items => addItemLeaves numbers items
  | j => return numbers.push (← j.item?)

def addItemLeaves (numbers : Array Float) : List Json → Except ReadError (Array Float)
  | [] => .ok numbers
  | item :: items => do addItemLeaves (← item.addLeaves numbers) items

end

def tensor? (j : Json) : GivenTensor Float :=
  let shape := j.listShape maxDimensions
  if shape.complete then (j.addLeaves #[]).map fun values => ⟨shape.lengths, values⟩
  else if shape.lengths.length = maxDimensions then .error (.depth maxDimensions)
  else .error (.ragged shape.lengths)

/-- The length of a side of an image. -/
def side? (j : Json) : Except ReadError Float :=
  let length (x : Float) : Except ReadError Float :=
    if x.isNaN then .error .noLength
    else if Scalar.lt x.abs 9223372036854775808.0 then .ok x
    else .error .tooLong
  match j.toValue with
  | .flag b => .ok (if b then 1.0 else 0.0)
  | .integer n => length (Float.ofInt n)
  | .number x => length x
  | v => .error (.operands "-" v.kindName "int")

/-- The entries of an object as images by name, without the missing ones. -/
def images (j : Json) : ImageTable Float :=
  (j.entries.filter fun e => !e.2.isNull).map fun (name, value) => (name, value.tensor?)

end Json

end ShadeGraph
