import ShadeGraph.Number.Decimal

/-!
# Scalars

Networks are compiled and evaluated over any type of scalars. Comparisons are Boolean, since a
scalar need not be comparable: a double may fail to be a number. `maximum` and `minimum` hand such
an operand on, while `larger` and `smaller` keep their first operand unless the second one beats it.
-/

namespace ShadeGraph

/-- The numbers of components, coordinates and settings. -/
class Scalar (α : Type) extends Add α, Sub α, Mul α, Div α, Neg α, NatCast α, OfScientific α where
  lt : α → α → Bool
  le : α → α → Bool
  /-- Equality of values; a scalar that is no number differs from itself. -/
  eq : α → α → Bool
  /-- The remainder of the flooring division, with the sign of the divisor. -/
  wrap : α → α → α
  /-- The greatest integer below, if the scalar has one. -/
  floor? : α → Option Int
  pow : α → α → α
  /-- Two to this power, unless a finite exponent leads out of range. -/
  exp2? : α → Option α
  /-- The shortest decimal text. -/
  text : α → String
  /-- The text with this many digits behind the point. -/
  fixedText : Nat → α → String

namespace Scalar

variable {α : Type} [Scalar α]

def isNumber (a : α) : Bool := eq a a

def abs (a : α) : α := if lt a 0.0 then -a else a

/-- The greater operand, the second of equal ones; one that is no number wins. -/
def maximum (a b : α) : α := if lt b a || !isNumber a then a else b

/-- The lesser operand, the second of equal ones; one that is no number wins. -/
def minimum (a b : α) : α := if lt a b || !isNumber a then a else b

/-- The first operand, unless the second is greater. -/
def larger (a b : α) : α := if lt a b then b else a

/-- The first operand, unless the second is less. -/
def smaller (a b : α) : α := if lt b a then b else a

/-- Into the range from `low` to `high`. -/
def clip (low high a : α) : α := minimum (maximum a low) high

def ofInt (n : Int) : α := if n < 0 then -(n.natAbs : α) else (n.natAbs : α)

/-- The whole number that a scalar is, if it is one. -/
def whole? (a : α) : Option Int := (floor? a).filter fun n => eq (ofInt n) a

/-- The quotient, with zero for a division by zero. -/
def quotient (a b : α) : α := if eq b 0.0 then 0.0 else a / b

/-- Powers of a base below zero are those of zero. -/
def power (base exponent : α) : α := pow (maximum base 0.0) exponent

end Scalar

/-- Doubles. -/
instance : Scalar Float where
  natCast := Float.ofNat
  lt a b := a < b
  le a b := a ≤ b
  eq a b := a == b
  wrap := Number.flooredRemainder
  floor? := Number.floor?
  pow := Float.pow
  exp2? a :=
    let y := Float.pow 2.0 a
    if y.isInf && !a.isInf then none else some y
  text := Number.shortest
  fixedText := Number.fixed

end ShadeGraph
