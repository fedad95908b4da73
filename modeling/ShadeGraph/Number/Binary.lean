/-!
# Doubles as exact binary numbers

Exact arithmetic on doubles goes through their value `± significand * 2 ^ exponent`. The remainder
below is computed on those integers and loses nothing to rounding.
-/

namespace ShadeGraph.Number

def twoTo (n : Nat) : Nat := Nat.pow 2 n

/-- The number `± significand * 2 ^ exponent`. -/
structure Binary where
  negative : Bool
  significand : Nat
  exponent : Int
deriving DecidableEq, Repr

/-- What a double stands for. -/
inductive Double where
  | notANumber
  | infinite (negative : Bool)
  | finite (value : Binary)
deriving DecidableEq, Repr

namespace Double

/-- The significands of normal doubles start here. -/
def implicitBit : Nat := twoTo 52

/-- The exponent of the least subnormal double. -/
def leastExponent : Int := -1074

/-- Reads the sign, the biased exponent and the fraction of the 64-bit format. -/
def ofBits (bits : Nat) : Double :=
  let negative := bits / twoTo 63 % 2 == 1
  let biased := bits / implicitBit % twoTo 11
  let fraction := bits % implicitBit
  if biased = twoTo 11 - 1 then
    if fraction = 0 then .infinite negative else .notANumber
  else if biased = 0 then .finite ⟨negative, fraction, leastExponent⟩
  else .finite ⟨negative, implicitBit + fraction, leastExponent + (biased - 1 : Nat)⟩

def ofFloat (x : Float) : Double := ofBits x.toBits.toNat

end Double

namespace Binary

/-- The double of this value, exact whenever the significand has at most 53 bits. -/
def toFloat (b : Binary) : Float :=
  let magnitude := (Float.ofNat b.significand).scaleB b.exponent
  if b.negative then -magnitude else magnitude

/-- The numerator of the magnitude over `2 ^ b.fractionBits`. -/
def numerator (b : Binary) : Nat := b.significand * twoTo b.exponent.toNat

/-- How many bits of the magnitude stand behind the binary point. -/
def fractionBits (b : Binary) : Nat := (-b.exponent).toNat

/-- The greatest integer that does not exceed the number. -/
def floor (b : Binary) : Int :=
  let whole : Int := (b.numerator / twoTo b.fractionBits : Nat)
  if !b.negative then whole
  else if b.numerator % twoTo b.fractionBits = 0 then -whole else -whole - 1

/-- The significand of `b` once its exponent is lowered to `e`. -/
def alignTo (b : Binary) (e : Int) : Nat := b.significand * twoTo (b.exponent - e).toNat

/-- The remainder of the truncating division, with the sign of the dividend. It is exact. -/
def truncatedRemainder (a b : Binary) : Binary :=
  let e := min a.exponent b.exponent
  ⟨a.negative, a.alignTo e % b.alignTo e, e⟩

end Binary

/-- The remainder of the flooring division: it has the sign of the divisor, a zero included. The
correction by the divisor is the only step that rounds. -/
def flooredRemainder (a b : Float) : Float :=
  match Double.ofFloat a, Double.ofFloat b with
  | .finite x, .finite y =>
    if y.significand = 0 then 0.0 / 0.0
    else
      let r := x.truncatedRemainder y
      if r.significand = 0 then Binary.toFloat ⟨y.negative, 0, 0⟩
      else if x.negative != y.negative then r.toFloat + b else r.toFloat
  | .finite x, .infinite negative =>
    if x.significand = 0 then Binary.toFloat ⟨negative, 0, 0⟩
    else if x.negative != negative then a + b else a
  | _, _ => 0.0 / 0.0

/-- The greatest integer below a finite double. -/
def floor? (x : Float) : Option Int :=
  match Double.ofFloat x with
  | .finite b => some b.floor
  | _ => none

end ShadeGraph.Number
