import ShadeGraph.Number.Binary

/-!
# Decimal texts of doubles

`fixed` and `scientific` print a chosen number of places of the exact value, a half going to the
even neighbour. `shortest` prints the fewest digits that read back to the same double: it looks at
the two neighbours of the value on the grids of one, two, ... seventeen digits and takes the first
grid with a member in the interval of reals that round to the double.
-/

namespace ShadeGraph.Number

def tenTo (n : Nat) : Nat := Nat.pow 10 n

/-- `num / den` rounded to the nearest integer, a half to the even one. -/
def roundDiv (num den : Nat) : Nat :=
  let q := num / den
  let r := num % den
  if 2 * r < den then q
  else if den < 2 * r then q + 1
  else if q % 2 = 0 then q else q + 1

/-- The decimal digits of `n`. -/
def digits (n : Nat) : String := String.ofList (Nat.toDigits 10 n)

/-- The decimal digits of `n`, with zeros in front up to `width` of them. -/
def paddedDigits (width n : Nat) : String :=
  let s := digits n
  String.ofList (List.replicate (width - s.length) '0') ++ s

def zeros (n : Nat) : String := String.ofList (List.replicate n '0')

/-- The exponent `k` with `10 ^ k ≤ num / den < 10 ^ (k + 1)`, for positive `num` and `den`. -/
def decimalExponent (num den : Nat) : Int :=
  if den ≤ num then ((digits (num / den)).length : Int) - 1
  else -((digits ((den - 1) / num)).length : Int)

/-- `10 ^ g` as a numerator and a denominator. -/
def powerOfTen (g : Int) : Nat × Nat := (tenTo g.toNat, tenTo (-g).toNat)

/-- How the sign of a text is written. -/
def sign (negative : Bool) : String := if negative then "-" else ""

/-- The texts of the values without digits. -/
def special (negative : Bool) : String := sign negative ++ "inf"

/-- Sign, digits, point and two or more digits of exponent. -/
def exponentText (e : Int) : String :=
  (if e < 0 then "e-" else "e+") ++ paddedDigits 2 e.natAbs

/-- The exact value with `places` digits behind the point. -/
def Binary.fixed (places : Nat) (b : Binary) : String :=
  let n := roundDiv (b.numerator * tenTo places) (twoTo b.fractionBits)
  let whole := digits (n / tenTo places)
  sign b.negative ++
    if places = 0 then whole else whole ++ "." ++ paddedDigits places (n % tenTo places)

/-- The exact value with one digit before the point and `places` behind it. -/
def Binary.scientific (places : Nat) (b : Binary) : String :=
  let num := b.numerator
  let den := twoTo b.fractionBits
  if num = 0 then sign b.negative ++ "0." ++ zeros places ++ exponentText 0
  else
    let k := decimalExponent num den
    let (up, down) := powerOfTen (k - places)
    let n := roundDiv (num * down) (den * up)
    let (n, k) := if n = tenTo (places + 1) then (tenTo places, k + 1) else (n, k)
    sign b.negative ++ digits (n / tenTo places) ++ "." ++ paddedDigits places (n % tenTo places) ++
      exponentText k

/-- The text with `places` digits behind the point. -/
def fixed (places : Nat) (x : Float) : String :=
  match Double.ofFloat x with
  | .notANumber => "nan"
  | .infinite negative => special negative
  | .finite b => b.fixed places

/-- The text with an exponent and `places` digits behind the point. -/
def scientific (places : Nat) (x : Float) : String :=
  match Double.ofFloat x with
  | .notANumber => "nan"
  | .infinite negative => special negative
  | .finite b => b.scientific places

/-- The reals that round to a positive double, over the common denominator `den`. The ends belong
to it when the significand is even. -/
structure RoundingInterval where
  low : Nat
  value : Nat
  high : Nat
  den : Nat
  closed : Bool

/-- Half a unit on either side, but a quarter below the least significand of a binade. -/
def Binary.roundingInterval (b : Binary) : RoundingInterval :=
  let s := twoTo b.exponent.toNat
  let below := if b.significand = Double.implicitBit ∧ Double.leastExponent < b.exponent then 1 else 2
  { low := (4 * b.significand - below) * s
    value := 4 * b.significand * s
    high := (4 * b.significand + 2) * s
    den := 4 * twoTo b.fractionBits
    closed := b.significand % 2 = 0 }

namespace RoundingInterval

/-- Whether `d * 10 ^ g` lies in the interval. -/
def holds (i : RoundingInterval) (d : Nat) (g : Int) : Bool :=
  let (up, down) := powerOfTen g
  let x := d * up * i.den
  if i.closed then i.low * down ≤ x && x ≤ i.high * down
  else i.low * down < x && x < i.high * down

/-- The member of the grid `10 ^ g` in the interval that is nearest to the value. -/
def nearest? (i : RoundingInterval) (g : Int) : Option Nat :=
  let (up, down) := powerOfTen g
  let num := i.value * down
  let den := i.den * up
  let d := num / den
  match i.holds d g, i.holds (d + 1) g with
  | true, true => some (roundDiv num den)
  | true, false => some d
  | false, true => some (d + 1)
  | false, false => none

/-- The shortest decimal `d * 10 ^ g` of the interval. -/
def shortest (i : RoundingInterval) : Nat × Int :=
  let k := decimalExponent i.value i.den
  ((List.range 17).findSome? fun (n : Nat) =>
    (i.nearest? (k - n)).map fun d => (d, k - (n : Int))).getD (0, 0)

end RoundingInterval

/-- Which exponents the shortest text writes without an exponent part. -/
structure Positional where
  least : Int
  below : Int

/-- From a ten-thousandth up to, but not including, ten to the sixteenth. -/
def positional : Positional := ⟨-4, 16⟩

/-- The text of the decimal `0.d₁d₂... * 10 ^ (e + 1)`; at least one digit follows the point. -/
def layout (format : Positional) (d : String) (e : Int) : String :=
  let n := d.length
  if e < format.least ∨ format.below ≤ e then
    let rest := (d.drop 1).copy
    (d.take 1).copy ++ (if rest.isEmpty then "" else "." ++ rest) ++ exponentText e
  else if e < 0 then "0." ++ zeros (-e - 1).toNat ++ d
  else
    let whole := e.toNat + 1
    if n ≤ whole then d ++ zeros (whole - n) ++ ".0"
    else (d.take whole).copy ++ "." ++ (d.drop whole).copy

/-- The digits of `n` without the zeros at its end. -/
def significantDigits (n : Nat) : String :=
  String.ofList ((Nat.toDigits 10 n).reverse.dropWhile (· == '0')).reverse

/-- The fewest digits that read back as the same double. -/
def shortest (x : Float) : String :=
  match Double.ofFloat x with
  | .notANumber => "nan"
  | .infinite negative => special negative
  | .finite b =>
    sign b.negative ++
      if b.significand = 0 then "0.0"
      else
        let (d, g) := b.roundingInterval.shortest
        layout positional (significantDigits d) (g + (digits d).length - 1)

end ShadeGraph.Number
