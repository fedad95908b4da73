import ShadeGraph.Number.Digit

/-!
# Reading decimal numerals

A numeral is a sign, digits with at most one point among them, and an exponent; infinity and the
absence of a number have names. Digits may be of any script, single underscores may stand between
them, blanks may stand around the numeral, and letters may have either case. `Numeral.double?` is the
double nearest to a numeral.
-/

namespace ShadeGraph.Numeral

/-- The characters that may stand around a numeral. The separators of records are none of them. -/
def isBlank (c : Char) : Bool :=
  let n := c.toNat
  (0x9 ≤ n && n ≤ 0xd) || (0x2000 ≤ n && n ≤ 0x200a) ||
    [0x20, 0x85, 0xa0, 0x1680, 0x2028, 0x2029, 0x202f, 0x205f, 0x3000].contains n

/-- What is left without the blanks at both ends. -/
def trim (cs : List Char) : List Char :=
  ((cs.dropWhile isBlank).reverse.dropWhile isBlank).reverse

/-- The values of digits, with single underscores between some of them. -/
def digits? : List Char → Option (List Nat)
  | [] => some []
  | c :: '_' :: d :: rest => do return (← Digit.value? c) :: (← digits? (d :: rest))
  | c :: rest => do return (← Digit.value? c) :: (← digits? rest)

def digitsValue (ds : List Nat) : Nat := ds.foldl (fun n d => 10 * n + d) 0

/-- Whether a minus sign stands in front, and what follows the sign. -/
def splitSign : List Char → Bool × List Char
  | '-' :: rest => (true, rest)
  | '+' :: rest => (false, rest)
  | cs => (false, cs)

def integer? (cs : List Char) : Option Int := do
  let (negative, rest) := splitSign cs
  let ds ← digits? rest
  if ds.isEmpty then none
  else some (if negative then -(digitsValue ds : Int) else digitsValue ds)

/-- A whole number times a power of ten. Exponents so large or so small that they alone decide the
double are brought nearer. -/
def scaled (ds : List Nat) (exponent : Int) : Float :=
  let e := max (min exponent 400) (-(ds.length + 400 : Int))
  Float.ofScientific (digitsValue ds) (e < 0) e.natAbs

/-- The double nearest to a numeral without a sign. -/
def decimal? (cs : List Char) : Option Float := do
  let mantissa := cs.takeWhile fun c => c ≠ 'e' && c ≠ 'E'
  let whole ← digits? (mantissa.takeWhile (· ≠ '.'))
  let fraction ← digits? ((mantissa.dropWhile (· ≠ '.')).drop 1)
  let exponent ← match cs.drop mantissa.length with
    | [] => some 0
    | _ :: rest => integer? rest
  if whole.isEmpty && fraction.isEmpty then none
  else some (scaled (whole ++ fraction) (exponent - fraction.length))

/-- The double with a name. -/
def named? (cs : List Char) : Option Float :=
  match String.ofList (cs.map Char.toLower) with
  | "inf" | "infinity" => some (1.0 / 0.0)
  | "nan" => some (0.0 / 0.0)
  | _ => none

/-- The double nearest to what a text stands for, if it is a numeral. -/
def double? (s : String) : Option Float :=
  let (negative, rest) := splitSign (trim s.toList)
  (named? rest <|> decimal? rest).map fun x => if negative then -x else x

end ShadeGraph.Numeral
