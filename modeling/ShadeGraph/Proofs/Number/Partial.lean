import ShadeGraph.Proofs.Number.Exact

/-!
# Division by zero

Numbers in which a quotient or a remainder by zero is nothing, and so is whatever is made of nothing;
like a double that is no number, nothing compares with nothing. What comes out as a number there has
been computed without a division by zero.
-/

namespace ShadeGraph

namespace Scalar

/-- A number, or nothing. -/
inductive Partial (α : Type) where
  | of (value : α)
  | nothing

namespace Partial

section

variable {α : Type}

def map (f : α → α) : Partial α → Partial α
  | of a => of (f a)
  | nothing => nothing

def map₂ (f : α → α → α) : Partial α → Partial α → Partial α
  | of a, of b => of (f a b)
  | _, _ => nothing

def compare (p : α → α → Bool) : Partial α → Partial α → Bool
  | of a, of b => p a b
  | _, _ => false

def divide [Zero α] [DecidableEq α] (f : α → α → α) : Partial α → Partial α → Partial α
  | of a, of b => if b = 0 then nothing else of (f a b)
  | _, _ => nothing

end

variable {α : Type} [Exact α]

instance : Scalar (Partial α) where
  add := map₂ (· + ·)
  sub := map₂ (· - ·)
  mul := map₂ (· * ·)
  div := divide (· / ·)
  neg := map (- ·)
  natCast n := of n
  ofScientific mantissa sign exponent := of (OfScientific.ofScientific mantissa sign exponent)
  lt := compare lt
  le := compare le
  eq := compare eq
  wrap := divide wrap
  floor?
    | of a => floor? a
    | nothing => none
  pow := map₂ pow
  exp2?
    | of a => (exp2? a).map of
    | nothing => some nothing
  text
    | of a => text a
    | nothing => ""
  fixedText
    | n, of a => fixedText n a
    | _, nothing => ""

variable (a b : α)

@[simp] theorem of_add : of a + of b = of (a + b) := rfl

@[simp] theorem of_sub : of a - of b = of (a - b) := rfl

@[simp] theorem of_mul : of a * of b = of (a * b) := rfl

@[simp] theorem of_div {b : α} (hb : b ≠ 0) : of a / of b = of (a / b) := if_neg hb

@[simp] theorem wrap_of {b : α} (hb : b ≠ 0) : wrap (of a) (of b) = of (wrap a b) := if_neg hb

@[simp] theorem literal (mantissa : Nat) (sign : Bool) (exponent : Nat) :
    (OfScientific.ofScientific mantissa sign exponent : Partial α) =
      of (OfScientific.ofScientific mantissa sign exponent) := rfl

@[simp] theorem lt_of : lt (of a) (of b) = lt a b := rfl

@[simp] theorem le_of : le (of a) (of b) = le a b := rfl

@[simp] theorem eq_of : eq (of a) (of b) = eq a b := rfl

@[simp] theorem floor?_of : floor? (of a) = floor? a := rfl

@[simp] theorem maximum_of : maximum (of a) (of b) = of (maximum a b) := by
  unfold maximum isNumber
  rw [lt_of, eq_of]
  split <;> rfl

@[simp] theorem minimum_of : minimum (of a) (of b) = of (minimum a b) := by
  unfold minimum isNumber
  rw [lt_of, eq_of]
  split <;> rfl

@[simp] theorem abs_of : abs (of a) = of (abs a) := by
  unfold abs
  rw [literal, lt_of]
  split <;> rfl

end Partial

end Scalar

end ShadeGraph
