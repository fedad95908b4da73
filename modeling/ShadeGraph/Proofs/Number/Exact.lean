import Mathlib.Algebra.Order.Floor.Ring
import Mathlib.Data.Rat.Floor
import Mathlib.Tactic
import ShadeGraph.Proofs.Number.Divisors

/-!
# Exact arithmetic

Networks may be evaluated over any ordered field in which numbers have a floor. There every scalar
is a number, and comparisons, divisions and remainders are those of the field. Powers and texts are
given with the field: a rational number need not have a rational power.
-/

namespace ShadeGraph

namespace Scalar

/-- An ordered field with floors, and powers and texts of some kind. -/
class Exact (α : Type) extends Field α, LinearOrder α, IsStrictOrderedRing α, FloorRing α where
  pow : α → α → α
  /-- Two to this power, if there is one. -/
  exp2? : α → Option α
  text : α → String
  fixedText : Nat → α → String

instance Exact.toScalar {α : Type} [Exact α] : Scalar α where
  lt a b := decide (a < b)
  le a b := decide (a ≤ b)
  eq a b := decide (a = b)
  wrap a b := a - b * ⌊a / b⌋
  floor? a := some ⌊a⌋
  pow := Exact.pow
  exp2? := Exact.exp2?
  text := Exact.text
  fixedText := Exact.fixedText

/-- Rational numbers, with powers for whole exponents. -/
instance : Exact ℚ where
  pow a b := a ^ ⌊b⌋
  exp2? a := if a = ⌊a⌋ then some (2 ^ ⌊a⌋) else none
  text := toString
  fixedText _ := toString

variable {α : Type} [Exact α] {a b : α}

@[simp] theorem lt_eq_decide (a b : α) : lt a b = decide (a < b) := rfl

@[simp] theorem le_eq_decide (a b : α) : le a b = decide (a ≤ b) := rfl

@[simp] theorem eq_eq_decide (a b : α) : eq a b = decide (a = b) := rfl

@[simp] theorem isNumber_exact (a : α) : isNumber a = true := by simp [isNumber]

@[simp] theorem zero_literal : (0.0 : α) = 0 := by norm_num

@[simp] theorem one_literal : (1.0 : α) = 1 := by norm_num

@[simp] theorem two_literal : (2.0 : α) = 2 := by norm_num

@[simp] theorem four_literal : (4.0 : α) = 4 := by norm_num

@[simp] theorem six_literal : (6.0 : α) = 6 := by norm_num

@[simp] theorem half_literal : (0.5 : α) = 1 / 2 := by norm_num

@[simp] theorem floor?_exact (a : α) : floor? a = some ⌊a⌋ := rfl

theorem wrap_exact (a b : α) : wrap a b = a - b * ⌊a / b⌋ := rfl

theorem wrap_eq {k : ℤ} (hb : 0 < b) (hlow : b * k ≤ a) (hhigh : a < b * k + b) :
    wrap a b = a - b * k := by
  have hfloor : ⌊a / b⌋ = k := by
    rw [Int.floor_eq_iff, le_div_iff₀ hb, div_lt_iff₀ hb]
    constructor <;> linarith
  rw [wrap_exact, hfloor]

@[simp] theorem wrap_one (a : α) : wrap a 1 = Int.fract a := by
  rw [wrap_exact, div_one, one_mul, Int.self_sub_floor]

@[simp] theorem abs_exact (a : α) : abs a = |a| := by
  rw [abs, lt_eq_decide, zero_literal]
  rcases lt_or_ge a 0 with h | h
  · simp [h, abs_of_neg h]
  · simp [h.not_gt, abs_of_nonneg h]

@[simp] theorem larger_eq_max (a b : α) : larger a b = max a b := by
  rw [larger, lt_eq_decide, max_def]
  rcases lt_trichotomy a b with h | rfl | h
  · simp [h, h.le]
  · simp
  · simp [h.not_gt, h.not_ge]

@[simp] theorem smaller_eq_min (a b : α) : smaller a b = min a b := by
  rw [smaller, lt_eq_decide, min_def]
  rcases lt_trichotomy a b with h | rfl | h
  · simp [h.not_gt, h.le]
  · simp
  · simp [h, h.not_ge]

@[simp] theorem maximum_eq_max (a b : α) : maximum a b = max a b := by
  rw [maximum, max_def]
  rcases lt_trichotomy a b with h | rfl | h
  · simp [h.not_gt, h.le]
  · simp
  · simp [h, h.not_ge]

@[simp] theorem minimum_eq_min (a b : α) : minimum a b = min a b := by
  rw [minimum, min_def]
  rcases lt_trichotomy a b with h | rfl | h
  · simp [h, h.le]
  · simp
  · simp [h.not_gt, h.not_ge]

@[simp] theorem clip_eq (low high a : α) : clip low high a = min (max a low) high := by
  simp [clip]

instance : TellsDivisors α where
  three := by
    rw [eq_eq_decide]
    norm_num
  leastPivot := by
    rw [eq_eq_decide, leastPivot]
    norm_num
  pivot p hp := by
    have hzero : p = 0 := by simpa using hp
    rw [hzero, abs, lt_eq_decide, leastPivot]
    norm_num

end Scalar

end ShadeGraph
