import Mathlib.Tactic
import ShadeGraph.Channel.Correction

/-!
# Divisors

Division of tensors gives zero where the divisor is zero. The divisors in compiled networks are never
zero: averages are divided by three, and a pivot that is near to zero is replaced by the least one.
-/

namespace ShadeGraph

namespace Scalar

/-- Scalars that tell the divisors of compiled networks from zero. -/
class TellsDivisors (α : Type) [Scalar α] : Prop where
  three : eq (3.0 : α) 0.0 = false
  leastPivot : eq (leastPivot : α) 0.0 = false
  /-- Zero is nearer to zero than the least pivot. -/
  pivot : ∀ p : α, eq p 0.0 = true → lt (abs p) ShadeGraph.leastPivot = true

variable {α : Type} [Scalar α]

theorem quotient_of_ne_zero {a b : α} (h : eq b 0.0 = false) : quotient a b = a / b := by
  simp [quotient, h]

theorem quotient_three [TellsDivisors α] (a : α) : quotient a 3.0 = a / 3.0 :=
  quotient_of_ne_zero TellsDivisors.three

/-! ### Doubles -/

theorem lt_eq_unpack (a b : Float) : lt a b = a.toModel.unpack.lt b.toModel.unpack := by
  have hfloat : lt a b = a.lt b := Bool.decide_eq_true
  have hmodel : a.lt b = a.toModel.unpack.lt b.toModel.unpack := Bool.decide_eq_true
  rw [hfloat, hmodel]

theorem unpack_zero : (0.0 : Float).toModel.unpack = .zero .positive := by rfl

theorem exists_unpack_leastPivot :
    ∃ m e h, (leastPivot : Float).toModel.unpack = .finite .positive m e h := ⟨_, _, _, rfl⟩

/-- Only the two zeros are equal to zero. -/
theorem exists_eq_zero_of_beq {u : Float.Model.UnpackedFloat}
    (h : u.beq (.zero .positive) = true) : ∃ s, u = .zero s := by
  match u with
  | .zero s => exact ⟨s, rfl⟩
  | .notANumber => exact absurd h Bool.false_ne_true
  | .infinity .positive | .infinity .negative => exact absurd h Bool.false_ne_true
  | .finite .positive _ _ _ | .finite .negative _ _ _ => exact absurd h Bool.false_ne_true

instance : TellsDivisors Float where
  three := by decide
  leastPivot := by decide
  pivot p hp := by
    have hbeq : p.toModel.unpack.beq (.zero .positive) = true := by
      rw [← unpack_zero]
      exact hp
    obtain ⟨s, hs⟩ := exists_eq_zero_of_beq hbeq
    obtain ⟨m, e, h, hleast⟩ := exists_unpack_leastPivot
    have hsign : lt p 0.0 = false := by
      rw [lt_eq_unpack, hs, unpack_zero]
      rfl
    have habs : abs p = p := by simp [abs, hsign]
    rw [habs, lt_eq_unpack, hs, hleast]
    rfl

end Scalar

end ShadeGraph
