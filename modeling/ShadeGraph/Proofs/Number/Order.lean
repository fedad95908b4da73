import Mathlib.Data.Prod.Lex
import Mathlib.Tactic
import ShadeGraph.Number.Scalar

/-!
# Numbers in order

A scalar need not be a number, and what is no number compares with nothing. Numbers are in a linear
order: doubles are ordered by sign, exponent and significand.
-/

namespace ShadeGraph

namespace Scalar

/-- Scalars whose numbers are in a linear order. -/
class Ordered (α : Type) [Scalar α] : Prop where
  lt_asymm : ∀ {a b : α}, lt a b = true → lt b a = false
  le_of_lt : ∀ {a b : α}, lt a b = true → le a b = true
  le_trans : ∀ {a b c : α}, le a b = true → le b c = true → le a c = true
  /-- Only numbers compare. -/
  isNumber : ∀ {a b : α}, le a b = true → isNumber a = true ∧ isNumber b = true
  le_of_not_lt : ∀ {a b : α}, Scalar.isNumber a = true → Scalar.isNumber b = true →
    lt b a = false → le a b = true
  zero_lt_hundred : lt (0.0 : α) 100.0 = true

section

variable {α : Type} [Scalar α] [Ordered α] {a b : α}

theorem lt_irrefl (a : α) : lt a a = false := by
  cases h : lt a a with
  | false => rfl
  | true => exact (Ordered.lt_asymm h).symm.trans h |>.symm

theorem le_refl_of_isNumber (h : isNumber a = true) : le a a = true :=
  Ordered.le_of_not_lt h h (lt_irrefl a)

theorem zero_le_hundred : le (0.0 : α) 100.0 = true := Ordered.le_of_lt Ordered.zero_lt_hundred

theorem isNumber_zero : isNumber (0.0 : α) = true := (Ordered.isNumber zero_le_hundred).1

theorem isNumber_hundred : isNumber (100.0 : α) = true := (Ordered.isNumber zero_le_hundred).2

theorem le_larger_left (h : isNumber a = true) (b : α) : le a (larger a b) = true := by
  unfold larger
  split_ifs with hlt
  · exact Ordered.le_of_lt hlt
  · exact le_refl_of_isNumber h

/-- A number stays below a bound if what it grows to is below the bound as far as it is a number. -/
theorem larger_le {bound : α} (ha : le a bound = true)
    (hb : isNumber b = true → le b bound = true) : le (larger a b) bound = true := by
  unfold larger
  split_ifs with hlt
  · exact hb (Ordered.isNumber (Ordered.le_of_lt hlt)).2
  · exact ha

theorem smaller_le (hb : isNumber b = true) (h : isNumber (smaller a b) = true) :
    le (smaller a b) b = true := by
  unfold smaller at h ⊢
  split_ifs at h ⊢ with hlt
  · exact le_refl_of_isNumber hb
  · exact Ordered.le_of_not_lt h hb (Bool.not_eq_true _ ▸ hlt)

end

/-! ### Doubles -/

open Float.Model (UnpackedFloat)

/-- The places of doubles in their order: first the sign of the infinite and the finite ones. -/
abbrev Rank := ℤ ×ₗ ℤ ×ₗ ℤ

/-- The place of a double that is a number. -/
def rank? : UnpackedFloat → Option Rank
  | .notANumber => none
  | .infinity .negative => some (toLex (-2, toLex (0, 0)))
  | .finite .negative m e _ => some (toLex (-1, toLex (-e, -m)))
  | .zero _ => some (toLex (0, toLex (0, 0)))
  | .finite .positive m e _ => some (toLex (1, toLex (e, m)))
  | .infinity .positive => some (toLex (2, toLex (0, 0)))

theorem compare_toLex (sign e₁ e₂ m₁ m₂ : ℤ) :
    compare (toLex (sign, toLex (e₁, m₁)) : Rank) (toLex (sign, toLex (e₂, m₂))) =
      (compare e₁ e₂).then (compare m₁ m₂) := by
  simp [Prod.Lex.compare_def, compareLex, compareOn]

theorem compare_neg (a b : ℤ) : compare (-a) (-b) = (compare a b).swap := by
  rw [← cmp_eq_compare, ← cmp_eq_compare, cmp_swap]
  have hanti : StrictAnti (Neg.neg : ℤ → ℤ) := fun _ _ h => Int.neg_lt_neg h
  exact hanti.cmp_map_eq a b

theorem compare_natCast (a b : ℕ) : compare (a : ℤ) b = compare a b := by
  rw [← cmp_eq_compare, ← cmp_eq_compare]
  exact Nat.strictMono_cast.cmp_map_eq a b

/-- Doubles compare as their places. -/
theorem compare_eq_rank? (u v : UnpackedFloat) :
    u.compare v = (do return compare (← rank? u) (← rank? v)) := by
  cases u with
  | notANumber => rfl
  | zero s =>
    cases v with
    | notANumber | zero _ => rfl
    | infinity t | finite t _ _ _ => cases t <;> rfl
  | infinity s =>
    cases v with
    | notANumber | zero _ => cases s <;> rfl
    | infinity t | finite t _ _ _ => cases s <;> cases t <;> rfl
  | finite s m₁ e₁ _ =>
    cases v with
    | notANumber | zero _ => cases s <;> rfl
    | infinity t => cases s <;> cases t <;> rfl
    | finite t m₂ e₂ _ =>
      cases s <;> cases t
      · refine congrArg some ((compare_toLex _ _ _ _ _).trans ?_).symm
        rw [compare_neg, compare_neg, compare_natCast, Ordering.swap_then]
      · rfl
      · rfl
      · refine congrArg some ((compare_toLex _ _ _ _ _).trans ?_).symm
        rw [compare_natCast]

/-- The place of a double in their order, if it is a number. -/
def place? (a : Float) : Option Rank := rank? a.toModel.unpack

theorem lt_iff_place? {a b : Float} :
    lt a b = true ↔ ∃ x y, place? a = some x ∧ place? b = some y ∧ x < y := by
  have hmodel : lt a b = (a.toModel.unpack.compare b.toModel.unpack == some .lt) := by
    have hfloat : lt a b = a.lt b := Bool.decide_eq_true
    exact hfloat.trans Bool.decide_eq_true
  rw [hmodel, compare_eq_rank?, place?, place?]
  cases rank? a.toModel.unpack <;> cases rank? b.toModel.unpack <;>
    simp [compare_lt_iff_lt]

theorem le_iff_place? {a b : Float} :
    le a b = true ↔ ∃ x y, place? a = some x ∧ place? b = some y ∧ x ≤ y := by
  have hmodel : le a b = (a.toModel.unpack.compare b.toModel.unpack).any (·.isLE) := by
    have hfloat : le a b = a.le b := Bool.decide_eq_true
    exact hfloat.trans Bool.decide_eq_true
  rw [hmodel, compare_eq_rank?, place?, place?]
  cases rank? a.toModel.unpack <;> cases rank? b.toModel.unpack <;>
    simp [Ordering.isLE_iff_ne_gt, compare_le_iff_le]

theorem isNumber_iff_place? {a : Float} : isNumber a = true ↔ ∃ x, place? a = some x := by
  have hmodel : isNumber a = (a.toModel.unpack.compare a.toModel.unpack == some .eq) := rfl
  rw [hmodel, compare_eq_rank?, place?]
  cases rank? a.toModel.unpack <;> simp

instance : Ordered Float where
  lt_asymm {a b} h := by
    obtain ⟨x, y, hx, hy, hlt⟩ := lt_iff_place?.mp h
    rw [Bool.eq_false_iff]
    intro hback
    obtain ⟨y', x', hy', hx', hlt'⟩ := lt_iff_place?.mp hback
    cases hx.symm.trans hx'
    cases hy.symm.trans hy'
    exact lt_asymm hlt hlt'
  le_of_lt h := by
    obtain ⟨x, y, hx, hy, hlt⟩ := lt_iff_place?.mp h
    exact le_iff_place?.mpr ⟨x, y, hx, hy, hlt.le⟩
  le_trans hab hbc := by
    obtain ⟨x, y, hx, hy, hle⟩ := le_iff_place?.mp hab
    obtain ⟨y', z, hy', hz, hle'⟩ := le_iff_place?.mp hbc
    cases hy.symm.trans hy'
    exact le_iff_place?.mpr ⟨x, z, hx, hz, hle.trans hle'⟩
  isNumber h := by
    obtain ⟨x, y, hx, hy, _⟩ := le_iff_place?.mp h
    exact ⟨isNumber_iff_place?.mpr ⟨x, hx⟩, isNumber_iff_place?.mpr ⟨y, hy⟩⟩
  le_of_not_lt ha hb hlt := by
    obtain ⟨x, hx⟩ := isNumber_iff_place?.mp ha
    obtain ⟨y, hy⟩ := isNumber_iff_place?.mp hb
    refine le_iff_place?.mpr ⟨x, y, hx, hy, le_of_not_gt fun hback => ?_⟩
    exact Bool.false_ne_true (hlt.symm.trans (lt_iff_place?.mpr ⟨y, x, hy, hx, hback⟩))
  zero_lt_hundred := by decide

end Scalar

end ShadeGraph
