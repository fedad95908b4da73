import ShadeGraph.Number.Scalar

/-!
# Colors

A node outputs four components. Host settings give a color as a single value, as three components
or as four; `Shade.toRgba` brings them to four.
-/

namespace ShadeGraph

/-- One of the four components. -/
inductive Component where
  | red
  | green
  | blue
  | alpha
deriving DecidableEq, Repr

namespace Component

def index : Component → Nat
  | red => 0
  | green => 1
  | blue => 2
  | alpha => 3

def ofIndex? : Int → Option Component
  | 0 => some red
  | 1 => some green
  | 2 => some blue
  | 3 => some alpha
  | _ => none

theorem ofIndex?_index (c : Component) : ofIndex? c.index = some c := by cases c <;> rfl

end Component

/-- Four values, one for each component. -/
@[ext] structure Rgba (α : Type) where
  red : α
  green : α
  blue : α
  alpha : α
deriving DecidableEq, Repr

namespace Rgba

variable {α β γ : Type}

def get (v : Rgba α) : Component → α
  | .red => v.red
  | .green => v.green
  | .blue => v.blue
  | .alpha => v.alpha

def replicate (a : α) : Rgba α := ⟨a, a, a, a⟩

def map (f : α → β) (v : Rgba α) : Rgba β := ⟨f v.red, f v.green, f v.blue, f v.alpha⟩

def map₂ (f : α → β → γ) (v : Rgba α) (w : Rgba β) : Rgba γ :=
  ⟨f v.red w.red, f v.green w.green, f v.blue w.blue, f v.alpha w.alpha⟩

def toList (v : Rgba α) : List α := [v.red, v.green, v.blue, v.alpha]

@[simp] theorem get_replicate (a : α) (c : Component) : (replicate a).get c = a := by
  cases c <;> rfl

@[simp] theorem get_map (f : α → β) (v : Rgba α) (c : Component) : (v.map f).get c = f (v.get c) := by
  cases c <;> rfl

@[simp] theorem get_map₂ (f : α → β → γ) (v : Rgba α) (w : Rgba β) (c : Component) :
    (v.map₂ f w).get c = f (v.get c) (w.get c) := by
  cases c <;> rfl

theorem ext_get {v w : Rgba α} (h : ∀ c, v.get c = w.get c) : v = w :=
  Rgba.ext (h .red) (h .green) (h .blue) (h .alpha)

end Rgba

/-- A color as the host states it: one value for a gray, or a list of components. -/
inductive Shade (α : Type) where
  | gray (value : α)
  | components (values : List α)
deriving DecidableEq, Repr

/-- A color has neither three nor four components. -/
structure ComponentCount where
  count : Nat
deriving DecidableEq, Repr

def ComponentCount.message (e : ComponentCount) : String :=
  s!"Expected a scalar, RGB or RGBA value, got {e.count} components"

/-- Four components; `alpha` completes a gray and a color of three. -/
def Shade.toRgba {α : Type} (alpha : α) : Shade α → Except ComponentCount (Rgba α)
  | gray v => .ok ⟨v, v, v, alpha⟩
  | components [r, g, b] => .ok ⟨r, g, b, alpha⟩
  | components [r, g, b, a] => .ok ⟨r, g, b, a⟩
  | components values => .error ⟨values.length⟩

/-- A gray or three or four components. -/
def Shade.WellFormed {α : Type} : Shade α → Prop
  | gray _ => True
  | components values => values.length = 3 ∨ values.length = 4

theorem Shade.toRgba_isOk_iff {α : Type} (alpha : α) (s : Shade α) :
    (∃ v, s.toRgba alpha = .ok v) ↔ s.WellFormed := by
  match s with
  | .gray _ => simp [toRgba, WellFormed]
  | .components [] => simp [toRgba, WellFormed]
  | .components [_] => simp [toRgba, WellFormed]
  | .components [_, _] => simp [toRgba, WellFormed]
  | .components [_, _, _] => simp [toRgba, WellFormed]
  | .components [_, _, _, _] => simp [toRgba, WellFormed]
  | .components (_ :: _ :: _ :: _ :: _ :: _) => simp [toRgba, WellFormed]

end ShadeGraph
