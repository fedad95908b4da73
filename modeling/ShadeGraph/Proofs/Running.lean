import Mathlib.Tactic

/-!
# Running steps that may fail

A step reads and changes a state, whether it succeeds or not. The one after it runs from the state it
leaves, unless it failed.
-/

namespace ShadeGraph

variable {σ ε β γ : Type}

theorem run_bind (p : ExceptT ε (StateM σ) β) (f : β → ExceptT ε (StateM σ) γ) (s : σ) :
    (p >>= f).run.run s =
      match p.run.run s with
      | (.ok b, later) => (f b).run.run later
      | (.error e, later) => (.error e, later) := by
  rw [ExceptT.run_bind, StateT.run_bind]
  cases p.run.run s with
  | mk result later => cases result <;> rfl

theorem run_bind_of_ok {p : ExceptT ε (StateM σ) β} {s later : σ} {b : β}
    (h : p.run.run s = (.ok b, later)) (f : β → ExceptT ε (StateM σ) γ) :
    (p >>= f).run.run s = (f b).run.run later := by rw [run_bind, h]

theorem run_bind_of_error {p : ExceptT ε (StateM σ) β} {s later : σ} {e : ε}
    (h : p.run.run s = (.error e, later)) (f : β → ExceptT ε (StateM σ) γ) :
    (p >>= f).run.run s = (.error e, later) := by rw [run_bind, h]

theorem run_map (f : β → γ) (p : ExceptT ε (StateM σ) β) (s : σ) :
    (f <$> p).run.run s = ((p.run.run s).1.map f, (p.run.run s).2) := by
  rw [map_eq_pure_bind, run_bind]
  rcases p.run.run s with ⟨e | b, later⟩ <;> rfl

theorem run_get_bind (f : σ → ExceptT ε (StateM σ) β) (s : σ) :
    (get >>= f).run.run s = (f s).run.run s := rfl

theorem run_set_bind (f : PUnit → ExceptT ε (StateM σ) β) (s later : σ) :
    (set later >>= f).run.run s = (f ⟨⟩).run.run later := rfl

end ShadeGraph
