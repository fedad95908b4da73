import ShadeGraph.Text.Value

/-!
# Tables by label

Hosts and scripts call things by whatever they like. Labels that count as the same value lead to one
entry, which keeps the label that it was made with.
-/

namespace ShadeGraph

abbrev LabelTable (α β : Type) := List (Value α × β)

namespace LabelTable

variable {α β : Type} [Scalar α]

/-- The entry that a label leads to. -/
def entry? (t : LabelTable α β) (label : Value α) : Option (Value α × β) :=
  t.find? fun e => e.1.same label

def get? (t : LabelTable α β) (label : Value α) : Option β := (t.entry? label).map (·.2)

def contains (t : LabelTable α β) (label : Value α) : Bool := t.any fun e => e.1.same label

/-- Changes the value of a label, starting from `default` if it has none. -/
def upsert (t : LabelTable α β) (label : Value α) (default : β) (f : β → β) : LabelTable α β :=
  if t.contains label then t.map fun e => if e.1.same label then (e.1, f e.2) else e
  else t ++ [(label, f default)]

/-- Gives a label a value, in its old place or at the end. -/
def insert (t : LabelTable α β) (label : Value α) (value : β) : LabelTable α β :=
  if t.contains label then t.map fun e => if e.1.same label then (e.1, value) else e
  else t ++ [(label, value)]

/-- Writes all entries of `u`, one after the other. -/
def insertAll (t u : LabelTable α β) : LabelTable α β := u.foldl (fun t e => t.insert e.1 e.2) t

/-- Gives a label a value unless it has one. -/
def insertIfNew (t : LabelTable α β) (label : Value α) (value : β) : LabelTable α β :=
  if t.contains label then t else t ++ [(label, value)]

theorem contains_eq_isSome (t : LabelTable α β) (label : Value α) :
    t.contains label = (t.get? label).isSome := by
  rw [Bool.eq_iff_iff]
  simp [contains, get?, entry?]

end LabelTable

end ShadeGraph
