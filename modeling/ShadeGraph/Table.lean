/-!
# Tables in the order of insertion

A table is a list of entries with different keys. Writing to a key that has an entry keeps its place.
`Table.get?` is the view of a table: the lemmas say what every operation does to it.
-/

namespace ShadeGraph

abbrev Table (κ β : Type) := List (κ × β)

namespace Table

variable {κ β : Type} [DecidableEq κ]

/-- The value of a key. -/
def get? (t : Table κ β) (key : κ) : Option β := (t.find? fun e => e.1 = key).map (·.2)

def contains (t : Table κ β) (key : κ) : Bool := t.any fun e => e.1 = key

/-- Gives a key a value, in its old place or at the end. -/
def insert (t : Table κ β) (key : κ) (value : β) : Table κ β :=
  if t.contains key then t.map fun e => if e.1 = key then (key, value) else e
  else t ++ [(key, value)]

/-- Gives a key a value unless it has one. -/
def insertIfNew (t : Table κ β) (key : κ) (value : β) : Table κ β :=
  if t.contains key then t else t ++ [(key, value)]

/-- Replaces the value of a key, if it has one. -/
def modify (t : Table κ β) (key : κ) (f : β → β) : Table κ β :=
  t.map fun e => if e.1 = key then (e.1, f e.2) else e

/-- Changes the value of a key, starting from `default` if it has none. -/
def upsert (t : Table κ β) (key : κ) (default : β) (f : β → β) : Table κ β :=
  t.insert key (f ((t.get? key).getD default))

/-- Removes the entry of a key. -/
def erase (t : Table κ β) (key : κ) : Table κ β := t.filter fun e => e.1 ≠ key

/-- Writes all entries of `u`, one after the other. -/
def insertAll (t u : Table κ β) : Table κ β := u.foldl (fun t e => t.insert e.1 e.2) t

theorem contains_eq_isSome (t : Table κ β) (key : κ) : t.contains key = (t.get? key).isSome := by
  rw [Bool.eq_iff_iff]
  simp [contains, get?]

@[simp] theorem get?_nil (key : κ) : get? ([] : Table κ β) key = none := rfl

theorem get?_cons (e : κ × β) (t : Table κ β) (key : κ) :
    get? (e :: t) key = if e.1 = key then some e.2 else t.get? key := by
  by_cases h : e.1 = key <;> simp [get?, h]

theorem get?_append (t u : Table κ β) (key : κ) :
    get? (t ++ u) key = (t.get? key <|> u.get? key) := by
  induction t with
  | nil => simp
  | cons e t ih => by_cases h : e.1 = key <;> simp [get?_cons, h, ih]

theorem get?_eq_none_iff {t : Table κ β} {key : κ} : t.get? key = none ↔ t.contains key = false := by
  rw [contains_eq_isSome, Option.isSome_eq_false_iff, Option.isNone_iff_eq_none]

theorem get?_insertIfNew (t : Table κ β) (key other : κ) (value : β) :
    (t.insertIfNew key value).get? other =
      if other = key then some ((t.get? key).getD value) else t.get? other := by
  unfold insertIfNew
  cases h : t.contains key with
  | true =>
    rw [contains_eq_isSome, Option.isSome_iff_exists] at h
    obtain ⟨v, hv⟩ := h
    by_cases ho : other = key <;> simp [ho, hv]
  | false =>
    have hn := get?_eq_none_iff.2 h
    by_cases ho : other = key
    · simp [get?_append, get?_cons, ho, hn]
    · simp [get?_append, get?_cons, ho, Ne.symm ho]

theorem get?_overwrite (t : Table κ β) (key other : κ) (value : β) :
    get? (t.map fun e => if e.1 = key then (key, value) else e) other =
      if other = key then (t.get? key).map fun _ => value else t.get? other := by
  induction t with
  | nil => simp
  | cons e t ih =>
    rw [List.map_cons, get?_cons, get?_cons, get?_cons, ih]
    by_cases ho : other = key
    · subst ho
      by_cases he : e.1 = other <;> simp [he]
    · by_cases he : e.1 = key
      · simp [he, ho, Ne.symm ho]
      · simp [he, ho]

theorem get?_insert (t : Table κ β) (key other : κ) (value : β) :
    (t.insert key value).get? other = if other = key then some value else t.get? other := by
  unfold insert
  cases h : t.contains key with
  | true =>
    rw [contains_eq_isSome, Option.isSome_iff_exists] at h
    obtain ⟨v, hv⟩ := h
    simp [get?_overwrite, hv]
  | false =>
    have hn := get?_eq_none_iff.2 h
    by_cases ho : other = key
    · simp [get?_append, get?_cons, ho, hn]
    · simp [get?_append, get?_cons, ho, Ne.symm ho]

theorem get?_erase (t : Table κ β) (key other : κ) :
    (t.erase key).get? other = if other = key then none else t.get? other := by
  induction t with
  | nil => simp [erase]
  | cons e t ih =>
    rw [erase] at ih
    rw [erase, List.filter_cons, get?_cons]
    by_cases ho : other = key
    · subst ho
      by_cases he : e.1 = other
      · simpa [he] using ih
      · simpa [he, get?_cons] using ih
    · by_cases he : e.1 = key
      · simpa [he, ho, Ne.symm ho] using ih
      · rw [if_neg ho] at ih ⊢
        simp only [he, ne_eq, not_false_eq_true, decide_true, ite_true, get?_cons]
        rw [← ih]

end Table

end ShadeGraph
