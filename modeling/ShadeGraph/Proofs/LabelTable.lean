import ShadeGraph.Session.LabelTable

/-!
# What a label leads to

A table is read at the first entry whose label counts as the given one. Writing under a label that
counts as itself is read there again. Nothing but a text counts as the same text.
-/

namespace ShadeGraph

variable {α β : Type} [Scalar α]

theorem Value.eq_of_same_text {v : Value α} {s : String} (h : v.same (.text s)) : v = .text s := by
  cases v with
  | text => simpa using h
  | number a =>
    simp only [same, sameAtom, whole?] at h
    cases hwhole : Scalar.whole? a <;> simp [hwhole] at h
  | _ => simp [same, sameAtom, whole?] at h

theorem Value.eq_of_text_same {v : Value α} {s : String} (h : (Value.text s : Value α).same v) :
    v = .text s := by
  cases v with
  | text => simpa using (beq_iff_eq.mp h).symm
  | number a =>
    simp only [same, sameAtom, whole?] at h
    cases hwhole : Scalar.whole? a <;> simp [hwhole] at h
  | _ => simp [same, sameAtom, whole?] at h

namespace LabelTable

theorem get?_cons (e : Value α × β) (t : LabelTable α β) (label : Value α) :
    get? (e :: t) label = if e.1.same label then some e.2 else get? t label := by
  rw [get?, entry?, List.find?_cons]
  cases e.1.same label <;> rfl

theorem get?_append (t u : LabelTable α β) (label : Value α) :
    get? (t ++ u) label = (t.get? label <|> get? u label) := by
  induction t with
  | nil => rfl
  | cons e t ih =>
    rw [List.cons_append, get?_cons, get?_cons, ih]
    split <;> rfl

theorem get?_insertIfNew_self {label : Value α} (hlabel : label.same label) (t : LabelTable α β)
    (value : β) : (t.insertIfNew label value).get? label = (t.get? label <|> some value) := by
  unfold insertIfNew
  rw [contains_eq_isSome]
  cases hget : t.get? label with
  | some old => simp [hget]
  | none => simp [get?_append, get?_cons, hget, hlabel]

theorem insertIfNew_of_contains {t : LabelTable α β} {label : Value α} (h : t.contains label)
    (value : β) : t.insertIfNew label value = t := if_pos h

/-- Reading at a label that only itself counts as. -/
theorem get?_insertIfNew {label target : Value α} (hexact : label.same target → label = target)
    (t : LabelTable α β) (value : β) : (t.insertIfNew label value).get? target =
      (t.get? target <|> if label.same target then some value else none) := by
  by_cases hsame : label.same target
  · obtain rfl := hexact hsame
    rw [get?_insertIfNew_self hsame, if_pos hsame]
  · rw [if_neg hsame]
    unfold insertIfNew
    split
    · simp
    · simp [get?, entry?, hsame]

theorem get?_upsert_self {label : Value α} (hlabel : label.same label) (t : LabelTable α β)
    (default : β) (f : β → β) :
    (t.upsert label default f).get? label = some (f ((t.get? label).getD default)) := by
  unfold upsert
  rw [contains_eq_isSome]
  cases hget : t.get? label with
  | none => simp [get?_append, get?_cons, hget, hlabel]
  | some old =>
    rw [Option.isSome_some, if_pos rfl, Option.getD_some]
    induction t with
    | nil => cases hget
    | cons e t ih =>
      rw [get?_cons] at hget
      rw [List.map_cons, get?_cons]
      cases hsame : e.1.same label with
      | true =>
        rw [hsame, if_pos rfl] at hget
        rw [if_pos rfl, if_pos hsame, Option.some.inj hget]
      | false =>
        rw [hsame, if_neg Bool.false_ne_true] at hget
        rw [if_neg Bool.false_ne_true, hsame, if_neg Bool.false_ne_true, ih hget]

/-- Writing under another label leaves a text alone. -/
theorem get?_upsert_of_ne {label : Value α} {s : String} (h : label ≠ .text s)
    (t : LabelTable α β) (default : β) (f : β → β) :
    (t.upsert label default f).get? (.text s) = t.get? (.text s) := by
  have hmap : get? (t.map fun e => if e.1.same label then (e.1, f e.2) else e) (.text s) =
      t.get? (.text s) := by
    induction t with
    | nil => rfl
    | cons e t ih =>
      rw [List.map_cons, get?_cons, get?_cons, ih]
      by_cases htext : e.1.same (.text s)
      · have hother : ¬ e.1.same label := by
          rw [Value.eq_of_same_text htext]
          exact fun hsame => h (Value.eq_of_text_same hsame)
        rw [if_neg hother]
      · rw [if_neg htext]
        split <;> rfl
  unfold upsert
  split
  · exact hmap
  · rw [get?_append, get?_cons, if_neg fun hsame => h (Value.eq_of_same_text hsame)]
    cases t.get? (.text s) <;> rfl

end LabelTable

end ShadeGraph
