import Mathlib.Tactic
import ShadeGraph.Table

/-!
# Keys of tables

A key has a value exactly when it is listed. Writing to a new key lists it last, and nothing else
changes the keys or their order. Read the other way, a table leads from a value to its first key.
-/

namespace ShadeGraph.Table

variable {κ β : Type}

/-- The keys in their order. -/
def keys (t : Table κ β) : List κ := t.map (·.1)

@[simp] theorem keys_nil : keys ([] : Table κ β) = [] := rfl

@[simp] theorem keys_cons (e : κ × β) (t : Table κ β) : keys (e :: t) = e.1 :: t.keys := rfl

@[simp] theorem keys_append (t u : Table κ β) : keys (t ++ u) = t.keys ++ u.keys := List.map_append

variable [DecidableEq κ]

theorem contains_eq_false_iff {t : Table κ β} {key : κ} :
    t.contains key = false ↔ key ∉ t.keys := by
  simp only [contains, keys, List.any_eq_false, decide_eq_true_eq, List.mem_map, not_exists,
    not_and]

theorem get?_eq_none_iff_notMem {t : Table κ β} {key : κ} : t.get? key = none ↔ key ∉ t.keys := by
  rw [get?_eq_none_iff, contains_eq_false_iff]

theorem mem_keys_iff {t : Table κ β} {key : κ} : key ∈ t.keys ↔ ∃ v, t.get? key = some v := by
  rw [← not_iff_not, ← get?_eq_none_iff_notMem, ← Option.isSome_iff_exists,
    Option.not_isSome_iff_eq_none]

theorem mem_of_get?_eq_some {t : Table κ β} {key : κ} {v : β} (h : t.get? key = some v) :
    (key, v) ∈ t := by
  obtain ⟨e, he, rfl⟩ := Option.map_eq_some_iff.mp h
  obtain rfl : e.1 = key := by simpa using List.find?_some he
  exact List.mem_of_find?_eq_some he

/-- Where a key is listed once, its entry gives its value. -/
theorem get?_eq_some_of_mem {t : Table κ β} (hkeys : t.keys.Nodup) {key : κ} {v : β}
    (h : (key, v) ∈ t) : t.get? key = some v := by
  induction t with
  | nil => exact absurd h List.not_mem_nil
  | cons e t ih =>
    obtain ⟨hnew, hkeys⟩ := List.nodup_cons.mp hkeys
    rw [get?_cons]
    rcases List.mem_cons.mp h with rfl | h
    · exact if_pos rfl
    · rw [if_neg, ih hkeys h]
      rintro rfl
      exact hnew (List.mem_map.mpr ⟨_, h, rfl⟩)

theorem insert_of_notMem {t : Table κ β} {key : κ} (h : key ∉ t.keys) (v : β) :
    t.insert key v = t ++ [(key, v)] := by
  rw [insert, contains_eq_false_iff.mpr h]
  rfl

theorem keys_insert_of_notMem {t : Table κ β} {key : κ} (h : key ∉ t.keys) (v : β) :
    (t.insert key v).keys = t.keys ++ [key] := by
  rw [insert_of_notMem h]
  exact keys_append t [(key, v)]

/-- Writing to new keys, one after the other, appends the entries. -/
theorem foldl_insert_of_nodup {ι : Type} (t : Table κ β) (xs : List ι) (key : ι → κ)
    (value : ι → β) (h : (t.keys ++ xs.map key).Nodup) :
    xs.foldl (fun t x => t.insert (key x) (value x)) t = t ++ xs.map fun x => (key x, value x) := by
  induction xs generalizing t with
  | nil => rw [List.foldl_nil, List.map_nil, List.append_nil]
  | cons x xs ih =>
    rw [List.map_cons, List.append_cons] at h
    have hnew : key x ∉ t.keys := by
      have hfirst := (List.nodup_append'.mp (List.nodup_append'.mp h).1).2.2
      exact fun hmem => hfirst hmem (List.mem_singleton_self _)
    rw [List.foldl_cons, insert_of_notMem hnew, ih, List.append_assoc]
    · rfl
    · rwa [keys_append]

theorem keys_insert_of_mem {t : Table κ β} {key : κ} (h : key ∈ t.keys) (v : β) :
    (t.insert key v).keys = t.keys := by
  have hcontains : t.contains key = true := by
    rw [← Bool.not_eq_false, contains_eq_false_iff, not_not]
    exact h
  rw [insert, if_pos hcontains, keys, List.map_map]
  apply List.map_congr_left
  intro e _
  by_cases he : e.1 = key <;> simp [he]

theorem mem_insert {t : Table κ β} {key : κ} {v : β} {e : κ × β} (h : e ∈ t.insert key v) :
    e ∈ t ∨ e = (key, v) := by
  rw [insert] at h
  split_ifs at h
  · obtain ⟨old, hold, rfl⟩ := List.mem_map.mp h
    split_ifs
    · exact .inr rfl
    · exact .inl hold
  · simpa using h

theorem nodup_keys_insert {t : Table κ β} (h : t.keys.Nodup) (key : κ) (v : β) :
    (t.insert key v).keys.Nodup := by
  by_cases hmem : key ∈ t.keys
  · rwa [keys_insert_of_mem hmem]
  · rw [keys_insert_of_notMem hmem]
    exact h.append (List.nodup_singleton _) (List.disjoint_singleton.mpr hmem)

theorem nodup_keys_foldl_insert {ι : Type} (t : Table κ β) (h : t.keys.Nodup) (xs : List ι)
    (key : ι → κ) (value : ι → β) :
    (xs.foldl (fun t x => t.insert (key x) (value x)) t).keys.Nodup := by
  induction xs generalizing t with
  | nil => exact h
  | cons x xs ih => exact ih _ (nodup_keys_insert h _ _)

/-- Writing to other keys does not change a value. -/
theorem get?_foldl_insert_of_notMem {ι : Type} (t : Table κ β) {xs : List ι} {key : ι → κ}
    (value : ι → β) {k : κ} (h : ∀ x ∈ xs, key x ≠ k) :
    (xs.foldl (fun t x => t.insert (key x) (value x)) t).get? k = t.get? k := by
  induction xs generalizing t with
  | nil => rfl
  | cons x xs ih =>
    obtain ⟨hx, hxs⟩ := List.forall_mem_cons.mp h
    rw [List.foldl_cons, ih _ hxs, get?_insert, if_neg hx.symm]

/-- Writing a value for each of several keys. -/
theorem get?_foldl_insert (t : Table κ β) (ks : List κ) (value : κ → β) (k : κ) :
    (ks.foldl (fun t key => t.insert key (value key)) t).get? k =
      if k ∈ ks then some (value k) else t.get? k := by
  induction ks generalizing t with
  | nil => simp
  | cons key ks ih =>
    rw [List.foldl_cons, ih, get?_insert]
    by_cases hmem : k ∈ ks
    · simp [hmem]
    · by_cases hkey : k = key <;> simp [hmem, hkey]

/-- What `u` tells counts, and what `t` tells besides. -/
theorem get?_insertAll (t : Table κ β) {u : Table κ β} (hu : u.keys.Nodup) (k : κ) :
    (t.insertAll u).get? k = (u.get? k <|> t.get? k) := by
  induction u generalizing t with
  | nil => rfl
  | cons e u ih =>
    obtain ⟨hnew, hu⟩ := List.nodup_cons.mp hu
    have hstep : t.insertAll (e :: u) = (t.insert e.1 e.2).insertAll u := rfl
    rw [hstep, ih _ hu, get?_insert, get?_cons]
    by_cases hk : k = e.1
    · rw [hk, get?_eq_none_iff_notMem.mpr hnew]
      simp
    · rw [if_neg hk, if_neg (Ne.symm hk)]

theorem nodup_keys_insertAll {t : Table κ β} (h : t.keys.Nodup) (u : Table κ β) :
    (t.insertAll u).keys.Nodup := nodup_keys_foldl_insert t h u _ _

@[simp] theorem keys_modify (t : Table κ β) (key : κ) (f : β → β) :
    (t.modify key f).keys = t.keys := by
  rw [modify, keys, List.map_map]
  apply List.map_congr_left
  intro e _
  by_cases he : e.1 = key <;> simp [he]

theorem get?_modify (t : Table κ β) (key other : κ) (f : β → β) :
    (t.modify key f).get? other = if other = key then (t.get? other).map f else t.get? other := by
  induction t with
  | nil => simp [modify]
  | cons e t ih =>
    rw [modify] at ih
    rw [modify, List.map_cons, get?_cons, get?_cons, ih]
    by_cases ho : other = key
    · subst ho
      by_cases he : e.1 = other <;> simp [he]
    · by_cases he : e.1 = key
      · simp [he, ho, Ne.symm ho]
      · simp [he, ho]

theorem mem_insertIfNew {t : Table κ β} {key : κ} {v : β} {e : κ × β}
    (h : e ∈ t.insertIfNew key v) : e ∈ t ∨ e = (key, v) := by
  rw [insertIfNew] at h
  split_ifs at h
  · exact .inl h
  · simpa using h

theorem prefix_insertIfNew (t : Table κ β) (key : κ) (v : β) : t <+: t.insertIfNew key v := by
  rw [insertIfNew]
  split_ifs
  · exact List.prefix_rfl
  · exact List.prefix_append t _

theorem nodup_keys_insertIfNew {t : Table κ β} (h : t.keys.Nodup) (key : κ) (v : β) :
    (t.insertIfNew key v).keys.Nodup := by
  rw [insertIfNew]
  split_ifs with hold
  · exact h
  · have hnew := contains_eq_false_iff.mp (Bool.eq_false_iff.mpr hold)
    rw [← insert_of_notMem hnew, keys_insert_of_notMem hnew]
    exact h.append (List.nodup_singleton _) (List.disjoint_singleton.mpr hnew)

theorem mem_keys_insertIfNew (t : Table κ β) (key : κ) (v : β) :
    key ∈ (t.insertIfNew key v).keys := by
  rw [mem_keys_iff, get?_insertIfNew, if_pos rfl]
  exact ⟨_, rfl⟩

theorem mem_keys_insertIfNew_iff {t : Table κ β} {key other : κ} {v : β} :
    other ∈ (t.insertIfNew key v).keys ↔ other = key ∨ other ∈ t.keys := by
  rw [mem_keys_iff, mem_keys_iff, get?_insertIfNew]
  by_cases h : other = key <;> simp [h]

theorem get?_insertIfNew_of_mem {t : Table κ β} {other : κ} (h : other ∈ t.keys) (key : κ) (v : β) :
    (t.insertIfNew key v).get? other = t.get? other := by
  obtain ⟨old, hold⟩ := mem_keys_iff.mp h
  rw [get?_insertIfNew]
  split_ifs with hkey
  · rw [← hkey, hold, Option.getD_some]
  · rfl

/-- A key that had no value has one because it is the new key. -/
theorem eq_of_get?_insertIfNew {t : Table κ β} {key other : κ} {v w : β} (hnew : other ∉ t.keys)
    (h : (t.insertIfNew key v).get? other = some w) : other = key ∧ w = v := by
  have hnone := get?_eq_none_iff_notMem.mpr hnew
  rw [get?_insertIfNew] at h
  split_ifs at h with hkey
  · rw [← hkey, hnone, Option.getD_none] at h
    exact ⟨hkey, (Option.some.inj h).symm⟩
  · rw [hnone] at h
    contradiction

/-- Of the values written for a key the first one is kept. -/
theorem get?_foldl_insertIfNew {ι : Type} (t : Table κ β) (xs : List ι) (key : ι → κ)
    (value : ι → β) (k : κ) :
    (xs.foldl (fun t x => t.insertIfNew (key x) (value x)) t).get? k =
      (t.get? k <|> (xs.find? fun x => key x = k).map value) := by
  induction xs generalizing t with
  | nil => simp
  | cons x xs ih =>
    rw [List.foldl_cons, ih, get?_insertIfNew, List.find?_cons]
    by_cases hk : key x = k
    · subst hk
      cases t.get? (key x) <;> simp
    · simp [hk, Ne.symm hk]

/-! ### The way back -/

section

variable [DecidableEq β]

/-- The first key with a value, in the order of the entries. -/
def keyOf? (t : Table κ β) (v : β) : Option κ := (t.find? fun e => e.2 = v).map (·.1)

variable {t : Table κ β} {key : κ} {v : β}

omit [DecidableEq κ] in
theorem mem_of_keyOf?_eq_some (h : t.keyOf? v = some key) : (key, v) ∈ t := by
  obtain ⟨e, he, rfl⟩ := Option.map_eq_some_iff.mp h
  obtain rfl : e.2 = v := by simpa using List.find?_some he
  exact List.mem_of_find?_eq_some he

omit [DecidableEq κ] in
theorem keyOf?_eq_none_iff : t.keyOf? v = none ↔ ∀ e ∈ t, e.2 ≠ v := by
  simp [keyOf?]

/-- Where no key comes with two values, the first key of a value has this value. -/
theorem get?_of_keyOf?_eq_some (h : t.keyOf? v = some key)
    (hvalues : ∀ k a b, (k, a) ∈ t → (k, b) ∈ t → a = b) : t.get? key = some v := by
  have hmem := mem_of_keyOf?_eq_some h
  obtain ⟨first, hfirst⟩ := mem_keys_iff.mp (List.mem_map_of_mem hmem)
  rw [hfirst, hvalues key first v (mem_of_get?_eq_some hfirst) hmem]

/-- A key added later does not come before the first one. -/
theorem keyOf?_insertIfNew_of_eq_some (h : t.keyOf? v = some key) (other : κ) (w : β) :
    (t.insertIfNew other w).keyOf? v = some key := by
  obtain ⟨e, he, rfl⟩ := Option.map_eq_some_iff.mp h
  rw [keyOf?, (prefix_insertIfNew t other w).find?_eq_some he, Option.map_some]

theorem keyOf?_insertIfNew_self (hkey : key ∉ t.keys) (hnone : t.keyOf? v = none) :
    (t.insertIfNew key v).keyOf? v = some key := by
  have hnew := contains_eq_false_iff.mpr hkey
  have hfind := Option.map_eq_none_iff.mp hnone
  simp [keyOf?, insertIfNew, hnew, List.find?_append, hfind]

/-- The values of one table stay keys of the other one when a pair is added to both. -/
theorem mem_keys_of_get?_insertIfNew {u : Table β κ}
    (h : ∀ {k w}, t.get? k = some w → w ∈ u.keys) (key : κ) (v : β) {k : κ} {w : β}
    (hget : (t.insertIfNew key v).get? k = some w) : w ∈ (u.insertIfNew v key).keys := by
  by_cases hk : k ∈ t.keys
  · rw [get?_insertIfNew_of_mem hk] at hget
    exact mem_keys_insertIfNew_iff.mpr (.inr (h hget))
  · obtain ⟨_, rfl⟩ := eq_of_get?_insertIfNew hk hget
    exact mem_keys_insertIfNew _ _ _

end

end ShadeGraph.Table
