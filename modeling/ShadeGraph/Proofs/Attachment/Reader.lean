import ShadeGraph.Proofs.Attachment.Fields

/-!
# What readers accept

A reader is described by a relation between values and bytes: at the front of what is left it
accepts exactly the bytes that stand for some value, and it returns that value. Such descriptions
compose, so one law for each part of the layout says both that written bytes are read back and that
no others are accepted.
-/

namespace ShadeGraph.Attachment

/-- The reader accepts at the front exactly the bytes that `W` relates to a value. -/
def Reads {β : Type} (p : Reader β) (W : β → List UInt8 → Prop) : Prop :=
  ∀ c b c', p.run c = .ok (b, c') ↔
    ∃ xs, W b xs ∧ c.rest = xs ++ c'.rest ∧ c'.offset = c.offset + xs.length

section

variable {α β : Type} {p q : Reader α} {c d : Cursor}

theorem run_bind_eq_ok {f : α → Reader β} {b : β} :
    (p >>= f).run c = .ok (b, d) ↔
      ∃ a c₁, p.run c = .ok (a, c₁) ∧ (f a).run c₁ = .ok (b, d) := by
  rw [StateT.run_bind]
  cases h : p.run c with
  | error e => simp [Bind.bind, Except.bind]
  | ok r => simp [Bind.bind, Except.bind, Prod.ext_iff]

theorem run_guarded {P : Prop} [Decidable P] {a : α} (hq : ∀ c, ∃ e, q.run c = .error e) :
    (if P then q else p).run c = .ok (a, d) ↔ ¬ P ∧ p.run c = .ok (a, d) := by
  obtain ⟨e, he⟩ := hq c
  split_ifs with h <;> simp [he, h]

theorem run'_eq_ok {a : α} : p.run' c = .ok a ↔ ∃ d, p.run c = .ok (a, d) := by
  rw [StateT.run']
  change (·.1) <$> p.run c = _ ↔ _
  cases p.run c with
  | error e => simp [Functor.map, Except.map]
  | ok r => simp [Functor.map, Except.map, Prod.ext_iff]

/-- Comparing a count with what is left refuses nothing that could be read. -/
theorem run_enough {k : Nat} {a : α} (hq : ∀ c, ∃ e, q.run c = .error e)
    (hk : p.run c = .ok (a, d) → k ≤ c.rest.length) :
    (do if (← Reader.remaining) < k then q else p : Reader α).run c = .ok (a, d) ↔
      p.run c = .ok (a, d) := by
  change (if c.rest.length < k then q else p).run c = _ ↔ _
  rw [run_guarded hq, not_lt]
  exact and_iff_right_of_imp hk

/-- Nothing may be left behind what is read. -/
theorem run_trailing {W : α → List UInt8 → Prop} {a : α} {q : Nat → α → Reader α}
    (hp : Reads p W) (hq : ∀ left a c, ∃ e, (q left a).run c = .error e) :
    (do
      let a ← p
      let left ← Reader.remaining
      if left ≠ 0 then q left a else return a : Reader α).run c = .ok (a, d) ↔
      W a c.rest ∧ d = ⟨c.offset + c.rest.length, []⟩ := by
  have hend (a₁ : α) (c₁ : Cursor) :
      (do
        let left ← Reader.remaining
        if left ≠ 0 then q left a₁ else return a₁ : Reader α).run c₁ = .ok (a, d) ↔
        c₁.rest = [] ∧ a₁ = a ∧ c₁ = d := by
    change (if c₁.rest.length ≠ 0 then q c₁.rest.length a₁ else return a₁ : Reader α).run c₁ = _ ↔ _
    rw [run_guarded (hq _ a₁), not_not, List.length_eq_zero_iff]
    refine and_congr_right' ?_
    change Except.ok (a₁, c₁) = .ok (a, d) ↔ _
    simp only [Except.ok.injEq, Prod.mk.injEq]
  simp only [run_bind_eq_ok (p := p), hp c, hend]
  constructor
  · rintro ⟨_, _, ⟨xs, ha, hrest, hoffset⟩, hnil, rfl, rfl⟩
    rw [hnil, List.append_nil] at hrest
    subst hrest
    rename_i c₁
    cases c₁
    simp_all
  · rintro ⟨ha, rfl⟩
    exact ⟨a, _, ⟨c.rest, ha, by simp, rfl⟩, rfl, rfl, rfl⟩

end

namespace Reads

variable {α β : Type} {p : Reader α} {W V : α → List UInt8 → Prop}

theorem congr (hp : Reads p W) (h : ∀ a xs, W a xs ↔ V a xs) : Reads p V := by
  intro c a c'
  simp only [hp c a c', h]

theorem pure (a : α) : Reads (pure a) fun a' xs => a' = a ∧ xs = [] := by
  intro c a' c'
  change Except.ok (a, c) = .ok (a', c') ↔ _
  simp only [Except.ok.injEq, Prod.mk.injEq]
  constructor
  · rintro ⟨rfl, rfl⟩
    exact ⟨[], ⟨rfl, rfl⟩, rfl, rfl⟩
  · rintro ⟨_, ⟨rfl, rfl⟩, hrest, hoffset⟩
    exact ⟨rfl, by cases c; cases c'; simp_all⟩

theorem bind (hp : Reads p W) {f : α → Reader β} {V : α → β → List UInt8 → Prop}
    (hf : ∀ a, Reads (f a) (V a)) :
    Reads (p >>= f) fun b zs => ∃ a xs ys, W a xs ∧ V a b ys ∧ zs = xs ++ ys := by
  intro c b c'
  simp only [run_bind_eq_ok, hp c, hf _ _ b c']
  constructor
  · rintro ⟨a, c₁, ⟨xs, ha, hrest, hoffset⟩, ys, hb, hrest', hoffset'⟩
    refine ⟨xs ++ ys, ⟨a, xs, ys, ha, hb, rfl⟩, ?_, ?_⟩
    · rw [hrest, hrest', List.append_assoc]
    · rw [hoffset', hoffset, List.length_append, Nat.add_assoc]
  · rintro ⟨_, ⟨a, xs, ys, ha, hb, rfl⟩, hrest, hoffset⟩
    refine ⟨a, ⟨c.offset + xs.length, ys ++ c'.rest⟩, ⟨xs, ha, ?_, rfl⟩, ys, hb, rfl, ?_⟩
    · rw [hrest, List.append_assoc]
    · rw [hoffset, List.length_append, Nat.add_assoc]

theorem map (hp : Reads p W) (f : α → β) :
    Reads (do return f (← p)) fun b xs => ∃ a, W a xs ∧ b = f a := by
  refine (hp.bind fun a => pure (f a)).congr fun b zs => ?_
  constructor
  · rintro ⟨a, xs, _, ha, ⟨rfl, rfl⟩, rfl⟩
    exact ⟨a, by simpa using ha, rfl⟩
  · rintro ⟨a, ha, rfl⟩
    exact ⟨a, zs, [], ha, ⟨rfl, rfl⟩, by simp⟩

/-- A reader that refuses everything. -/
theorem never (h : ∀ c, ∃ e, p.run c = .error e) : Reads p fun _ _ => False := by
  intro c a c'
  obtain ⟨e, he⟩ := h c
  simp [he]

theorem guarded {P : Prop} [Decidable P] {q : Reader α} (hq : ∀ c, ∃ e, q.run c = .error e)
    (hp : Reads p W) : Reads (if P then q else p) fun a xs => ¬ P ∧ W a xs := by
  split_ifs with h
  · exact (never hq).congr fun a xs => by simp [h]
  · exact hp.congr fun a xs => by simp [h]

theorem enough {k : Nat} {q : Reader α} (hq : ∀ c, ∃ e, q.run c = .error e) (hp : Reads p W)
    (hk : ∀ a xs, W a xs → k ≤ xs.length) :
    Reads (do if (← Reader.remaining) < k then q else p) W := by
  intro c a c'
  refine (run_enough hq fun h => ?_).trans (hp c a c')
  obtain ⟨xs, ha, hrest, _⟩ := (hp c a c').mp h
  rw [hrest, List.length_append]
  exact (hk a xs ha).trans (Nat.le_add_right _ _)

/-- What is accepted at the front tells where it ends. -/
theorem eq_nil_of_append (hp : Reads p W) {a b : α} {xs more : List UInt8} (ha : W a xs)
    (hb : W b (xs ++ more)) : more = [] := by
  have hshort : p.run ⟨0, xs ++ more⟩ = .ok (a, ⟨xs.length, more⟩) :=
    (hp _ _ _).mpr ⟨xs, ha, rfl, by simp⟩
  have hlong : p.run ⟨0, xs ++ more⟩ = .ok (b, ⟨(xs ++ more).length, []⟩) :=
    (hp _ _ _).mpr ⟨xs ++ more, hb, by simp, by simp⟩
  have hsame := Except.ok.inj (hshort.symm.trans hlong)
  simp only [Prod.mk.injEq, Cursor.mk.injEq] at hsame
  exact hsame.2.2

end Reads

/-! ### Fields -/

theorem encodeCount?_eq_some_iff {n : Nat} {xs : List UInt8} :
    encodeCount? n = some xs ↔ xs.length = 8 ∧ n = Bytes.toNat xs := by
  unfold encodeCount?
  constructor
  · intro h
    split_ifs at h with hn
    obtain rfl := Option.some.inj h
    exact ⟨Bytes.length_ofNat 8 n, by rw [Bytes.toNat_ofNat, Nat.mod_eq_of_lt hn]⟩
  · rintro ⟨hlen, rfl⟩
    rw [← hlen, if_pos (Bytes.toNat_lt xs), Bytes.ofNat_toNat]

theorem encodeString?_eq_some_iff {text terminator xs : List UInt8} :
    encodeString? text terminator = some xs ↔
      ∃ count, encodeCount? (text.length + terminator.length) = some count ∧
        xs = count ++ (text ++ terminator) := by
  simp only [encodeString?, Option.bind_eq_bind, Option.bind_eq_some_iff, Option.pure_def,
    Option.some.injEq, List.append_assoc, @eq_comm _ xs]

theorem run_take_of_lt {size : Nat} {what : String} {c : Cursor} (h : c.rest.length < size) :
    (Reader.take size what).run c = .error (.truncated what size c.offset c.rest.length) := by
  change (if c.rest.length < size then _ else _ : Reader _).run c = _
  rw [if_pos h]
  rfl

theorem run_take_of_le {size : Nat} {what : String} {c : Cursor} (h : size ≤ c.rest.length) :
    (Reader.take size what).run c = .ok (c.rest.take size, ⟨c.offset + size, c.rest.drop size⟩) := by
  change (if c.rest.length < size then _ else _ : Reader _).run c = _
  rw [if_neg (Nat.not_lt.mpr h)]
  rfl

theorem reads_take (size : Nat) (what : String) :
    Reads (Reader.take size what) fun data xs => data = xs ∧ xs.length = size := by
  intro c data c'
  by_cases hleft : c.rest.length < size
  · simp only [run_take_of_lt hleft, reduceCtorEq, false_iff]
    rintro ⟨xs, ⟨_, hlen⟩, hrest, _⟩
    rw [hrest, List.length_append] at hleft
    omega
  · have hle := Nat.le_of_not_lt hleft
    have htake : (c.rest.take size).length = size := List.length_take_of_le hle
    simp only [run_take_of_le hle, Except.ok.injEq, Prod.mk.injEq]
    constructor
    · rintro ⟨rfl, rfl⟩
      exact ⟨_, ⟨rfl, htake⟩, (List.take_append_drop size c.rest).symm, by rw [htake]⟩
    · rintro ⟨xs, ⟨rfl, hlen⟩, hrest, hoffset⟩
      subst hlen
      cases c'
      simp_all

theorem reads_count (what : String) :
    Reads (Reader.count what) fun n xs => encodeCount? n = some xs := by
  refine ((reads_take 8 what).map Bytes.toNat).congr fun n xs => ?_
  simp only [encodeCount?_eq_some_iff, and_assoc, exists_eq_left]

theorem reads_terminated (what : String) (terminator : List UInt8) :
    Reads (Reader.terminated what terminator) fun data xs =>
      (data.length + terminator.length) % terminator.length = 0 ∧
        encodeString? data terminator = some xs := by
  refine ((reads_count _).bind fun length => (reads_take length what).bind fun data =>
    Reads.guarded (fun c => ⟨_, rfl⟩) (Reads.pure _)).congr fun data xs => ?_
  simp only [not_not, encodeString?_eq_some_iff]
  constructor
  · rintro ⟨length, count, _, hcount,
      ⟨_, body, _, ⟨rfl, hlen⟩, ⟨⟨⟨text, rfl⟩, hmod⟩, rfl, rfl⟩, rfl⟩, rfl⟩
    rw [List.length_append] at hlen
    subst hlen
    rw [Nat.add_sub_cancel, List.take_left]
    exact ⟨hmod, count, hcount, by simp⟩
  · rintro ⟨hmod, count, hcount, rfl⟩
    refine ⟨_, count, data ++ terminator, hcount, ?_, rfl⟩
    refine ⟨_, data ++ terminator, [], ⟨rfl, List.length_append⟩, ⟨?_, ?_, rfl⟩, by simp⟩
    · exact ⟨List.suffix_append _ _, hmod⟩
    · rw [Nat.add_sub_cancel, List.take_left]

theorem reads_asciiString (what : String) :
    Reads (Reader.asciiString what) fun s xs =>
      ∃ data, ascii? s = some data ∧ encodeString? data [0] = some xs := by
  refine ((reads_terminated what [0]).bind fun data =>
    Reads.guarded (fun c => ⟨_, rfl⟩) (Reads.pure _)).congr fun s xs => ?_
  simp only [ascii?_eq_some_iff, List.any_eq_true, decide_eq_true_eq, not_exists, not_and,
    UInt8.not_le]
  constructor
  · rintro ⟨data, xs, _, ⟨_, hxs⟩, ⟨hlt, rfl, rfl⟩, rfl⟩
    exact ⟨data, ⟨hlt, rfl⟩, by simpa using hxs⟩
  · rintro ⟨data, ⟨hlt, rfl⟩, hxs⟩
    exact ⟨data, xs, [], ⟨Nat.mod_one _, hxs⟩, ⟨hlt, rfl, rfl⟩, by simp⟩

theorem reads_utf16String (what : String) :
    Reads (Reader.utf16String what) fun name xs =>
      ∃ data, utf16? name = some data ∧ encodeString? data [0, 0] = some xs := by
  refine ((reads_terminated what [0, 0]).bind
    (V := fun data name xs => Name.ofUtf16? (Bytes.toUnits data) = some name ∧ xs = [])
    fun data => ?_).congr fun name xs => ?_
  · split
    · rename_i name h
      exact (Reads.pure name).congr fun name' xs => by simp [h, eq_comm]
    · rename_i h
      exact (Reads.never fun c => ⟨_, rfl⟩).congr fun name' xs => by simp [h]
  · simp only [utf16?_eq_some_iff, List.length_cons, List.length_nil, Nat.zero_add, Nat.reduceAdd,
      Nat.add_mod_right]
    constructor
    · rintro ⟨data, xs, _, ⟨heven, hxs⟩, ⟨hdata, rfl⟩, rfl⟩
      exact ⟨data, ⟨heven, hdata⟩, by simpa using hxs⟩
    · rintro ⟨data, ⟨heven, hdata⟩, hxs⟩
      exact ⟨data, xs, [], ⟨heven, hxs⟩, ⟨hdata, rfl⟩, by simp⟩

end ShadeGraph.Attachment
