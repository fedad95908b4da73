import ShadeGraph.Proofs.Registry.Reload

/-!
# How a material is found again

An id leads to a live material in tiers: by the recorded handle if the name is the recorded one, by
the name if no other material has it, and by the approximate name and the number of slots if that is
allowed. A tier counts only where those before it fail. Only the first one is silent.
-/

namespace ShadeGraph

/-! ### First and only elements -/

section

variable {β : Type}

/-- Nothing before it has the property. -/
def First (P : β → Prop) (xs : List β) (x : β) : Prop :=
  ∃ before after, xs = before ++ x :: after ∧ P x ∧ ∀ y ∈ before, ¬ P y

/-- Nothing beside it has the property. -/
def Only (P : β → Prop) (xs : List β) (x : β) : Prop :=
  ∃ before after, xs = before ++ x :: after ∧ P x ∧ ∀ y ∈ before ++ after, ¬ P y

theorem Only.holds {P : β → Prop} {xs : List β} {x : β} (h : Only P xs x) : P x := by
  obtain ⟨_, _, _, hx, _⟩ := h
  exact hx

theorem find?_eq_some_iff_first {p : β → Bool} {xs : List β} {x : β} :
    xs.find? p = some x ↔ First (fun y => p y = true) xs x := by
  rw [List.find?_eq_some_iff_append, First]
  constructor
  · rintro ⟨hx, before, after, hsplit, hbefore⟩
    exact ⟨before, after, hsplit, hx, fun y hy => by simpa using hbefore y hy⟩
  · rintro ⟨before, after, hsplit, hx, hbefore⟩
    exact ⟨hx, before, after, hsplit, fun y hy => by simpa using hbefore y hy⟩

theorem filter_eq_singleton_iff_only {p : β → Bool} {xs : List β} {x : β} :
    xs.filter p = [x] ↔ Only (fun y => p y = true) xs x := by
  rw [List.filter_eq_cons_iff, Only]
  simp only [List.filter_eq_nil_iff, List.forall_mem_append]
  constructor
  · rintro ⟨before, after, hsplit, hbefore, hx, hafter⟩
    exact ⟨before, after, hsplit, hx, hbefore, hafter⟩
  · rintro ⟨before, after, hsplit, hx, hbefore, hafter⟩
    exact ⟨before, after, hsplit, hbefore, hx, hafter⟩

end

/-! ### Tiers -/

/-- The first record with an id. -/
def Registry.HasId (registry : Registry) (id : String) (r : MaterialRecord) : Prop :=
  First (fun r => Identity.Agree r.materialId id) registry.recordList r

section

variable {α : Type} (hosts : HostTable α) (scene : HostScene) (r : MaterialRecord) (m : HostId)

/-- The material has the name of a record. -/
def HostTable.Named : Prop := (hosts.key m).name = r.name

/-- The names are equal up to case and up to the characters that a file name cannot hold. -/
def Resolve.Close (a b : String) : Prop :=
  ∃ a' b', Identity.Strips a.toList a' ∧ Identity.Strips b.toList b' ∧
    Text.lower (.ofList a') = Text.lower (.ofList b')

/-- The material has the approximate name of a record and as many slots. -/
def HostTable.Resembles : Prop :=
  Resolve.Close r.name.display (hosts.get m).name ∧ (hosts.get m).slotCount = r.slotCount

/-- The material is live under the handle of a record and has its name. -/
def HostScene.Holds : Prop := scene.get? r.handle = some m ∧ hosts.Named r m

variable {hosts scene r m}

theorem HostScene.recorded?_eq_some_iff : scene.recorded? hosts r = some m ↔ scene.Holds hosts r m := by
  rw [recorded?, Option.filter_eq_some_iff, decide_eq_true_eq]
  rfl

theorem HostScene.named_eq_singleton_iff :
    scene.named hosts r = [m] ↔ Only (hosts.Named r) scene.materials m := by
  rw [named, filter_eq_singleton_iff_only]
  simp only [decide_eq_true_eq]
  rfl

theorem Resolve.close_iff {a b : String} : Close a b ↔ looseName a = looseName b := by
  constructor
  · rintro ⟨a', b', ha, hb, hlower⟩
    have hclean {name : String} {rest : List Char} (h : Identity.Strips name.toList rest) :
        Identity.cleanName name = .ofList rest := by
      rwa [← Identity.strips_cleanName_iff, String.toList_ofList]
    rwa [looseName, looseName, hclean ha, hclean hb]
  · intro h
    refine ⟨_, _, Identity.strips_cleanName_iff.mpr rfl, Identity.strips_cleanName_iff.mpr rfl, ?_⟩
    rwa [String.ofList_toList, String.ofList_toList]

theorem HostScene.approximate?_eq_some_iff :
    scene.approximate? hosts r = some m ↔ First (hosts.Resembles r) scene.materials m := by
  rw [approximate?, find?_eq_some_iff_first]
  simp only [Bool.and_eq_true, beq_iff_eq, ← Resolve.close_iff]
  rfl

end

/-- What an id leads to among live materials. -/
inductive Registry.Resolves {α : Type} (registry : Registry) (hosts : HostTable α) (scene : HostScene)
    (allowUnsafe : Bool) (id : String) : Option HostId → Prop
  | unknown : (∀ r ∈ registry.recordList, ¬ Identity.Agree r.materialId id) →
    Resolves registry hosts scene allowUnsafe id none
  | handle {r m} : registry.HasId id r → scene.Holds hosts r m →
    Resolves registry hosts scene allowUnsafe id (some m)
  | name {r m} : registry.HasId id r → (∀ m, ¬ scene.Holds hosts r m) →
    Only (hosts.Named r) scene.materials m →
    Resolves registry hosts scene allowUnsafe id (some m)
  | approximate {r m} : registry.HasId id r → (∀ m, ¬ scene.Holds hosts r m) →
    (∀ m, ¬ Only (hosts.Named r) scene.materials m) → allowUnsafe = true →
    First (hosts.Resembles r) scene.materials m →
    Resolves registry hosts scene allowUnsafe id (some m)
  | failed {r} : registry.HasId id r → (∀ m, ¬ scene.Holds hosts r m) →
    (∀ m, ¬ Only (hosts.Named r) scene.materials m) →
    (allowUnsafe = true → ∀ m, ¬ First (hosts.Resembles r) scene.materials m) →
    Resolves registry hosts scene allowUnsafe id none

namespace Registry

variable {α : Type} {registry : Registry} {hosts : HostTable α} {scene : HostScene} {id : String}
variable {r : MaterialRecord} {m : HostId}

theorem findId?_eq_some_iff : registry.findId? id = some r ↔ registry.HasId id r := by
  rw [findId?, find?_eq_some_iff_first]
  simp only [Identity.sameId_iff]
  rfl

theorem findId?_eq_none_iff : registry.findId? id = none ↔
    ∀ r ∈ registry.recordList, ¬ Identity.Agree r.materialId id := by
  simp only [findId?, List.find?_eq_none, Identity.sameId_iff]

/-! ### What every tier gives -/

variable (allowUnsafe : Bool)

theorem resolve_of_unknown (h : ∀ r ∈ registry.recordList, ¬ Identity.Agree r.materialId id) :
    registry.resolve hosts scene allowUnsafe id = (none, [Resolve.unknownText id]) := by
  simp only [resolve, findId?_eq_none_iff.mpr h]

theorem resolve_of_holds (hid : registry.HasId id r) (hholds : scene.Holds hosts r m) :
    registry.resolve hosts scene allowUnsafe id = (some m, []) :=
  resolve_of_recorded (findId?_eq_some_iff.mpr hid) (HostScene.recorded?_eq_some_iff.mpr hholds)

theorem recorded?_of_stale (h : ∀ m, ¬ scene.Holds hosts r m) : scene.recorded? hosts r = none := by
  rw [Option.eq_none_iff_forall_ne_some]
  exact fun m hm => h m (HostScene.recorded?_eq_some_iff.mp hm)

theorem resolve_of_only (hid : registry.HasId id r) (hstale : ∀ m, ¬ scene.Holds hosts r m)
    (honly : Only (hosts.Named r) scene.materials m) :
    registry.resolve hosts scene allowUnsafe id = (some m, [Resolve.staleText r]) := by
  have hnamed := HostScene.named_eq_singleton_iff.mpr honly
  simp only [resolve, findId?_eq_some_iff.mpr hid, recorded?_of_stale hstale, hnamed]

/-- Past the exact name, it is told at least that the handle is stale. -/
theorem resolve_of_ambiguous (hid : registry.HasId id r) (hstale : ∀ m, ¬ scene.Holds hosts r m)
    (hnot : ∀ m, ¬ Only (hosts.Named r) scene.materials m) :
    ∃ texts, registry.resolve hosts scene allowUnsafe id =
      (if allowUnsafe then scene.approximate? hosts r else none, Resolve.staleText r :: texts) := by
  have hnamed (m : HostId) : scene.named hosts r ≠ [m] := fun hm =>
    hnot m (HostScene.named_eq_singleton_iff.mp hm)
  unfold resolve
  simp only [findId?_eq_some_iff.mpr hid, recorded?_of_stale hstale]
  generalize scene.named hosts r = candidates at hnamed
  match candidates with
  | [m] => exact absurd rfl (hnamed m)
  | [] | _ :: _ :: _ =>
    cases allowUnsafe with
    | false => exact ⟨_, rfl⟩
    | true => cases scene.approximate? hosts r <;> exact ⟨_, rfl⟩

variable {allowUnsafe} {m? : Option HostId}

theorem Resolves.fst_resolve (h : Resolves registry hosts scene allowUnsafe id m?) :
    (registry.resolve hosts scene allowUnsafe id).1 = m? := by
  cases h with
  | unknown hunknown => rw [resolve_of_unknown allowUnsafe hunknown]
  | handle hid hholds => rw [resolve_of_holds allowUnsafe hid hholds]
  | name hid hstale honly => rw [resolve_of_only allowUnsafe hid hstale honly]
  | approximate hid hstale hnot hallowed hfirst =>
    obtain ⟨texts, hresolve⟩ := resolve_of_ambiguous allowUnsafe hid hstale hnot
    rw [hresolve, if_pos hallowed]
    exact HostScene.approximate?_eq_some_iff.mpr hfirst
  | failed hid hstale hnot hnone =>
    obtain ⟨texts, hresolve⟩ := resolve_of_ambiguous allowUnsafe hid hstale hnot
    rw [hresolve]
    split_ifs with hallowed
    · rw [Option.eq_none_iff_forall_ne_some]
      exact fun m hm => hnone hallowed m (HostScene.approximate?_eq_some_iff.mp hm)
    · rfl

/-- Some tier always applies. -/
theorem exists_resolves (registry : Registry) (hosts : HostTable α) (scene : HostScene)
    (allowUnsafe : Bool) (id : String) : ∃ m?, Resolves registry hosts scene allowUnsafe id m? := by
  cases hfind : registry.findId? id with
  | none => exact ⟨none, .unknown (findId?_eq_none_iff.mp hfind)⟩
  | some r =>
    have hid := findId?_eq_some_iff.mp hfind
    by_cases hholds : ∃ m, scene.Holds hosts r m
    · obtain ⟨m, hholds⟩ := hholds
      exact ⟨some m, .handle hid hholds⟩
    have hstale := not_exists.mp hholds
    by_cases honly : ∃ m, Only (hosts.Named r) scene.materials m
    · obtain ⟨m, honly⟩ := honly
      exact ⟨some m, .name hid hstale honly⟩
    have hnot := not_exists.mp honly
    by_cases hfirst : allowUnsafe = true ∧ ∃ m, First (hosts.Resembles r) scene.materials m
    · obtain ⟨hallowed, m, hfirst⟩ := hfirst
      exact ⟨some m, .approximate hid hstale hnot hallowed hfirst⟩
    · refine ⟨none, .failed hid hstale hnot ?_⟩
      intro hallowed m hm
      exact hfirst ⟨hallowed, m, hm⟩

theorem resolves_iff : Resolves registry hosts scene allowUnsafe id m? ↔
    (registry.resolve hosts scene allowUnsafe id).1 = m? := by
  constructor
  · exact Resolves.fst_resolve
  · rintro rfl
    obtain ⟨m?, h⟩ := exists_resolves registry hosts scene allowUnsafe id
    rwa [h.fst_resolve]

/-- Only the handle is silent. -/
theorem snd_resolve_eq_nil_iff : (registry.resolve hosts scene allowUnsafe id).2 = [] ↔
    ∃ r m, registry.HasId id r ∧ scene.Holds hosts r m := by
  constructor
  · intro hsilent
    obtain ⟨m?, h⟩ := exists_resolves registry hosts scene allowUnsafe id
    cases h with
    | unknown hunknown => simp [resolve_of_unknown allowUnsafe hunknown] at hsilent
    | handle hid hholds => exact ⟨_, _, hid, hholds⟩
    | name hid hstale honly => simp [resolve_of_only allowUnsafe hid hstale honly] at hsilent
    | approximate hid hstale hnot _ _ | failed hid hstale hnot _ =>
      obtain ⟨texts, hresolve⟩ := resolve_of_ambiguous allowUnsafe hid hstale hnot
      simp [hresolve] at hsilent
  · rintro ⟨r, m, hid, hholds⟩
    rw [resolve_of_holds allowUnsafe hid hholds]

/-- Where approximate names do not count, only the exact one does. -/
theorem Resolves.named_of_safe (h : Resolves registry hosts scene false id (some m)) :
    ∃ r, registry.HasId id r ∧ hosts.Named r m ∧
      (scene.Holds hosts r m ∨ Only (hosts.Named r) scene.materials m) := by
  cases h with
  | handle hid hholds => exact ⟨_, hid, hholds.2, .inl hholds⟩
  | name hid _ honly => exact ⟨_, hid, honly.holds, .inr honly⟩
  | approximate _ _ _ hallowed _ => cases hallowed

end Registry

namespace Registrar

open Registry

variable {α : Type}

/-- Finding a material again says its texts as warnings and changes nothing else. -/
theorem run_resolve_texts (hosts : HostTable α) (scene : HostScene) (allowUnsafe : Bool) (id : String)
    (s : Registrar) :
    let (found, texts) := s.registry.resolve hosts scene allowUnsafe id
    (resolve hosts scene allowUnsafe id).run s =
      (found, { s with journal := texts.foldl Journal.warn s.journal }) := by
  have hlog (texts : List String) (s : Registrar) :
      ((texts.forM fun text => log (·.warn text)).run s : Id (Unit × Registrar)) =
        ((), { s with journal := texts.foldl Journal.warn s.journal }) := by
    induction texts generalizing s with
    | nil => rfl
    | cons text texts ih => exact ih { s with journal := s.journal.warn text }
  simp only [resolve, StateT.run_bind, StateT.run_get, pure_bind, hlog]
  rfl

/-- An id leads to the live material of the first tier that applies, whatever the registry and the
scene: the handle with the exact name, the exact name alone, or the approximate name with the number of
slots if the caller or else the registry allows it. Nothing is said just in the first tier; in all
others there are warnings. Where approximate names do not count, a material that is found has the
exact name, and no other one has it unless its handle was right. -/
theorem resolve_tiers (hosts : HostTable α) (scene : HostScene) (flag : Option Bool) (id : String)
    (s : Registrar) :
    let allowUnsafe := flag.getD s.registry.allowUnsafe
    ∃ (found : Option HostId) (texts : List String),
      (resolve hosts scene allowUnsafe id).run s =
        (found, { s with journal := texts.foldl Journal.warn s.journal }) ∧
      (∀ m?, s.registry.Resolves hosts scene allowUnsafe id m? ↔ found = m?) ∧
      (texts = [] ↔ ∃ r m, s.registry.HasId id r ∧ scene.Holds hosts r m) ∧
      (allowUnsafe = false → ∀ m, found = some m →
        ∃ r, s.registry.HasId id r ∧ hosts.Named r m ∧
          (scene.Holds hosts r m ∨ Only (hosts.Named r) scene.materials m)) := by
  intro allowUnsafe
  refine ⟨_, _, run_resolve_texts hosts scene allowUnsafe id s, fun _ => resolves_iff,
    snd_resolve_eq_nil_iff, ?_⟩
  intro hsafe m hfound
  rw [hsafe] at hfound
  exact (resolves_iff.mpr hfound).named_of_safe

/-- Stones of one name up to case; the last one is no more live. -/
def stones : HostTable Unit :=
  ⟨#[{ handle := 5, name := "STONE" }, { handle := 6, name := "Stone" },
    { handle := 7, name := "Stone" }, { handle := 1, name := "Stone" }]⟩

/-- With two stones of the exact name the first one of all counts, or none. With one of them it is
found. -/
theorem resolve_tiers_stones :
    let s := ((register stones 3).run {}).2
    let id := "00000001-0000-4000-8000-000000000001"
    let three : HostScene := ⟨[(5, 0), (6, 1), (7, 2)]⟩
    let two : HostScene := ⟨[(5, 0), (6, 1)]⟩
    s.registry.Resolves stones three true id (some 0) ∧
      s.registry.Resolves stones three false id none ∧
      ∃ r, s.registry.HasId id r ∧ stones.Named r 1 ∧
        (two.Holds stones r 1 ∨ Only (stones.Named r) two.materials 1) := by
  intro s id three two
  have hfound (scene : HostScene) (allowUnsafe : Bool) {found : Option HostId} {later : Registrar}
      (hrun : (resolve stones scene allowUnsafe id).run s = (found, later)) :
      ((resolve stones scene allowUnsafe id).run s).1 = found := congrArg Prod.fst hrun
  refine ⟨?_, ?_, ?_⟩
  · obtain ⟨found, texts, hrun, hiff, _⟩ := resolve_tiers stones three (some true) id s
    apply (hiff (some 0)).mpr
    rw [← hfound three true hrun]
    decide +kernel
  · obtain ⟨found, texts, hrun, hiff, _⟩ := resolve_tiers stones three none id s
    apply (hiff none).mpr
    rw [← hfound three false hrun]
    decide +kernel
  · obtain ⟨found, texts, hrun, _, _, hnamed⟩ := resolve_tiers stones two none id s
    apply hnamed rfl
    rw [← hfound two false hrun]
    decide +kernel

end Registrar

end ShadeGraph
