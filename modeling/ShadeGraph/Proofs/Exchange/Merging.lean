import ShadeGraph.Proofs.Compile.Lasting
import ShadeGraph.Proofs.Compile.SceneRoundTrip
import ShadeGraph.Proofs.Exchange.Outcome
import ShadeGraph.Proofs.Registry.Resolution

/-!
# What several scenes lead to

Each scene that an engine returns is matched on its own, and what the scenes lead to is written into
one table in their order. So the last scene with an id counts: where it has no identity map, or no
record for the id, the id leads to nothing, even if a scene before it has led to a live material.
-/

namespace ShadeGraph

/-! ### Last elements -/

section

variable {ι κ β : Type} {P : ι → Prop} {xs : List ι} {x : ι}

/-- Nothing behind it has the property. -/
def Last (P : ι → Prop) (xs : List ι) (x : ι) : Prop :=
  ∃ before after, xs = before ++ x :: after ∧ P x ∧ ∀ y ∈ after, ¬ P y

theorem Last.mem (h : Last P xs x) : x ∈ xs := by
  obtain ⟨before, after, rfl, -, -⟩ := h
  exact List.mem_append_right _ List.mem_cons_self

theorem Last.holds (h : Last P xs x) : P x := by
  obtain ⟨-, -, -, hx, -⟩ := h
  exact hx

theorem exists_last (h : ∃ x ∈ xs, P x) : ∃ x, Last P xs x := by
  induction xs with
  | nil => simp at h
  | cons y xs ih =>
    by_cases hmore : ∃ x ∈ xs, P x
    · obtain ⟨x, before, after, rfl, hlast⟩ := ih hmore
      exact ⟨x, y :: before, after, rfl, hlast⟩
    · obtain ⟨x, hx, hP⟩ := h
      rcases List.mem_cons.mp hx with rfl | hx
      · exact ⟨x, [], xs, rfl, hP, fun z hz hPz => hmore ⟨z, hz, hPz⟩⟩
      · exact absurd ⟨x, hx, hP⟩ hmore

namespace Table

variable [DecidableEq κ]

/-- Writes the tables of several things, one after the other. -/
def insertEach (f : ι → Table κ β) (xs : List ι) (t : Table κ β) : Table κ β :=
  xs.foldl (fun t x => t.insertAll (f x)) t

theorem insertEach_cons (f : ι → Table κ β) (x : ι) (xs : List ι) (t : Table κ β) :
    insertEach f (x :: xs) t = insertEach f xs (t.insertAll (f x)) := rfl

variable {f : ι → Table κ β} {k : κ}

theorem get?_insertEach_of_notMem (t : Table κ β) (hf : ∀ x ∈ xs, (f x).keys.Nodup)
    (hk : ∀ x ∈ xs, k ∉ (f x).keys) : (insertEach f xs t).get? k = t.get? k := by
  induction xs generalizing t with
  | nil => rfl
  | cons x xs ih =>
    obtain ⟨hx, hxs⟩ := List.forall_mem_cons.mp hf
    obtain ⟨hkx, hkxs⟩ := List.forall_mem_cons.mp hk
    rw [insertEach_cons, ih _ hxs hkxs, get?_insertAll t hx, get?_eq_none_iff_notMem.mpr hkx]
    rfl

/-- The last table with a key tells its value. -/
theorem get?_insertEach_of_last (t : Table κ β) (hf : ∀ x ∈ xs, (f x).keys.Nodup)
    (h : Last (fun x => k ∈ (f x).keys) xs x) : (insertEach f xs t).get? k = (f x).get? k := by
  obtain ⟨before, after, rfl, hx, hafter⟩ := h
  obtain ⟨-, hxs⟩ := List.forall_mem_append.mp hf
  obtain ⟨hnodup, hrest⟩ := List.forall_mem_cons.mp hxs
  obtain ⟨v, hv⟩ := mem_keys_iff.mp hx
  have hsplit : insertEach f (before ++ x :: after) t =
      insertEach f after ((insertEach f before t).insertAll (f x)) := List.foldl_append
  rw [hsplit, get?_insertEach_of_notMem _ hrest hafter, get?_insertAll _ hnodup, hv]
  rfl

theorem mem_keys_insertEach (hf : ∀ x ∈ xs, (f x).keys.Nodup) :
    k ∈ (insertEach f xs []).keys ↔ ∃ x ∈ xs, k ∈ (f x).keys := by
  constructor
  · contrapose!
    intro hnone
    rw [← get?_eq_none_iff_notMem, get?_insertEach_of_notMem [] hf hnone]
    rfl
  · intro h
    obtain ⟨x, hlast⟩ := exists_last h
    obtain ⟨v, hv⟩ := mem_keys_iff.mp hlast.holds
    exact mem_keys_iff.mpr ⟨v, (get?_insertEach_of_last [] hf hlast).trans hv⟩

theorem nodup_keys_insertEach (f : ι → Table κ β) (xs : List ι) {t : Table κ β}
    (h : t.keys.Nodup) : (insertEach f xs t).keys.Nodup := by
  induction xs generalizing t with
  | nil => exact h
  | cons x xs ih => exact ih (nodup_keys_insertAll h _)

end Table

end

/-! ### One scene -/

section

variable {α : Type} (hosts : HostTable α) (live : HostScene) (allowUnsafe : Bool)

namespace ExchangeScene

/-- What matching the materials of a scene in a session of its own gives. -/
def restored (scene : ExchangeScene) : Except Attachment.FormatError Resolved :=
  ((Registrar.restore hosts live scene allowUnsafe).run { registry := { allowUnsafe } }).1

/-- Matched in a session of its own, a scene gives this live material for an id. -/
def Restores (scene : ExchangeScene) (id : String) (m : HostId) : Prop :=
  ∃ t, scene.restored hosts live allowUnsafe = .ok t ∧ t.get? id = some (some m)

/-- What ids lead to by the identity map of a scene. Without a map they lead to nothing. -/
def reading (scene : ExchangeScene) (registry : Registry) :
    Except Attachment.FormatError (String → Option HostId) :=
  match scene.identityMap? with
  | none => .ok fun _ => none
  | some bytes => (registry.loadAttachment bytes).map fun loaded id =>
    (loaded.resolve hosts live allowUnsafe id).1

end ExchangeScene

namespace Registrar

theorem fst_run_foldlM_resolve (ids : List String) (t : Resolved) (s : Registrar) :
    ((ids.foldlM (fun t id => return Table.insert t id (← resolve hosts live allowUnsafe id)) t).run
      s).1 = ids.foldl (fun t id =>
        Table.insert t id (s.registry.resolve hosts live allowUnsafe id).1) t := by
  induction ids generalizing t s with
  | nil => rfl
  | cons id ids ih =>
    have hresolve := run_resolve_texts hosts live allowUnsafe id s
    rw [List.foldlM_cons, StateT.run_bind, StateT.run_bind, hresolve]
    exact ih _ _

/-- What a scene is matched with depends on nothing but its ids and its map. -/
theorem fst_run_restore (scene : ExchangeScene) (s : Registrar) :
    ((restore hosts live scene allowUnsafe).run s).1 =
      (scene.reading hosts live allowUnsafe s.registry).map fun value =>
        scene.materialIds.foldl (fun t id => Table.insert t id (value id)) [] := by
  unfold restore ExchangeScene.reading
  cases scene.identityMap? with
  | none => rfl
  | some bytes =>
    simp only [StateT.run_bind, StateT.run_get, pure_bind]
    cases s.registry.loadAttachment bytes with
    | error e => rfl
    | ok loaded =>
      have hfold := fst_run_foldlM_resolve hosts live allowUnsafe scene.materialIds []
        { s with registry := loaded }
      exact congrArg Except.ok hfold

theorem fst_run_apart_restore (scene : ExchangeScene) (s : Registrar) :
    ((apart allowUnsafe (restore hosts live scene allowUnsafe)).run s).1 =
      scene.restored hosts live allowUnsafe := by
  have happart : ((apart allowUnsafe (restore hosts live scene allowUnsafe)).run s).1 =
      ((restore hosts live scene allowUnsafe).run { s with registry := { allowUnsafe } }).1 := rfl
  rw [happart, ExchangeScene.restored, fst_run_restore, fst_run_restore]

end Registrar

namespace ExchangeScene

/-- What the ids of a scene lead to, if its map can be read. -/
def found (scene : ExchangeScene) : Resolved :=
  (scene.restored hosts live allowUnsafe).toOption.getD []

variable {hosts live allowUnsafe} {scene : ExchangeScene} {t : Resolved}

theorem found_of_restored (h : scene.restored hosts live allowUnsafe = .ok t) :
    scene.found hosts live allowUnsafe = t := by
  rw [found, h]
  rfl

theorem exists_of_restored (h : scene.restored hosts live allowUnsafe = .ok t) :
    ∃ value : String → Option HostId,
      t = scene.materialIds.foldl (fun t id => Table.insert t id (value id)) [] := by
  rw [restored, Registrar.fst_run_restore] at h
  cases hread : scene.reading hosts live allowUnsafe { allowUnsafe } with
  | error e =>
    rw [hread] at h
    cases h
  | ok value =>
    rw [hread] at h
    exact ⟨value, (Except.ok.inj h).symm⟩

/-- A scene that can be read tells of just its ids. -/
theorem mem_keys_of_restored (h : scene.restored hosts live allowUnsafe = .ok t) {id : String} :
    id ∈ t.keys ↔ id ∈ scene.materialIds := by
  obtain ⟨value, rfl⟩ := exists_of_restored h
  rw [Table.mem_keys_iff, Table.get?_foldl_insert]
  by_cases hmem : id ∈ scene.materialIds <;> simp [hmem]

theorem nodup_keys_of_restored (h : scene.restored hosts live allowUnsafe = .ok t) :
    t.keys.Nodup := by
  obtain ⟨value, rfl⟩ := exists_of_restored h
  exact Table.nodup_keys_foldl_insert [] List.nodup_nil _ _ _

end ExchangeScene

end

/-! ### All scenes -/

/-- A result whose scenes could all be read, and were written into its table in their order. -/
structure ProcessResult.Merges {α : Type} (hosts : HostTable α) (live : HostScene)
    (allowUnsafe : Bool) (r : ProcessResult α) : Prop where
  readable : ∀ scene ∈ r.scenes, ∃ t, scene.restored hosts live allowUnsafe = .ok t
  resolved : r.resolved = Table.insertEach (·.found hosts live allowUnsafe) r.scenes []

namespace ProcessResult.Merges

variable {α : Type} {hosts : HostTable α} {live : HostScene} {allowUnsafe : Bool}
  {r : ProcessResult α} {id : String}

theorem nodup_keys_found (h : r.Merges hosts live allowUnsafe) :
    ∀ scene ∈ r.scenes, (scene.found hosts live allowUnsafe).keys.Nodup := by
  intro scene hscene
  obtain ⟨t, ht⟩ := h.readable scene hscene
  rw [ExchangeScene.found_of_restored ht]
  exact ExchangeScene.nodup_keys_of_restored ht

theorem mem_keys_found (h : r.Merges hosts live allowUnsafe) {scene : ExchangeScene}
    (hscene : scene ∈ r.scenes) :
    id ∈ (scene.found hosts live allowUnsafe).keys ↔ id ∈ scene.materialIds := by
  obtain ⟨t, ht⟩ := h.readable scene hscene
  rw [ExchangeScene.found_of_restored ht]
  exact ExchangeScene.mem_keys_of_restored ht

theorem nodup_keys (h : r.Merges hosts live allowUnsafe) : r.resolved.keys.Nodup := by
  rw [h.resolved]
  exact Table.nodup_keys_insertEach _ _ List.nodup_nil

theorem mem_keys_iff (h : r.Merges hosts live allowUnsafe) :
    id ∈ r.resolved.keys ↔ ∃ scene ∈ r.scenes, id ∈ scene.materialIds := by
  rw [h.resolved, Table.mem_keys_insertEach h.nodup_keys_found]
  exact exists_congr fun scene => and_congr_right h.mem_keys_found

/-- The last scene with an id tells what the id leads to. -/
theorem get?_of_last (h : r.Merges hosts live allowUnsafe) {scene : ExchangeScene}
    (hlast : Last (fun scene => id ∈ scene.materialIds) r.scenes scene) :
    ∃ t, scene.restored hosts live allowUnsafe = .ok t ∧ r.resolved.get? id = t.get? id := by
  obtain ⟨t, ht⟩ := h.readable scene hlast.mem
  refine ⟨t, ht, ?_⟩
  obtain ⟨before, after, hsplit, hid, hafter⟩ := hlast
  have hmem {s : ExchangeScene} (hs : s ∈ scene :: after) : s ∈ r.scenes :=
    hsplit ▸ List.mem_append_right _ hs
  have hlast' : Last (fun s => id ∈ (s.found hosts live allowUnsafe).keys) r.scenes scene :=
    ⟨before, after, hsplit, (h.mem_keys_found (hmem List.mem_cons_self)).mpr hid, fun s hs =>
      mt (h.mem_keys_found (hmem (List.mem_cons_of_mem _ hs))).mp (hafter s hs)⟩
  rw [h.resolved, Table.get?_insertEach_of_last [] h.nodup_keys_found hlast',
    ExchangeScene.found_of_restored ht]

theorem exists_last (h : r.Merges hosts live allowUnsafe) {v : Option HostId}
    (hv : r.resolved.get? id = some v) :
    ∃ scene, Last (fun scene => id ∈ scene.materialIds) r.scenes scene :=
  ShadeGraph.exists_last (h.mem_keys_iff.mp (Table.mem_keys_iff.mpr ⟨v, hv⟩))

theorem get?_eq_some_some_iff (h : r.Merges hosts live allowUnsafe) {m : HostId} :
    r.resolved.get? id = some (some m) ↔
      ∃ scene, Last (fun scene => id ∈ scene.materialIds) r.scenes scene ∧
        scene.Restores hosts live allowUnsafe id m := by
  constructor
  · intro hget
    obtain ⟨scene, hscene⟩ := h.exists_last hget
    obtain ⟨t, ht, hsame⟩ := h.get?_of_last hscene
    exact ⟨scene, hscene, t, ht, hsame ▸ hget⟩
  · rintro ⟨scene, hscene, t, ht, hget⟩
    obtain ⟨t', ht', hsame⟩ := h.get?_of_last hscene
    obtain rfl := Except.ok.inj (ht.symm.trans ht')
    exact hsame.trans hget

theorem get?_eq_some_none_iff (h : r.Merges hosts live allowUnsafe) :
    r.resolved.get? id = some none ↔
      ∃ scene, Last (fun scene => id ∈ scene.materialIds) r.scenes scene ∧
        ∀ m, ¬ scene.Restores hosts live allowUnsafe id m := by
  constructor
  · intro hget
    obtain ⟨scene, hscene⟩ := h.exists_last hget
    refine ⟨scene, hscene, fun m hm => ?_⟩
    cases hget.symm.trans (h.get?_eq_some_some_iff.mpr ⟨scene, hscene, hm⟩)
  · rintro ⟨scene, hscene, hnone⟩
    obtain ⟨t, ht, hsame⟩ := h.get?_of_last hscene
    obtain ⟨v, hv⟩ := Table.mem_keys_iff.mp
      ((ExchangeScene.mem_keys_of_restored ht).mpr hscene.holds)
    cases v with
    | none => exact hsame.trans hv
    | some m => exact absurd ⟨t, ht, hv⟩ (hnone m)

end ProcessResult.Merges

namespace Compile

variable {α : Type} {ctx : Context α} {E : CompileError → Prop}

/-- Unless a scene cannot be read, all of them are written into the table. -/
theorem ends_matchScenes_resolved (hosts : HostTable α) (live : HostScene)
    (scenes : List ExchangeScene) (r : ProcessResult α) :
    Ends (matchScenes hosts live scenes r) ctx
      (fun r' _ => r'.finished = true →
        (∀ scene ∈ scenes, ∃ t, scene.restored hosts live ctx.options.allowUnsafe = .ok t) ∧
        r'.resolved =
          Table.insertEach (·.found hosts live ctx.options.allowUnsafe) scenes r.resolved) E := by
  induction scenes generalizing r ctx with
  | nil => exact ends_pure fun _ => ⟨by simp, rfl⟩
  | cons scene scenes ih =>
    rw [matchScenes]
    refine ends_get.bind ?_
    rintro _ ctx ⟨rfl, rfl⟩
    have hmatch : Ends (register (Registrar.apart ctx.options.allowUnsafe
        (Registrar.restore hosts live scene ctx.options.allowUnsafe))) ctx
        (fun result later => result = scene.restored hosts live ctx.options.allowUnsafe ∧
          later.options = ctx.options) E :=
      ends_of_run_ok (run_register _ ctx)
        ⟨Registrar.fst_run_apart_restore hosts live _ scene ctx.registrar, rfl⟩
    refine hmatch.bind ?_
    rintro result middle ⟨hresult, hoptions⟩
    cases result with
    | ok t =>
      refine (ih _).mono (fun r' _ h hfinished => ?_) fun _ h => h
      obtain ⟨hreadable, hresolved⟩ := h hfinished
      rw [hoptions] at hreadable hresolved
      refine ⟨List.forall_mem_cons.mpr ⟨⟨t, hresult.symm⟩, hreadable⟩, ?_⟩
      rw [hresolved, Table.insertEach_cons, ExchangeScene.found_of_restored hresult.symm]
    | error e => exact (ends_modify _).bind fun _ _ _ =>
        ends_pure fun hfinished => absurd hfinished Bool.false_ne_true

variable [Scalar α]

theorem ends_runEngine_merges (hosts : HostTable α) {request : ProcessRequest α} {live : HostScene}
    (hlive : request.live = some live) (scene : ExchangeScene) {r : ProcessResult α}
    (hnone : r.resolved = []) :
    Ends (runEngine hosts request scene r) ctx
      (fun r' _ => r'.finished = true → r'.Merges hosts live ctx.options.allowUnsafe)
      fun _ => True := by
  rw [runEngine]
  cases request.bufferSize with
  | error b => exact ends_of_run_error rfl trivial
  | ok size =>
    have hsize : Ends (MonadExcept.ofExcept (Except.ok size)) ctx
        (fun n later => n = size ∧ later = ctx) fun _ => True := ends_of_run_ok rfl ⟨rfl, rfl⟩
    refine hsize.bind ?_
    rintro size ctx ⟨rfl, rfl⟩
    refine (ends_modify _).bind fun _ middle hmiddle => ?_
    have hoptions : middle.options = ctx.options := by rw [hmiddle]; rfl
    dsimp only
    cases ((request.engine scene).watch size).result with
    | error e => exact ends_pure fun hfinished => absurd hfinished Bool.false_ne_true
    | ok run =>
      rw [hlive]
      dsimp only
      refine (Ends.and (E := fun _ => True) (ends_matchScenes hosts live run.scenes _ middle)
        (ends_matchScenes_resolved (E := fun _ => True) hosts live run.scenes _)).mono ?_
          fun _ _ => trivial
      rintro r' _ ⟨⟨hscenes, -, -⟩, hmatched⟩ hfinished
      obtain ⟨hreadable, hresolved⟩ := hmatched hfinished
      rw [hoptions] at hreadable hresolved
      rw [hnone] at hresolved
      exact ⟨hscenes ▸ hreadable, hscenes ▸ hresolved⟩

/-! ### Settings -/

/-- Whatever becomes of a material, the settings stay. -/
theorem channelWise_options : ChannelWise (α := α) (fun _ => True)
    (fun a b => b.options = a.options) fun _ _ => True where
  refl _ := rfl
  trans hab hbc := hbc.trans hab
  registrar _ _ := rfl
  warnings _ _ := rfl
  overrides _ _ := rfl
  slots _ _ _ _ := rfl
  kind _ _ := trivial
  exits _ _ _ _ := trivial
  channel {ctx} _ material d :=
    ⟨(keeps_compileChannel material d ctx).options, fun _ _ _ => trivial⟩

theorem ends_compileScene_options (hosts : HostTable α) (request : SceneRequest α) :
    Ends (compileScene hosts request) ctx (fun _ later => later.options = ctx.options)
      fun _ => True := by
  refine (channelWise_options.leaves_overrides
    request.overrides).ends.bind fun _ first hfirst => ?_
  refine (channelWise_options.leaves_compileMaterials hosts trivial
    request.materials).ends.bind fun ms second hsecond => ?_
  have hmeshes : Ends (request.meshes.forM fun e =>
      discard (e.2.foldlM (noteMeshMaterial hosts e.1) [])) second
      (fun _ later => later.options = ctx.options) fun _ => True := by
    refine ends_forM (I := fun later => later.options = ctx.options) (fun e _ middle h => ?_)
      (hsecond.1.trans hfirst.1)
    refine ends_discard (ends_foldlM (fun (u : Unit) (_ : HostId) => u)
      (I := fun _ _ later => later.options = ctx.options) (fun id _ _ seen last hlast => ?_)
      (g := ()) h) fun _ _ h => h
    exact ends_of_run_ok (run_noteMeshMaterial rfl e.1 seen) hlast
  refine hmeshes.bind fun _ third hthird => ?_
  refine (channelWise_options.leaves_exchangeScene ms).ends.bind fun scene fourth hfourth => ?_
  refine ends_get.bind ?_
  rintro _ _ ⟨rfl, rfl⟩
  exact ends_of_run_ok rfl (hfourth.1.trans hthird)

/-- A scene that is finished was compiled, and what its engine returned is written into its table. -/
theorem ends_processScene_merges (hosts : HostTable α) {request : ProcessRequest α}
    {live : HostScene} (hlive : request.live = some live) :
    Ends (processScene hosts request) ctx
      (fun r _ => r.finished = true → r.Merges hosts live ctx.options.allowUnsafe)
      fun _ => True := by
  rw [processScene]
  refine (ends_compileScene_options hosts request.toSceneRequest).bind fun compiled first hfirst => ?_
  have hcopy (policy : RetryPolicy α) (directory : Value α) (timer : Timer) (disk : Disk)
      (materials : List Material) : Ends (copyTextures policy directory timer disk materials) first
      (fun _ later => later.options = first.options) fun _ => True := ends_of_run_ok rfl rfl
  refine (hcopy _ _ _ _ _).bind fun copied second hsecond => ?_
  obtain ⟨outcome, copies⟩ := copied
  refine ends_get.bind ?_
  rintro _ second ⟨rfl, rfl⟩
  dsimp only
  cases outcome with
  | error e =>
    cases e <;> first
      | exact ends_of_run_error rfl trivial
      | exact ends_pure fun hfinished => absurd hfinished Bool.false_ne_true
  | ok =>
    cases request.textureDirectory with
    | text directory =>
      refine (ends_debug _).bind fun _ third hthird => ?_
      have hoptions : third.options = ctx.options :=
        hthird.options.trans (hsecond.trans hfirst)
      rw [← hoptions]
      exact ends_runEngine_merges hosts hlive _ rfl
    | _ => exact ends_of_run_error rfl trivial

end Compile

/-- Where the scenes of an engine were matched with live materials, there is one entry for each id of
any scene, and the last scene with the id tells what it leads to: a live material just if this scene,
matched on its own, gives that material, and otherwise nothing. So an id is lost that an earlier scene
gives a live material for, if the last one with the id gives none. -/
theorem Context.processScene_lastScene {α : Type} [Scalar α] (ctx : Context α) (hosts : HostTable α)
    (request : ProcessRequest α) {live : HostScene} (hlive : request.live = some live)
    {r : ProcessResult α} {later : Context α}
    (hrun : ctx.processScene hosts request = (.ok r, later)) (hfinished : r.finished = true) :
    let Gives := ExchangeScene.Restores hosts live ctx.options.allowUnsafe
    let LastWith (id : String) := Last (fun scene => id ∈ scene.materialIds) r.scenes
    (∃ scene, r.sent = some scene.materials ∧ r.scenes = (request.engine scene).ending.scenes) ∧
    r.resolved.keys.Nodup ∧
    (∀ id, id ∈ r.resolved.keys ↔ ∃ scene ∈ r.scenes, id ∈ scene.materialIds) ∧
    (∀ id m, r.resolved.get? id = some (some m) ↔ ∃ scene, LastWith id scene ∧ Gives scene id m) ∧
    ∀ id, r.resolved.get? id = some none ↔ ∃ scene, LastWith id scene ∧ ∀ m, ¬ Gives scene id m := by
  intro Gives LastWith
  have hmerges : r.Merges hosts live ctx.renew.options.allowUnsafe :=
    (Compile.ends_processScene_merges hosts hlive).ok hrun hfinished
  change r.Merges hosts live ctx.options.allowUnsafe at hmerges
  refine ⟨?_, hmerges.nodup_keys, fun id => hmerges.mem_keys_iff,
    fun id m => hmerges.get?_eq_some_some_iff, fun id => hmerges.get?_eq_some_none_iff⟩
  rcases (Compile.ends_processScene hosts request).ok hrun with
    ⟨-, hcancelled, -⟩ | ⟨compiled, middle, materials, -, -, hsent, htells⟩
  · exact absurd hfinished (by simp [hcancelled])
  · exact ⟨_, hsent, htells.scenes⟩

def stoneHosts : HostTable Float := ⟨#[{ handle := 1, name := "Stone", channels := [] }]⟩

/-- A scene with a stone that came back with its identity map. -/
def mappedStone : ExchangeScene where
  materials := [.forged "a"]
  attachments := [(Attachment.mapName,
    (Attachment.encode [(stoneHosts.get 0).record "a"]).toOption.getD [])]

/-- A stone that the first scene leads back to is lost, as the second scene has no identity map. -/
theorem Context.processScene_lastScene_stone :
    let ctx : Context Float := Context.start Options.standard .none {} ∅
    let live : HostScene := ⟨[(1, 0)]⟩
    let bare : ExchangeScene := { mappedStone with attachments := [] }
    let request : ProcessRequest Float :=
      { engineRequest (.returns (.scenes [mappedStone, bare])) (.ok 64) with live := some live }
    ∃ r later, ctx.processScene stoneHosts request = (.ok r, later) ∧ r.finished = true ∧
      r.scenes = [mappedStone, bare] ∧
      ExchangeScene.Restores stoneHosts live false mappedStone "a" 0 ∧
      r.resolved.get? "a" = some none := by
  intro ctx live bare request
  have hfine : ((ctx.processScene stoneHosts request).1.toOption.map (·.finished)) = some true := by
    decide +kernel
  have hgives : (mappedStone.restored stoneHosts live false).toOption = some [("a", some 0)] := by
    decide +kernel
  cases hrun : ctx.processScene stoneHosts request with
  | mk result later =>
    rw [hrun] at hfine
    cases result with
    | error e => cases hfine
    | ok r =>
      have hfinished : r.finished = true := Option.some.inj hfine
      obtain ⟨⟨scene, -, hscenes⟩, -, -, -, hlost⟩ :=
        processScene_lastScene ctx stoneHosts request rfl hrun hfinished
      replace hscenes : r.scenes = [mappedStone, bare] := hscenes
      refine ⟨r, later, rfl, hfinished, hscenes, ?_, ?_⟩
      · cases hrestored : mappedStone.restored stoneHosts live false with
        | error e =>
          rw [hrestored] at hgives
          cases hgives
        | ok t =>
          rw [hrestored] at hgives
          obtain rfl := Option.some.inj hgives
          exact ⟨_, hrestored, rfl⟩
      · refine (hlost "a").mpr ⟨bare, ⟨[mappedStone], [], hscenes, by decide, nofun⟩, ?_⟩
        rintro m ⟨t, ht, hm⟩
        obtain rfl : [("a", none)] = t := Except.ok.inj ht
        cases hm

end ShadeGraph
