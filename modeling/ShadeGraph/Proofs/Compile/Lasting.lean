import ShadeGraph.Exchange.Scene
import ShadeGraph.Proofs.Compile.Lockstep
import ShadeGraph.Proofs.Table

/-!
# What lasts while materials are compiled

A property of a session lasts while a channel is compiled, whatever becomes of the channel, if it
outlasts registrations, messages, notes and single nodes. From this it is told how a list of
materials leaves a session: what holds of each channel holds of all of them.
-/

namespace ShadeGraph.Compile

variable {α β γ σ ι : Type}

/-! ### Properties of a session -/

/-- A property of sessions that outlasts every step of compiling a channel, as long as only known
nodes are put together. -/
structure Lasting (known : NodeId → Prop) (I : Context α → Prop) : Prop where
  registrar {ctx : Context α} (h : I ctx) (registrar : Registrar) : I { ctx with registrar }
  warnings {ctx : Context α} (h : I ctx) (warnings : List Message) : I { ctx with warnings }
  textures {ctx : Context α} (h : I ctx) (material channel path mapping : Value α) [Scalar α] :
    I { ctx with usage := ctx.usage.addTexture material channel path mapping }
  constants {ctx : Context α} (h : I ctx) :
    known ctx.constants.one ∧ known ctx.constants.zero
  insert {ctx : Context α} (h : I ctx) {node : Node α}
    (hname : node.operation.texture? = none → node.name = "")
    (hinputs : ∀ j ∈ node.inputs, known j) :
    known ctx.network.size ∧ I { ctx with network := ctx.network.insert node }

/-- Two sessions with the property that differ in nothing that compiling a channel goes by. -/
structure Paired (I : Context α → Prop) (a b : Context α) : Prop where
  settings : a.SameSettings b
  constants : b.constants = a.constants
  size : b.network.size = a.network.size
  left : I a
  right : I b

/-- In a session with the property, whatever becomes of the step, the property stays, and a result is
as told. -/
def Upholds (I : Context α → Prop) (p : Compile α β) (Q : β → Prop) : Prop :=
  ∀ ctx, I ctx → I (p.run.run ctx).2 ∧ ∀ b, (p.run.run ctx).1 = .ok b → Q b

theorem Alongside.upholds {I : Context α → Prop} {p : Compile α β} {Q : β → Prop}
    (h : Abreast (Paired I) p Q) : Upholds I p Q := by
  intro ctx hctx
  obtain ⟨result, later, later', hrun, -, hlater, hresult⟩ :=
    h ctx ctx ⟨⟨rfl, rfl⟩, rfl, rfl, hctx, hctx⟩
  rw [hrun]
  exact ⟨hlater.left, hresult⟩

namespace Lasting

variable {known : NodeId → Prop} {I : Context α → Prop} (h : Lasting known I)
include h

theorem lockstep : Lockstep known (Paired I) where
  log hab _ _ := { hab with
    settings := ⟨hab.settings.options, hab.settings.overrides⟩
    left := h.registrar hab.left _
    right := h.registrar hab.right _ }
  warn hab _ := { hab with
    settings := ⟨hab.settings.options, hab.settings.overrides⟩
    left := h.registrar (h.warnings hab.left _) _
    right := h.registrar (h.warnings hab.right _) _ }
  constants hab := ⟨hab.constants.symm, h.constants hab.left⟩
  insert hab _ _ hname hinputs := by
    obtain ⟨hknown, hleft⟩ := h.insert hab.left (fun _ => hname) hinputs
    refine ⟨hab.size.symm, hknown, ?_⟩
    exact { hab with
      settings := ⟨hab.settings.options, hab.settings.overrides⟩
      size := by simp [hab.size]
      left := hleft
      right := (h.insert hab.right (fun _ => hname) hinputs).2 }

theorem alongside_texture (lookup lookup' : TextureLookup α) :
    Alongside (Paired I) (build (Build.texture lookup)) (build (Build.texture lookup')) known := by
  intro a b hab
  let node (lookup : TextureLookup α) : Node α :=
    { operation := .texture lookup, inputs := [], name := lookup.textureName }
  have hinsert {ctx : Context α} (hctx : I ctx) (lookup : TextureLookup α) :
      known ctx.network.size ∧ I { ctx with network := ctx.network.insert (node lookup) } := by
    refine h.insert hctx ?_ ?_
    · rintro ⟨⟩
    · intro j hj
      cases hj
  obtain ⟨hknown, hleft⟩ := hinsert hab.left lookup
  refine ⟨.ok a.network.size, { a with network := a.network.insert (node lookup) },
    { b with network := b.network.insert (node lookup') }, rfl, ?_, ?_, ?_⟩
  · rw [← hab.size]
    rfl
  · exact ⟨⟨hab.settings.options, hab.settings.overrides⟩, hab.constants, by simp [hab.size],
      hleft, (hinsert hab.right lookup').2⟩
  · rintro _ ⟨⟩
    exact hknown

variable [Scalar α]

omit h in
theorem readAlike (key : ChannelKey α) : ReadAlike key (Paired I) where
  options hab := hab.settings.options.symm
  colors hab := by rw [hab.settings.overrides]
  textures hab := by rw [hab.settings.overrides]
  mappings hab := by rw [hab.settings.overrides]

theorem notesAbreast : NotesAbreast (Paired I) := fun _ _ hab _ _ _ => { hab with
  settings := ⟨hab.settings.options, hab.settings.overrides⟩
  left := h.textures hab.left _ _ _ _
  right := h.textures hab.right _ _ _ _ }

theorem texturesAbreast (scope : Scope) : TexturesAbreast known (Paired I) scope :=
  h.lockstep.texturesAbreast (readAlike _) h.notesAbreast fun _ _ _ _ => h.alongside_texture _ _

/-- Compiling a source keeps the property, and gives a known node. -/
theorem upholds_compileSource (scope : Scope) (source : Source α) :
    Upholds I (compileSource scope source) fun n => ∀ i ∈ n, known i :=
  (h.lockstep.abreast_compileSource (h.texturesAbreast scope) source).upholds

/-- Compiling a channel keeps the property, and gives a known node. -/
theorem upholds_compileChannel (material : String) (d : ChannelDescriptor α) :
    Upholds I (compileChannel material d) fun n => ∀ i ∈ n, known i :=
  (h.lockstep.abreast_compileChannel (readAlike _) h.notesAbreast
    (fun _ _ _ _ _ => h.alongside_texture _ _) fun _ _ _ _ => h.texturesAbreast _).upholds

end Lasting

/-! ### How materials leave a session -/

/-- Whatever becomes of the step, it leaves a session that `R` relates to the one before, and a result
is as told. -/
structure Leaves (R : Context α → Context α → Prop) (p : Compile α β) (ctx : Context α)
    (Q : β → Context α → Prop) : Prop where
  after : R ctx (p.run.run ctx).2
  result : ∀ {b later}, p.run.run ctx = (.ok b, later) → Q b later

theorem Leaves.ends {R : Context α → Context α → Prop} {p : Compile α β} {ctx : Context α}
    {Q : β → Context α → Prop} (h : Leaves R p ctx Q) :
    Ends p ctx (fun b later => R ctx later ∧ Q b later) fun _ => True := by
  refine ⟨fun hrun => ⟨?_, h.result hrun⟩, fun _ => trivial⟩
  have hafter := h.after
  rwa [hrun] at hafter

/-- A relation to later sessions that is kept by overrides and by all steps of compiling materials but
the channels. -/
structure Enduring (R : Context α → Context α → Prop) : Prop where
  refl (ctx : Context α) : R ctx ctx
  trans {a b c : Context α} (hab : R a b) (hbc : R b c) : R a c
  registrar (ctx : Context α) (registrar : Registrar) : R ctx { ctx with registrar }
  warnings (ctx : Context α) (warnings : List Message) : R ctx { ctx with warnings }
  overrides (ctx : Context α) (overrides : Overrides α) : R ctx { ctx with overrides }
  slots (ctx : Context α) (material index sub : Value α) [Scalar α] :
    R ctx { ctx with usage := ctx.usage.addSlot material index sub }

namespace Enduring

variable {R : Context α → Context α → Prop} (h : Enduring R) {p : Compile α β} {ctx : Context α}
  {Q : β → Context α → Prop}

theorem leaves_of_run {result : Except CompileError β} {later : Context α}
    (hrun : p.run.run ctx = (result, later)) (hlater : R ctx later)
    (hQ : ∀ b, result = .ok b → Q b later) : Leaves R p ctx Q := by
  refine ⟨by rwa [hrun], fun hok => ?_⟩
  obtain ⟨rfl, rfl⟩ := Prod.mk.inj (hrun.symm.trans hok)
  exact hQ _ rfl

include h

theorem leaves_pure {b : β} (hb : Q b ctx) : Leaves R (pure b) ctx Q :=
  leaves_of_run rfl (h.refl ctx) fun _ hok => Except.ok.inj hok ▸ hb

theorem leaves_throw (e : CompileError) : Leaves R (throw e : Compile α β) ctx Q :=
  leaves_of_run rfl (h.refl ctx) fun _ hok => nomatch hok

theorem leaves_get : Leaves R get ctx fun seen later => seen = ctx ∧ later = ctx :=
  leaves_of_run rfl (h.refl ctx) fun _ hok => ⟨(Except.ok.inj hok).symm, rfl⟩

theorem leaves_bind {f : β → Compile α γ} {S : γ → Context α → Prop} (hp : Leaves R p ctx Q)
    (hf : ∀ b later, R ctx later → Q b later → Leaves R (f b) later S) :
    Leaves R (p >>= f) ctx S := by
  have hlater := hp.after
  rcases hrun : p.run.run ctx with ⟨e | b, later⟩ <;> rw [hrun] at hlater
  · exact leaves_of_run (run_bind_of_error hrun f) hlater fun _ hok => nomatch hok
  · have hlast := hf b later hlater (hp.result hrun)
    refine ⟨?_, fun hok => hlast.result ((run_bind_of_ok hrun f).symm.trans hok)⟩
    rw [run_bind_of_ok hrun]
    exact h.trans hlater hlast.after

/-- What every turn of a loop keeps holds at its end. -/
theorem leaves_foldlM {J : σ → Context α → Prop} {f : σ → ι → Compile α σ} {xs : List ι}
    (hf : ∀ x ∈ xs, ∀ s later, R ctx later → J s later → Leaves R (f s x) later J) {s : σ}
    (hs : J s ctx) : Leaves R (xs.foldlM f s) ctx J := by
  induction xs generalizing s ctx with
  | nil => exact h.leaves_pure hs
  | cons x xs ih =>
    obtain ⟨hx, hxs⟩ := List.forall_mem_cons.mp hf
    rw [List.foldlM_cons]
    refine h.leaves_bind (hx s ctx (h.refl ctx) hs) fun _ later hlater hs' => ?_
    exact ih (fun y hy s last hlast => hxs y hy s last (h.trans hlater hlast)) hs'

theorem leaves_debug (text : String) :
    Leaves R (debug text) ctx fun _ later => R ctx later :=
  have hlater := h.registrar ctx (ctx.log (·.debug text)).registrar
  leaves_of_run rfl hlater fun _ _ => hlater

theorem leaves_warn (text : String) :
    Leaves R (Compile.warn text) ctx fun _ later => R ctx later :=
  have hlater := h.trans (h.warnings ctx (ctx.warn (.text text)).warnings)
    (h.registrar _ (ctx.warn (.text text)).registrar)
  leaves_of_run rfl hlater fun _ _ => hlater

theorem leaves_register (step : Register β) :
    Leaves R (register step) ctx fun _ later => R ctx later :=
  have hlater := h.registrar ctx (step.run ctx.registrar).2
  leaves_of_run (run_register step ctx) hlater fun _ _ => hlater

theorem leaves_exchangeScene (materials : List Material) :
    Leaves R (exchangeScene materials) ctx fun _ later => R ctx later := by
  refine h.leaves_bind h.leaves_get ?_
  rintro _ _ - ⟨rfl, rfl⟩
  refine h.leaves_bind (h.leaves_register _) fun written middle hmiddle _ => ?_
  cases written with
  | error e => exact h.leaves_throw _
  | ok bytes =>
    refine h.leaves_bind (h.leaves_debug _) fun _ later hlater _ => ?_
    exact h.leaves_pure (h.trans hmiddle hlater)

/-- Whatever becomes of the overrides of a scene, the session is related to the one before. -/
theorem leaves_overrides [Scalar α] (entries : List (ChannelKey α × ChannelOverride α)) :
    Leaves R (entries.forM fun (key, entry) => discard (override key entry)) ctx
      fun _ later => R ctx later := by
  have hentry (e : ChannelKey α × ChannelOverride α) (ctx : Context α) :
      Leaves R (discard (override e.1 e.2)) ctx fun _ later => R ctx later := by
    have hbind : discard (override e.1 e.2) = override e.1 e.2 >>= fun _ => pure PUnit.unit :=
      (bind_pure_comp _ (override e.1 e.2)).symm
    rw [hbind, override, bind_assoc]
    refine h.leaves_bind h.leaves_get ?_
    rintro _ _ - ⟨rfl, rfl⟩
    split
    · rw [bind_assoc]
      exact h.leaves_bind (h.leaves_debug _) fun _ _ hlater _ => h.leaves_pure hlater
    · exact leaves_of_run rfl (h.overrides _ _) fun _ _ => h.overrides _ _
  induction entries generalizing ctx with
  | nil => exact h.leaves_pure (h.refl ctx)
  | cons e entries ih =>
    refine h.leaves_bind (hentry e ctx) fun _ middle hmiddle _ => ?_
    exact ⟨ih.after, fun hrun => h.trans hmiddle (ih.result hrun)⟩

theorem leaves_slot [Scalar α] (material index sub : Value α) :
    Leaves R (note (·.addSlot material index sub)) ctx fun _ later => R ctx later :=
  have hlater := h.slots ctx material index sub
  leaves_of_run rfl hlater fun _ _ => hlater

end Enduring

/-- All exits of a material are as told. -/
def Exits (P : Context α → NodeId → Prop) (ctx : Context α) (m : Material) : Prop :=
  ∀ c ∈ m.channels, P ctx c.2

variable [Scalar α]

/-- What compiling a channel keeps in a session of a kind: a relation to later sessions of the kind,
in which what is told of the exits goes on to hold. -/
structure ChannelWise (J : Context α → Prop) (R : Context α → Context α → Prop)
    (P : Context α → NodeId → Prop) : Prop extends Enduring R where
  kind {a b : Context α} (ha : J a) (hab : R a b) : J b
  exits {a b : Context α} (ha : J a) (hab : R a b) {n : NodeId} (hn : P a n) : P b n
  channel {ctx : Context α} (hctx : J ctx) (material : String) (d : ChannelDescriptor α) :
    Leaves R (compileChannel material d) ctx fun n later => ∀ i ∈ n, P later i

namespace ChannelWise

variable {J : Context α → Prop} {R : Context α → Context α → Prop}
  {P : Context α → NodeId → Prop} (h : ChannelWise J R P) {ctx : Context α}
include h

theorem leaves_compileChannels (hctx : J ctx) (material : String)
    (ds : List (ChannelDescriptor α)) {channels : Table String NodeId}
    (hchannels : ∀ c ∈ channels, P ctx c.2) :
    Leaves R (compileChannels material ds channels) ctx
      fun channels later => ∀ c ∈ channels, P later c.2 := by
  induction ds generalizing channels ctx with
  | nil => exact h.leaves_pure hchannels
  | cons d ds ih =>
    have hrest {later : Context α} (hlater : R ctx later) {channels' : Table String NodeId}
        (hchannels' : ∀ c ∈ channels', P later c.2) :
        Leaves R (compileChannels material ds channels') later
          fun channels last => ∀ c ∈ channels, P last c.2 :=
      ih (h.kind hctx hlater) hchannels'
    have hold {later : Context α} (hlater : R ctx later) : ∀ c ∈ channels, P later c.2 :=
      fun c hc => h.exits hctx hlater (hchannels c hc)
    unfold compileChannels
    split
    · exact h.leaves_bind (h.leaves_warn _) fun _ _ hlater _ => hrest hlater (hold hlater)
    · refine h.leaves_bind (h.channel hctx material d) fun n later hlater hn => ?_
      cases n with
      | none => exact hrest hlater (hold hlater)
      | some n =>
        refine hrest hlater fun c hc => ?_
        rcases Table.mem_insert hc with hc | rfl
        · exact hold hlater c hc
        · exact hn n rfl

theorem exits_of {later : Context α} (hctx : J ctx) (hlater : R ctx later) {m : Material}
    (hm : Exits P ctx m) : Exits P later m := fun c hc => h.exits hctx hlater (hm c hc)

variable (hosts : HostTable α)

theorem leaves_compileMaterial (hctx : J ctx) (id : HostId) :
    Leaves R (compileMaterial hosts id) ctx fun m later => Exits P later m := by
  refine h.leaves_bind (h.leaves_register _) fun _ middle hmiddle _ => ?_
  have hnone : ∀ c ∈ ([] : Table String NodeId), P middle c.2 := nofun
  have hchannels := h.leaves_compileChannels (h.kind hctx hmiddle) (hosts.get id).name
    (hosts.get id).channels hnone
  refine h.leaves_bind hchannels fun channels later hlater hexits => ?_
  refine h.leaves_bind h.leaves_get ?_
  rintro _ _ - ⟨rfl, rfl⟩
  refine h.leaves_bind (h.leaves_debug _) fun _ last hlast _ => ?_
  exact h.leaves_pure fun c hc => h.exits (h.kind (h.kind hctx hmiddle) hlater) hlast (hexits c hc)

theorem leaves_visitWithin (depth : Nat) (id : HostId) (hctx : J ctx) {tour : Tour}
    (htour : ∀ m ∈ tour.materials, Exits P ctx m) :
    Leaves R (visitWithin hosts depth id tour) ctx
      fun tour later => ∀ m ∈ tour.materials, Exits P later m := by
  induction depth generalizing id tour ctx with
  | zero => exact h.leaves_pure htour
  | succ depth ih =>
    unfold visitWithin
    dsimp only
    split_ifs with hmulti hmet
    · exact h.leaves_pure htour
    · refine h.leaves_bind (h.leaves_register _) fun _ middle hmiddle _ => ?_
      have hkind := h.kind hctx hmiddle
      refine h.leaves_foldlM (J := fun (tour : Tour) later => ∀ m ∈ tour.materials, Exits P later m)
        ?_ fun m hm => h.exits_of hctx hmiddle (htour m hm)
      rintro ⟨slot, sub⟩ _ tour later hlater htour
      have hkind' := h.kind hkind hlater
      refine h.leaves_bind (h.leaves_slot _ _ _) fun _ last hlast _ => ?_
      exact ih sub (h.kind hkind' hlast) fun m hm => h.exits_of hkind' hlast (htour m hm)
    · refine h.leaves_bind (h.leaves_register _) fun r middle hmiddle _ => ?_
      have hold : ∀ m ∈ tour.materials, Exits P middle m :=
        fun m hm => h.exits_of hctx hmiddle (htour m hm)
      split_ifs
      · exact h.leaves_pure hold
      · have hkind := h.kind hctx hmiddle
        refine h.leaves_bind (h.leaves_compileMaterial hosts hkind id) fun m later hlater hm => ?_
        refine h.leaves_pure (List.forall_mem_append.mpr ⟨fun m hm => ?_, by simpa using hm⟩)
        exact h.exits_of hkind hlater (hold m hm)

/-- Whatever becomes of a list of materials, the session is related to the one before, and what is
told of every channel holds of all exits. -/
theorem leaves_compileMaterials (hctx : J ctx) (ids : List HostId) :
    Leaves R (compileMaterials hosts ids) ctx fun ms later => ∀ m ∈ ms, Exits P later m := by
  refine h.leaves_bind (h.leaves_foldlM (J := fun (tour : Tour) later =>
    ∀ m ∈ tour.materials, Exits P later m) ?_ nofun) fun _ _ _ htour => h.leaves_pure htour
  exact fun id _ tour later hlater htour =>
    h.leaves_visitWithin hosts (hosts.size + 1) id (h.kind hctx hlater) htour

end ChannelWise

end ShadeGraph.Compile
