import ShadeGraph.Proofs.Meaning.Source
import ShadeGraph.Proofs.Network.Twins

/-!
# Two sessions side by side

What a source is compiled to does not depend on the session beyond its options, overrides and
proxies: in two sessions with the same ones it ends in the same error, has no node in both, or has
nodes that are alike. The place of a layer and the scope around the composite count for nothing but
messages.
-/

namespace ShadeGraph

variable {α β γ δ ε : Type}

/-- Two sessions. -/
structure TwinSessions (α : Type) where
  left : Context α
  right : Context α

namespace TwinSessions

variable {both later last : TwinSessions α}

/-- The networks of both sessions. -/
def nets (both : TwinSessions α) : Twins α := ⟨both.left.network, both.right.network⟩

/-- Something was added to both sessions. -/
structure Grow (both later : TwinSessions α) : Prop where
  left : both.left.Grows later.left
  right : both.right.Grows later.right

theorem Grow.refl (both : TwinSessions α) : both.Grow both := ⟨.refl both.left, .refl both.right⟩

theorem Grow.trans (h : both.Grow later) (hlast : later.Grow last) : both.Grow last :=
  ⟨h.left.trans hlast.left, h.right.trans hlast.right⟩

theorem Grow.extend (h : both.Grow later) : both.nets.Extend later.nets :=
  ⟨h.left.network, h.right.network⟩

/-- Both sessions have the same settings, and one and zero for constants. -/
structure Level [OfScientific α] (both : TwinSessions α) : Prop where
  options : both.left.options = both.right.options
  overrides : both.left.overrides = both.right.overrides
  proxies : both.left.proxies = both.right.proxies
  left : both.left.HasConstants
  right : both.right.HasConstants

theorem Level.grow [OfScientific α] (h : both.Level) (hlater : both.Grow later) : later.Level where
  options := by rw [hlater.left.options, hlater.right.options, h.options]
  overrides := by rw [hlater.left.overrides, hlater.right.overrides, h.overrides]
  proxies := by rw [hlater.left.proxies, hlater.right.proxies, h.proxies]
  left := hlater.left.hasConstants h.left
  right := hlater.right.hasConstants h.right

theorem level_of_grows [OfScientific α] {ctx later : Context α} (h : ctx.HasConstants)
    (hlater : ctx.Grows later) : Level ⟨later, ctx⟩ :=
  ⟨hlater.options, hlater.overrides, hlater.proxies, hlater.hasConstants h, h⟩

theorem level_same [OfScientific α] {ctx : Context α} (h : ctx.HasConstants) :
    Level ⟨ctx, ctx⟩ := level_of_grows h (.refl ctx)

end TwinSessions

theorem Network.HasColor.hasOutcome [Scalar α] {net : Network α} {n : NodeId} {v : Rgba α}
    (h : net.HasColor n v) (images : ImageTable α) (uv : UvGrid α) :
    net.HasOutcome images uv n ((Operation.color v).samples images uv []) := by
  obtain ⟨name, hnode⟩ := h
  exact ⟨lt_size_of_get? hnode, plainValues_of_get? hnode⟩

theorem Twins.alike_of_hasColor [Scalar α] {nets : Twins α} {a b : NodeId} {v : Rgba α}
    (ha : nets.left.HasColor a v) (hb : nets.right.HasColor b v) : nets.Alike a b :=
  fun images uv => ⟨_, ha.hasOutcome images uv, hb.hasOutcome images uv⟩

namespace TwinSessions.Level

variable [Scalar α] {both : TwinSessions α}

theorem one (h : both.Level) : both.nets.Alike both.left.constants.one both.right.constants.one :=
  Twins.alike_of_hasColor h.left.one h.right.one

theorem zero (h : both.Level) :
    both.nets.Alike both.left.constants.zero both.right.constants.zero :=
  Twins.alike_of_hasColor h.left.zero h.right.zero

end TwinSessions.Level

namespace Compile

/-- Both steps end in the same error, or add to their sessions and leave results and networks as
told. -/
inductive Agree (p : Compile α β) (q : Compile α γ) (both : TwinSessions α)
    (R : β → γ → Twins α → Prop) : Prop
  | ok {b : β} {c : γ} {later : TwinSessions α} (left : p.run.run both.left = (.ok b, later.left))
      (right : q.run.run both.right = (.ok c, later.right)) (grow : both.Grow later)
      (result : R b c later.nets)
  | error {e : CompileError} {ctx ctx' : Context α} (left : p.run.run both.left = (.error e, ctx))
      (right : q.run.run both.right = (.error e, ctx'))

section

variable {both : TwinSessions α} {p : Compile α β} {q : Compile α γ} {R : β → γ → Twins α → Prop}

theorem agree_pure {b : β} {c : γ} (h : R b c both.nets) : Agree (pure b) (pure c) both R :=
  .ok rfl rfl (.refl both) h

variable (both) in
theorem agree_throw (e : CompileError) :
    Agree (throw e : Compile α β) (throw e : Compile α γ) both R := .error rfl rfl

theorem Agree.bind {f : β → Compile α δ} {g : γ → Compile α ε} {S : δ → ε → Twins α → Prop}
    (h : Agree p q both R)
    (hfg : ∀ b c later, both.Grow later → R b c later.nets → Agree (f b) (g c) later S) :
    Agree (p >>= f) (q >>= g) both S := by
  cases h with
  | error hp hq => exact .error (run_bind_of_error hp f) (run_bind_of_error hq g)
  | ok hp hq hgrow hresult =>
    have hpf := run_bind_of_ok hp f
    have hqg := run_bind_of_ok hq g
    cases hfg _ _ _ hgrow hresult with
    | error hf hg => exact .error (hpf.trans hf) (hqg.trans hg)
    | ok hf hg hlast hlater =>
      exact .ok (hpf.trans hf) (hqg.trans hg) (hgrow.trans hlast) hlater

theorem Agree.mono {S : β → γ → Twins α → Prop} (h : Agree p q both R)
    (hS : ∀ b c nets, R b c nets → S b c nets) : Agree p q both S := by
  cases h with
  | error hp hq => exact .error hp hq
  | ok hp hq hgrow hresult => exact .ok hp hq hgrow (hS _ _ _ hresult)

/-- What is done in the left session alone. -/
theorem Agree.left_bind {step : Compile α δ} {f : δ → Compile α β} {d : δ} {ctx : Context α}
    (hrun : step.run.run both.left = (.ok d, ctx)) (hgrows : both.left.Grows ctx)
    (h : Agree (f d) q ⟨ctx, both.right⟩ R) : Agree (step >>= f) q both R := by
  have hleft := run_bind_of_ok hrun f
  cases h with
  | error hf hq => exact .error (hleft.trans hf) hq
  | ok hf hq hlater hresult =>
    exact .ok (hleft.trans hf) hq ⟨hgrows.trans hlater.left, hlater.right⟩ hresult

theorem agree_constants_bind {f : Constants → Compile α β} {g : Constants → Compile α γ}
    (h : Agree (f both.left.constants) (g both.right.constants) both R) :
    Agree (constants >>= f) (constants >>= g) both R := by
  have hleft : (constants >>= f).run.run both.left = (f both.left.constants).run.run both.left :=
    rfl
  have hright : (constants >>= g).run.run both.right =
      (g both.right.constants).run.run both.right := rfl
  cases h with
  | error hp hq => exact .error (hleft.trans hp) (hright.trans hq)
  | ok hp hq hgrow hresult => exact .ok (hleft.trans hp) (hright.trans hq) hgrow hresult

theorem agree_build {step : Build α β} {step' : Build α γ}
    (h : Build.Agree step step' both.nets R) : Agree (build step) (build step') both R := by
  have hgrow :
      both.Grow ⟨((build step).run.run both.left).2, ((build step').run.run both.right).2⟩ :=
    ⟨⟨keeps_build step both.left, h.grows.left⟩, ⟨keeps_build step' both.right, h.grows.right⟩⟩
  exact .ok rfl rfl hgrow h.result

/-- What is known about the left step alone. -/
theorem Agree.and_left {Q : β → Network α → Prop} (h : Agree p q both R) (hQ : Adds p both.left Q) :
    Agree p q both fun b c nets => R b c nets ∧ Q b nets.left := by
  cases h with
  | error hp hq => exact .error hp hq
  | ok hp hq hgrow hresult => exact .ok hp hq hgrow ⟨hresult, (hQ.ok hp).2⟩

/-- If the left step succeeds, the right one does, and they leave results and networks as told. -/
def Follows (p : Compile α β) (q : Compile α γ) (both : TwinSessions α)
    (R : β → γ → Twins α → Prop) : Prop :=
  Ends p both.left (fun b ctx => ∃ c ctx', q.run.run both.right = (.ok c, ctx') ∧
    both.Grow ⟨ctx, ctx'⟩ ∧ R b c ⟨ctx.network, ctx'.network⟩) fun _ => True

theorem Agree.follows (h : Agree p q both R) : Follows p q both R := by
  cases h with
  | error hp hq => exact ends_of_run_error hp trivial
  | ok hp hq hgrow hresult => exact ends_of_run_ok hp ⟨_, _, hq, hgrow, hresult⟩

theorem Follows.bind {f : β → Compile α δ} {g : γ → Compile α ε} {S : δ → ε → Twins α → Prop}
    (h : Follows p q both R)
    (hfg : ∀ b c later, both.Grow later → R b c later.nets → Follows (f b) (g c) later S) :
    Follows (p >>= f) (q >>= g) both S := by
  refine Ends.bind h ?_
  rintro b ctx ⟨c, ctx', hq, hgrow, hresult⟩
  refine (hfg b c ⟨ctx, ctx'⟩ hgrow hresult).mono ?_ fun _ => id
  rintro d last ⟨e, last', hg, hlast, hlater⟩
  exact ⟨e, last', (run_bind_of_ok hq g).trans hg, hgrow.trans hlast, hlater⟩

theorem Follows.left_bind {step : Compile α δ} {f : δ → Compile α β} {Q : δ → Network α → Prop}
    (h : Adds step both.left Q)
    (hf : ∀ d ctx, both.left.Grows ctx → Q d ctx.network → Follows (f d) q ⟨ctx, both.right⟩ R) :
    Follows (step >>= f) q both R := by
  refine Ends.bind h ?_
  rintro d ctx ⟨hgrows, hd⟩
  refine (hf d ctx hgrows hd).mono ?_ fun _ => id
  rintro b last ⟨c, last', hq, hlast, hresult⟩
  exact ⟨c, last', hq, ⟨hgrows.trans hlast.left, hlast.right⟩, hresult⟩

variable (both) in
theorem agree_warn (text text' : String) :
    Agree (warn text) (warn text') both fun _ _ _ => True := by
  have hgrow :
      both.Grow ⟨((warn text).run.run both.left).2, ((warn text').run.run both.right).2⟩ :=
    ⟨⟨keeps_warn text both.left, .refl _⟩, ⟨keeps_warn text' both.right, .refl _⟩⟩
  exact .ok rfl rfl hgrow trivial

variable (both) in
theorem agree_debug (text text' : String) :
    Agree (debug text) (debug text') both fun _ _ _ => True := by
  have hgrow :
      both.Grow ⟨((debug text).run.run both.left).2, ((debug text').run.run both.right).2⟩ :=
    ⟨⟨keeps_debug text both.left, .refl _⟩, ⟨keeps_debug text' both.right, .refl _⟩⟩
  exact .ok rfl rfl hgrow trivial

variable (both) in
theorem agree_note (f g : Usage α → Usage α) :
    Agree (note f) (note g) both fun _ _ _ => True := by
  have hgrow : both.Grow ⟨((note f).run.run both.left).2, ((note g).run.run both.right).2⟩ :=
    ⟨⟨keeps_note f both.left, .refl _⟩, ⟨keeps_note g both.right, .refl _⟩⟩
  exact .ok rfl rfl hgrow trivial

end

variable [Scalar α] {both : TwinSessions α} {n n' : NodeId}

/-- Both steps end in the same error, or add to their sessions and return like nodes. -/
abbrev Mirrors (p q : Compile α NodeId) (both : TwinSessions α) : Prop :=
  Agree p q both fun n n' nets => nets.Alike n n'

/-- Both steps end in the same error, or add to their sessions and return like nodes or none. -/
abbrev MirrorsOption (p q : Compile α (Option NodeId)) (both : TwinSessions α) : Prop :=
  Agree p q both fun n n' nets => Option.Rel nets.Alike n n'

theorem mirrors_build {step step' : Build α NodeId} (h : Build.Mirrors step step' both.nets) :
    Mirrors (build step) (build step') both := agree_build h

theorem Agree.some {p q : Compile α NodeId} (h : Mirrors p q both) :
    MirrorsOption (do return some (← p)) (do return some (← q)) both :=
  h.bind fun _ _ _ _ hn => agree_pure (.some hn)

theorem MirrorsOption.bind {p q : Compile α (Option NodeId)}
    {f g : NodeId → Compile α (Option NodeId)} (h : MirrorsOption p q both)
    (hfg : ∀ n n' later, both.Grow later → later.nets.Alike n n' →
      MirrorsOption (f n) (g n') later) :
    MirrorsOption (do
      match ← p with
      | some n => f n
      | none => return none) (do
      match ← q with
      | some n => g n
      | none => return none) both := by
  refine Agree.bind h fun n n' later hlater hn => ?_
  cases hn with
  | none => exact agree_pure .none
  | some hn => exact hfg _ _ later hlater hn

variable (both) in
theorem mirrors_color (shade : Shade α) : Mirrors (color shade) (color shade) both := by
  unfold color
  split
  · exact mirrors_build (Build.mirrors_color both.nets _)
  · exact agree_throw both _

theorem mirrors_orColor {a a' : Option NodeId} (ha : Option.Rel both.nets.Alike a a')
    (shade : Shade α) : Mirrors (orColor a shade) (orColor a' shade) both := by
  cases ha with
  | some ha => exact agree_pure ha
  | none => exact mirrors_color both shade

/-! ### Textures -/

/-- A bitmap is bound to the same texture in both sessions. -/
theorem agree_bindTexture (h : both.Level) {scope scope' : Scope}
    (hscope : scope.key (α := α) = scope'.key) (hcolor : scope.isColor = scope'.isColor)
    (source : TextureSource α) :
    Agree (bindTexture scope source) (bindTexture scope' source) both
      fun b b' _ => b = binding? both.left scope source ∧ b = b' := by
  obtain ⟨b, ctx, hrun, hb⟩ := (ends_bindTexture both.left scope source).exists_ok fun _ => id
  obtain ⟨b', ctx', hrun', hb'⟩ :=
    (ends_bindTexture both.right scope' source).exists_ok fun _ => id
  have hleft := (adds_bindTexture scope source).ok hrun
  have hright := (adds_bindTexture scope' source).ok hrun'
  have hbound : bound both.right scope' source = bound both.left scope source := by
    simp only [bound, Context.mappingChannel, Options.srgb, h.options, h.overrides, h.proxies,
      hscope, hcolor]
  have hgrow : both.Grow ⟨ctx, ctx'⟩ := ⟨hleft.1, hright.1⟩
  refine .ok hrun hrun' hgrow ⟨hleft.2, ?_⟩
  rw [hb, hb', hbound]

theorem mirrors_compileTexture (h : both.Level) (scope : Scope) (b : TextureBinding α) :
    Mirrors (compileTexture scope b) (compileTexture scope b) both := by
  refine agree_constants_bind ?_
  refine (mirrors_build (Build.mirrors_textureChannel h.one scope b)).bind
    fun n n' both₁ _ hn => ?_
  split
  · exact (agree_debug both₁ _ _).bind fun _ _ _ h₂ _ => agree_pure (hn.extend h₂.extend)
  · exact agree_pure hn

theorem mirrors_compileTextureSource (h : both.Level) (scope : Scope) (source : TextureSource α) :
    MirrorsOption (compileTextureSource scope source) (compileTextureSource scope source)
      both := by
  refine (agree_bindTexture h rfl rfl source).bind ?_
  rintro b _ both₁ h₁ ⟨-, rfl⟩
  cases b with
  | none => exact agree_pure .none
  | some b => exact (mirrors_compileTexture (h.grow h₁) scope b).some

/-! ### Overrides -/

theorem mirrors_overrideTexture (h : both.Level) (scope : Scope) (file : TextureFile α) :
    Mirrors (overrideTexture scope file) (overrideTexture scope file) both := by
  have hmapping : both.left.mappingChannel scope none = both.right.mappingChannel scope none := by
    rw [Context.mappingChannel, Context.mappingChannel, h.options, h.overrides]
  have hget : Agree get get both fun ctx ctx' _ =>
      ctx.mappingChannel scope none = ctx'.mappingChannel scope none :=
    .ok rfl rfl (.refl both) hmapping
  refine hget.bind fun ctx ctx' both₁ h₁ hsame => ?_
  dsimp only
  rw [hsame]
  refine (agree_note both₁ _ _).bind fun _ _ both₂ h₂ _ => ?_
  exact mirrors_compileTexture (h.grow (h₁.trans h₂)) scope _

/-- An override has like nodes in both sessions, and none where nothing replaces the channel. -/
theorem agree_resolveOverride (h : both.Level) (scope : Scope) (own : Option (ChannelOverride α)) :
    Agree (resolveOverride scope own) (resolveOverride scope own) both fun n n' nets =>
      Option.Rel nets.Alike n n' ∧ n.isSome = (own <|> both.left.overrides.find? scope.key
        both.left.options.useColorOverrides).isSome := by
  have hfind : Agree (overrideFor scope own) (overrideFor scope own) both fun o o' _ =>
      (own <|> both.left.overrides.find? scope.key both.left.options.useColorOverrides) = o ∧
        o = o' :=
    .ok rfl rfl (.refl both) ⟨rfl, by rw [h.options, h.overrides]⟩
  refine hfind.bind ?_
  rintro o _ both₁ h₁ ⟨hfound, rfl⟩
  rw [hfound]
  have hnode {p : Compile α NodeId} (hp : Mirrors p p both₁) :
      Agree (do return some (← p)) (do return some (← p)) both₁ fun n n' nets =>
        Option.Rel nets.Alike n n' ∧ n.isSome = true :=
    hp.bind fun _ _ _ _ hn => agree_pure ⟨.some hn, rfl⟩
  cases o with
  | none => exact agree_pure ⟨.none, rfl⟩
  | some o =>
    cases o with
    | color shade =>
      exact hnode ((agree_debug both₁ _ _).bind fun _ _ both₂ _ _ => mirrors_color both₂ shade)
    | texture file =>
      exact hnode ((agree_debug both₁ _ _).bind fun _ _ both₂ h₂ _ =>
        mirrors_overrideTexture (h.grow (h₁.trans h₂)) scope file)
    | mapping channel => exact agree_throw both₁ _

/-! ### Products, tints and layers -/

theorem mirrors_product {a a' : NodeId} {b b' : Option NodeId} (ha : both.nets.Alike a a')
    (hb : Option.Rel both.nets.Alike b b') (settings : ProductSettings α) :
    MirrorsOption (do
      let b ← orColor b settings.secondColor
      return some (← build (Build.product a b settings.alphaFrom))) (do
      let b ← orColor b' settings.secondColor
      return some (← build (Build.product a' b settings.alphaFrom))) both := by
  refine (mirrors_orColor hb settings.secondColor).bind fun b b' both₁ h₁ hb => ?_
  exact (mirrors_build (Build.mirrors_product (ha.extend h₁.extend) hb settings.alphaFrom)).some

theorem mirrors_tint (hn : both.nets.Alike n n') (columns : TintColumns α) :
    Mirrors (tint n columns) (tint n' columns) both := by
  have hcolumn (c : Component) (shade : Shade α) {later : TwinSessions α} (h : both.Grow later) :
      Mirrors (do
        let share ← build (Build.broadcast n c)
        let value ← color shade
        build (Build.multiply share value)) (do
        let share ← build (Build.broadcast n' c)
        let value ← color shade
        build (Build.multiply share value)) later := by
    refine (mirrors_build (Build.mirrors_broadcast (hn.extend h.extend) c)).bind
      fun share share' both₁ h₁ hshare => ?_
    refine (mirrors_color both₁ shade).bind fun value value' both₂ h₂ hvalue => ?_
    exact mirrors_build (Build.mirrors_pair (hshare.extend h₂.extend) hvalue .multiply)
  refine (hcolumn .red columns.red (.refl both)).bind fun red red' both₁ h₁ hred => ?_
  refine (hcolumn .green columns.green h₁).bind fun green green' both₂ h₂ hgreen => ?_
  refine (hcolumn .blue columns.blue (h₁.trans h₂)).bind fun blue blue' both₃ h₃ hblue => ?_
  have hn₃ := hn.extend ((h₁.trans h₂).trans h₃).extend
  have hsum := Build.mirrors_pair (hred.extend (h₂.trans h₃).extend) (hgreen.extend h₃.extend) .add
  exact mirrors_build (hsum.bind fun sum sum' net₁ k₁ hsum =>
    (Build.mirrors_pair hsum (hblue.extend k₁) .add).bind fun total total' net₂ k₂ htotal =>
      Build.mirrors_replaceAlpha htotal (hn₃.extend (k₁.trans k₂)))

omit [Scalar α] in
variable (both) in
theorem agree_blendTypeFor (scope scope' : Scope) (mode : Value α) :
    Agree (blendTypeFor scope mode) (blendTypeFor scope' mode) both
      fun blend blend' _ => blend = blend' := by
  unfold blendTypeFor
  split
  · split
    · exact agree_pure rfl
    · exact (agree_warn both _ _).bind fun _ _ _ _ _ => agree_pure rfl
  · exact agree_throw both _

omit [Scalar α] in
theorem isEmpty_eq_of_forall₂ {r : β → γ → Prop} {xs : List β} {ys : List γ}
    (h : List.Forall₂ r xs ys) : xs.isEmpty = ys.isEmpty := by
  cases h <;> rfl

theorem mirrors_blendLayers (scope : Scope) {layers layers' : List (NodeId × BlendType)}
    (hempty : layers.isEmpty = layers'.isEmpty) (h : both.nets.AlikeBlend layers layers') :
    MirrorsOption (blendLayers scope layers) (blendLayers scope layers') both := by
  unfold blendLayers
  rw [hempty]
  split
  · exact (agree_warn both _ _).bind fun _ _ _ _ _ => agree_pure .none
  · exact (mirrors_build (Build.mirrors_blendChannel scope h)).some

/-! ### Corrections -/

theorem mirrors_rewire (h : both.Level) (hn : both.nets.Alike n n') (p : Correction α) :
    Mirrors (rewire n p) (rewire n' p) both := by
  refine agree_constants_bind ?_
  cases p.rewire with
  | normal => exact agree_pure hn
  | monochrome =>
    exact mirrors_build ((Build.mirrors_rgbAverage hn).bind fun _ _ _ h₁ haverage =>
      Build.mirrors_replaceAlpha haverage (hn.extend h₁))
  | invert =>
    exact mirrors_build ((Build.mirrors_pair h.one hn .subtract).bind fun _ _ _ h₁ hinverse =>
      Build.mirrors_replaceAlpha hinverse (hn.extend h₁))
  | custom =>
    dsimp only
    split
    · exact mirrors_build (Build.mirrors_customRewire h.one h.zero hn _)
    · exact agree_throw both _

variable (both) in
theorem agree_atLeast (what : String) (scope : Scope) (value least : α) :
    Agree (atLeast what scope value least) (atLeast what scope value least) both
      fun a b _ => a = b := by
  unfold atLeast
  split
  · exact (agree_warn both _ _).bind fun _ _ _ _ _ => agree_pure rfl
  · exact agree_pure rfl

variable (both) in
theorem agree_exposureTerm (scope : Scope) (mode : ExposureMode) (e : Exposure α) :
    Agree (exposureTerm scope mode e) (exposureTerm scope mode e) both fun t t' _ => t = t' := by
  refine (agree_atLeast both _ _ _ _).bind ?_
  rintro gamma _ both₁ - rfl
  refine (agree_atLeast both₁ _ _ _ _).bind ?_
  rintro pivot _ both₂ - rfl
  cases mode with
  | gain => exact agree_pure rfl
  | fstops | printer =>
    cases hgain : Scalar.exp2? e.gain with
    | none => exact agree_throw both₂ _
    | some gain => exact agree_pure rfl

theorem mirrors_exposureLightness (scope : Scope) (hn : both.nets.Alike n n') (p : Correction α) :
    Mirrors (exposureLightness scope n p) (exposureLightness scope n' p) both := by
  refine (agree_exposureTerm both scope _ p.globalExposure).bind ?_
  rintro common _ both₁ h₁ rfl
  have hn₁ := hn.extend h₁.extend
  refine (mirrors_build (Build.mirrors_exposurePass hn₁ _ _)).bind
    fun result result' both₂ h₂ hresult => ?_
  have hn₂ := hn₁.extend h₂.extend
  split
  · refine (agree_exposureTerm both₂ scope _ p.redExposure).bind ?_
    rintro red _ both₃ h₃ rfl
    refine (agree_exposureTerm both₃ scope _ p.greenExposure).bind ?_
    rintro green _ both₄ h₄ rfl
    refine (agree_exposureTerm both₄ scope _ p.blueExposure).bind ?_
    rintro blue _ both₅ h₅ rfl
    have h := ((h₃.trans h₄).trans h₅).extend
    refine (mirrors_build (Build.mirrors_exposurePass (hresult.extend h) _ _)).bind
      fun single single' both₆ h₆ hsingle => ?_
    have hpick (enabled : Bool) : both₆.nets.Alike (if enabled then single else result)
        (if enabled then single' else result') := by
      cases enabled with
      | false => exact (hresult.extend h).extend h₆.extend
      | true => exact hsingle
    refine mirrors_build (Build.mirrors_swizzle (fun c => ?_) _)
    cases c with
    | red | green | blue => exact hpick _
    | alpha => exact (hn₂.extend h).extend h₆.extend
  · refine mirrors_build (Build.mirrors_swizzle (fun c => ?_) _)
    cases c with
    | red | green | blue => exact hresult
    | alpha => exact hn₂

theorem mirrors_correct (h : both.Level) (scope : Scope) (hn : both.nets.Alike n n')
    (p : Correction α) : Mirrors (correct scope n p) (correct scope n' p) both := by
  refine (mirrors_rewire h hn p).bind fun rewired rewired' both₁ h₁ hrewired => ?_
  refine (mirrors_build (Build.mirrors_hslTint hrewired p)).bind
    fun tinted tinted' both₂ h₂ htinted => ?_
  have hlightness : Mirrors (lightness scope tinted p) (lightness scope tinted' p) both₂ := by
    unfold lightness
    split
    · exact mirrors_exposureLightness scope htinted p
    · exact mirrors_build (Build.mirrors_simpleLightness htinted p)
  refine hlightness.bind fun result result' both₃ h₃ hresult => ?_
  have hlevel := h.grow ((h₁.trans h₂).trans h₃)
  exact agree_constants_bind (mirrors_build (Build.mirrors_clamp hresult hlevel.zero hlevel.one))

/-! ### Sources -/

/-- Both steps end in the same error, or add to their sessions and return like layers or none. -/
abbrev MirrorsLayer (p q : Compile α (Option (NodeId × BlendType))) (both : TwinSessions α) :
    Prop :=
  Agree p q both fun layer layer' nets => Option.Rel nets.AlikeLayer layer layer'

theorem mirrors_weighted (h : both.Level) {mask mask' : Option NodeId}
    (hn : both.nets.Alike n n') (hmask : Option.Rel both.nets.Alike mask mask')
    (scope scope' : Scope) (bottom : Bool) (settings : LayerSettings α) :
    MirrorsLayer (do
      let n ← build (Build.weightedLayer (← constants) n mask settings.share)
      let blend ← if bottom then pure .replace else blendTypeFor scope settings.blendMode
      return some (n, blend)) (do
      let n ← build (Build.weightedLayer (← constants) n' mask' settings.share)
      let blend ← if bottom then pure .replace else blendTypeFor scope' settings.blendMode
      return some (n, blend)) both := by
  refine agree_constants_bind ?_
  refine (mirrors_build (Build.mirrors_weightedLayer h.one h.zero hn hmask _)).bind
    fun n n' both₁ _ hn => ?_
  cases bottom with
  | true => exact agree_pure (.some ⟨rfl, hn⟩)
  | false =>
    refine (agree_blendTypeFor both₁ scope scope' settings.blendMode).bind ?_
    rintro blend _ both₂ h₂ rfl
    exact agree_pure (.some ⟨rfl, hn.extend h₂.extend⟩)

mutual

theorem mirrors_compileSource {both : TwinSessions α} (h : both.Level) (scope : Scope)
    (source : Source α) :
    MirrorsOption (compileSource scope source) (compileSource scope source) both := by
  cases source with
  | texture source => exact mirrors_compileTextureSource h scope source
  | color shade => exact (mirrors_color both shade).some
  | product first second settings =>
    have hsecond {both : TwinSessions α} {a a' : NodeId} (h : both.Level)
        (ha : both.nets.Alike a a') : MirrorsOption (do
          let b ← if settings.secondEnabled then compileOptional scope second else pure none
          let b ← orColor b settings.secondColor
          return some (← build (Build.product a b settings.alphaFrom))) (do
          let b ← if settings.secondEnabled then compileOptional scope second else pure none
          let b ← orColor b settings.secondColor
          return some (← build (Build.product a' b settings.alphaFrom))) both := by
      dsimp only
      split
      · exact Agree.bind (mirrors_compileOptional h scope second) fun b b' both₁ h₁ hb =>
          mirrors_product (ha.extend h₁.extend) hb settings
      · exact mirrors_product ha .none settings
    have hfirst {both : TwinSessions α} {a a' : Option NodeId} (h : both.Level)
        (ha : Option.Rel both.nets.Alike a a') : MirrorsOption (do
          let a ← orColor a settings.firstColor
          let b ← if settings.secondEnabled then compileOptional scope second else pure none
          let b ← orColor b settings.secondColor
          return some (← build (Build.product a b settings.alphaFrom))) (do
          let a ← orColor a' settings.firstColor
          let b ← if settings.secondEnabled then compileOptional scope second else pure none
          let b ← orColor b settings.secondColor
          return some (← build (Build.product a b settings.alphaFrom))) both :=
      (mirrors_orColor ha settings.firstColor).bind fun a a' both₁ h₁ ha => hsecond (h.grow h₁) ha
    unfold compileSource
    dsimp only
    split
    · exact Agree.bind (mirrors_compileOptional h scope first) fun a a' both₁ h₁ ha =>
        hfirst (h.grow h₁) ha
    · exact hfirst h .none
  | tint source columns =>
    exact (mirrors_compileOptional h scope source).bind fun n n' both₁ _ hn =>
      (mirrors_tint hn columns).some
  | composite layers =>
    refine Agree.bind (mirrors_compileLayers h rfl 0 0 true layers)
      fun entries entries' both₁ _ hentries => ?_
    exact mirrors_blendLayers scope (isEmpty_eq_of_forall₂ hentries)
      (Twins.alikeBlend_of_forall₂ hentries)
  | correction source params =>
    exact (mirrors_compileOptional h scope source).bind fun n n' both₁ h₁ hn =>
      (mirrors_correct (h.grow h₁) scope hn params).some
  | unsupported className description =>
    exact (agree_warn both _ _).bind fun _ _ _ _ _ => agree_pure .none
  | unknown className => exact (agree_warn both _ _).bind fun _ _ _ _ _ => agree_pure .none

theorem mirrors_compileOptional {both : TwinSessions α} (h : both.Level) (scope : Scope)
    (source : Option (Source α)) :
    MirrorsOption (compileOptional scope source) (compileOptional scope source) both := by
  cases source with
  | some source => exact mirrors_compileSource h scope source
  | none => exact agree_pure .none

theorem mirrors_compileLayer {both : TwinSessions α} (h : both.Level) {scope scope' : Scope}
    (hscope : scope.inner = scope'.inner) (index index' : Nat) (bottom : Bool) (layer : Layer α) :
    MirrorsLayer (compileLayer scope index bottom layer) (compileLayer scope' index' bottom layer)
      both := by
  cases layer with
  | mk source mask settings =>
    unfold compileLayer
    rw [← hscope]
    split
    · exact (agree_debug both _ _).bind fun _ _ _ _ _ => agree_pure .none
    · refine Agree.bind (mirrors_compileOptional h scope.inner source) fun n n' both₁ h₁ hn => ?_
      cases hn with
      | none =>
        dsimp only
        split
        · exact (agree_warn both₁ _ _).bind fun _ _ _ _ _ => agree_pure .none
        · exact agree_pure .none
      | some hn =>
        dsimp only
        split
        · refine Agree.bind (mirrors_compileOptional (h.grow h₁) scope.inner mask)
            fun mask mask' both₂ h₂ hmask => ?_
          exact mirrors_weighted (h.grow (h₁.trans h₂)) (hn.extend h₂.extend) hmask scope scope'
            bottom settings
        · exact mirrors_weighted (h.grow h₁) hn .none scope scope' bottom settings

theorem mirrors_compileLayers {both : TwinSessions α} (h : both.Level) {scope scope' : Scope}
    (hscope : scope.inner = scope'.inner) (index index' : Nat) (bottom : Bool)
    (layers : List (Layer α)) :
    Agree (compileLayers scope index bottom layers) (compileLayers scope' index' bottom layers)
      both fun entries entries' nets => List.Forall₂ nets.AlikeLayer entries entries' := by
  cases layers with
  | nil => exact agree_pure .nil
  | cons layer layers =>
    refine Agree.bind (mirrors_compileLayer h hscope index index' bottom layer)
      fun entry entry' both₁ h₁ hentry => ?_
    cases hentry with
    | none => exact mirrors_compileLayers (h.grow h₁) hscope _ _ bottom layers
    | some hentry =>
      refine (mirrors_compileLayers (h.grow h₁) hscope _ _ false layers).bind
        fun entries entries' both₂ h₂ hentries => ?_
      exact agree_pure (.cons (hentry.extend h₂.extend) hentries)

end

end Compile

end ShadeGraph
