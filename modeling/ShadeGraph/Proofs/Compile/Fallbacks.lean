import ShadeGraph.Proofs.Compile.Completion
import ShadeGraph.Proofs.Compile.Growth

/-!
# Fallbacks and their warnings

A source that is not compiled to a node is told of in a warning by the innermost part that fails. A
tint or a correction without a source fails as well, but says nothing: tints and corrections rely on
what is below them. So a channel of such a source turns into its flat color without a word.
-/

namespace ShadeGraph

variable {α β γ : Type}

/-- Tints and corrections around one another, of which the innermost has no source. -/
inductive Source.Hollow : Source α → Prop
  | tint (columns : TintColumns α) : Hollow (.tint none columns)
  | correction (params : Correction α) : Hollow (.correction none params)
  | tinted {source : Source α} (columns : TintColumns α) :
    Hollow source → Hollow (.tint (some source) columns)
  | corrected {source : Source α} (params : Correction α) :
    Hollow source → Hollow (.correction (some source) params)

namespace Compile

/-! ### Steps that warn when they give nothing -/

/-- Unless this is so, the step adds a warning when it goes through without a result. -/
def WarnsUnless (silent : Prop) (p : Compile α (Option β)) : Prop :=
  ∀ ctx, Ends p ctx
    (fun b later => b = none → silent ∨ ctx.warnings.length < later.warnings.length) fun _ => True

theorem WarnsUnless.mono {silent silent' : Prop} {p : Compile α (Option β)}
    (hp : WarnsUnless silent p) (h : silent → silent') : WarnsUnless silent' p := by
  intro ctx
  exact (hp ctx).mono (fun b later hwarned hb => (hwarned hb).imp_left h) fun _ h => h

theorem warnsUnless_some (silent : Prop) (p : Compile α β) :
    WarnsUnless silent (do return some (← p)) := by
  intro ctx
  exact (ends_trivial p ctx).bind fun b later _ => ends_pure nofun

theorem warnsUnless_warn (silent : Prop) (text : String) :
    WarnsUnless (α := α) (β := β) silent (do warn text; return none) := by
  intro ctx
  have hrun : (do warn text; return none : Compile α (Option β)).run.run ctx =
      (.ok none, ctx.warn (.text text)) := rfl
  exact ends_of_run_ok hrun fun _ => .inr (by simp [Context.warn, Context.report, Context.log])

variable {silent : Prop}

theorem warnsUnless_none (h : silent) : WarnsUnless silent (pure none : Compile α (Option β)) :=
  fun _ => ends_pure fun _ => .inl h

/-- What comes first only adds warnings. -/
theorem Keeps.warnsUnless_bind {p : Compile α γ} {f : γ → Compile α (Option β)} (hp : Keeps p)
    (hf : ∀ c, WarnsUnless silent (f c)) : WarnsUnless silent (p >>= f) := by
  intro ctx
  have hkeeps := (hp.ends ctx).mono (fun _ _ h => h) fun _ _ => trivial
  apply hkeeps.bind
  intro c middle hmiddle
  have hless : ctx.warnings.length ≤ middle.warnings.length := hmiddle.warnings.length_le
  exact (hf c middle).mono (fun b later h hb => (h hb).imp_right hless.trans_lt) fun _ h => h

/-- A step on a node gives nothing only if there was no node. -/
theorem WarnsUnless.bind_some {p : Compile α (Option γ)} {f : γ → Compile α β}
    {q : Option γ → Compile α (Option β)} (hp : WarnsUnless silent p) (hnone : q none = pure none)
    (hsome : ∀ c, q (some c) = do return some (← f c)) : WarnsUnless silent (p >>= q) := by
  intro ctx
  apply (hp ctx).bind
  intro c middle hmiddle
  cases c with
  | none =>
    rw [hnone]
    exact ends_pure fun _ => hmiddle rfl
  | some c =>
    rw [hsome]
    exact (ends_trivial (f c) middle).bind fun b later _ => ends_pure nofun

section

variable [Scalar α]

/-! ### Sources -/

omit [Scalar α] in
theorem warnsUnless_blendLayers (scope : Scope) (layers : List (NodeId × BlendType)) :
    WarnsUnless silent (blendLayers (α := α) scope layers) := by
  unfold blendLayers
  split
  · exact warnsUnless_warn silent _
  · exact warnsUnless_some silent _

theorem warnsUnless_textureSource (scope : Scope) (source : TextureSource α) :
    WarnsUnless silent (compileTextureSource scope source) := by
  have hbind : WarnsUnless silent (bindTexture scope source) := by
    unfold bindTexture
    dsimp only
    split
    · exact warnsUnless_warn silent _
    · apply keeps_get.warnsUnless_bind
      intro ctx
      apply (keeps_applyProxy _).warnsUnless_bind
      intro binding
      exact (keeps_note _).warnsUnless_bind fun _ => warnsUnless_some silent (pure binding)
  exact hbind.bind_some rfl fun _ => rfl

/-- A product always has a node. -/
theorem warnsUnless_product (scope : Scope) (first second : Option (Source α))
    (settings : ProductSettings α) :
    WarnsUnless silent (compileSource scope (.product first second settings)) := by
  have hproduct (a : NodeId) (b : Option NodeId) : WarnsUnless silent (do
      let b ← orColor b settings.secondColor
      return some (← build (Build.product a b settings.alphaFrom))) :=
    (keeps_orColor b _).warnsUnless_bind fun _ => warnsUnless_some silent _
  have hsecond (a : NodeId) : WarnsUnless silent (do
      let b ← if settings.secondEnabled then compileOptional scope second else pure none
      let b ← orColor b settings.secondColor
      return some (← build (Build.product a b settings.alphaFrom))) := by
    dsimp only
    split
    · exact (keeps_compileOptional scope second).warnsUnless_bind (hproduct a)
    · exact (keeps_pure none).warnsUnless_bind (hproduct a)
  unfold compileSource
  dsimp only
  split
  · apply (keeps_compileOptional scope first).warnsUnless_bind
    exact fun a => (keeps_orColor a _).warnsUnless_bind hsecond
  · apply (keeps_pure none).warnsUnless_bind
    exact fun a => (keeps_orColor a _).warnsUnless_bind hsecond

/-- A source has no node without a warning only if it is hollow. -/
theorem warnsUnless_compileSource (scope : Scope) (source : Source α) :
    WarnsUnless source.Hollow (compileSource scope source) := by
  match source with
  | .texture source => exact warnsUnless_textureSource scope source
  | .color shade => exact warnsUnless_some _ _
  | .product first second settings => exact warnsUnless_product scope first second settings
  | .tint none columns => exact warnsUnless_none (.tint columns)
  | .tint (some source) columns =>
    have hsource : WarnsUnless (Source.tint (some source) columns).Hollow
        (compileOptional scope (some source)) :=
      (warnsUnless_compileSource scope source).mono (.tinted columns)
    exact hsource.bind_some rfl fun _ => rfl
  | .composite layers =>
    exact (keeps_compileLayers scope 0 true layers).warnsUnless_bind fun _ =>
      warnsUnless_blendLayers scope _
  | .correction none params => exact warnsUnless_none (.correction params)
  | .correction (some source) params =>
    have hsource : WarnsUnless (Source.correction (some source) params).Hollow
        (compileOptional scope (some source)) :=
      (warnsUnless_compileSource scope source).mono (.corrected params)
    exact hsource.bind_some rfl fun _ => rfl
  | .unsupported className description => exact warnsUnless_warn _ _
  | .unknown className => exact warnsUnless_warn _ _

/-- A hollow source has no node, and nothing is said about it. -/
theorem run_compileSource_of_hollow (scope : Scope) {source : Source α} (h : source.Hollow)
    (ctx : Context α) : (compileSource scope source).run.run ctx = (.ok none, ctx) := by
  induction h with
  | tint columns => rfl
  | correction params => rfl
  | tinted columns _ ih => exact run_bind_of_ok ih _
  | corrected params _ ih => exact run_bind_of_ok ih _

/-- Of a source without a node nothing is said exactly if it is hollow. -/
theorem exists_warnings_of_none {scope : Scope} {source : Source α} {ctx later : Context α}
    (hrun : (compileSource scope source).run.run ctx = (.ok none, later)) :
    ∃ told, later.warnings = ctx.warnings ++ told ∧ (told = [] ↔ source.Hollow) := by
  have hkeeps := keeps_compileSource scope source ctx
  rw [hrun] at hkeeps
  obtain ⟨told, htold⟩ := hkeeps.warnings
  refine ⟨told, htold.symm, ?_, ?_⟩
  · rintro rfl
    rcases (warnsUnless_compileSource scope source ctx).ok hrun rfl with h | h
    · exact h
    · rw [← htold, List.append_nil] at h
      exact absurd h (lt_irrefl _)
  · intro h
    cases (run_compileSource_of_hollow scope h ctx).symm.trans hrun
    exact List.append_right_eq_self.mp htold

/-! ### Channels -/

/-- A channel that nothing replaces gets its flat color where its source has no node. -/
theorem run_compileChannel_fallback {material : String} {d : ChannelDescriptor α}
    {source : Source α} {ctx middle : Context α} (hsource : d.source = some source)
    (hreplacement : d.replacement? ctx material = none)
    (hrun : (compileSource (.ofChannel material d.name) source).run.run ctx = (.ok none, middle)) :
    ∃ n later, (compileChannel material d).run.run ctx = (.ok (some n), later) ∧
      later.network.HasColor n (Channel.fallback d.name) ∧ later.warnings = middle.warnings := by
  have hfind : (overrideFor (.ofChannel material d.name) d.override).run.run ctx =
      (.ok (d.replacement? ctx material), ctx) := rfl
  rw [hreplacement] at hfind
  have hoverride : (resolveOverride (.ofChannel material d.name) d.override).run.run ctx =
      (.ok none, ctx) := run_bind_of_ok hfind _
  let flat : Node α := { operation := .color (Channel.fallback d.name), inputs := [], name := "" }
  let later : Context α := { middle with network := middle.network.insert flat }
  have hflat : later.network.HasColor middle.network.size (Channel.fallback d.name) :=
    ⟨"", middle.network.get?_insert_size (by simp [flat])⟩
  refine ⟨middle.network.size, later, ?_, hflat, rfl⟩
  unfold compileChannel
  dsimp only
  rw [run_bind_of_ok hoverride, hsource]
  exact run_bind_of_ok hrun _

/-- A source without a node adds a warning exactly if it is not hollow, that is tints and corrections
around nothing; a hollow source never has a node. A channel that turns into its flat color for want
of a node adds the warnings of its source and no others. -/
theorem fallback_warns_iff (ctx : Context α) (source : Source α) :
    (∀ scope later, (compileSource scope source).run.run ctx = (.ok none, later) →
      ∃ told, later.warnings = ctx.warnings ++ told ∧ (told = [] ↔ source.Hollow)) ∧
    (source.Hollow → ∀ scope, (compileSource scope source).run.run ctx = (.ok none, ctx)) ∧
    ∀ material (d : ChannelDescriptor α) middle, d.source = some source →
      d.replacement? ctx material = none →
      (compileSource (.ofChannel material d.name) source).run.run ctx = (.ok none, middle) →
      ∃ n later told, (compileChannel material d).run.run ctx = (.ok (some n), later) ∧
        later.network.HasColor n (Channel.fallback d.name) ∧
        later.warnings = ctx.warnings ++ told ∧ (told = [] ↔ source.Hollow) := by
  refine ⟨fun _ _ => exists_warnings_of_none, fun h _ => run_compileSource_of_hollow _ h ctx, ?_⟩
  intro material d middle hsource hreplacement hrun
  obtain ⟨n, later, hchannel, hcolor, hwarnings⟩ :=
    run_compileChannel_fallback hsource hreplacement hrun
  obtain ⟨told, htold, hiff⟩ := exists_warnings_of_none hrun
  exact ⟨n, later, told, hchannel, hcolor, hwarnings.trans htold, hiff⟩

end

/-- A channel of a correction around a tint without a source. -/
def hollowChannel : ChannelDescriptor Float where
  name := "base_color"
  source := some (.correction (some (.tint none .identity)) .neutral)

/-- A channel of a correction around a map without a counterpart. -/
def noiseChannel : ChannelDescriptor Float where
  name := "base_color"
  source := some (.correction (some (.unsupported "Noise" "")) .neutral)

/-- Both channels turn black, only one of them with a warning. -/
theorem fallback_warns_iff_black :
    let ctx : Context Float := Context.start .standard .none {} ∅
    (∃ n later, (compileChannel "M" hollowChannel).run.run ctx = (.ok (some n), later) ∧
      later.network.HasColor n Channel.black ∧ later.warnings = []) ∧
    ∃ n later, (compileChannel "M" noiseChannel).run.run ctx = (.ok (some n), later) ∧
      later.network.HasColor n Channel.black ∧ later.warnings ≠ [] := by
  intro ctx
  have hhollow : (Source.correction (some (.tint none .identity)) .neutral : Source Float).Hollow :=
    .corrected _ (.tint _)
  constructor
  · obtain ⟨_, hsilent, hchannel⟩ := fallback_warns_iff ctx
      (.correction (some (.tint none .identity)) .neutral)
    obtain ⟨n, later, told, hrun, hcolor, hwarnings, hiff⟩ :=
      hchannel "M" hollowChannel ctx rfl rfl (hsilent hhollow _)
    rw [hiff.mpr hhollow] at hwarnings
    exact ⟨n, later, hrun, hcolor, hwarnings⟩
  · obtain ⟨_, _, hchannel⟩ := fallback_warns_iff ctx
      (.correction (some (.unsupported "Noise" "")) .neutral)
    obtain ⟨n, later, told, hrun, hcolor, hwarnings, hiff⟩ :=
      hchannel "M" noiseChannel _ rfl rfl rfl
    refine ⟨n, later, hrun, hcolor, ?_⟩
    rw [hwarnings]
    intro hempty
    have hnot := hiff.mp hempty
    cases hnot with
    | corrected _ h => cases h

end Compile

end ShadeGraph
