import ShadeGraph.Proofs.Compile.Completion
import ShadeGraph.Proofs.Meaning.Source

/-!
# Sessions in step

When a channel is compiled in two related sessions, the same comes out and the sessions stay
related: this holds of every relation that outlasts a message, a warning and a node that both
sessions get. What the sessions make of a bitmap is left open, so this is all that has to be shown
about a relation besides.
-/

namespace ShadeGraph.Compile

variable {α β γ : Type} {R : Context α → Context α → Prop}

/-- From related sessions both steps end in the same error or return the same, which is as told, and
they leave related sessions. -/
def Alongside (R : Context α → Context α → Prop) (p q : Compile α β) (Q : β → Prop) : Prop :=
  ∀ a b, R a b → ∃ result later later', p.run.run a = (result, later) ∧
    q.run.run b = (result, later') ∧ R later later' ∧ ∀ c, result = .ok c → Q c

/-- The step does the same in related sessions. -/
abbrev Abreast (R : Context α → Context α → Prop) (p : Compile α β) (Q : β → Prop) : Prop :=
  Alongside R p p Q

section

variable {p q : Compile α β} {Q P : β → Prop}

theorem abreast_pure {c : β} (h : Q c) : Abreast R (pure c) Q :=
  fun a b hab => ⟨.ok c, a, b, rfl, rfl, hab, by rintro _ ⟨⟩; exact h⟩

theorem abreast_throw (e : CompileError) : Abreast R (throw e) Q :=
  fun a b hab => ⟨.error e, a, b, rfl, rfl, hab, fun _ h => nomatch h⟩

theorem Alongside.bind {f g : β → Compile α γ} {S : γ → Prop} (h : Alongside R p q Q)
    (hfg : ∀ c, Q c → Alongside R (f c) (g c) S) : Alongside R (p >>= f) (q >>= g) S := by
  intro a b hab
  obtain ⟨result, later, later', hp, hq, hlater, hresult⟩ := h a b hab
  cases result with
  | error e =>
    exact ⟨.error e, later, later', run_bind_of_error hp f, run_bind_of_error hq g, hlater,
      fun _ h => nomatch h⟩
  | ok c =>
    obtain ⟨result, last, last', hf, hg, hlast, hS⟩ := hfg c (hresult c rfl) later later' hlater
    exact ⟨result, last, last', (run_bind_of_ok hp f).trans hf, (run_bind_of_ok hq g).trans hg,
      hlast, hS⟩

theorem alongside_get_bind {f g : Context α → Compile α β}
    (hfg : ∀ a b, R a b → Alongside R (f a) (g b) Q) : Alongside R (get >>= f) (get >>= g) Q :=
  fun a b hab => hfg a b hab a b hab

theorem Alongside.mono (h : Alongside R p q Q) (hP : ∀ c, Q c → P c) : Alongside R p q P := by
  intro a b hab
  obtain ⟨result, later, later', hp, hq, hlater, hresult⟩ := h a b hab
  exact ⟨result, later, later', hp, hq, hlater, fun c hc => hP c (hresult c hc)⟩

theorem Alongside.build_bind {s t : Build α β} {f g : β → Build α γ} {S : γ → Prop}
    (h : Alongside R (build s) (build t) Q)
    (hfg : ∀ c, Q c → Alongside R (build (f c)) (build (g c)) S) :
    Alongside R (build (s >>= f)) (build (t >>= g)) S :=
  Alongside.bind h hfg

theorem abreast_build_pure {c : β} (h : Q c) : Abreast R (build (pure c)) Q := abreast_pure h

theorem Alongside.return_some (h : Alongside R p q Q) :
    Alongside R (do return some (← p)) (do return some (← q)) fun b => ∀ c ∈ b, Q c :=
  h.bind fun _ hc => abreast_pure (by simpa using hc)

theorem abreast_none : Abreast R (pure none : Compile α (Option β)) fun b => ∀ c ∈ b, Q c :=
  abreast_pure (by simp)

end

/-- A relation between sessions that outlasts every step of compiling but those for textures, as long
as only known nodes are put together. -/
structure Lockstep (known : NodeId → Prop) (R : Context α → Context α → Prop) : Prop where
  log {a b : Context α} (h : R a b) (f g : Journal → Journal) : R (a.log f) (b.log g)
  warn {a b : Context α} (h : R a b) (message : Message) : R (a.warn message) (b.warn message)
  constants {a b : Context α} (h : R a b) :
    a.constants = b.constants ∧ known a.constants.one ∧ known a.constants.zero
  insert {a b : Context α} (h : R a b) {node : Node α} (htexture : node.operation.texture? = none)
    (hname : node.name = "") (hinputs : ∀ j ∈ node.inputs, known j) :
    a.network.size = b.network.size ∧ known a.network.size ∧
      R { a with network := a.network.insert node } { b with network := b.network.insert node }

/-- What the sessions make of a bitmap in a channel keeps them related. -/
def TexturesAbreast [Scalar α] (known : NodeId → Prop) (R : Context α → Context α → Prop)
    (scope : Scope) : Prop :=
  ∀ (source : TextureSource α) (premultiply : Bool),
    Abreast R (compileTextureSource { scope with premultiply } source) fun n => ∀ i ∈ n, known i

namespace Lockstep

variable {known : NodeId → Prop} (h : Lockstep known R)
include h

/-! ### Messages and constants -/

theorem abreast_debug (text : String) : Abreast R (debug text) fun _ => True :=
  fun _ _ hab => ⟨.ok (), _, _, rfl, rfl, h.log hab _ _, fun _ _ => trivial⟩

theorem abreast_warn (text : String) : Abreast R (Compile.warn text) fun _ => True :=
  fun _ _ hab => ⟨.ok (), _, _, rfl, rfl, h.warn hab _, fun _ _ => trivial⟩

theorem abreast_constants :
    Abreast R Compile.constants fun constants => known constants.one ∧ known constants.zero := by
  intro a b hab
  obtain ⟨hsame, hknown⟩ := h.constants hab
  refine ⟨.ok a.constants, a, b, rfl, ?_, hab, ?_⟩
  · rw [hsame]
    rfl
  · rintro _ ⟨⟩
    exact hknown

/-! ### Single nodes -/

theorem abreast_node {operation : Operation α} (htexture : operation.texture? = none)
    {ids : List NodeId} (hids : ∀ j ∈ ids, known j) :
    Abreast R (build (Build.node operation ids)) known := by
  intro a b hab
  let node : Node α := { operation, inputs := ids }
  have hnode : node.operation.texture? = none := htexture
  obtain ⟨hsize, hknown, hinsert⟩ := h.insert hab hnode rfl hids
  refine ⟨.ok a.network.size, _, _, rfl, ?_, hinsert, ?_⟩
  · rw [hsize]
    rfl
  · rintro _ ⟨⟩
    exact hknown

variable {m n k : NodeId}

theorem abreast_value (value : Rgba α) : Abreast R (build (Build.color value)) known :=
  h.abreast_node rfl fun _ hj => nomatch hj

theorem abreast_pair {operation : Operation α} (htexture : operation.texture? = none)
    (hm : known m) (hn : known n) : Abreast R (build (Build.node operation [m, n])) known :=
  h.abreast_node htexture (by simp [hm, hn])

/-- A node and a color in one, and what follows. -/
theorem abreast_with_color {operation : Operation α} (htexture : operation.texture? = none)
    (hn : known n) {value : Rgba α} {f : NodeId → Build α β} {Q : β → Prop}
    (hf : ∀ m, known m → Abreast R (build (f m)) Q) :
    Abreast R (build (do
      let k ← Build.color value
      let m ← Build.node operation [n, k]
      f m)) Q :=
  (h.abreast_value value).build_bind fun _ hk => (h.abreast_pair htexture hn hk).build_bind hf

theorem abreast_clamp (hm : known m) (hn : known n) (hk : known k) :
    Abreast R (build (Build.clamp m n k)) known :=
  h.abreast_node rfl (by simp [hm, hn, hk])

theorem abreast_swizzle {sources : Rgba NodeId} (hsources : ∀ j ∈ sources.toList, known j)
    (selection : Rgba Component) : Abreast R (build (Build.swizzle sources selection)) known :=
  h.abreast_node rfl hsources

theorem abreast_broadcast (hn : known n) (c : Component) :
    Abreast R (build (Build.broadcast n c)) known :=
  h.abreast_swizzle (by simp [Rgba.replicate, Rgba.toList, hn]) _

theorem abreast_replaceAlpha (hm : known m) (hn : known n) :
    Abreast R (build (Build.replaceAlpha m n)) known :=
  h.abreast_swizzle (by simp [Rgba.toList, hm, hn]) _

theorem abreast_layeredBlend {layers : List (NodeId × BlendType)}
    (hlayers : ∀ layer ∈ layers, known layer.1) :
    Abreast R (build (Build.layeredBlend layers)) known :=
  h.abreast_node rfl (List.forall_mem_map.mpr hlayers)

theorem abreast_premultiply (hn : known n) : Abreast R (build (Build.premultiply n)) known := by
  refine (h.abreast_broadcast hn .alpha).build_bind fun alpha halpha => ?_
  refine (h.abreast_pair rfl hn halpha).build_bind fun product hproduct => ?_
  exact h.abreast_replaceAlpha hproduct hn

theorem abreast_product (hm : known m) (hn : known n) (alpha : ProductAlpha) :
    Abreast R (build (Build.product m n alpha)) known := by
  refine (h.abreast_pair rfl hm hn).build_bind fun product hproduct => ?_
  cases alpha with
  | first => exact h.abreast_replaceAlpha hproduct hm
  | second => exact h.abreast_replaceAlpha hproduct hn
  | blend => exact h.abreast_replaceAlpha hproduct hproduct

theorem abreast_blendChannel (scope : Scope) {layers : List (NodeId × BlendType)}
    (hlayers : ∀ layer ∈ layers, known layer.1) :
    Abreast R (build (Build.blendChannel scope layers)) known := by
  refine (h.abreast_layeredBlend hlayers).build_bind fun n hn => ?_
  split
  · exact h.abreast_premultiply hn
  · exact abreast_build_pure hn

/-! ### Blends and passes -/

theorem abreast_blendTypeFor (scope : Scope) (mode : Value α) :
    Abreast R (blendTypeFor scope mode) fun _ => True := by
  unfold blendTypeFor
  split
  · split
    · exact abreast_pure trivial
    · exact (h.abreast_warn _).bind fun _ _ => abreast_pure trivial
  · exact abreast_throw _

theorem abreast_blendLayers (scope : Scope) {layers : List (NodeId × BlendType)}
    (hlayers : ∀ layer ∈ layers, known layer.1) :
    Abreast R (blendLayers (α := α) scope layers) fun n => ∀ i ∈ n, known i := by
  unfold blendLayers
  split
  · exact (h.abreast_warn _).bind fun _ _ => abreast_none
  · exact (h.abreast_blendChannel scope hlayers).return_some

theorem abreast_exposurePass (hn : known n) (mode : ExposureMode) (terms : ExposureTerms α) :
    Abreast R (build (Build.exposurePass n mode terms)) known := by
  refine h.abreast_with_color rfl hn fun product hproduct => ?_
  refine h.abreast_with_color rfl hproduct fun scaled hscaled => ?_
  refine h.abreast_with_color rfl hscaled fun curved hcurved => ?_
  refine h.abreast_with_color rfl hcurved fun back hback => ?_
  refine h.abreast_with_color rfl hback fun result hresult => ?_
  cases mode with
  | printer => exact abreast_build_pure hresult
  | gain | fstops => exact h.abreast_replaceAlpha hresult hn

variable [Scalar α]

/-! ### Averages and alpha -/

theorem abreast_rgbAverage (hn : known n) : Abreast R (build (Build.rgbAverage n)) known := by
  refine (h.abreast_broadcast hn .red).build_bind fun red hred => ?_
  refine (h.abreast_broadcast hn .green).build_bind fun green hgreen => ?_
  refine (h.abreast_pair rfl hred hgreen).build_bind fun sum hsum => ?_
  refine (h.abreast_broadcast hn .blue).build_bind fun blue hblue => ?_
  refine (h.abreast_pair rfl hsum hblue).build_bind fun total htotal => ?_
  refine (h.abreast_value (.replicate 3.0)).build_bind fun three hthree => ?_
  exact h.abreast_pair rfl htotal hthree

theorem abreast_applyAlphaSource {constants : Constants} (hone : known constants.one)
    (hn : known n) (source : AlphaSource) :
    Abreast R (build (Build.applyAlphaSource constants n source)) known := by
  cases source with
  | rgbAverage =>
    exact (h.abreast_rgbAverage hn).build_bind fun _ haverage => h.abreast_replaceAlpha hn haverage
  | opaqueAlpha => exact h.abreast_replaceAlpha hn hone
  | file => exact abreast_build_pure hn

/-! ### Layers -/

theorem abreast_maskedAlpha {constants : Constants}
    (hconstants : known constants.one ∧ known constants.zero) (hm : known m) (hn : known n) :
    Abreast R (build (Build.maskedAlpha constants m n)) known := by
  refine (h.abreast_rgbAverage hn).build_bind fun average haverage => ?_
  refine (h.abreast_clamp haverage hconstants.2 hconstants.1).build_bind fun cover hcover => ?_
  exact (h.abreast_broadcast hm .alpha).build_bind fun _ halpha => h.abreast_pair rfl hcover halpha

theorem abreast_sharedAlpha (hn : known n) {own : Option NodeId} (hown : ∀ i ∈ own, known i)
    (share : α) :
    Abreast R (build (Build.sharedAlpha n own share)) fun alpha => ∀ i ∈ alpha, known i := by
  have hshared (alpha : NodeId) (halpha : known alpha) : Abreast R (build (do
      return some (← Build.multiply alpha (← Build.color (.replicate share)))))
      fun alpha => ∀ i ∈ alpha, known i := by
    refine (h.abreast_value _).build_bind fun value hvalue => ?_
    refine (h.abreast_pair rfl halpha hvalue).build_bind fun product hproduct => ?_
    exact abreast_build_pure (by simpa using hproduct)
  unfold Build.sharedAlpha
  split
  · exact abreast_build_pure hown
  · cases own with
    | some alpha => exact hshared alpha (hown alpha rfl)
    | none => exact (h.abreast_broadcast hn .alpha).build_bind hshared

theorem abreast_sharedLayer (hn : known n) {own : Option NodeId} (hown : ∀ i ∈ own, known i)
    (share : α) : Abreast R (build (do
      match ← Build.sharedAlpha n own share with
      | some alpha => Build.replaceAlpha n alpha
      | none => return n)) known := by
  refine (h.abreast_sharedAlpha hn hown share).build_bind fun alpha halpha => ?_
  cases alpha with
  | some alpha => exact h.abreast_replaceAlpha hn (halpha alpha rfl)
  | none => exact abreast_build_pure hn

theorem abreast_weightedLayer {constants : Constants}
    (hconstants : known constants.one ∧ known constants.zero) (hn : known n)
    {mask : Option NodeId} (hmask : ∀ i ∈ mask, known i) (share : α) :
    Abreast R (build (Build.weightedLayer constants n mask share)) known := by
  cases mask with
  | some mask =>
    have hmasked := h.abreast_maskedAlpha hconstants hn (hmask mask rfl)
    have hown : Abreast R (build (some <$> Build.maskedAlpha constants n mask))
        fun own => ∀ i ∈ own, known i := by
      rw [map_eq_pure_bind]
      exact hmasked.build_bind fun alpha halpha => abreast_build_pure (by simpa using halpha)
    exact hown.build_bind fun own hown => h.abreast_sharedLayer hn hown share
  | none =>
    have hown : ∀ i ∈ (none : Option NodeId), known i := by simp
    exact h.abreast_sharedLayer hn hown share

/-! ### Colors and tints -/

theorem abreast_color (shade : Shade α) : Abreast R (color shade) known := by
  unfold color
  split
  · exact h.abreast_value _
  · exact abreast_throw _

theorem abreast_orColor {n : Option NodeId} (hn : ∀ i ∈ n, known i) (shade : Shade α) :
    Abreast R (orColor n shade) known := by
  cases n with
  | some n => exact abreast_pure (hn n rfl)
  | none => exact h.abreast_color shade

theorem abreast_tint (hn : known n) (columns : TintColumns α) :
    Abreast R (tint n columns) known := by
  have hcolumn (c : Component) (shade : Shade α) : Abreast R (do
      let share ← build (Build.broadcast n c)
      let value ← color shade
      build (Build.multiply share value)) known :=
    (h.abreast_broadcast hn c).bind fun _ hshare => (h.abreast_color shade).bind
      fun _ hvalue => h.abreast_pair rfl hshare hvalue
  refine (hcolumn .red columns.red).bind fun red hred => ?_
  refine (hcolumn .green columns.green).bind fun green hgreen => ?_
  refine (hcolumn .blue columns.blue).bind fun blue hblue => ?_
  refine (h.abreast_pair rfl hred hgreen).build_bind fun some hsome => ?_
  refine (h.abreast_pair rfl hsome hblue).build_bind fun sum hsum => ?_
  exact h.abreast_replaceAlpha hsum hn

/-! ### Corrections -/

theorem abreast_customRewire {constants : Constants}
    (hconstants : known constants.one ∧ known constants.zero) (hn : known n)
    (channels : Rgba RewireChannel) :
    Abreast R (build (Build.customRewire constants n channels)) known := by
  refine (h.abreast_pair rfl hconstants.1 hn).build_bind fun inverse hinverse => ?_
  refine (h.abreast_rgbAverage hn).build_bind fun average haverage => ?_
  have hsource (channel : RewireChannel) :
      known (Build.rewireSource constants n inverse average channel).1 := by
    cases channel with
    | direct c => exact hn
    | inverted c => exact hinverse
    | average => exact haverage
    | one => exact hconstants.1
    | zero => exact hconstants.2
  exact h.abreast_swizzle (by simp [Rgba.map, Rgba.toList, hsource]) _

theorem abreast_rewire (hn : known n) (params : Correction α) :
    Abreast R (rewire n params) known := by
  refine h.abreast_constants.bind fun constants hconstants => ?_
  cases params.rewire with
  | normal => exact abreast_pure hn
  | monochrome =>
    exact (h.abreast_rgbAverage hn).build_bind fun _ haverage => h.abreast_replaceAlpha haverage hn
  | invert =>
    exact (h.abreast_pair rfl hconstants.1 hn).build_bind fun _ hinverse =>
      h.abreast_replaceAlpha hinverse hn
  | custom =>
    dsimp only
    split
    · exact h.abreast_customRewire hconstants hn _
    · exact abreast_throw _

theorem abreast_hslTint (hn : known n) (params : Correction α) :
    Abreast R (build (Build.hslTint n params)) known :=
  (h.abreast_value _).build_bind fun _ hcontrol => h.abreast_pair rfl hn hcontrol

theorem abreast_simpleLightness (hn : known n) (params : Correction α) :
    Abreast R (build (Build.simpleLightness n params)) known := by
  unfold Build.simpleLightness
  split
  · exact abreast_build_pure hn
  · refine h.abreast_with_color rfl hn fun centered hcentered => ?_
    refine h.abreast_with_color rfl hcentered fun scaled hscaled => ?_
    refine h.abreast_with_color rfl hscaled fun shifted hshifted => ?_
    exact h.abreast_replaceAlpha hshifted hn

theorem abreast_atLeast (what : String) (scope : Scope) (value least : α) :
    Abreast R (atLeast what scope value least) fun _ => True := by
  unfold atLeast
  split
  · exact (h.abreast_warn _).bind fun _ _ => abreast_pure trivial
  · exact abreast_pure trivial

theorem abreast_exposureTerm (scope : Scope) (mode : ExposureMode) (e : Exposure α) :
    Abreast R (exposureTerm scope mode e) fun _ => True := by
  refine (h.abreast_atLeast _ _ _ _).bind fun _ _ => (h.abreast_atLeast _ _ _ _).bind fun _ _ => ?_
  cases mode with
  | gain => exact abreast_pure trivial
  | fstops | printer =>
    dsimp only
    split
    · exact abreast_pure trivial
    · exact abreast_throw _

theorem abreast_exposureLightness (scope : Scope) (hn : known n) (params : Correction α) :
    Abreast R (exposureLightness scope n params) known := by
  refine (h.abreast_exposureTerm _ _ _).bind fun common _ => ?_
  refine (h.abreast_exposurePass hn _ _).bind fun result hresult => ?_
  split
  · refine (h.abreast_exposureTerm _ _ _).bind fun red _ => ?_
    refine (h.abreast_exposureTerm _ _ _).bind fun green _ => ?_
    refine (h.abreast_exposureTerm _ _ _).bind fun blue _ => ?_
    refine (h.abreast_exposurePass hresult _ _).bind fun single hsingle => ?_
    have hpick (enabled : Bool) : known (if enabled then single else result) := by
      cases enabled with
      | true => exact hsingle
      | false => exact hresult
    exact h.abreast_swizzle (by simp only [Rgba.toList, List.forall_mem_cons]; simp [hpick, hn]) _
  · exact h.abreast_swizzle (by simp [Rgba.toList, hresult, hn]) _

theorem abreast_correct (scope : Scope) (hn : known n) (params : Correction α) :
    Abreast R (correct scope n params) known := by
  refine (h.abreast_rewire hn params).bind fun rewired hrewired => ?_
  refine (h.abreast_hslTint hrewired params).bind fun tinted htinted => ?_
  have hlightness : Abreast R (lightness scope tinted params) known := by
    unfold lightness
    split
    · exact h.abreast_exposureLightness scope htinted params
    · exact h.abreast_simpleLightness htinted params
  refine hlightness.bind fun result hresult => ?_
  exact h.abreast_constants.bind fun _ hconstants =>
    h.abreast_clamp hresult hconstants.2 hconstants.1

end Lockstep

/-! ### Sources -/

namespace Lockstep

variable {known : NodeId → Prop}

variable [Scalar α]

mutual

theorem abreast_compileSource {scope : Scope} (h : Lockstep known R)
    (htextures : TexturesAbreast known R scope) (source : Source α) :
    Abreast R (compileSource scope source) fun n => ∀ i ∈ n, known i := by
  cases source with
  | texture source => exact htextures source scope.premultiply
  | color shade => exact (h.abreast_color shade).return_some
  | product first second settings =>
    have hproduct (a : NodeId) (ha : known a) (b : Option NodeId) (hb : ∀ i ∈ b, known i) :
        Abreast R (do
          let b ← orColor b settings.secondColor
          return some (← build (Build.product a b settings.alphaFrom)))
          fun n => ∀ i ∈ n, known i :=
      (h.abreast_orColor hb _).bind fun b hb => (h.abreast_product ha hb _).return_some
    have hsecond (a : NodeId) (ha : known a) : Abreast R (do
        let b ← if settings.secondEnabled then compileOptional scope second else pure none
        let b ← orColor b settings.secondColor
        return some (← build (Build.product a b settings.alphaFrom)))
        fun n => ∀ i ∈ n, known i := by
      dsimp only
      split
      · exact (abreast_compileOptional h htextures second).bind (hproduct a ha)
      · exact hproduct a ha none fun _ hi => nomatch hi
    unfold compileSource
    dsimp only
    split
    · exact (abreast_compileOptional h htextures first).bind fun a ha =>
        (h.abreast_orColor ha _).bind hsecond
    · exact (h.abreast_orColor (n := none) (fun _ hi => nomatch hi) _).bind hsecond
  | tint source columns =>
    refine (abreast_compileOptional h htextures source).bind fun n hn => ?_
    cases n with
    | some n => exact (h.abreast_tint (hn n rfl) columns).return_some
    | none => exact abreast_none
  | composite layers =>
    exact (abreast_compileLayers h htextures 0 true layers).bind fun _ hlayers =>
      h.abreast_blendLayers scope hlayers
  | correction source params =>
    refine (abreast_compileOptional h htextures source).bind fun n hn => ?_
    cases n with
    | some n => exact (h.abreast_correct scope (hn n rfl) params).return_some
    | none => exact abreast_none
  | unsupported className description =>
    exact (h.abreast_warn _).bind fun _ _ => abreast_none
  | unknown className =>
    exact (h.abreast_warn _).bind fun _ _ => abreast_none

theorem abreast_compileOptional {scope : Scope} (h : Lockstep known R)
    (htextures : TexturesAbreast known R scope) (source : Option (Source α)) :
    Abreast R (compileOptional scope source) fun n => ∀ i ∈ n, known i := by
  cases source with
  | some source => exact abreast_compileSource h htextures source
  | none => exact abreast_none

theorem abreast_compileLayer {scope : Scope} (h : Lockstep known R)
    (htextures : TexturesAbreast known R scope) (index : Nat) (bottom : Bool) (layer : Layer α) :
    Abreast R (compileLayer scope index bottom layer)
      fun entry => ∀ layer ∈ entry, known layer.1 := by
  cases layer with
  | mk source mask settings =>
    have hinner : TexturesAbreast known R scope.inner := htextures
    have hweighted (n : NodeId) (hn : known n) (mask : Option NodeId)
        (hmask : ∀ i ∈ mask, known i) : Abreast R (do
        let n ← build (Build.weightedLayer (← Compile.constants) n mask settings.share)
        let blend ← if bottom then pure .replace else blendTypeFor scope settings.blendMode
        return some (n, blend)) fun entry => ∀ layer ∈ entry, known layer.1 := by
      refine h.abreast_constants.bind fun constants hconstants => ?_
      refine (h.abreast_weightedLayer hconstants hn hmask _).bind fun n hn => ?_
      split
      · exact abreast_pure (by simpa using hn)
      · exact (h.abreast_blendTypeFor scope _).bind fun _ _ => abreast_pure (by simpa using hn)
    unfold compileLayer
    dsimp only
    split
    · exact (h.abreast_debug _).bind fun _ _ => abreast_none
    · refine (abreast_compileOptional h hinner source).bind fun compiled hcompiled => ?_
      cases compiled with
      | none =>
        dsimp only
        split
        · exact (h.abreast_warn _).bind fun _ _ => abreast_none
        · exact abreast_none
      | some n =>
        dsimp only
        split
        · exact (abreast_compileOptional h hinner mask).bind (hweighted n (hcompiled n rfl))
        · exact hweighted n (hcompiled n rfl) none fun _ hi => nomatch hi

theorem abreast_compileLayers {scope : Scope} (h : Lockstep known R)
    (htextures : TexturesAbreast known R scope) (index : Nat) (bottom : Bool)
    (layers : List (Layer α)) :
    Abreast R (compileLayers scope index bottom layers)
      fun entries => ∀ layer ∈ entries, known layer.1 := by
  cases layers with
  | nil => exact abreast_pure fun _ hi => nomatch hi
  | cons layer layers =>
    refine (abreast_compileLayer h htextures index bottom layer).bind fun entry hentry => ?_
    cases entry with
    | some entry =>
      refine (abreast_compileLayers h htextures _ _ layers).bind fun entries hentries => ?_
      exact abreast_pure (List.forall_mem_cons.mpr ⟨hentry entry rfl, hentries⟩)
    | none => exact abreast_compileLayers h htextures _ _ layers

end

/-! ### Bitmaps and overrides -/

theorem alongside_compileTexture (h : Lockstep known R) (scope : Scope) {b b' : TextureBinding α}
    (halpha : b'.alphaSource = b.alphaSource) (hpremultiplied : b'.premultiplied = b.premultiplied)
    (htexture : Alongside R (build (Build.texture b.toTextureLookup.settled))
      (build (Build.texture b'.toTextureLookup.settled)) known) :
    Alongside R (compileTexture scope b) (compileTexture scope b') known := by
  have hchannel (constants : Constants) (hone : known constants.one) :
      Alongside R (build (Build.textureChannel constants scope b))
        (build (Build.textureChannel constants scope b')) known := by
    refine htexture.build_bind fun n hn => ?_
    split
    · exact abreast_build_pure hn
    · rw [halpha, hpremultiplied]
      refine (h.abreast_applyAlphaSource hone hn b.alphaSource).build_bind fun m hm => ?_
      split
      · exact h.abreast_premultiply hm
      · exact abreast_build_pure hm
  refine h.abreast_constants.bind fun constants hconstants => ?_
  refine (hchannel constants hconstants.1).bind fun n hn => ?_
  split
  · intro a b hab
    exact ⟨.ok n, _, _, rfl, rfl, h.log hab _ _, by rintro _ ⟨⟩; exact hn⟩
  · exact abreast_pure hn

end Lockstep

section

variable [Scalar α]

/-- What is printed where a proxy for this texture is found. -/
def proxyRemark (ctx : Context α) (textureName : String) : Journal → Journal :=
  match ctx.proxies.number? (.text textureName) with
  | some n => (·.debug s!"Applying node proxy {n} to texture '{textureName}'")
  | none => id

theorem run_applyProxy (binding : TextureBinding α) (ctx : Context α) :
    (applyProxy binding).run.run ctx =
      (.ok { binding with toTextureLookup := ctx.proxies.apply binding.toTextureLookup },
        ctx.log (proxyRemark ctx binding.textureName)) := by
  unfold applyProxy proxyRemark
  rw [run_get_bind]
  dsimp only
  cases ctx.proxies.number? (.text binding.textureName) <;> rfl

/-- A texture is noted for a channel. -/
def noteTexture (scope : Scope) (path : String) (mapping : Value α) (ctx : Context α) : Context α :=
  { ctx with usage :=
      ctx.usage.addTexture (.text scope.material) (.text scope.channel) (.text path) mapping }

/-- A bitmap with a file is noted with the coordinates it is bound to, before proxies change them. -/
theorem run_bindTexture (scope : Scope) (source : TextureSource α) (ctx : Context α)
    (hpath : (source.path.getD "").isEmpty = false) :
    (bindTexture scope source).run.run ctx = (.ok (some (bound ctx scope source)),
      (noteTexture scope (source.path.getD "") (ctx.mappingChannel scope source.mappingChannel)
        ctx).log (proxyRemark ctx (source.nodeName (source.path.getD "")))) := by
  unfold bindTexture bound
  dsimp only
  rw [if_neg (by simp [hpath]), run_get_bind]
  cases source.uvTransform <;> exact run_bind_of_ok (run_applyProxy _ ctx) _

/-- What is compiled in place of a channel. -/
def replacementNode (scope : Scope) : ChannelOverride α → Compile α NodeId
  | .color shade => do
    debug s!"Color override on {scope.place}: {shadeText shade}"
    color shade
  | .texture file => do
    debug s!"Texture override on {scope.place}: {file.path}"
    overrideTexture scope file
  | .mapping _ => throw .mappingOverride

/-- What a source is compiled to, or the flat color in its place. -/
def sourceNode (scope : Scope) (source : Source α) : Compile α NodeId := do
  match ← compileSource scope source with
  | some n => return n
  | none => build (fallbackNode scope.channel)

/-- A channel is compiled to what replaces it, or else to its source. -/
theorem compileChannel_eq (material : String) (d : ChannelDescriptor α) :
    compileChannel material d = (do
      match d.replacement? (← get) material, d.source with
      | some o, _ => return some (← replacementNode (Scope.ofChannel material d.name) o)
      | none, some source => return some (← sourceNode (Scope.ofChannel material d.name) source)
      | none, none => return none) := by
  unfold compileChannel resolveOverride overrideFor
  dsimp only
  simp only [bind_assoc, pure_bind]
  congr 1
  funext ctx
  rw [← ChannelDescriptor.replacement?]
  cases d.replacement? ctx material with
  | some o => cases o <;> simp [replacementNode]
  | none =>
    cases d.source with
    | none => simp
    | some source =>
      simp only [pure_bind, sourceNode, bind_assoc]
      congr 1
      funext n
      cases n with
      | some n => simp
      | none => rfl

/-- What is read about a channel, besides the proxies, is the same in related sessions. -/
structure ReadAlike (key : ChannelKey α) (R : Context α → Context α → Prop) : Prop where
  options {a b : Context α} (h : R a b) : a.options = b.options
  colors {a b : Context α} (h : R a b) :
    a.overrides.colors.get? key.label = b.overrides.colors.get? key.label
  textures {a b : Context α} (h : R a b) :
    a.overrides.textures.get? key.label = b.overrides.textures.get? key.label
  mappings {a b : Context α} (h : R a b) :
    a.overrides.mappings.get? key.label = b.overrides.mappings.get? key.label

/-- Notes keep sessions related. -/
def NotesAbreast (R : Context α → Context α → Prop) : Prop :=
  ∀ a b, R a b → ∀ scope path mapping,
    R (noteTexture scope path mapping a) (noteTexture scope path mapping b)

namespace Lockstep

variable {known : NodeId → Prop} {scope : Scope}

theorem mappingChannel_eq (hread : ReadAlike scope.key R) {a b : Context α} (hab : R a b)
    (own : Option (Value α)) : a.mappingChannel scope own = b.mappingChannel scope own := by
  rw [Context.mappingChannel, Context.mappingChannel, hread.mappings hab, hread.options hab]

theorem texturesAbreast (h : Lockstep known R) (hread : ReadAlike scope.key R)
    (hnotes : NotesAbreast R) (htexture : ∀ a b, R a b → ∀ lookup,
      Alongside R (build (Build.texture (a.proxies.apply lookup).settled))
        (build (Build.texture (b.proxies.apply lookup).settled)) known) :
    TexturesAbreast known R scope := by
  intro source premultiply
  unfold compileTextureSource
  cases hpath : (source.path.getD "").isEmpty with
  | true =>
    unfold bindTexture
    simp only [hpath, if_true, bind_assoc, pure_bind]
    exact (h.abreast_warn _).bind fun _ _ => abreast_none
  | false =>
    intro a b hab
    set inner : Scope := { scope with premultiply }
    have ha := run_bindTexture inner source a hpath
    have hb := run_bindTexture inner source b hpath
    have hmapping (own : Option (Value α)) :
        b.mappingChannel inner own = a.mappingChannel inner own :=
      (mappingChannel_eq hread hab own).symm
    have hcompile : Alongside R (compileTexture inner (bound a inner source))
        (compileTexture inner (bound b inner source)) known := by
      refine h.alongside_compileTexture inner rfl rfl ?_
      unfold bound
      rw [hmapping, hread.options hab]
      exact htexture a b hab _
    rw [run_bind_of_ok ha, run_bind_of_ok hb, hmapping]
    exact hcompile.return_some _ _
      (h.log (hnotes a b hab inner _ _) _ _)

theorem abreast_overrideTexture (h : Lockstep known R) (hread : ReadAlike scope.key R)
    (hnotes : NotesAbreast R)
    (htexture : ∀ lookup : TextureLookup α, Abreast R (build (Build.texture lookup)) known)
    (file : TextureFile α) : Abreast R (overrideTexture scope file) known := by
  refine alongside_get_bind fun a b hab => ?_
  dsimp only
  rw [mappingChannel_eq hread hab]
  set mapping := b.mappingChannel scope none
  have hnote : Abreast R (note (·.addTexture (.text scope.material) (.text scope.channel)
      (.text file.path) mapping)) fun _ => True :=
    fun a b hab => ⟨.ok (), _, _, rfl, rfl, hnotes a b hab scope file.path mapping,
      fun _ _ => trivial⟩
  exact hnote.bind fun _ _ => h.alongside_compileTexture scope rfl rfl (htexture _)

/-- Files are built to the same texture. -/
theorem abreast_replacementNode (h : Lockstep known R) (hread : ReadAlike scope.key R)
    (hnotes : NotesAbreast R)
    (htexture : ∀ lookup : TextureLookup α, Abreast R (build (Build.texture lookup)) known)
    (o : ChannelOverride α) : Abreast R (replacementNode scope o) known := by
  cases o with
  | color shade => exact (h.abreast_debug _).bind fun _ _ => h.abreast_color shade
  | texture file =>
    exact (h.abreast_debug _).bind fun _ _ => h.abreast_overrideTexture hread hnotes htexture file
  | mapping channel => exact abreast_throw _

theorem abreast_sourceNode (h : Lockstep known R) (htextures : TexturesAbreast known R scope)
    (source : Source α) : Abreast R (sourceNode scope source) known := by
  refine (abreast_compileSource h htextures source).bind fun n hn => ?_
  cases n with
  | some n => exact abreast_pure (hn n rfl)
  | none => exact h.abreast_value _

/-- What a channel is compiled to. Of the textures, only those have to keep the sessions related that
there can be: one in place of the channel, or else those of its source. -/
theorem abreast_compileChannel {material : String} {d : ChannelDescriptor α}
    (h : Lockstep known R) (hread : ReadAlike (Scope.ofChannel material d.name).key R)
    (hnotes : NotesAbreast R)
    (htexture : ∀ a b, R a b → (d.replacement? a material).isSome →
      ∀ lookup : TextureLookup α, Abreast R (build (Build.texture lookup)) known)
    (hbound : ∀ a b, R a b → d.replacement? a material = none →
      TexturesAbreast known R (Scope.ofChannel material d.name)) :
    Abreast R (compileChannel material d) fun n => ∀ i ∈ n, known i := by
  rw [compileChannel_eq]
  refine alongside_get_bind fun a b hab => ?_
  have hsame : d.replacement? b material = d.replacement? a material := by
    simp only [ChannelDescriptor.replacement?, Overrides.find?, hread.colors hab,
      hread.textures hab, hread.options hab]
  rw [hsame]
  cases hfound : d.replacement? a material with
  | some o =>
    have hreplaced : (d.replacement? a material).isSome = true := by simp [hfound]
    exact (h.abreast_replacementNode hread hnotes (htexture a b hab hreplaced) o).return_some
  | none =>
    cases d.source with
    | some source => exact (h.abreast_sourceNode (hbound a b hab hfound) source).return_some
    | none => exact abreast_none

end Lockstep

end

end ShadeGraph.Compile
