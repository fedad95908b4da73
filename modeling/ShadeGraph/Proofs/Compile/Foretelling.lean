import ShadeGraph.Proofs.Compile.Tour
import ShadeGraph.Proofs.Meaning.Source

/-!
# What becomes of a source

Whether a source is compiled to a node can be told from the source alone. If everything in it is
stated as it should be, compiling it only fails for a gain that leads out of range as an exponent,
and whether it gets to such a gain can be told as well.
-/

namespace ShadeGraph

variable {α : Type}

/-! ### What is stated as it should be -/

def TintColumns.WellFormed (columns : TintColumns α) : Prop :=
  columns.red.WellFormed ∧ columns.green.WellFormed ∧ columns.blue.WellFormed

/-- A custom rewiring selects four components. -/
def Correction.WellFormed (params : Correction α) : Prop :=
  params.rewire = .custom → params.customChannels.length = 4

/-- The mode of a layer is a text. -/
def LayerSettings.WellFormed (settings : LayerSettings α) : Prop :=
  ∃ mode, settings.blendMode = .text mode

mutual

def Source.WellFormed : Source α → Prop
  | .texture _ => True
  | .color shade => shade.WellFormed
  | .product first second settings =>
    settings.firstColor.WellFormed ∧ settings.secondColor.WellFormed ∧
      Source.OptionalWellFormed first ∧ Source.OptionalWellFormed second
  | .tint source columns => columns.WellFormed ∧ Source.OptionalWellFormed source
  | .composite layers => Layer.ListWellFormed layers
  | .correction source params => params.WellFormed ∧ Source.OptionalWellFormed source
  | .unsupported _ _ => True
  | .unknown _ => True

def Source.OptionalWellFormed : Option (Source α) → Prop
  | some source => source.WellFormed
  | none => True

def Layer.WellFormed : Layer α → Prop
  | .mk source mask settings =>
    settings.WellFormed ∧ Source.OptionalWellFormed source ∧ Source.OptionalWellFormed mask

def Layer.ListWellFormed : List (Layer α) → Prop
  | [] => True
  | layer :: layers => layer.WellFormed ∧ Layer.ListWellFormed layers

end

/-! ### Gains out of range -/

variable [Scalar α]

/-- Nothing if the gain is an exponent that leads out of range. -/
def Exposure.check (mode : ExposureMode) (e : Exposure α) : Option Unit :=
  (e.factor? mode).map fun _ => ()

/-- Nothing if a gain that is read leads out of range. The settings of single components are read
for all of them as soon as one is in use. -/
def Correction.check (params : Correction α) : Option Unit :=
  let check := Exposure.check params.exposureMode
  if params.useExposure then do
    check params.globalExposure
    if params.redEnabled || params.greenEnabled || params.blueEnabled then do
      check params.redExposure
      check params.greenExposure
      check params.blueExposure
    else return ()
  else return ()

mutual

/-- Whether a source is compiled to a node, unless it gets to a gain out of range. A correction
without a node below is not made. -/
def Source.hasNode? : Source α → Option Bool
  | .texture source => some !(source.path.getD "").isEmpty
  | .color _ => some true
  | .product first second settings => do
    let _ ← if settings.firstEnabled then Source.optionalHasNode? first else some false
    let _ ← if settings.secondEnabled then Source.optionalHasNode? second else some false
    return true
  | .tint source _ => Source.optionalHasNode? source
  | .composite layers => Layer.listHasNode? layers
  | .correction source params => do
    let found ← Source.optionalHasNode? source
    if found then params.check
    return found
  | .unsupported _ _ => some false
  | .unknown _ => some false

def Source.optionalHasNode? : Option (Source α) → Option Bool
  | some source => source.hasNode?
  | none => some false

/-- Whether a layer can be used; the mask is only looked at behind the source. -/
def Layer.hasNode? : Layer α → Option Bool
  | .mk source mask settings =>
    if settings.enabled then do
      let found ← Source.optionalHasNode? source
      let _ ← if found && settings.maskEnabled then Source.optionalHasNode? mask else some false
      return found
    else some false

def Layer.listHasNode? : List (Layer α) → Option Bool
  | [] => some false
  | layer :: layers => do
    let found ← layer.hasNode?
    let others ← Layer.listHasNode? layers
    return found || others

end

namespace Compile

/-! ### Foretelling steps -/

section

variable {β γ δ ε : Type} {p : Compile α β} {f : β → γ} {g : δ → ε} {told : Option γ}

/-- Whatever the session, what is told of the result of a step holds, and if nothing is told the
step ends in an error for a gain out of range. -/
def Foretells (p : Compile α β) (f : β → γ) (told : Option γ) : Prop :=
  ∀ ctx, Ends p ctx (fun b _ => told = some (f b)) fun e => e = .gainRange ∧ told = none

/-- The step does not fail. -/
def Total (p : Compile α β) : Prop := Foretells p (fun _ => ()) (some ())

omit [Scalar α] in
theorem foretells_pure (b : β) : Foretells (pure b : Compile α β) f (some (f b)) :=
  fun _ => ends_pure rfl

omit [Scalar α] in
theorem Foretells.bind {q : β → Compile α δ} {next : γ → Option ε} (hp : Foretells p f told)
    (hq : ∀ b, Foretells (q b) g (next (f b))) : Foretells (p >>= q) g (told.bind next) := by
  intro ctx
  have hfirst : Ends p ctx (fun b _ => told = some (f b))
      fun e => e = .gainRange ∧ told.bind next = none :=
    (hp ctx).mono (fun _ _ h => h) fun e ⟨he, htold⟩ => ⟨he, by rw [htold]; rfl⟩
  refine hfirst.bind fun b later htold => ?_
  rw [htold]
  exact hq b later

omit [Scalar α] in
theorem Total.bind {q : β → Compile α δ} {next : Option ε} (hp : Total p)
    (hq : ∀ b, Foretells (q b) g next) : Foretells (p >>= q) g next := by
  have h : Foretells (p >>= q) g ((some ()).bind fun _ => next) := Foretells.bind hp hq
  exact h

omit [Scalar α] in
/-- The last steps give what was told of the first one. -/
theorem Foretells.andThen {q : β → Compile α δ} {g : δ → γ} (hp : Foretells p f told)
    (hq : ∀ b, Foretells (q b) g (some (f b))) : Foretells (p >>= q) g told := by
  have h := Foretells.bind hp hq
  rwa [Option.bind_fun_some] at h

omit [Scalar α] in
theorem total_pure (b : β) : Total (pure b : Compile α β) := foretells_pure b

omit [Scalar α] in
theorem total_get : Total (get : Compile α (Context α)) := fun _ => ends_of_run_ok rfl rfl

omit [Scalar α] in
theorem total_build (step : Build α β) : Total (build step) := fun _ => ends_of_run_ok rfl rfl

omit [Scalar α] in
theorem total_warn (text : String) : Total (warn text : Compile α Unit) :=
  fun _ => ends_of_run_ok rfl rfl

omit [Scalar α] in
theorem total_debug (text : String) : Total (debug text : Compile α Unit) :=
  fun _ => ends_of_run_ok rfl rfl

omit [Scalar α] in
theorem total_note (step : Usage α → Usage α) : Total (note step) := fun _ => ends_of_run_ok rfl rfl

omit [Scalar α] in
theorem total_constants : Total (constants : Compile α Constants) := fun _ => ends_of_run_ok rfl rfl

end

theorem total_color {shade : Shade α} (h : shade.WellFormed) : Total (color shade) := by
  obtain ⟨v, hv⟩ := (shade.toRgba_isOk_iff 1.0).mpr h
  unfold color
  rw [hv]
  exact total_build _

theorem total_orColor (n : Option NodeId) {shade : Shade α} (h : shade.WellFormed) :
    Total (orColor n shade) := by
  cases n with
  | some n => exact total_pure n
  | none => exact total_color h

theorem total_tint (n : NodeId) {columns : TintColumns α} (h : columns.WellFormed) :
    Total (tint n columns) := by
  have hcolumn (c : Component) {shade : Shade α} (hshade : shade.WellFormed) : Total (do
      let share ← build (Build.broadcast n c)
      let value ← color shade
      build (Build.multiply share value)) :=
    (total_build _).bind fun _ => (total_color hshade).bind fun _ => total_build _
  obtain ⟨hred, hgreen, hblue⟩ := h
  exact (hcolumn _ hred).bind fun _ => (hcolumn _ hgreen).bind fun _ =>
    (hcolumn _ hblue).bind fun _ => total_build _

omit [Scalar α] in
theorem total_blendTypeFor (scope : Scope) {settings : LayerSettings α} (h : settings.WellFormed) :
    Total (blendTypeFor scope settings.blendMode) := by
  obtain ⟨mode, hmode⟩ := h
  rw [hmode]
  unfold blendTypeFor
  dsimp only
  split
  · exact total_pure _
  · exact (total_warn _).bind fun _ => total_pure _

/-! ### Corrections -/

theorem total_rewire (n : NodeId) {params : Correction α} (h : params.WellFormed) :
    Total (rewire n params) := by
  refine total_constants.bind fun constants => ?_
  cases hrewire : params.rewire with
  | normal => exact total_pure n
  | monochrome | invert => exact total_build _
  | custom =>
    have hfour := h hrewire
    dsimp only
    generalize params.customChannels = channels at hfour ⊢
    match channels with
    | [r, g, b, a] => exact total_build _

theorem total_atLeast (what : String) (scope : Scope) (value least : α) :
    Total (atLeast what scope value least) := by
  unfold atLeast
  split
  · exact (total_warn _).bind fun _ => total_pure _
  · exact total_pure _

theorem foretells_exposureTerm (scope : Scope) (mode : ExposureMode) (e : Exposure α) :
    Foretells (exposureTerm scope mode e) (fun _ => ()) (e.check mode) := by
  refine (total_atLeast _ _ _ _).bind fun gamma => (total_atLeast _ _ _ _).bind fun pivot => ?_
  cases mode with
  | gain => exact total_pure _
  | fstops | printer =>
    dsimp only [Exposure.check, Exposure.factor?]
    cases Scalar.exp2? e.gain with
    | none => exact fun _ => ends_of_run_error rfl ⟨rfl, rfl⟩
    | some gain => exact total_pure _

theorem foretells_lightness (scope : Scope) (n : NodeId) (params : Correction α) :
    Foretells (lightness scope n params) (fun _ => ()) params.check := by
  unfold lightness Correction.check
  dsimp only
  split
  · refine (foretells_exposureTerm _ _ _).bind fun common => (total_build _).bind fun result => ?_
    split
    · refine (foretells_exposureTerm _ _ _).bind fun red => ?_
      refine (foretells_exposureTerm _ _ _).bind fun green => ?_
      refine (foretells_exposureTerm _ _ _).andThen fun blue => ?_
      exact (total_build _).bind fun _ => total_build _
    · exact total_build _
  · exact total_build _

theorem foretells_correct (scope : Scope) (n : NodeId) {params : Correction α}
    (h : params.WellFormed) : Foretells (correct scope n params) (fun _ => ()) params.check := by
  refine (total_rewire n h).bind fun rewired => (total_build _).bind fun tinted => ?_
  refine (foretells_lightness scope tinted params).andThen fun result => ?_
  exact total_constants.bind fun constants => total_build _

/-- A correction without a node below is not made. -/
theorem run_correction (scope : Scope) (source : Option (Source α)) (params : Correction α)
    (ctx : Context α) : (compileSource scope (.correction source params)).run.run ctx =
      match (compileOptional scope source).run.run ctx with
      | (.ok (some n), middle) =>
        (do return some (← correct scope n params) : Compile α (Option NodeId)).run.run middle
      | (.ok none, middle) => (.ok none, middle)
      | (.error e, middle) => (.error e, middle) := by
  rw [compileSource, run_bind]
  rcases (compileOptional scope source).run.run ctx with ⟨e | _ | n, middle⟩ <;> rfl

/-! ### Sources -/

theorem total_compileTexture (scope : Scope) (binding : TextureBinding α) :
    Total (compileTexture scope binding) := by
  refine total_constants.bind fun constants => (total_build _).bind fun n => ?_
  split
  · exact (total_debug _).bind fun _ => total_pure n
  · exact total_pure n

theorem foretells_textureSource (scope : Scope) (source : TextureSource α) :
    Foretells (compileTextureSource scope source) Option.isSome
      (some !(source.path.getD "").isEmpty) := by
  have hbind : Foretells (bindTexture scope source) Option.isSome
      (some !(source.path.getD "").isEmpty) := by
    intro ctx
    refine (ends_bindTexture ctx scope source).mono ?_ fun _ he => he.elim
    rintro b _ rfl
    split_ifs with hpath
    · rw [hpath]; rfl
    · rw [Bool.not_eq_true] at hpath
      rw [hpath]; rfl
  refine hbind.andThen fun binding => ?_
  cases binding with
  | none => exact foretells_pure none
  | some binding =>
    exact (total_compileTexture scope binding).bind fun n => foretells_pure (some n)

omit [Scalar α] in
/-- The result is a node. -/
theorem foretells_some {p : Compile α NodeId} (h : Total p) :
    Foretells (do return some (← p)) Option.isSome (some true) :=
  h.bind fun n => foretells_pure (some n)

mutual

theorem foretells_compileSource (scope : Scope) {source : Source α} (h : source.WellFormed) :
    Foretells (compileSource scope source) Option.isSome source.hasNode? := by
  cases source with
  | texture source => exact foretells_textureSource scope source
  | color shade => exact foretells_some (total_color h)
  | product first second settings =>
    obtain ⟨hfirst, hsecond, hsource, hsource'⟩ := h
    have hproduct (a : NodeId) (b : Option NodeId) : Foretells (do
        let b ← orColor b settings.secondColor
        return some (← build (Build.product a b settings.alphaFrom))) Option.isSome (some true) :=
      (total_orColor b hsecond).bind fun _ => foretells_some (total_build _)
    have hrest (a : Option NodeId) : Foretells (do
        let a ← orColor a settings.firstColor
        let b ← if settings.secondEnabled then compileOptional scope second else pure none
        let b ← orColor b settings.secondColor
        return some (← build (Build.product a b settings.alphaFrom))) Option.isSome (do
        let _ ← if settings.secondEnabled then Source.optionalHasNode? second else some false
        return true) := by
      refine (total_orColor a hfirst).bind fun a => ?_
      dsimp only
      split
      · exact (foretells_compileOptional scope hsource').bind (hproduct a)
      · exact (foretells_pure none).bind (hproduct a)
    unfold compileSource Source.hasNode?
    dsimp only
    split
    · exact (foretells_compileOptional scope hsource).bind hrest
    · exact (foretells_pure none).bind hrest
  | tint source columns =>
    refine (foretells_compileOptional scope h.2).andThen fun n => ?_
    cases n with
    | some n => exact foretells_some (total_tint n h.1)
    | none => exact foretells_pure none
  | composite layers =>
    refine (foretells_compileLayers scope 0 true h).andThen fun entries => ?_
    unfold blendLayers
    cases entries with
    | nil => exact (total_warn _).bind fun _ => foretells_pure none
    | cons entry entries => exact foretells_some (total_build _)
  | correction source params =>
    refine (foretells_compileOptional scope h.2).bind fun n => ?_
    cases n with
    | some n => exact (foretells_correct scope n h.1).bind fun n => foretells_pure (some n)
    | none => exact foretells_pure none
  | unsupported className description => exact (total_warn _).bind fun _ => foretells_pure none
  | unknown className => exact (total_warn _).bind fun _ => foretells_pure none

theorem foretells_compileOptional (scope : Scope) {source : Option (Source α)}
    (h : Source.OptionalWellFormed source) :
    Foretells (compileOptional scope source) Option.isSome (Source.optionalHasNode? source) := by
  cases source with
  | some source => exact foretells_compileSource scope h
  | none => exact foretells_pure none

theorem foretells_compileLayer (scope : Scope) (index : Nat) (bottom : Bool) {layer : Layer α}
    (h : layer.WellFormed) :
    Foretells (compileLayer scope index bottom layer) Option.isSome layer.hasNode? := by
  cases layer with
  | mk source mask settings =>
    obtain ⟨hmode, hsource, hmask⟩ := h
    have hweighted (n : NodeId) (mask : Option NodeId) : Foretells (do
        let n ← build (Build.weightedLayer (← constants) n mask settings.share)
        let blend ← if bottom then pure .replace else blendTypeFor scope settings.blendMode
        return some (n, blend)) Option.isSome (some true) := by
      refine total_constants.bind fun _ => (total_build _).bind fun n => ?_
      split
      · exact (total_pure _).bind fun blend => foretells_pure (some (n, blend))
      · exact (total_blendTypeFor scope hmode).bind fun blend => foretells_pure (some (n, blend))
    unfold compileLayer Layer.hasNode?
    cases settings.enabled with
    | false => exact (total_debug _).bind fun _ => foretells_pure none
    | true =>
      refine (foretells_compileOptional scope.inner hsource).bind fun n => ?_
      cases n with
      | none =>
        dsimp only
        split
        · exact (total_warn _).bind fun _ => foretells_pure none
        · exact foretells_pure none
      | some n =>
        cases settings.maskEnabled with
        | false => exact (foretells_pure none).bind (hweighted n)
        | true => exact (foretells_compileOptional scope.inner hmask).bind (hweighted n)

theorem foretells_compileLayers (scope : Scope) (index : Nat) (bottom : Bool)
    {layers : List (Layer α)} (h : Layer.ListWellFormed layers) :
    Foretells (compileLayers scope index bottom layers) (fun entries => !entries.isEmpty)
      (Layer.listHasNode? layers) := by
  cases layers with
  | nil => exact foretells_pure []
  | cons layer layers =>
    refine (foretells_compileLayer scope index bottom h.1).bind fun entry => ?_
    cases entry with
    | some entry =>
      exact (foretells_compileLayers scope (index + 1) false h.2).bind fun others =>
        foretells_pure (entry :: others)
    | none =>
      have hothers := foretells_compileLayers scope (index + 1) bottom h.2
      rwa [← Option.bind_fun_some (Layer.listHasNode? layers)] at hothers

end

end Compile

end ShadeGraph
