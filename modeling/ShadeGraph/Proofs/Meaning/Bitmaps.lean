import ShadeGraph.Proofs.Compile.Lockstep
import ShadeGraph.Proofs.LabelTable
import ShadeGraph.Proofs.Meaning.Gathering

/-!
# Noted bitmaps

While a channel is compiled, the first bitmap that is bound is noted for it, with its file and its
coordinates. The bitmaps of a source and their order can be told from its tree, and so can those
that the compiled node still reads: all but the ones below a custom rewiring of constants.
-/

namespace ShadeGraph

variable {α : Type}

/-- Bitmaps in the order in which they are bound, each with whether it is still read. -/
abbrev Bitmaps (α : Type) := List (TextureSource α × Bool)

/-- The bitmaps below a correction. -/
def Correction.passOn (params : Correction α) (bitmaps : Bitmaps α) : Bitmaps α :=
  bitmaps.map fun b => (b.1, b.2 && params.readsInput)

mutual

/-- The bitmaps of a source; none if the source has no node. -/
def Source.bitmaps? : Source α → Option (Bitmaps α)
  | .texture source => if (source.path.getD "").isEmpty then none else some [(source, true)]
  | .color _ => some []
  | .product first second settings =>
    some ((if settings.firstEnabled then Source.optionalBitmaps? first else none).getD [] ++
      (if settings.secondEnabled then Source.optionalBitmaps? second else none).getD [])
  | .tint source _ => Source.optionalBitmaps? source
  | .composite layers =>
    match Layer.listBitmaps layers with
    | [] => none
    | usable => some usable.flatten
  | .correction source params => (Source.optionalBitmaps? source).map params.passOn
  | .unsupported _ _ => none
  | .unknown _ => none

def Source.optionalBitmaps? : Option (Source α) → Option (Bitmaps α)
  | some source => source.bitmaps?
  | none => none

/-- The bitmaps of a layer; none if the layer cannot be used. The mask comes behind the source. -/
def Layer.bitmaps? : Layer α → Option (Bitmaps α)
  | .mk source mask settings =>
    if settings.enabled then
      (Source.optionalBitmaps? source).map fun bitmaps =>
        bitmaps ++ (if settings.maskEnabled then Source.optionalBitmaps? mask else none).getD []
    else none

/-- The bitmaps of each layer that can be used. -/
def Layer.listBitmaps : List (Layer α) → List (Bitmaps α)
  | [] => []
  | layer :: layers =>
    match layer.bitmaps? with
    | some bitmaps => bitmaps :: Layer.listBitmaps layers
    | none => Layer.listBitmaps layers

end

/-! ### Notes -/

/-- What a session has noted as the texture of a channel. -/
def Context.textureOf [Scalar α] (ctx : Context α) (scope : Scope) : Option (BoundTexture α) :=
  (ctx.usage.textures (.text scope.material)).get? (.text scope.channel)

theorem Usage.textures_addTexture [Scalar α] (usage : Usage α) (material channel : String)
    (path mapping : Value α) :
    ((usage.addTexture (.text material) (.text channel) path mapping).textures
      (.text material)).get? (.text channel) =
        ((usage.textures (.text material)).get? (.text channel) <|> some ⟨path, mapping⟩) := by
  have hsame (s : String) : (Value.text s : Value α).same (.text s) = true := by simp
  unfold addTexture textures
  rw [LabelTable.get?_upsert_self (hsame material), Option.getD_some,
    LabelTable.get?_insertIfNew_self (hsame channel)]

namespace Compile

variable [Scalar α] {β γ : Type} {ctx : Context α} {scope : Scope}

/-- If it succeeds, the step adds to the session, notes these textures for the channel, and leaves
a result and a network as told. -/
def Notes (scope : Scope) (p : Compile α β) (ctx : Context α) (notes : List (BoundTexture α))
    (Q : β → Network α → Prop) : Prop :=
  Ends p ctx (fun b later => (ctx.Grows later ∧
    later.textureOf scope = (ctx.textureOf scope <|> notes.head?)) ∧ Q b later.network)
    fun _ => True

section

variable {p : Compile α β} {noted : List (BoundTexture α)} {Q : β → Network α → Prop}

theorem notes_pure {b : β} (h : Q b ctx.network) : Notes scope (pure b) ctx [] Q :=
  ends_pure ⟨⟨.refl ctx, by simp⟩, h⟩

theorem Notes.bind {f : β → Compile α γ} {more : List (BoundTexture α)}
    {S : γ → Network α → Prop} (h : Notes scope p ctx noted Q)
    (hf : ∀ b later, ctx.Grows later → Q b later.network → Notes scope (f b) later more S) :
    Notes scope (p >>= f) ctx (noted ++ more) S := by
  refine Ends.bind h ?_
  rintro b later ⟨⟨hgrows, htexture⟩, hb⟩
  refine (hf b later hgrows hb).mono ?_ fun _ => id
  rintro c last ⟨⟨hlast, hmore⟩, hc⟩
  refine ⟨⟨hgrows.trans hlast, ?_⟩, hc⟩
  rw [hmore, htexture, List.head?_append]
  cases ctx.textureOf scope <;> cases noted.head? <;> rfl

/-- What follows notes nothing. -/
theorem Notes.andThen {f : β → Compile α γ} {S : γ → Network α → Prop}
    (h : Notes scope p ctx noted Q)
    (hf : ∀ b later, ctx.Grows later → Q b later.network → Notes scope (f b) later [] S) :
    Notes scope (p >>= f) ctx noted S := by
  have hall := h.bind hf
  rwa [List.append_nil] at hall

theorem notes_bind_of_run {f : β → Compile α γ} {b : β} {S : γ → Network α → Prop}
    (hrun : p.run.run ctx = (.ok b, ctx)) (h : Notes scope (f b) ctx noted S) :
    Notes scope (p >>= f) ctx noted S :=
  Ends.congr h (run_bind_of_ok hrun f)

/-- The step does not change the notes. -/
def Unnoted (p : Compile α β) : Prop := ∀ ctx, (p.run.run ctx).2.usage = ctx.usage

theorem Adds.unnoted (h : Adds p ctx Q) (hp : Unnoted p) : Notes scope p ctx [] Q := by
  refine ⟨fun hrun => ?_, fun _ => trivial⟩
  obtain ⟨hgrows, hb⟩ := h.ok hrun
  have husage := hp ctx
  rw [hrun] at husage
  refine ⟨⟨hgrows, ?_⟩, hb⟩
  rw [Context.textureOf, Context.textureOf, husage]
  simp

/-- Two sessions with these notes. -/
structure SameNotes (usage : Usage α) (a b : Context α) : Prop where
  left : a.usage = usage
  right : b.usage = usage
  constants : a.constants = b.constants
  size : a.network.size = b.network.size

omit [Scalar α] in
theorem lockstep_sameNotes (usage : Usage α) : Lockstep (fun _ => True) (SameNotes usage) where
  log h _ _ := ⟨h.left, h.right, h.constants, h.size⟩
  warn h _ := ⟨h.left, h.right, h.constants, h.size⟩
  constants h := ⟨h.constants, trivial, trivial⟩
  insert h _ _ _ _ := ⟨h.size, trivial, h.left, h.right, h.constants, by simp [h.size]⟩

omit [Scalar α] in
/-- A step that does nothing about bitmaps notes none. -/
theorem unnoted_of_abreast {S : β → Prop} (h : ∀ usage, Abreast (SameNotes usage) p S) :
    Unnoted p := by
  intro ctx
  obtain ⟨result, later, _, hrun, -, hlater, -⟩ := h ctx.usage ctx ctx ⟨rfl, rfl, rfl, rfl⟩
  rw [hrun, hlater.left]

end

/-! ### Bitmaps in a session -/

/-- What a session notes of bitmaps. -/
def noted (ctx : Context α) (scope : Scope) (bitmaps : Bitmaps α) : List (BoundTexture α) :=
  bitmaps.map fun b => ⟨.text (b.1.path.getD ""), ctx.mappingChannel scope b.1.mappingChannel⟩

/-- The textures of the bitmaps that are still read. -/
def texturesRead (ctx : Context α) (scope : Scope) (bitmaps : Bitmaps α) :
    Set (TextureLookup α) :=
  { lookup | ∃ source, (source, true) ∈ bitmaps ∧
    (bound ctx scope source).toTextureLookup.settled = lookup }

section

variable (ctx scope) (xs ys : Bitmaps α)

@[simp] theorem noted_nil : noted ctx scope [] = [] := rfl

@[simp] theorem noted_append :
    noted ctx scope (xs ++ ys) = noted ctx scope xs ++ noted ctx scope ys := List.map_append

@[simp] theorem noted_passOn (params : Correction α) :
    noted ctx scope (params.passOn xs) = noted ctx scope xs := by
  simp [noted, Correction.passOn, Function.comp_def]

@[simp] theorem texturesRead_nil : texturesRead ctx scope [] = ∅ := by simp [texturesRead]

@[simp] theorem texturesRead_append : texturesRead ctx scope (xs ++ ys) =
    texturesRead ctx scope xs ∪ texturesRead ctx scope ys := by
  ext lookup
  simp only [texturesRead, List.mem_append, Set.mem_union, Set.mem_ofPred_eq, or_and_right,
    exists_or]

theorem texturesRead_passOn (params : Correction α) : texturesRead ctx scope (params.passOn xs) =
    if params.readsInput then texturesRead ctx scope xs else ∅ := by
  cases h : params.readsInput <;> simp [texturesRead, Correction.passOn, h]

theorem texturesRead_flatten (xss : List (Bitmaps α)) : texturesRead ctx scope xss.flatten =
    (xss.map (texturesRead ctx scope)).foldr (· ∪ ·) ∅ := by
  induction xss with
  | nil => simp
  | cons xs xss ih => simp [ih]

theorem texturesRead_singleton (source : TextureSource α) : texturesRead ctx scope [(source, true)] =
    {(bound ctx scope source).toTextureLookup.settled} := by
  ext lookup
  simp [texturesRead, eq_comm]

end

/-- The step notes these bitmaps and returns a node that reads those of them that are left to read,
or none if there are none to tell of. -/
def Describes (start : Context α) (scope : Scope) (p : Compile α (Option NodeId))
    (ctx : Context α) (bitmaps : Option (Bitmaps α)) : Prop :=
  Notes scope p ctx (noted start scope (bitmaps.getD []))
    fun n net => Option.Rel net.Gathers n (bitmaps.map (texturesRead start scope))

theorem notes_some {p : Compile α NodeId} {xs : List (BoundTexture α)}
    {T : Set (TextureLookup α)} (h : Notes scope p ctx xs fun n net => net.Gathers n T) :
    Notes scope (do return some (← p)) ctx xs fun n net => Option.Rel net.Gathers n (some T) :=
  h.andThen fun _ _ _ hn => notes_pure (.some hn)

variable {start : Context α}

/-- What comes of a source is corrected, tinted or left out as a whole. -/
theorem Describes.bind {p : Compile α (Option NodeId)} {f : NodeId → Compile α (Option NodeId)}
    {xs : Option (Bitmaps α)} {g : Bitmaps α → Bitmaps α} (h : Describes start scope p ctx xs)
    (hnoted : ∀ ys, noted start scope (g ys) = noted start scope ys)
    (hf : ∀ n ys later, ctx.Grows later → later.network.Gathers n (texturesRead start scope ys) →
      Notes scope (f n) later [] fun m net =>
        Option.Rel net.Gathers m (some (texturesRead start scope (g ys)))) :
    Describes start scope (do
      match ← p with
      | some n => f n
      | none => return none) ctx (xs.map g) := by
  have hsame : noted start scope ((xs.map g).getD []) = noted start scope (xs.getD []) := by
    cases xs with
    | none => rfl
    | some ys => exact hnoted ys
  unfold Describes
  rw [hsame]
  refine Notes.andThen h fun n later hgrows hn => ?_
  cases xs with
  | none =>
    cases hn
    exact notes_pure .none
  | some ys =>
    cases hn with
    | some hn => exact hf _ ys later hgrows hn

theorem mappingChannel_of_continues {later : Context α} (h : ctx.Continues later) (scope : Scope)
    (own : Option (Value α)) : later.mappingChannel scope own = ctx.mappingChannel scope own := by
  rw [Context.mappingChannel, Context.mappingChannel, h.overrides, h.options]

theorem bound_of_continues {later : Context α} (h : ctx.Continues later) (scope : Scope)
    (source : TextureSource α) : bound later scope source = bound ctx scope source := by
  simp only [bound, Context.mappingChannel, h.options, h.overrides, h.proxies]

variable (ctx) in
theorem notes_bindTexture (scope : Scope) (source : TextureSource α)
    (hpath : (source.path.getD "").isEmpty = false) :
    Notes scope (bindTexture scope source) ctx (noted ctx scope [(source, true)])
      fun b _ => b = some (bound ctx scope source) := by
  have hgrows (f : Journal → Journal) : ctx.Grows ((noteTexture scope (source.path.getD "")
      (ctx.mappingChannel scope source.mappingChannel) ctx).log f) :=
    ⟨⟨rfl, rfl, rfl, rfl, rfl, rfl, rfl, List.prefix_rfl⟩, .refl _⟩
  have hnoted := ctx.usage.textures_addTexture scope.material scope.channel
    (.text (source.path.getD "")) (ctx.mappingChannel scope source.mappingChannel)
  exact ends_of_run_ok (run_bindTexture scope source ctx hpath) ⟨⟨hgrows _, hnoted⟩, rfl⟩

theorem unnoted_compileTexture (scope : Scope) (b : TextureBinding α) :
    Unnoted (compileTexture scope b) := by
  intro ctx
  have hbind (n : NodeId) (later : Context α) : ((do
      if !scope.isOpacity then debug (textureText scope b)
      return n : Compile α NodeId).run.run later).2.usage = later.usage := by
    split <;> rfl
  exact hbind _ _

theorem notes_compileTexture (hconstants : ctx.HasConstants) (scope : Scope)
    (b : TextureBinding α) : Notes scope (compileTexture scope b) ctx [] fun n net =>
      net.Gathers n {b.toTextureLookup.settled} :=
  (gathers_compileTexture hconstants scope b).unnoted (unnoted_compileTexture scope b)

theorem describes_texture (hstart : start.HasConstants) (h : start.Grows ctx) (scope : Scope)
    (source : TextureSource α) :
    Describes start scope (compileTextureSource scope source) ctx
      (Source.texture source).bitmaps? := by
  unfold Source.bitmaps?
  cases hpath : (source.path.getD "").isEmpty with
  | true =>
    unfold compileTextureSource bindTexture
    simp only [hpath, if_true, bind_assoc, pure_bind]
    exact ((adds_warn ctx _).unnoted fun _ => rfl).andThen fun _ _ _ _ => notes_pure .none
  | false =>
    have hnoted : noted start scope [(source, true)] = noted ctx scope [(source, true)] := by
      simp only [noted, List.map_cons, List.map_nil,
        mappingChannel_of_continues h.toContinues]
    have hread : texturesRead start scope [(source, true)] =
        {(bound ctx scope source).toTextureLookup.settled} := by
      rw [texturesRead_singleton, bound_of_continues h.toContinues]
    unfold Describes
    rw [if_neg Bool.false_ne_true, Option.getD_some, hnoted, Option.map_some, hread]
    refine (notes_bindTexture ctx scope source hpath).andThen ?_
    rintro b later hgrows rfl
    exact notes_some (notes_compileTexture ((h.trans hgrows).hasConstants hstart) scope _)

/-! ### Trees -/

theorem unnoted_orColor (n : Option NodeId) (shade : Shade α) : Unnoted (orColor n shade) :=
  unnoted_of_abreast fun usage =>
    (lockstep_sameNotes usage).abreast_orColor (fun _ _ => trivial) shade

theorem unnoted_tint (n : NodeId) (columns : TintColumns α) : Unnoted (tint n columns) :=
  unnoted_of_abreast fun usage => (lockstep_sameNotes usage).abreast_tint trivial columns

theorem unnoted_correct (scope : Scope) (n : NodeId) (params : Correction α) :
    Unnoted (correct scope n params) :=
  unnoted_of_abreast fun usage => (lockstep_sameNotes usage).abreast_correct scope trivial params

omit [Scalar α] in
theorem unnoted_blendLayers (scope : Scope) (layers : List (NodeId × BlendType)) :
    Unnoted (blendLayers (α := α) scope layers) :=
  unnoted_of_abreast fun usage =>
    (lockstep_sameNotes usage).abreast_blendLayers scope fun _ _ => trivial

omit [Scalar α] in
theorem unnoted_blendTypeFor (scope : Scope) (mode : Value α) :
    Unnoted (blendTypeFor scope mode) :=
  unnoted_of_abreast fun usage => (lockstep_sameNotes usage).abreast_blendTypeFor scope mode

theorem texturesRead_getD (ctx : Context α) (scope : Scope) (xs : Option (Bitmaps α)) :
    texturesRead ctx scope (xs.getD []) = (xs.map (texturesRead ctx scope)).getD ∅ := by
  cases xs with
  | none => exact texturesRead_nil ctx scope
  | some ys => rfl

theorem notes_product (scope : Scope) (settings : ProductSettings α) {a : NodeId}
    {b : Option NodeId} {T : Set (TextureLookup α)} {U : Option (Set (TextureLookup α))}
    (ha : ctx.network.Gathers a T) (hb : Option.Rel ctx.network.Gathers b U) :
    Notes scope (do
      let b ← orColor b settings.secondColor
      return some (← build (Build.product a b settings.alphaFrom))) ctx []
      fun n net => Option.Rel net.Gathers n (some (T ∪ U.getD ∅)) := by
  refine ((gathers_orColor hb settings.secondColor).unnoted (unnoted_orColor b _)).andThen
    fun b later hgrows hb => ?_
  exact notes_some ((gathers_build (Build.gathers_product (ha.extends hgrows.network) hb
    settings.alphaFrom)).unnoted fun _ => rfl)

theorem notes_weighted (hconstants : ctx.HasConstants) (scope : Scope) (bottom : Bool)
    (settings : LayerSettings α) {n : NodeId} {mask : Option NodeId}
    {T : Set (TextureLookup α)} {M : Option (Set (TextureLookup α))}
    (hn : ctx.network.Gathers n T) (hmask : Option.Rel ctx.network.Gathers mask M) :
    Notes scope (do
      let n ← build (Build.weightedLayer (← constants) n mask settings.share)
      let blend ← if bottom then pure .replace else blendTypeFor scope settings.blendMode
      return some (n, blend)) ctx [] fun layer net =>
        Option.Rel (fun layer => net.Gathers layer.1) layer (some (T ∪ M.getD ∅)) := by
  have hlayer := Build.gathers_weightedLayer hconstants.one.gathers hconstants.zero.gathers hn
    hmask settings.share
  have hweighted : Notes scope (do build (Build.weightedLayer (← constants) n mask settings.share))
      ctx [] fun n net => net.Gathers n (T ∪ M.getD ∅) :=
    Adds.unnoted (adds_constants_bind (gathers_build hlayer)) fun _ => rfl
  have hrest (n : NodeId) (later : Context α) (hn : later.network.Gathers n (T ∪ M.getD ∅)) :
      Notes scope (do
        let blend ← if bottom then pure .replace else blendTypeFor scope settings.blendMode
        return some (n, blend)) later [] fun layer net =>
          Option.Rel (fun layer => net.Gathers layer.1) layer (some (T ∪ M.getD ∅)) := by
    cases bottom with
    | true => exact notes_pure (.some hn)
    | false =>
      refine ((adds_blendTypeFor scope settings).unnoted (unnoted_blendTypeFor scope _)).andThen
        fun blend last hlast _ => ?_
      exact notes_pure (.some (hn.extends hlast.network))
  exact hweighted.andThen fun n later _ hn => hrest n later hn

mutual

/-- Compiling a source notes its bitmaps in their order, and the node reads those that are left. -/
theorem describes_compileSource {ctx : Context α} (hstart : start.HasConstants)
    (h : start.Grows ctx) (scope : Scope) (source : Source α) :
    Describes start scope (compileSource scope source) ctx source.bitmaps? := by
  cases source with
  | texture source => exact describes_texture hstart h scope source
  | color shade =>
    have hcolor : Notes scope (color shade) ctx [] fun n net =>
        net.Gathers n (texturesRead start scope []) := by
      rw [texturesRead_nil]
      exact (gathers_color ctx shade).unnoted (unnoted_orColor none shade)
    exact notes_some hcolor
  | product first second settings =>
    set xs := if settings.firstEnabled then Source.optionalBitmaps? first else none with hxs
    set ys := if settings.secondEnabled then Source.optionalBitmaps? second else none with hys
    have hsecond {ctx : Context α} (h : start.Grows ctx) {a : NodeId}
        {T : Set (TextureLookup α)} (ha : ctx.network.Gathers a T) : Notes scope (do
          let b ← if settings.secondEnabled then compileOptional scope second else pure none
          let b ← orColor b settings.secondColor
          return some (← build (Build.product a b settings.alphaFrom))) ctx
          (noted start scope (ys.getD []))
          fun n net => Option.Rel net.Gathers n
            (some (T ∪ (ys.map (texturesRead start scope)).getD ∅)) := by
      by_cases henabled : settings.secondEnabled = true
      · simp only [hys, henabled, if_true]
        exact Notes.andThen (describes_compileOptional hstart h scope second)
          fun b later hlater hb => notes_product scope settings (ha.extends hlater.network) hb
      · simp only [hys, henabled]
        exact notes_product scope settings ha .none
    have hfirst {ctx : Context α} (h : start.Grows ctx) {a : Option NodeId}
        (ha : Option.Rel ctx.network.Gathers a (xs.map (texturesRead start scope))) :
        Notes scope (do
          let a ← orColor a settings.firstColor
          let b ← if settings.secondEnabled then compileOptional scope second else pure none
          let b ← orColor b settings.secondColor
          return some (← build (Build.product a b settings.alphaFrom))) ctx
          (noted start scope (ys.getD []))
          fun n net => Option.Rel net.Gathers n
            (some (texturesRead start scope (xs.getD [] ++ ys.getD []))) := by
      rw [texturesRead_append, texturesRead_getD, texturesRead_getD]
      exact ((gathers_orColor ha settings.firstColor).unnoted (unnoted_orColor a _)).bind
        fun a later hlater ha => hsecond (h.trans hlater) ha
    unfold Describes compileSource Source.bitmaps?
    rw [← hxs, ← hys, Option.getD_some, noted_append]
    by_cases henabled : settings.firstEnabled = true
    · simp only [hxs, henabled, if_true] at hfirst ⊢
      exact Notes.bind (describes_compileOptional hstart h scope first)
        fun a later hlater ha => hfirst (h.trans hlater) ha
    · simp only [hxs, henabled] at hfirst ⊢
      exact hfirst h .none
  | tint source columns =>
    have htint := (describes_compileOptional hstart h scope source).bind (g := id) (fun _ => rfl)
      fun n ys later _ hn =>
        notes_some ((gathers_tint hn columns).unnoted (unnoted_tint n columns))
    rwa [Option.map_id] at htint
  | composite layers =>
    have hblend := Notes.andThen (notes_compileLayers hstart h scope 0 true layers)
      fun entries later _ hentries =>
        (gathers_blendLayers scope hentries).unnoted (unnoted_blendLayers scope entries)
    unfold Describes Source.bitmaps?
    rw [← texturesRead_flatten] at hblend
    cases hlayers : Layer.listBitmaps layers with
    | nil =>
      rw [hlayers] at hblend
      exact hblend
    | cons xs xss =>
      rw [hlayers] at hblend
      exact hblend
  | correction source params =>
    refine (describes_compileOptional hstart h scope source).bind
      (fun ys => noted_passOn start scope ys params) fun n ys later hlater hn => ?_
    rw [texturesRead_passOn]
    exact notes_some ((gathers_correct ((h.trans hlater).hasConstants hstart) scope hn
      params).unnoted (unnoted_correct scope n params))
  | unsupported className description | unknown className =>
    exact ((adds_warn ctx _).unnoted fun _ => rfl).andThen fun _ _ _ _ => notes_pure .none

theorem describes_compileOptional {ctx : Context α} (hstart : start.HasConstants)
    (h : start.Grows ctx) (scope : Scope) (source : Option (Source α)) :
    Describes start scope (compileOptional scope source) ctx
      (Source.optionalBitmaps? source) := by
  cases source with
  | some source => exact describes_compileSource hstart h scope source
  | none => exact notes_pure .none

theorem notes_compileLayer {ctx : Context α} (hstart : start.HasConstants)
    (h : start.Grows ctx) (scope : Scope) (index : Nat) (bottom : Bool) (layer : Layer α) :
    Notes scope (compileLayer scope index bottom layer) ctx
      (noted start scope (layer.bitmaps?.getD [])) fun entry net =>
        Option.Rel (fun entry => net.Gathers entry.1) entry
          (layer.bitmaps?.map (texturesRead start scope)) := by
  cases layer with
  | mk source mask settings =>
    unfold compileLayer Layer.bitmaps?
    by_cases henabled : settings.enabled = true
    · simp only [henabled, if_true]
      have hsource : Describes start scope (compileOptional scope.inner source) ctx
          (Source.optionalBitmaps? source) := describes_compileOptional hstart h scope.inner source
      unfold Describes at hsource
      generalize Source.optionalBitmaps? source = xs at hsource ⊢
      cases xs with
      | none =>
        refine hsource.andThen fun compiled later _ hcompiled => ?_
        cases hcompiled
        dsimp only
        split
        · exact ((adds_warn later _).unnoted fun _ => rfl).andThen fun _ _ _ _ => notes_pure .none
        · exact notes_pure .none
      | some xs =>
        rw [Option.map_some, Option.getD_some, Option.map_some, noted_append, texturesRead_append,
          texturesRead_getD]
        refine hsource.bind fun compiled later hlater hcompiled => ?_
        cases hcompiled with
        | @some n _ hn =>
          have hmid := h.trans hlater
          by_cases hmask : settings.maskEnabled = true
          · simp only [hmask, if_true]
            have hcompile : Describes start scope (compileOptional scope.inner mask) later
                (Source.optionalBitmaps? mask) :=
              describes_compileOptional hstart hmid scope.inner mask
            exact Notes.andThen hcompile fun mask last hlast hmask =>
              notes_weighted ((hmid.trans hlast).hasConstants hstart) scope bottom settings
                (hn.extends hlast.network) hmask
          · simp only [hmask]
            exact notes_weighted (hmid.hasConstants hstart) scope bottom settings hn .none
    · simp only [henabled]
      exact ((adds_debug ctx _).unnoted fun _ => rfl).andThen fun _ _ _ _ => notes_pure .none

theorem notes_compileLayers {ctx : Context α} (hstart : start.HasConstants)
    (h : start.Grows ctx) (scope : Scope) (index : Nat) (bottom : Bool)
    (layers : List (Layer α)) :
    Notes scope (compileLayers scope index bottom layers) ctx
      (noted start scope (Layer.listBitmaps layers).flatten) fun entries net =>
        List.Forall₂ (fun entry => net.Gathers entry.1) entries
          ((Layer.listBitmaps layers).map (texturesRead start scope)) := by
  cases layers with
  | nil => exact notes_pure .nil
  | cons layer layers =>
    have hlayer := notes_compileLayer hstart h scope index bottom layer
    unfold Layer.listBitmaps
    cases hbitmaps : layer.bitmaps? with
    | none =>
      rw [hbitmaps] at hlayer
      refine hlayer.bind fun entry later hlater hentry => ?_
      cases hentry
      exact notes_compileLayers hstart (h.trans hlater) scope (index + 1) bottom layers
    | some xs =>
      rw [hbitmaps] at hlayer
      rw [List.flatten_cons, noted_append, List.map_cons]
      refine hlayer.bind fun entry later hlater hentry => ?_
      cases hentry with
      | some hentry =>
        refine (notes_compileLayers hstart (h.trans hlater) scope (index + 1) false layers).andThen
          fun entries last hlast hentries => ?_
        exact notes_pure (.cons (hentry.extends hlast.network) hentries)

end

end Compile

end ShadeGraph
