import ShadeGraph.Proofs.Meaning.NotedTextures

/-!
# Overrides and their channels

What a channel is compiled to depends on the overrides that were registered only through the first
one of each table for this channel. They also tell where the exit of the channel comes from, and
which coordinates its textures are read at.
-/

namespace ShadeGraph

variable {α β : Type}

namespace ChannelOverride

def color? : ChannelOverride α → Option (Shade α)
  | color shade => some shade
  | _ => none

def file? : ChannelOverride α → Option (TextureFile α)
  | texture file => some file
  | _ => none

def mapping? : ChannelOverride α → Option (Value α)
  | mapping channel => some channel
  | _ => none

end ChannelOverride

/-- Overrides in the order in which they are registered. -/
abbrev Registrations (α : Type) := List (ChannelKey α × ChannelOverride α)

variable [Scalar α]

/-- The first override of a kind for a channel. -/
def Registrations.first? (calls : Registrations α) (kind? : ChannelOverride α → Option β)
    (key : ChannelKey α) : Option β :=
  calls.findSome? fun call => if call.1.label.same key.label then kind? call.2 else none

/-- In every table, the first override for the channel is the same. -/
structure Registrations.AgreeAt (key : ChannelKey α) (calls others : Registrations α) : Prop where
  colors : calls.first? ChannelOverride.color? key = others.first? ChannelOverride.color? key
  files : calls.first? ChannelOverride.file? key = others.first? ChannelOverride.file? key
  mappings : calls.first? ChannelOverride.mapping? key = others.first? ChannelOverride.mapping? key

/-! ### Tables -/

/-- Nothing but the names of a channel counts as them. -/
theorem Scope.eq_of_same_key {key : ChannelKey α} {scope : Scope}
    (h : key.label.same (scope.key (α := α)).label) : key = scope.key := by
  obtain ⟨material, channel⟩ := key
  obtain ⟨hmaterial, hchannel⟩ : material.same (.text scope.material) = true ∧
      channel.same (.text scope.channel) = true := by
    simpa [ChannelKey.label, key, Value.same, Value.sameItems] using h
  rw [Value.eq_of_same_text hmaterial, Value.eq_of_same_text hchannel, Scope.key]

namespace Overrides

theorem add_of_holds {overrides : Overrides α} {key : ChannelKey α} {entry : ChannelOverride α}
    (h : overrides.holds key entry) : overrides.add key entry = overrides := by
  cases entry <;> simp only [add, LabelTable.insertIfNew_of_contains h]

/-- The tables after all these were registered. -/
def addAll (overrides : Overrides α) (calls : Registrations α) : Overrides α :=
  calls.foldl (fun overrides call => overrides.add call.1 call.2) overrides

/-- A table is that of the overrides of a kind. -/
structure Collects (table : Overrides α → LabelTable α β) (kind? : ChannelOverride α → Option β) :
    Prop where
  empty : table {} = []
  add (overrides : Overrides α) (key : ChannelKey α) (entry : ChannelOverride α) :
    table (overrides.add key entry) =
      (kind? entry).elim (table overrides) ((table overrides).insertIfNew key.label)

theorem collects_colors : Collects (colors (α := α)) ChannelOverride.color? :=
  ⟨rfl, by rintro _ _ (_ | _ | _) <;> rfl⟩

theorem collects_textures : Collects (textures (α := α)) ChannelOverride.file? :=
  ⟨rfl, by rintro _ _ (_ | _ | _) <;> rfl⟩

theorem collects_mappings : Collects (mappings (α := α)) ChannelOverride.mapping? :=
  ⟨rfl, by rintro _ _ (_ | _ | _) <;> rfl⟩

variable {table : Overrides α → LabelTable α β} {kind? : ChannelOverride α → Option β}

/-- The table of a kind has its first override for every channel. -/
theorem Collects.get?_addAll (h : Collects table kind?)
    (scope : Scope) (calls : Registrations α) (overrides : Overrides α) :
    (table (overrides.addAll calls)).get? scope.key.label =
      ((table overrides).get? scope.key.label <|> calls.first? kind? scope.key) := by
  induction calls generalizing overrides with
  | nil => simp [addAll, Registrations.first?]
  | cons call calls ih =>
    have hstep : (table (overrides.add call.1 call.2)).get? scope.key.label =
        ((table overrides).get? scope.key.label <|>
          if call.1.label.same (scope.key (α := α)).label then kind? call.2 else none) := by
      rw [h.add]
      cases kind? call.2 with
      | none => simp
      | some value =>
        exact LabelTable.get?_insertIfNew (fun h => congrArg _ (Scope.eq_of_same_key h)) _ _
    have hfirst : Registrations.first? (call :: calls) kind? scope.key =
        ((if call.1.label.same (scope.key (α := α)).label then kind? call.2 else none) <|>
          Registrations.first? calls kind? scope.key) := by
      unfold Registrations.first?
      rw [List.findSome?_cons]
      split <;> simp_all
    rw [hfirst]
    exact (ih _).trans (by rw [hstep]; simp [Option.or_assoc])

end Overrides

/-! ### Registering -/

namespace Compile

/-- Registers overrides, one after the other. -/
def registerAll (calls : Registrations α) : Compile α PUnit :=
  calls.forM fun (key, entry) => discard (override key entry)

theorem exists_run_override (key : ChannelKey α) (entry : ChannelOverride α) (ctx : Context α) :
    ∃ isFirst f, (override key entry).run.run ctx =
      (.ok isFirst, { ctx with overrides := ctx.overrides.add key entry }.log f) := by
  unfold override
  rw [run_get_bind]
  split
  · rename_i h
    rw [Overrides.add_of_holds h]
    exact ⟨false, _, rfl⟩
  · exact ⟨true, id, rfl⟩

/-- Registering overrides never fails and changes nothing but their tables. -/
theorem exists_run_registerAll (calls : Registrations α) (ctx : Context α) :
    ∃ f, (registerAll calls).run.run ctx =
      (.ok ⟨⟩, { ctx with overrides := ctx.overrides.addAll calls }.log f) := by
  induction calls generalizing ctx with
  | nil => exact ⟨id, rfl⟩
  | cons call calls ih =>
    obtain ⟨isFirst, f, hcall⟩ := exists_run_override call.1 call.2 ctx
    have hdiscard : (discard (override call.1 call.2)).run.run ctx =
        (.ok ⟨⟩, { ctx with overrides := ctx.overrides.add call.1 call.2 }.log f) :=
      run_bind_of_ok hcall _
    obtain ⟨g, hcalls⟩ := ih ({ ctx with overrides := ctx.overrides.add call.1 call.2 }.log f)
    exact ⟨g ∘ f, (run_bind_of_ok hdiscard _).trans hcalls⟩

end Compile

/-- A session in which these overrides were registered. -/
def Context.registering (ctx : Context α) (calls : Registrations α) : Context α :=
  ((Compile.registerAll calls).run.run ctx).2

namespace Compile

theorem exists_registering (calls : Registrations α) (ctx : Context α) :
    ∃ f, ctx.registering calls = { ctx with overrides := ctx.overrides.addAll calls }.log f := by
  obtain ⟨f, hf⟩ := exists_run_registerAll calls ctx
  exact ⟨f, congrArg Prod.snd hf⟩

/-- Two sessions that differ at most in what they have printed and in the overrides of channels other
than this one. -/
structure SameAt (key : ChannelKey α) (a b : Context α) : Prop where
  options : a.options = b.options
  network : a.network = b.network
  constants : a.constants = b.constants
  proxies : a.proxies = b.proxies
  usage : a.usage = b.usage
  warnings : a.warnings = b.warnings
  colors : a.overrides.colors.get? key.label = b.overrides.colors.get? key.label
  textures : a.overrides.textures.get? key.label = b.overrides.textures.get? key.label
  mappings : a.overrides.mappings.get? key.label = b.overrides.mappings.get? key.label

theorem lockstep_sameAt (key : ChannelKey α) : Lockstep (fun _ => True) (SameAt key) where
  log h _ _ := { h with }
  warn h _ := { h with warnings := by simp [Context.warn, Context.report, Context.log, h.warnings] }
  constants h := ⟨h.constants, trivial, trivial⟩
  insert h node _ _ _ :=
    ⟨congrArg _ h.network, trivial, { h with network := congrArg (·.insert node) h.network }⟩

theorem readAlike_sameAt (key : ChannelKey α) : ReadAlike key (SameAt key) where
  options h := h.options
  colors h := h.colors
  textures h := h.textures
  mappings h := h.mappings

theorem notesAbreast_sameAt (key : ChannelKey α) : NotesAbreast (SameAt key) :=
  fun _ _ h scope path mapping =>
    { h with usage := congrArg (·.addTexture (.text scope.material) (.text scope.channel)
        (.text path) mapping) h.usage }

theorem abreast_build_sameAt (key : ChannelKey α) (step : Build α β) :
    Abreast (SameAt key) (build step) fun _ => True := by
  intro a b h
  refine ⟨.ok (step.run a.network).1, { a with network := (step.run a.network).2 },
    { b with network := (step.run a.network).2 }, rfl, ?_, { h with network := rfl },
    fun _ _ => trivial⟩
  rw [h.network]
  rfl

/-- In such sessions the channel is compiled to the same. -/
theorem abreast_compileChannel_sameAt (material : String) (d : ChannelDescriptor α) :
    Abreast (SameAt (Scope.ofChannel material d.name).key) (compileChannel material d)
      fun _ => True := by
  have hlockstep := lockstep_sameAt (Scope.ofChannel material d.name).key (α := α)
  have hread := readAlike_sameAt (Scope.ofChannel material d.name).key (α := α)
  have hnotes := notesAbreast_sameAt (Scope.ofChannel material d.name).key (α := α)
  have hbound := hlockstep.texturesAbreast hread hnotes fun a b h lookup => by
    rw [h.proxies]
    exact abreast_build_sameAt _ _
  exact (hlockstep.abreast_compileChannel hread hnotes
    (fun _ _ _ _ _ => abreast_build_sameAt _ _) fun _ _ _ _ => hbound).mono fun _ _ => trivial

variable {ctx later : Context α} {material : String} {d : ChannelDescriptor α}
  {calls others : Registrations α}

/-! ### After registering -/

theorem get?_registering {table : Overrides α → LabelTable α β}
    {kind? : ChannelOverride α → Option β} (h : Overrides.Collects table kind?)
    (hempty : ctx.overrides = {}) (calls : Registrations α) (scope : Scope) :
    (table (ctx.registering calls).overrides).get? scope.key.label =
      calls.first? kind? scope.key := by
  obtain ⟨f, hf⟩ := exists_registering calls ctx
  rw [hf]
  refine (h.get?_addAll scope calls ctx.overrides).trans ?_
  rw [hempty, h.empty]
  rfl

theorem sameAt_registering (hempty : ctx.overrides = {}) {scope : Scope}
    (h : calls.AgreeAt scope.key others) :
    SameAt scope.key (ctx.registering calls) (ctx.registering others) := by
  have hcolors := (get?_registering Overrides.collects_colors hempty calls scope).trans
    (h.colors.trans (get?_registering Overrides.collects_colors hempty others scope).symm)
  have htextures := (get?_registering Overrides.collects_textures hempty calls scope).trans
    (h.files.trans (get?_registering Overrides.collects_textures hempty others scope).symm)
  have hmappings := (get?_registering Overrides.collects_mappings hempty calls scope).trans
    (h.mappings.trans (get?_registering Overrides.collects_mappings hempty others scope).symm)
  obtain ⟨f, hf⟩ := exists_registering calls ctx
  obtain ⟨g, hg⟩ := exists_registering others ctx
  rw [hf, hg] at hcolors htextures hmappings ⊢
  exact ⟨rfl, rfl, rfl, rfl, rfl, rfl, hcolors, htextures, hmappings⟩

/-! ### Exits -/

/-- Where a channel has its exit from. What replaces it is a color, or a file that is the only one
its network reads; otherwise it is the node of its source, or a flat color if this has none. -/
inductive ExitFrom (ctx later : Context α) (scope : Scope) (exit : NodeId) :
    Option (ChannelOverride α) → Option (Source α) → Prop
  | color {shade : Shade α} {source : Option (Source α)} {value : Rgba α}
      (hshade : shade.toRgba 1.0 = .ok value) (hexit : later.network.HasColor exit value) :
      ExitFrom ctx later scope exit (some (.color shade)) source
  | file {file : TextureFile α} {source : Option (Source α)}
      (hexit : later.network.texturesBelow exit = {(file.inChannel ctx scope).lookup}) :
      ExitFrom ctx later scope exit (some (.texture file)) source
  | source {source : Source α}
      (hrun : (compileSource scope source).run.run ctx = (.ok (some exit), later)) :
      ExitFrom ctx later scope exit none (some source)
  | fallback {source : Source α} {before : Context α}
      (hrun : (compileSource scope source).run.run ctx = (.ok none, before))
      (hexit : later.network.HasColor exit (Channel.fallback scope.channel)) :
      ExitFrom ctx later scope exit none (some source)

omit [Scalar α] in
theorem ends_value (value : Rgba α) {E : CompileError → Prop} :
    Ends (build (Build.color value)) ctx (fun n later => later.network.HasColor n value) E :=
  ends_of_run_ok rfl ⟨"", Network.get?_insert_size _ (by simp)⟩

theorem ends_shade (shade : Shade α) : Ends (color shade) ctx
    (fun n later => ∃ value, shade.toRgba 1.0 = .ok value ∧ later.network.HasColor n value)
    fun _ => True := by
  unfold color
  cases shade.toRgba 1.0 with
  | ok value => exact (ends_value value).mono (fun _ _ h => ⟨value, rfl, h⟩) fun _ => id
  | error e => exact ends_of_run_error rfl trivial

theorem ends_replacementNode_exitFrom (hconstants : ctx.HasConstants) {o : ChannelOverride α}
    (h : d.replacement? ctx material = some o) (source : Option (Source α)) :
    Ends (replacementNode (Scope.ofChannel material d.name) o) ctx (fun exit later =>
      ExitFrom ctx later (Scope.ofChannel material d.name) exit (some o) source) fun _ => True := by
  cases o with
  | color shade =>
    refine (ends_trivial (debug _) ctx).bind fun _ _ _ => ?_
    exact (ends_shade shade).mono (fun _ _ ⟨_, hshade, hexit⟩ => .color hshade hexit) fun _ => id
  | texture file =>
    refine Ends.mono (notes_replacementNode hconstants h) ?_ fun _ => id
    rintro exit later ⟨-, hgathers⟩
    rw [textures_of_file h, read_singleton _ rfl] at hgathers
    exact .file hgathers.eq
  | mapping channel => exact ends_of_run_error rfl trivial

theorem ends_sourceNode_exitFrom (scope : Scope) (source : Source α) :
    Ends (sourceNode scope source) ctx (fun exit later =>
      ExitFrom ctx later scope exit none (some source)) fun _ => True := by
  have hsource : Ends (compileSource scope source) ctx
      (fun n later => (compileSource scope source).run.run ctx = (.ok n, later)) fun _ => True :=
    ⟨id, fun _ => trivial⟩
  refine hsource.bind fun n later hrun => ?_
  cases n with
  | some n => exact ends_pure (.source hrun)
  | none =>
    exact (ends_value (Channel.fallback scope.channel)).mono (fun _ _ => .fallback hrun) fun _ => id

theorem ends_compileChannel_exitFrom (hconstants : ctx.HasConstants) :
    Ends (compileChannel material d) ctx (fun n later => ∀ exit ∈ n,
      ExitFrom ctx later (Scope.ofChannel material d.name) exit (d.replacement? ctx material)
        d.source) fun _ => True := by
  have hsome {p : Compile α NodeId} {Q : NodeId → Context α → Prop}
      (h : Ends p ctx Q fun _ => True) : Ends (do return some (← p)) ctx
        (fun n later => ∀ exit ∈ n, Q exit later) fun _ => True :=
    h.bind fun n later hn => ends_pure (by simpa using hn)
  rw [compileChannel_eq]
  refine Ends.congr ?_ (run_get_bind _ ctx)
  cases h : d.replacement? ctx material with
  | some o => exact hsome (ends_replacementNode_exitFrom hconstants h d.source)
  | none =>
    cases d.source with
    | none => exact ends_pure (by simp)
    | some source => exact hsome (ends_sourceNode_exitFrom _ source)

/-! ### Coordinates -/

theorem mapping_of_mem_textures {t : ChannelTexture α} (ht : t ∈ d.textures ctx material) :
    ∃ own, t.note.mapping = ctx.mappingChannel (Scope.ofChannel material d.name) own := by
  unfold ChannelDescriptor.textures at ht
  dsimp only at ht
  split at ht
  · obtain rfl := List.mem_singleton.mp ht
    exact ⟨none, rfl⟩
  · cases ht
  · obtain ⟨b, -, rfl⟩ := List.mem_map.mp ht
    exact ⟨b.1.mappingChannel, rfl⟩

/-- Without proxies, all textures of a channel are read at the coordinates that are set for it. -/
theorem uvSet_of_mapping {exit : NodeId} {mapping : Value α} (hconstants : ctx.HasConstants)
    (hproxies : ctx.proxies = {}) (hmapping : ctx.overrides.mappings.get?
      (Scope.ofChannel material d.name).key.label = some mapping)
    (hrun : (compileChannel material d).run.run ctx = (.ok (some exit), later))
    {lookup : TextureLookup α} (hlookup : lookup ∈ later.network.texturesBelow exit) :
    lookup.uvSet = .text mapping.display := by
  rw [(((notes_compileChannel hconstants material d).ok hrun).2 exit rfl).eq] at hlookup
  obtain ⟨t, ht, -, rfl⟩ := hlookup
  have hkeeps (name : String) : KeepsCoordinates ctx name := by
    intro proxy hproxy
    rw [hproxies] at hproxy
    cases hproxy
  obtain ⟨own, hown⟩ := mapping_of_mem_textures ht
  have hchannel : ctx.mappingChannel (Scope.ofChannel material d.name) own = mapping := by
    rw [Context.mappingChannel, hmapping]
    rfl
  rw [(mem_textures ht).2 (hkeeps _), hown, hchannel]

/-- Overrides act on their own channel, and the first one of each table counts. After two series of
registrations that start with the same override for a channel in each table, the channel is compiled
to the same node of the same network, or ends in the same error, with the same warnings and notes.
The exit comes from the override of the descriptor, or else the first color if these are in use, or
else the first file, or else the source. Without proxies, the first mapping channel tells the
coordinates of every texture node. -/
theorem compileChannel_registering {result : Except CompileError (Option NodeId)}
    (hconstants : ctx.HasConstants) (hempty : ctx.overrides = {})
    (hagree : calls.AgreeAt (Scope.ofChannel material d.name).key others)
    (hrun : (compileChannel material d).run.run (ctx.registering calls) = (result, later)) :
    (∃ later', (compileChannel material d).run.run (ctx.registering others) = (result, later') ∧
      later'.network = later.network ∧ later'.warnings = later.warnings ∧
      later'.usage = later.usage) ∧
    ∀ exit, result = .ok (some exit) →
      ExitFrom (ctx.registering calls) later (Scope.ofChannel material d.name) exit
        (d.override <|>
          (if ctx.options.useColorOverrides then
            (calls.first? ChannelOverride.color? (Scope.ofChannel material d.name).key).map .color
          else none) <|>
          (calls.first? ChannelOverride.file? (Scope.ofChannel material d.name).key).map .texture)
        d.source ∧
      ∀ mapping, ctx.proxies = {} →
        calls.first? ChannelOverride.mapping? (Scope.ofChannel material d.name).key =
          some mapping →
        ∀ id node lookup, later.network.Below exit id → later.network.get? id = some node →
          node.operation = .texture lookup → lookup.uvSet = .text mapping.display := by
  constructor
  · obtain ⟨_, _, later', hcalls, hothers, hsame, -⟩ := abreast_compileChannel_sameAt material d
      _ _ (sameAt_registering hempty hagree)
    cases hrun.symm.trans hcalls
    exact ⟨later', hothers, hsame.network.symm, hsame.warnings.symm, hsame.usage.symm⟩
  rintro exit rfl
  have hcolors := get?_registering Overrides.collects_colors hempty calls
    (Scope.ofChannel material d.name)
  have hfiles := get?_registering Overrides.collects_textures hempty calls
    (Scope.ofChannel material d.name)
  have hmappings := get?_registering Overrides.collects_mappings hempty calls
    (Scope.ofChannel material d.name)
  obtain ⟨f, hf⟩ := exists_registering calls ctx
  have hconstants' : (ctx.registering calls).HasConstants := by
    rw [hf]
    exact ⟨hconstants.one, hconstants.zero⟩
  have hoptions : (ctx.registering calls).options = ctx.options := by
    rw [hf]
    rfl
  constructor
  · have hexit := (ends_compileChannel_exitFrom hconstants').ok hrun exit rfl
    rwa [ChannelDescriptor.replacement?, Overrides.find?, hcolors, hfiles, hoptions] at hexit
  · intro mapping hproxies hfirst id node lookup hid hnode hoperation
    have hnone : (ctx.registering calls).proxies = {} := by
      rw [hf]
      exact hproxies
    exact uvSet_of_mapping hconstants' hnone (hmappings.trans hfirst) hrun
      ⟨id, node, hid, hnode, hoperation⟩

/-- A mapping channel for one channel of a material. -/
def moved : Registrations ℚ := [(⟨.text "M", .text "base_color"⟩, .mapping (.integer 3))]

/-- The same one, between a color for another channel and a mapping channel that comes too late. -/
def movedTwice : Registrations ℚ :=
  [(⟨.text "M", .text "refl_color"⟩, .color (.gray 1)),
    (⟨.text "M", .text "base_color"⟩, .mapping (.integer 3)),
    (⟨.text "M", .text "base_color"⟩, .mapping (.integer 5))]

/-- Wood and its mask are both read at the mapping channel that came first. -/
theorem compileChannel_registering_moved :
    exactFresh.HasConstants ∧ exactFresh.overrides = {} ∧
    movedTwice.AgreeAt (Scope.ofChannel "M" "base_color").key moved ∧
    ∃ exit later later',
      (compileChannel "M" maskedFloor).run.run (exactFresh.registering movedTwice) =
        (.ok (some exit), later) ∧
      (compileChannel "M" maskedFloor).run.run (exactFresh.registering moved) =
        (.ok (some exit), later') ∧
      later'.network = later.network ∧
      ∀ id node lookup, later.network.Below exit id → later.network.get? id = some node →
        node.operation = .texture lookup → lookup.uvSet = .text "3" := by
  have hagree : movedTwice.AgreeAt (Scope.ofChannel "M" "base_color").key moved :=
    ⟨by decide +kernel, by decide +kernel, by decide +kernel⟩
  have hexit : ((compileChannel "M" maskedFloor).run.run
      (exactFresh.registering movedTwice)).1 = .ok (some 18) := by
    decide +kernel
  obtain ⟨later, hrun, -⟩ := exists_run_of_fst hexit
  obtain ⟨⟨later', hrun', hnetwork, -⟩, hread⟩ :=
    compileChannel_registering hasConstants_exactFresh rfl hagree hrun
  exact ⟨hasConstants_exactFresh, rfl, hagree, 18, later, later', hrun, hrun', hnetwork,
    (hread 18 rfl).2 (.integer 3) rfl (by decide +kernel)⟩

end Compile

end ShadeGraph
