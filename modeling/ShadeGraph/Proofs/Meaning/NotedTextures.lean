import ShadeGraph.Proofs.Compile.Completion
import ShadeGraph.Proofs.Composite.Shown
import ShadeGraph.Proofs.Meaning.Bitmaps
import ShadeGraph.Proofs.Meaning.Tiling

/-!
# What is noted of a channel

A session notes the file and the coordinates of the first texture that is bound for a channel. The
network of the channel reads this texture unless it lies below a custom rewiring of constants, and
it reads it at the noted coordinates unless a proxy has set others. Where nothing is noted, the
network reads no texture at all.
-/

namespace ShadeGraph

variable {α : Type} [Scalar α]

/-- A texture that is bound for a channel: what is noted of it, how it is looked up, and whether the
network still reads it. -/
structure ChannelTexture (α : Type) where
  note : BoundTexture α
  lookup : TextureLookup α
  isRead : Bool

/-- A bitmap as the texture of a channel. -/
def TextureSource.inChannel (source : TextureSource α) (ctx : Context α) (scope : Scope)
    (isRead : Bool) : ChannelTexture α where
  note := ⟨.text (source.path.getD ""), ctx.mappingChannel scope source.mappingChannel⟩
  lookup := (Compile.bound ctx scope source).toTextureLookup.settled
  isRead := isRead

/-- The texture that replaces a channel. -/
def TextureFile.inChannel (file : TextureFile α) (ctx : Context α) (scope : Scope) :
    ChannelTexture α where
  note := ⟨.text file.path, ctx.mappingChannel scope none⟩
  lookup := (TextureLookup.plain (Identity.cleanName (Text.fileStem file.path)) file.path
    (ctx.mappingChannel scope none) file.srgb).settled
  isRead := true

/-- The textures that are bound for a channel, in this order. -/
def ChannelDescriptor.textures (d : ChannelDescriptor α) (ctx : Context α) (material : String) :
    List (ChannelTexture α) :=
  let scope := Scope.ofChannel material d.name
  match d.replacement? ctx material with
  | some (.texture file) => [file.inChannel ctx scope]
  | some _ => []
  | none => ((d.source.bind Source.bitmaps?).getD []).map fun b => b.1.inChannel ctx scope b.2

/-- The textures that the network still reads. -/
def ChannelTexture.read (textures : List (ChannelTexture α)) : Set (TextureLookup α) :=
  { lookup | ∃ t ∈ textures, t.isRead = true ∧ t.lookup = lookup }

namespace Compile

variable {ctx later : Context α} {material : String} {d : ChannelDescriptor α}

theorem notes_overrideTexture (hconstants : ctx.HasConstants) (scope : Scope)
    (file : TextureFile α) : Notes scope (overrideTexture scope file) ctx
      [(file.inChannel ctx scope).note] fun n net =>
        net.Gathers n {(file.inChannel ctx scope).lookup} := by
  have hnote : Notes scope (note (·.addTexture (.text scope.material) (.text scope.channel)
      (.text file.path) (ctx.mappingChannel scope none))) ctx [(file.inChannel ctx scope).note]
      fun _ _ => True := by
    have hgrows : ctx.Grows
        (noteTexture scope file.path (ctx.mappingChannel scope none) ctx) :=
      ⟨⟨rfl, rfl, rfl, rfl, rfl, rfl, rfl, List.prefix_rfl⟩, .refl _⟩
    have hnoted := ctx.usage.textures_addTexture scope.material scope.channel
      (.text file.path) (ctx.mappingChannel scope none)
    exact ends_of_run_ok rfl ⟨⟨hgrows, hnoted⟩, trivial⟩
  refine notes_bind_of_run rfl (hnote.andThen fun _ later hgrows _ => ?_)
  exact notes_compileTexture (hgrows.hasConstants hconstants) scope _

omit [Scalar α] in
theorem read_singleton (t : ChannelTexture α) (h : t.isRead = true) :
    ChannelTexture.read [t] = {t.lookup} := by
  ext lookup
  simp only [ChannelTexture.read, List.mem_singleton, Set.mem_ofPred_eq, exists_eq_left, h,
    true_and, Set.mem_singleton_iff]
  exact eq_comm

theorem read_inChannel (ctx : Context α) (scope : Scope) (bitmaps : Bitmaps α) :
    ChannelTexture.read (bitmaps.map fun b => b.1.inChannel ctx scope b.2) =
      texturesRead ctx scope bitmaps := by
  ext lookup
  constructor
  · rintro ⟨t, ht, hread, rfl⟩
    obtain ⟨⟨source, isRead⟩, hmem, rfl⟩ := List.mem_map.mp ht
    obtain rfl : isRead = true := hread
    exact ⟨source, hmem, rfl⟩
  · rintro ⟨source, hmem, rfl⟩
    exact ⟨_, List.mem_map_of_mem hmem, rfl, rfl⟩

theorem textures_of_file {file : TextureFile α}
    (h : d.replacement? ctx material = some (.texture file)) :
    d.textures ctx material = [file.inChannel ctx (Scope.ofChannel material d.name)] := by
  rw [ChannelDescriptor.textures, h]

theorem notes_replacementNode (hconstants : ctx.HasConstants) {o : ChannelOverride α}
    (h : d.replacement? ctx material = some o) :
    Notes (Scope.ofChannel material d.name)
      (replacementNode (Scope.ofChannel material d.name) o) ctx
      ((d.textures ctx material).map (·.note)) fun n net =>
        net.Gathers n (ChannelTexture.read (d.textures ctx material)) := by
  have hdebug (text : String) :
      Notes (Scope.ofChannel material d.name) (debug text) ctx [] fun _ _ => True :=
    (adds_debug ctx text).unnoted fun _ => rfl
  cases o with
  | color shade =>
    have htextures : d.textures ctx material = [] := by rw [ChannelDescriptor.textures, h]
    have hread : ChannelTexture.read (d.textures ctx material) = ∅ := by
      simp [htextures, ChannelTexture.read]
    rw [hread, htextures]
    refine (hdebug _).andThen fun _ later _ _ => ?_
    exact (gathers_color later shade).unnoted (unnoted_orColor none shade)
  | texture file =>
    rw [textures_of_file h, read_singleton _ rfl]
    refine (hdebug _).bind fun _ later hgrows _ => ?_
    have hsame : file.inChannel ctx (Scope.ofChannel material d.name) =
        file.inChannel later (Scope.ofChannel material d.name) := by
      simp only [TextureFile.inChannel, mappingChannel_of_continues hgrows.toContinues]
    rw [hsame]
    exact notes_overrideTexture (hgrows.hasConstants hconstants) _ file
  | mapping channel => exact ends_of_run_error rfl trivial

theorem notes_sourceNode (hconstants : ctx.HasConstants) (scope : Scope) (source : Source α) :
    Notes scope (sourceNode scope source) ctx (noted ctx scope (source.bitmaps?.getD []))
      fun n net => net.Gathers n (texturesRead ctx scope (source.bitmaps?.getD [])) := by
  have hsource := describes_compileSource hconstants (.refl ctx) scope source
  rw [texturesRead_getD]
  refine Notes.andThen hsource fun n later _ hn => ?_
  generalize source.bitmaps?.map (texturesRead ctx scope) = T at hn ⊢
  cases hn with
  | some hn => exact notes_pure hn
  | none => exact Adds.unnoted (gathers_build (Build.gathers_color _)) fun _ => rfl

/-- Compiling a channel notes its textures, and the network reads those that are left to read. -/
theorem notes_compileChannel (hconstants : ctx.HasConstants) (material : String)
    (d : ChannelDescriptor α) : Notes (Scope.ofChannel material d.name) (compileChannel material d)
      ctx ((d.textures ctx material).map (·.note)) fun n net =>
        ∀ i ∈ n, net.Gathers i (ChannelTexture.read (d.textures ctx material)) := by
  have hexit {p : Compile α NodeId} {notes : List (BoundTexture α)}
      {T : Set (TextureLookup α)}
      (h : Notes (Scope.ofChannel material d.name) p ctx notes fun n net => net.Gathers n T) :
      Notes (Scope.ofChannel material d.name) (do return some (← p)) ctx notes
        fun n net => ∀ i ∈ n, net.Gathers i T :=
    h.andThen fun n later _ hn => notes_pure (by simpa using hn)
  rw [compileChannel_eq]
  refine notes_bind_of_run rfl ?_
  cases h : d.replacement? ctx material with
  | some o => exact hexit (notes_replacementNode hconstants h)
  | none =>
    unfold ChannelDescriptor.textures
    rw [h]
    cases d.source with
    | none => exact notes_pure (by simp)
    | some source =>
      dsimp only [Option.bind_some]
      rw [read_inChannel, List.map_map]
      exact hexit (notes_sourceNode hconstants _ source)

/-! ### The noted texture -/

/-- No proxy for this texture sets its coordinates. -/
def KeepsCoordinates (ctx : Context α) (textureName : String) : Prop :=
  ∀ proxy, ctx.proxies.find? (.text textureName) = some proxy → proxy.uvSet = none

theorem path_inChannel (source : TextureSource α) (ctx : Context α) (scope : Scope)
    (isRead : Bool) : (source.inChannel ctx scope isRead).note.path =
      .text (source.inChannel ctx scope isRead).lookup.texturePath :=
  congrArg Value.text (bound_names ctx scope source).2.symm

theorem uvSet_inChannel {source : TextureSource α} {scope : Scope} {isRead : Bool}
    (h : KeepsCoordinates ctx (source.inChannel ctx scope isRead).lookup.textureName) :
    (source.inChannel ctx scope isRead).lookup.uvSet =
      .text (source.inChannel ctx scope isRead).note.mapping.display := by
  have happly (lookup : TextureLookup α) (h : KeepsCoordinates ctx lookup.textureName) :
      (ctx.proxies.apply lookup).uvSet = lookup.uvSet := by
    unfold ProxyTable.apply
    split
    · rename_i proxy hproxy
      rw [Proxy.apply, h proxy hproxy]
      rfl
    · rfl
  have hname : (source.inChannel ctx scope isRead).lookup.textureName =
      source.nodeName (source.path.getD "") := (bound_names ctx scope source).1
  rw [hname] at h
  unfold TextureSource.inChannel bound
  cases source.uvTransform with
  | some transform => exact happly _ h
  | none => exact happly _ h

theorem mem_textures {t : ChannelTexture α} (ht : t ∈ d.textures ctx material) :
    t.note.path = .text t.lookup.texturePath ∧
      (KeepsCoordinates ctx t.lookup.textureName →
        t.lookup.uvSet = .text t.note.mapping.display) := by
  unfold ChannelDescriptor.textures at ht
  dsimp only at ht
  split at ht
  · obtain rfl := List.mem_singleton.mp ht
    exact ⟨rfl, fun _ => rfl⟩
  · cases ht
  · obtain ⟨b, -, rfl⟩ := List.mem_map.mp ht
    exact ⟨path_inChannel _ _ _ _, uvSet_inChannel⟩

/-- What a session notes when it has noted nothing for a channel yet is the first texture that is
bound for the channel. Its network has a texture node with the noted file, unless this texture lies
below a custom rewiring of constants, and this node reads the noted coordinates, unless a proxy for
it has set others. If nothing is noted, the network has no texture nodes. -/
theorem compileChannel_noted {exit : NodeId} (hconstants : ctx.HasConstants)
    (hfresh : ctx.textureOf (Scope.ofChannel material d.name) = none)
    (hrun : (compileChannel material d).run.run ctx = (.ok (some exit), later)) :
    (∀ noted, later.textureOf (Scope.ofChannel material d.name) = some noted →
      ∃ first rest, d.textures ctx material = first :: rest ∧ first.note = noted ∧
        (first.isRead = true → ∃ id node lookup, later.network.Below exit id ∧
          later.network.get? id = some node ∧ node.operation = .texture lookup ∧
          noted.path = .text lookup.texturePath ∧
          (KeepsCoordinates ctx lookup.textureName →
            lookup.uvSet = .text noted.mapping.display))) ∧
    (later.textureOf (Scope.ofChannel material d.name) = none →
      ∀ id node, later.network.Below exit id → later.network.get? id = some node →
        node.operation.texture? = none) := by
  obtain ⟨⟨-, hnoted⟩, hgathers⟩ := (notes_compileChannel hconstants material d).ok hrun
  have hbelow := (hgathers exit rfl).eq
  rw [hfresh] at hnoted
  change _ = ((d.textures ctx material).map (·.note)).head? at hnoted
  constructor
  · intro noted hsome
    rw [hsome] at hnoted
    cases htextures : d.textures ctx material with
    | nil =>
      rw [htextures] at hnoted
      cases hnoted
    | cons first rest =>
      rw [htextures] at hnoted
      obtain rfl : noted = first.note := Option.some.inj hnoted
      refine ⟨first, rest, rfl, rfl, fun hread => ?_⟩
      have hmem : first ∈ d.textures ctx material := by
        rw [htextures]
        exact List.mem_cons_self
      have hlookup : first.lookup ∈ later.network.texturesBelow exit := by
        rw [hbelow]
        exact ⟨first, hmem, hread, rfl⟩
      obtain ⟨id, node, hid, hnode, hoperation⟩ := hlookup
      exact ⟨id, node, first.lookup, hid, hnode, hoperation, mem_textures hmem⟩
  · intro hnone id node hid hnode
    rw [hnone] at hnoted
    have hempty : d.textures ctx material = [] := by
      cases htextures : d.textures ctx material with
      | nil => rfl
      | cons first rest =>
        rw [htextures] at hnoted
        cases hnoted
    rw [Option.eq_none_iff_forall_ne_some]
    intro lookup htexture
    have hlookup : lookup ∈ later.network.texturesBelow exit :=
      ⟨id, node, hid, hnode, Operation.texture?_eq_some_iff.mp htexture⟩
    rw [hbelow, hempty] at hlookup
    obtain ⟨t, ht, -⟩ := hlookup
    cases ht

/-- Wood under a mask. -/
def maskedFloor : ChannelDescriptor ℚ where
  name := "base_color"
  source := some (.composite
    [.mk (some (.texture
        { name := "wood", path := some "wood.png", mappingChannel := some (.integer 2) }))
      (some (.texture { name := "mask", path := some "mask.png" })) .plain])

/-- The first texture is noted with its own coordinates, and read at them. -/
theorem compileChannel_noted_maskedFloor :
    ∃ exit later, exactFresh.HasConstants ∧
      exactFresh.textureOf (Scope.ofChannel "M" "base_color") = none ∧
      (compileChannel "M" maskedFloor).run.run exactFresh = (.ok (some exit), later) ∧
      ∃ noted id node lookup, later.textureOf (Scope.ofChannel "M" "base_color") = some noted ∧
        noted.path = .text "wood.png" ∧ noted.mapping = .integer 2 ∧
        later.network.Below exit id ∧ later.network.get? id = some node ∧
        node.operation = .texture lookup ∧ .text lookup.texturePath = noted.path := by
  have hexit : ((compileChannel "M" maskedFloor).run.run exactFresh).1 = .ok (some 18) := by
    decide +kernel
  obtain ⟨later, hrun, -⟩ := exists_run_of_fst hexit
  have hnoted : later.textureOf (Scope.ofChannel "M" "base_color") =
      some ⟨.text "wood.png", .integer 2⟩ :=
    ((notes_compileChannel hasConstants_exactFresh "M" maskedFloor).ok hrun).1.2
  obtain ⟨hfirst, -⟩ := compileChannel_noted hasConstants_exactFresh rfl hrun
  obtain ⟨first, rest, htextures, -, hread⟩ := hfirst _ hnoted
  have hhead := congrArg (fun textures => textures.head?.map (·.isRead)) htextures
  have hisRead : some true = some first.isRead := hhead
  obtain ⟨id, node, lookup, hid, hnode, hoperation, hpath, -⟩ :=
    hread (Option.some.inj hisRead).symm
  exact ⟨18, later, hasConstants_exactFresh, rfl, hrun, _, id, node, lookup, hnoted, rfl, rfl,
    hid, hnode, hoperation, hpath.symm⟩

/-- Wood of which a correction leaves nothing but white. -/
def whitenedFloor : ChannelDescriptor ℚ where
  name := "base_color"
  source := some (.correction (some (.texture { name := "wood", path := some "wood.png" }))
    { Correction.neutral with rewire := .custom, customChannels := [.one, .one, .one, .one] })

/-- Wood by itself. -/
def plainFloor : ChannelDescriptor ℚ where
  name := "base_color"
  source := some (.texture { name := "wood", path := some "wood.png" })

/-- A session with a proxy that moves wood to the third coordinates. -/
def movedFresh : Context ℚ :=
  let (number, proxies) := exactFresh.proxies.create (.text "wood")
  { exactFresh with proxies := (proxies.set number [.uvSet (some (.text "3"))]).2 }

/-- Wood is noted though no texture node is left, and it is noted with the first coordinates though
its only node reads the third ones. -/
theorem noted_differs :
    (∃ exit later, (compileChannel "M" whitenedFloor).run.run exactFresh =
        (.ok (some exit), later) ∧
      later.textureOf (Scope.ofChannel "M" "base_color") =
        some ⟨.text "wood.png", .integer 1⟩ ∧
      ∀ id node lookup, later.network.Below exit id → later.network.get? id = some node →
        node.operation ≠ .texture lookup) ∧
    ∃ exit later, (compileChannel "M" plainFloor).run.run movedFresh =
        (.ok (some exit), later) ∧
      later.textureOf (Scope.ofChannel "M" "base_color") =
        some ⟨.text "wood.png", .integer 1⟩ ∧
      ∀ id node lookup, later.network.Below exit id → later.network.get? id = some node →
        node.operation = .texture lookup → lookup.uvSet = .text "3" := by
  constructor
  · have hexit : ((compileChannel "M" whitenedFloor).run.run exactFresh).1 = .ok (some 17) := by
      decide +kernel
    obtain ⟨later, hrun, -⟩ := exists_run_of_fst hexit
    obtain ⟨⟨-, hnoted⟩, hgathers⟩ :=
      (notes_compileChannel hasConstants_exactFresh "M" whitenedFloor).ok hrun
    refine ⟨17, later, hrun, hnoted, fun id node lookup hid hnode hoperation => ?_⟩
    have hlookup : lookup ∈ later.network.texturesBelow 17 := ⟨id, node, hid, hnode, hoperation⟩
    rw [(hgathers 17 rfl).eq] at hlookup
    obtain ⟨t, ht, hread, -⟩ := hlookup
    obtain rfl := List.mem_singleton.mp ht
    cases hread
  · have hconstants : movedFresh.HasConstants :=
      ⟨hasConstants_exactFresh.one, hasConstants_exactFresh.zero⟩
    have hexit : ((compileChannel "M" plainFloor).run.run movedFresh).1 = .ok (some 5) := by
      decide +kernel
    obtain ⟨later, hrun, -⟩ := exists_run_of_fst hexit
    obtain ⟨⟨-, hnoted⟩, hgathers⟩ := (notes_compileChannel hconstants "M" plainFloor).ok hrun
    refine ⟨5, later, hrun, hnoted, fun id node lookup hid hnode hoperation => ?_⟩
    have hlookup : lookup ∈ later.network.texturesBelow 5 := ⟨id, node, hid, hnode, hoperation⟩
    rw [(hgathers 5 rfl).eq] at hlookup
    obtain ⟨t, ht, -, rfl⟩ := hlookup
    obtain rfl := List.mem_singleton.mp ht
    rfl

end Compile

end ShadeGraph
