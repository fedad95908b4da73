import ShadeGraph.Proofs.Number.Exact
import ShadeGraph.Proofs.Compile.Foretelling
import ShadeGraph.Proofs.Composite.Shown

/-!
# Where textures are read

A host tiles a texture about the center of the unit square and shifts it against its offset. The
offset of a compiled texture is wrapped once when it is compiled, and the coordinates once more when
they are sampled. In exact arithmetic the pixel is the one that the host means.
-/

namespace ShadeGraph

/-! ### Coordinates -/

section

variable {α : Type} [Scalar.Exact α]

/-- Where the host reads a texture with this transform. -/
def UvTransform.place (t : UvTransform α) (p : Uv α) : Uv α :=
  ⟨Int.fract (t.scaleU * (p.u - t.offsetU - 0.5) + 0.5),
    Int.fract (t.scaleV * (p.v - t.offsetV - 0.5) + 0.5)⟩

/-- Where the host reads a texture at this time. -/
def TextureSource.place (source : TextureSource α) (time : α) (p : Uv α) : Uv α :=
  match source.uvTransform with
  | some transform => (transform time).place p
  | none => ⟨Int.fract p.u, Int.fract p.v⟩

/-- The pixel at a place in the unit square. -/
def Image.pixelAt (image : Image α) (p : Uv α) : Rgba α :=
  image.getD ⌊p.v * image.height⌋₊ ⌊p.u * image.width⌋₊

/-- The value of a pixel of a texture. -/
def TextureLookup.decode (lookup : TextureLookup α) (pixel : Rgba α) : Rgba α :=
  if lookup.srgb.toBool then pixel.toLinear else pixel

/-- The offset never comes out as one, so its last branch is not taken. -/
theorem centerScaledOffset_exact (scale offset : α) :
    centerScaledOffset scale offset = Int.fract (1 / 2 - scale * (offset + 1 / 2)) := by
  have hargument : -offset - (scale - 1) * (1 / 2 + offset) = 1 / 2 - scale * (offset + 1 / 2) := by
    ring
  simp only [centerScaledOffset, Scalar.one_literal, Scalar.half_literal, Scalar.zero_literal,
    Scalar.wrap_one, Scalar.le_eq_decide, hargument]
  simp [(Int.fract_lt_one _).not_ge]

/-- Both reductions together are the one that the host means. -/
theorem fract_tiled (u scale offset : α) :
    Int.fract (u * scale + centerScaledOffset scale offset) =
      Int.fract (scale * (u - offset - 1 / 2) + 1 / 2) := by
  rw [centerScaledOffset_exact, Int.fract_eq_fract]
  refine ⟨-⌊1 / 2 - scale * (offset + 1 / 2)⌋, ?_⟩
  rw [← Int.self_sub_floor]
  push_cast
  ring

theorem floor_mul_lt {n : ℕ} (hn : 0 < n) {x : α} (hx : x < 1) : ⌊x * n⌋₊ < n := by
  have hpos : (0 : α) < n := Nat.cast_pos.mpr hn
  rw [Nat.floor_lt' hn.ne']
  exact mul_lt_of_lt_one_left hpos hx

/-- No place in the unit square is moved to the nearest cell. -/
theorem cell_eq_floor {n : ℕ} (hn : 0 < n) {x : α} (hx : x < 1) : cell n x = ⌊x * n⌋₊ := by
  have hlt := floor_mul_lt hn hx
  rw [cell, Scalar.floor?_exact, Option.getD_some, Int.floor_toNat]
  omega

/-- Transformed or not, a texture is looked up in the unit square. -/
theorem TextureSource.place_mem (source : TextureSource α) (time : α) (p : Uv α) :
    (source.place time p).u < 1 ∧ (source.place time p).v < 1 := by
  unfold TextureSource.place
  cases source.uvTransform with
  | some transform => exact ⟨Int.fract_lt_one _, Int.fract_lt_one _⟩
  | none => exact ⟨Int.fract_lt_one _, Int.fract_lt_one _⟩

end

/-! ### Textures below a node -/

namespace Network

variable {α : Type} {net later : Network α}

/-- A node is a texture that is looked up so. -/
def HasTexture (net : Network α) (lookup : TextureLookup α) (id : NodeId) : Prop :=
  net.get? id = some { operation := .texture lookup, inputs := [], name := lookup.textureName }

theorem Below.extends {root id : NodeId} (h : net.Below root id) (hroot : root < net.size)
    (hlater : net.Extends later) : later.Below root id := by
  induction h with
  | refl => exact .refl
  | tail hbelow hlast ih =>
    obtain ⟨node, hnode⟩ := lt_size_iff.mp ((Below.le hbelow).trans_lt hroot)
    refine ih.tail ?_
    rwa [inputs_of_get? (hlater _ node hnode), ← inputs_of_get? hnode]

/-- Evaluating a texture reads a pixel at every point. -/
theorem HasTexture.evaluate [Scalar α] {lookup : TextureLookup α} {id : NodeId}
    (h : net.HasTexture lookup id) {images : ImageTable α} {image : Image α}
    (himage : lookup.image images = .ok image) (uv : UvGrid α) :
    net.evaluate images uv id = .ok (uv.points.map (lookup.sample image)) := by
  rw [evaluate_eq_plainValues, plainValues_of_get? h]
  simp [Operation.samples, himage, bind, Except.bind, pure, Except.pure]

end Network

namespace Build

variable {α : Type} {net : Network α} {n : NodeId}

theorem below_named {ids : List NodeId} (hn : n ∈ ids) (hids : ∀ j ∈ ids, j < net.size)
    (operation : Operation α) (name : String) :
    Adds (named operation ids name) net fun m later => later.Below m n := by
  have hnode : (net.insert { operation, inputs := ids, name }).get? net.size =
      some { operation, inputs := ids, name } := net.get?_insert_size hids
  have hmem : n ∈ (net.insert { operation, inputs := ids, name }).inputs net.size := by
    rwa [Network.inputs_of_get? hnode]
  exact ⟨.insert net _, .single hmem⟩

theorem below_replaceAlpha {a : NodeId} (hn : n < net.size) (ha : a < net.size) :
    Adds (replaceAlpha n a) net fun m later => later.Below m n :=
  below_named (by simp [Rgba.toList]) (by simp [Rgba.toList, hn, ha]) _ ""

variable [Scalar α] {o : Probe α} {constants : Constants} {v : Rgba α}

theorem below_applyAlphaSource [Scalar.TellsDivisors α]
    (hone : net.HasValue o constants.one (.replicate 1.0)) (hn : net.HasValue o n v)
    (source : AlphaSource) :
    Adds (applyAlphaSource constants n source) net fun m later => later.Below m n := by
  cases source with
  | rgbAverage =>
    exact (gives_rgbAverage hn).bind fun average _ h haverage =>
      below_replaceAlpha (hn.extends h).lt haverage.lt
  | opaqueAlpha => exact below_replaceAlpha hn.lt hone.lt
  | file => exact adds_pure .refl

theorem below_premultiply (hn : net.HasValue o n v) :
    Adds (premultiply n) net fun m later => later.Below m n := by
  refine (gives_broadcast hn .alpha).bind fun alpha net₁ h₁ halpha => ?_
  refine (gives_multiply (hn.extends h₁) halpha).bind fun product net₂ h₂ hproduct => ?_
  exact below_named (by simp [Rgba.toList])
    (by simp [Rgba.toList, hproduct.lt, ((hn.extends h₁).extends h₂).lt]) _ ""

/-- The texture of a channel lies at or below its root. -/
theorem below_textureChannel [Scalar.TellsDivisors α]
    (hone : net.HasValue o constants.one (.replicate 1.0)) (scope : Scope) (b : TextureBinding α)
    (hkind : o.kind b.toTextureLookup.settled) :
    Adds (textureChannel constants scope b) net fun m later =>
      ∃ id, later.Below m id ∧ later.HasTexture b.toTextureLookup.settled id := by
  have htexture : Adds (texture b.toTextureLookup.settled) net fun n later =>
      later.HasValue o n (b.valueAt o.images o.point) ∧
        later.HasTexture b.toTextureLookup.settled n :=
    ⟨.insert net _, (gives_texture hkind).result, net.get?_insert_size (by simp)⟩
  refine htexture.bind fun n net₁ h₁ ⟨hn, hnode⟩ => ?_
  by_cases hopacity : scope.isOpacity = true
  · rw [if_pos hopacity]
    exact adds_pure ⟨n, .refl, hnode⟩
  · rw [if_neg hopacity]
    have hone₁ := hone.extends h₁
    have halpha := gives_applyAlphaSource hone₁ hn b.alphaSource
    have hbelow := below_applyAlphaSource hone₁ hn b.alphaSource
    refine Adds.bind (Q := fun m later => later.HasValue o m _ ∧ later.Below m n)
      ⟨halpha.grows, halpha.result, hbelow.result⟩ fun m net₂ h₂ ⟨hm, hmn⟩ => ?_
    by_cases hpremultiply : (scope.premultiply && !b.premultiplied.toBool) = true
    · rw [if_pos hpremultiply]
      exact (below_premultiply hm).mono fun k net₃ h₃ hk =>
        ⟨n, hk.trans (hmn.extends hm.lt h₃), h₃ _ _ (h₂ _ _ hnode)⟩
    · rw [if_neg hpremultiply]
      exact adds_pure ⟨n, hmn, h₂ _ _ hnode⟩

end Build

namespace Compile

section

variable {α : Type} [Scalar α] {ctx : Context α}

/-- A bitmap with a file becomes a node that reads one texture and no other. -/
theorem compileSource_texture_exists [Scalar.TellsDivisors α] (hconstants : ctx.HasConstants)
    (scope : Scope) {source : TextureSource α} (hpath : (source.path.getD "").isEmpty = false) :
    ∃ root id later, (compileSource scope (.texture source)).run.run ctx =
        (.ok (some root), later) ∧
      later.network.Below root id ∧
      later.network.HasTexture (bound ctx scope source).toTextureLookup.settled id ∧
      later.network.Reads (· = (bound ctx scope source).toTextureLookup.settled) root := by
  let o : Probe α :=
    ⟨[], ⟨0.0, 0.0⟩, (· = (bound ctx scope source).toTextureLookup.settled)⟩
  obtain ⟨b, ctx₁, hbind, hb⟩ := (ends_bindTexture ctx scope source).exists_ok fun _ => id
  rw [hpath] at hb
  obtain rfl : b = some (bound ctx scope source) := hb
  have hgrows := ((adds_bindTexture scope source).ok hbind).1
  have hone := (hgrows.hasConstants hconstants).one.hasValue o
  have hgives := Build.gives_textureChannel hone scope (bound ctx scope source) rfl
  have hbelow := Build.below_textureChannel hone scope (bound ctx scope source) rfl
  have hcompile : Adds (compileTexture scope (bound ctx scope source)) ctx₁ fun n net =>
      ∃ id, net.Below n id ∧
        net.HasTexture (bound ctx scope source).toTextureLookup.settled id ∧
        net.Reads o.kind n := by
    refine adds_constants_bind ?_
    refine Adds.bind (Q := fun n net => net.HasValue o n _ ∧ ∃ id, net.Below n id ∧
      net.HasTexture (bound ctx scope source).toTextureLookup.settled id)
      (adds_build ⟨hgives.grows, hgives.result, hbelow.result⟩) ?_
    rintro n ctx₂ h₂ ⟨hn, id, hid, hnode⟩
    split
    · exact (adds_debug ctx₂ _).bind fun _ _ h₃ _ => adds_pure
        ⟨id, hid.extends hn.lt h₃.network, h₃.network _ _ hnode,
          (hn.extends h₃.network).reads⟩
    · exact adds_pure ⟨id, hid, hnode, hn.reads⟩
  obtain ⟨root, later, hrun, ⟨-, id, hid, hnode, hreads⟩, -⟩ :=
    (Ends.and hcompile (total_compileTexture scope (bound ctx scope source) ctx₁)).exists_ok
      (by simp)
  refine ⟨root, id, later, ?_, hid, hnode, hreads⟩
  rw [compileSource, compileTextureSource, run_bind_of_ok hbind]
  exact run_bind_of_ok hrun _

theorem bound_names (ctx : Context α) (scope : Scope) (source : TextureSource α) :
    (bound ctx scope source).textureName = source.nodeName (source.path.getD "") ∧
      (bound ctx scope source).texturePath = source.path.getD "" := by
  have happly (lookup : TextureLookup α) :
      (ctx.proxies.apply lookup).textureName = lookup.textureName ∧
        (ctx.proxies.apply lookup).texturePath = lookup.texturePath := by
    unfold ProxyTable.apply
    split <;> exact ⟨rfl, rfl⟩
  unfold bound
  cases source.uvTransform <;> exact happly _

end

variable {α : Type} [Scalar.Exact α] {ctx : Context α}

/-- Without a proxy, a texture is looked up where the host reads it. -/
theorem place_bound (scope : Scope) {source : TextureSource α}
    (hproxy : ctx.proxies.find? (.text (source.nodeName (source.path.getD ""))) = none)
    (p : Uv α) :
    (bound ctx scope source).toTextureLookup.settled.place p =
      source.place ctx.options.time p := by
  unfold bound TextureSource.place
  cases source.uvTransform with
  | some transform =>
    dsimp only
    rw [ProxyTable.apply]
    simp only [TextureLookup.transform, TextureLookup.plain, hproxy, TextureLookup.settled,
      TextureLookup.place, Scalar.one_literal, Scalar.half_literal, Scalar.wrap_one, fract_tiled,
      UvTransform.place]
  | none =>
    dsimp only
    rw [ProxyTable.apply]
    simp only [TextureLookup.plain, hproxy, TextureLookup.settled, TextureLookup.place,
      Scalar.one_literal, Scalar.zero_literal, mul_one, add_zero, Scalar.wrap_one]

/-- A bitmap whose name has no proxy becomes a node that reads a single texture, and evaluating this
texture reads the pixels of its image where the host does: tiled about the center, shifted against
the offset and wrapped. All these pixels are in the image. -/
theorem compileSource_texture_pixels (hconstants : ctx.HasConstants) (scope : Scope)
    {source : TextureSource α} (hpath : (source.path.getD "").isEmpty = false)
    (hproxy : ctx.proxies.find? (.text (source.nodeName (source.path.getD ""))) = none) :
    ∃ root id lookup later,
      (compileSource scope (.texture source)).run.run ctx = (.ok (some root), later) ∧
      later.network.Below root id ∧ later.network.HasTexture lookup id ∧
      later.network.Reads (· = lookup) root ∧
      lookup.textureName = source.nodeName (source.path.getD "") ∧
      lookup.texturePath = source.path.getD "" ∧
      ∀ images image, lookup.image images = .ok image → 0 < image.height → 0 < image.width →
        (∀ uv : UvGrid α, later.network.evaluate images uv id = .ok (uv.points.map fun p =>
          lookup.decode (image.pixelAt (source.place ctx.options.time p)))) ∧
        ∀ p, ⌊(source.place ctx.options.time p).u * image.width⌋₊ < image.width ∧
          ⌊(source.place ctx.options.time p).v * image.height⌋₊ < image.height := by
  obtain ⟨root, id, later, hrun, hbelow, hnode, hreads⟩ :=
    compileSource_texture_exists hconstants scope hpath
  obtain ⟨hname, hfile⟩ := bound_names ctx scope source
  refine ⟨root, id, _, later, hrun, hbelow, hnode, hreads, hname, hfile, ?_⟩
  intro images image himage hheight hwidth
  constructor
  · intro uv
    rw [hnode.evaluate himage]
    congr 2
    funext p
    have hplace := source.place_mem ctx.options.time p
    rw [TextureLookup.sample, place_bound scope hproxy, cell_eq_floor hheight hplace.2,
      cell_eq_floor hwidth hplace.1]
    rfl
  · intro p
    have hplace := source.place_mem ctx.options.time p
    exact ⟨floor_mul_lt hwidth hplace.1, floor_mul_lt hheight hplace.2⟩

/-- A texture that is mirrored and tiled along one axis, and shifted along both. -/
def tiledWood : TextureSource ℚ :=
  { name := "wood"
    path := some "wood.png"
    uvTransform := some fun _ => ⟨-5 / 2, 1, 1 / 10, -7 / 4⟩ }

/-- One row of four grays. -/
def grayRow : Tensor ℚ :=
  { shape := [1, 4, 3], values := #[0, 0, 0, 1 / 4, 1 / 4, 1 / 4, 1 / 2, 1 / 2, 1 / 2, 1, 1, 1] }

theorem compileSource_texture_pixels_tiledWood :
    exactFresh.HasConstants ∧ (tiledWood.path.getD "").isEmpty = false ∧
    exactFresh.proxies.find? (.text (tiledWood.nodeName (tiledWood.path.getD ""))) = none ∧
    ∃ (root id : NodeId) (lookup : TextureLookup ℚ) (later : Context ℚ) (image : Image ℚ),
      (compileSource floorScope (.texture tiledWood)).run.run exactFresh =
        (.ok (some root), later) ∧
      lookup.image [("wood.png", .ok grayRow)] = .ok image ∧ 0 < image.height ∧ 0 < image.width ∧
      later.network.evaluate [("wood.png", .ok grayRow)] ⟨[1], #[⟨1 / 5, 1 / 2⟩]⟩ id =
        .ok #[lookup.decode ⟨1 / 2, 1 / 2, 1 / 2, 1⟩] := by
  have hpath : (tiledWood.path.getD "").isEmpty = false := by decide +kernel
  have hproxy : exactFresh.proxies.find?
      (.text (tiledWood.nodeName (tiledWood.path.getD ""))) = none := by decide +kernel
  obtain ⟨root, id, lookup, later, hrun, -, -, -, -, hfile, h⟩ :=
    compileSource_texture_pixels hasConstants_exactFresh floorScope hpath hproxy
  have himage : lookup.image [("wood.png", .ok grayRow)] =
      .ok ⟨1, 4, grayRow.pixels 3 (1 * 4)⟩ := by
    rw [TextureLookup.image, hfile]
    rfl
  refine ⟨hasConstants_exactFresh, hpath, hproxy, root, id, lookup, later, _, hrun, himage,
    by decide, by decide, ?_⟩
  rw [(h _ _ himage (by decide) (by decide)).1]
  have hpixel : (⟨1, 4, grayRow.pixels 3 (1 * 4)⟩ : Image ℚ).pixelAt
      (tiledWood.place exactFresh.options.time ⟨1 / 5, 1 / 2⟩) = ⟨1 / 2, 1 / 2, 1 / 2, 1⟩ := by
    decide +kernel
  simp only [List.map_toArray, List.map_cons, List.map_nil, hpixel]

end Compile

end ShadeGraph
