import ShadeGraph.Proofs.Meaning.NotedTextures
import ShadeGraph.Proofs.ProxyTable

/-!
# Proxies and the nodes they reach

A channel that is compiled in sessions with different proxies has the same nodes, up to how its
textures are looked up. The textures of its source have all that was set on their proxies. A texture
that replaces the channel is the same with and without a proxy.
-/

namespace ShadeGraph

variable {α : Type}

/-! ### Networks with other textures -/

theorem Network.get?_insert (net : Network α) (node : Node α) (id : NodeId) :
    (net.insert node).get? id =
      if id = net.size then some (node.below net.size) else net.get? id := by
  by_cases h : id = net.nodes.size <;> simp [insert, get?, size, Array.getElem?_push, h]

/-- The same operation, or textures that are related. -/
inductive Operation.Retextured (S : TextureLookup α → TextureLookup α → Prop) :
    Operation α → Operation α → Prop
  | texture {lookup lookup' : TextureLookup α} (h : S lookup lookup') :
      Operation.Retextured S (.texture lookup) (.texture lookup')
  | same {operation : Operation α} (h : operation.texture? = none) :
      Operation.Retextured S operation operation

theorem Operation.Retextured.exists_texture {S : TextureLookup α → TextureLookup α → Prop}
    {lookup : TextureLookup α} {operation : Operation α}
    (h : Operation.Retextured S (.texture lookup) operation) :
    ∃ lookup', operation = .texture lookup' ∧ S lookup lookup' := by
  cases h with
  | texture h => exact ⟨_, rfl, h⟩
  | same h => cases h

/-- From a place on, the nodes of the networks differ only in their textures. They have inputs among
these nodes and a few shared ones. -/
structure Network.Retextured (S : TextureLookup α → TextureLookup α → Prop)
    (known : NodeId → Prop) (base : Nat) (net net' : Network α) : Prop where
  size : net'.size = net.size
  le : base ≤ net.size
  nodes {id : NodeId} {node : Node α} (hid : base ≤ id) (hnode : net.get? id = some node) :
    (∀ j ∈ node.inputs, known j) ∧ ∃ node', net'.get? id = some node' ∧
      node'.inputs = node.inputs ∧ Operation.Retextured S node.operation node'.operation

namespace Network.Retextured

variable {S : TextureLookup α → TextureLookup α → Prop} {known : NodeId → Prop} {base : Nat}
  {net net' : Network α}

theorem insert (h : Network.Retextured S known base net net') {node node' : Node α}
    (hknown : ∀ j ∈ node.inputs, known j) (hinputs : node'.inputs = node.inputs)
    (hoperation : Operation.Retextured S node.operation node'.operation) :
    Network.Retextured S known base (net.insert node) (net'.insert node') where
  size := by simp [h.size]
  le := by
    rw [size_insert]
    exact h.le.trans (Nat.le_succ _)
  nodes {id other} hid hother := by
    rw [get?_insert] at hother
    rw [get?_insert, h.size]
    by_cases hlast : id = net.size
    · rw [if_pos hlast] at hother ⊢
      obtain rfl := Option.some.inj hother
      refine ⟨fun j hj => hknown j (List.mem_filter.mp hj).1, _, rfl, ?_, hoperation⟩
      exact congrArg (List.filter _) hinputs
    · rw [if_neg hlast] at hother ⊢
      exact h.nodes hid hother

/-- What lies below a known node of one network lies below it in the other one. -/
theorem below (h : Network.Retextured S known base net net')
    (hknown : ∀ id, known id → base ≤ id ∨ net.inputs id = []) {exit id : NodeId}
    (hexit : known exit) (hid : net.Below exit id) : known id ∧ net'.Below exit id := by
  induction hid with
  | refl => exact ⟨hexit, .refl⟩
  | @tail i j _ hlast ih =>
    obtain ⟨hi, hbelow⟩ := ih
    rcases hknown i hi with hbase | hnone
    · cases hnode : net.get? i with
      | none => rw [inputs, hnode] at hlast; cases hlast
      | some node =>
        obtain ⟨hinputs, node', hnode', hsame, -⟩ := h.nodes hbase hnode
        rw [inputs_of_get? hnode] at hlast
        refine ⟨hinputs j hlast, hbelow.tail ?_⟩
        rwa [inputs_of_get? hnode', hsame]
    · rw [hnone] at hlast
      cases hlast

end Network.Retextured

/-! ### Sessions with other proxies -/

namespace Compile

/-- The nodes that a session has had since its start, and its constants. -/
def Known (start : Context α) (id : NodeId) : Prop :=
  start.network.size ≤ id ∨ id = start.constants.one ∨ id = start.constants.zero

/-- Two sessions with these proxies, whose networks differ only in textures since the start. -/
structure Reproxied (S : TextureLookup α → TextureLookup α → Prop) (start : Context α)
    (table others : ProxyTable α) (a b : Context α) : Prop where
  options : a.options = start.options
  options' : b.options = start.options
  overrides : a.overrides = start.overrides
  overrides' : b.overrides = start.overrides
  proxies : a.proxies = table
  proxies' : b.proxies = others
  constants : a.constants = start.constants
  constants' : b.constants = start.constants
  network : Network.Retextured S (Known start) start.network.size a.network b.network

variable (S : TextureLookup α → TextureLookup α → Prop) (start : Context α)
  (table others : ProxyTable α)

theorem lockstep_reproxied : Lockstep (Known start) (Reproxied S start table others) where
  log h _ _ := { h with }
  warn h _ := { h with }
  constants h := by
    refine ⟨h.constants.trans h.constants'.symm, ?_⟩
    rw [h.constants]
    exact ⟨.inr (.inl rfl), .inr (.inr rfl)⟩
  insert h _ htexture _ hinputs := ⟨h.network.size.symm, .inl h.network.le,
    { h with network := h.network.insert hinputs rfl (.same htexture) }⟩

variable {S} in
/-- Textures that are related are built alongside. -/
theorem alongside_texture {lookup lookup' : TextureLookup α} (h : S lookup lookup') :
    Alongside (Reproxied S start table others) (build (Build.texture lookup))
      (build (Build.texture lookup')) (Known start) := by
  intro a b hab
  let node : Node α := { operation := .texture lookup, inputs := [], name := lookup.textureName }
  let node' : Node α :=
    { operation := .texture lookup', inputs := [], name := lookup'.textureName }
  have hnetwork : Network.Retextured S (Known start) start.network.size
      (a.network.insert node) (b.network.insert node') :=
    hab.network.insert (fun _ hj => nomatch hj) rfl (.texture h)
  refine ⟨.ok a.network.size, { a with network := a.network.insert node },
    { b with network := b.network.insert node' }, rfl, ?_, { hab with network := hnetwork }, ?_⟩
  · rw [← hab.network.size]
    rfl
  · rintro _ ⟨⟩
    exact .inl hab.network.le

variable [Scalar α]

theorem readAlike_reproxied (key : ChannelKey α) :
    ReadAlike key (Reproxied S start table others) where
  options h := h.options.trans h.options'.symm
  colors h := by rw [h.overrides, h.overrides']
  textures h := by rw [h.overrides, h.overrides']
  mappings h := by rw [h.overrides, h.overrides']

omit [Scalar α] in
theorem reproxied_start :
    Reproxied S start table others { start with proxies := table }
      { start with proxies := others } where
  options := rfl
  options' := rfl
  overrides := rfl
  overrides' := rfl
  proxies := rfl
  proxies' := rfl
  constants := rfl
  constants' := rfl
  network := ⟨rfl, Nat.le_refl _, fun hid hnode =>
    absurd (Network.lt_size_of_get? hnode) (Nat.not_lt.mpr hid)⟩

/-- How the textures of a channel differ with other proxies. One that replaces the channel does not
differ. -/
def Rebound (replaced : Bool) (table others : ProxyTable α) (lookup lookup' : TextureLookup α) :
    Prop :=
  if replaced then lookup' = lookup
  else ∃ own : TextureLookup α, lookup = (table.apply own).settled ∧
    lookup' = (others.apply own).settled

/-- With other proxies a channel has the same nodes, up to its textures. -/
theorem abreast_compileChannel_reproxied (material : String) (d : ChannelDescriptor α) :
    Abreast (Reproxied (Rebound (d.replacement? start material).isSome table others) start table
      others) (compileChannel material d) fun n => ∀ i ∈ n, Known start i := by
  set S := Rebound (d.replacement? start material).isSome table others with hS
  have hlockstep := lockstep_reproxied S start table others
  have hread := readAlike_reproxied S start table others (Scope.ofChannel material d.name).key
  have hnotes : NotesAbreast (Reproxied S start table others) := fun a b h _ _ _ => { h with }
  refine hlockstep.abreast_compileChannel hread hnotes ?_ ?_
  · intro a b h hreplaced lookup
    rw [ChannelDescriptor.replacement?_of_sameSettings ⟨h.options, h.overrides⟩] at hreplaced
    exact alongside_texture _ _ _ (by rw [hS, Rebound, if_pos hreplaced])
  · intro a b h hsource
    rw [ChannelDescriptor.replacement?_of_sameSettings ⟨h.options, h.overrides⟩] at hsource
    refine hlockstep.texturesAbreast hread hnotes fun a b h lookup => ?_
    rw [h.proxies, h.proxies']
    refine alongside_texture _ _ _ ?_
    rw [hS, Rebound, hsource]
    exact ⟨lookup, rfl, rfl⟩

variable {S start table others} {later later' : Context α} {exit id : NodeId} {node : Node α}
  {lookup : TextureLookup α}

omit [Scalar α] in
theorem known_cases [OfScientific α] (hconstants : later.HasConstants)
    (hsame : later.constants = start.constants) (h : Known start id) :
    start.network.size ≤ id ∨ ∃ v, later.network.HasColor id v := by
  rcases h with h | rfl | rfl
  · exact .inl h
  · exact .inr ⟨_, hsame ▸ hconstants.one⟩
  · exact .inr ⟨_, hsame ▸ hconstants.zero⟩

omit [Scalar α] in
/-- A texture below an exit of one session stands below it in the other one as well. -/
theorem Reproxied.exists_texture [OfScientific α] (h : Reproxied S start table others later later')
    (hconstants : later.HasConstants) (hexit : Known start exit)
    (hid : later.network.Below exit id) (hnode : later.network.get? id = some node)
    (hoperation : node.operation = .texture lookup) :
    ∃ node' bare, later'.network.Below exit id ∧ later'.network.get? id = some node' ∧
      node'.operation = .texture bare ∧ S lookup bare := by
  have hshared (id : NodeId) (hid : Known start id) :
      start.network.size ≤ id ∨ later.network.inputs id = [] := by
    refine (known_cases hconstants h.constants hid).imp_right ?_
    rintro ⟨v, name, hcolor⟩
    rw [Network.inputs, hcolor]
    rfl
  obtain ⟨hknown, hbelow⟩ := h.network.below hshared hexit hid
  have hbase : start.network.size ≤ id := by
    refine (known_cases hconstants h.constants hknown).resolve_right ?_
    rintro ⟨v, name, hcolor⟩
    cases hnode.symm.trans hcolor
    cases hoperation
  obtain ⟨-, node', hnode', -, hretextured⟩ := h.network.nodes hbase hnode
  rw [hoperation] at hretextured
  obtain ⟨bare, hoperation', hS⟩ := hretextured.exists_texture
  exact ⟨node', bare, hbelow, hnode', hoperation', hS⟩

variable {material : String} {d : ChannelDescriptor α} {ctx : Context α}

/-- Textures with and without a proxy, where it may change them. -/
theorem honours_of_rebound {calls : List (ProxyCall α)} {bare : TextureLookup α}
    (h : Rebound false (.callAll {} calls) others lookup bare)
    (hothers : others.find? (.text lookup.textureName) = none) :
    lookup.Honours (ProxyTable.settingsOfAll (.text lookup.textureName) {} calls) bare := by
  obtain ⟨own, rfl, rfl⟩ := h
  have hown := ProxyTable.honours_callAll calls own
  have hname : ((ProxyTable.callAll {} calls).apply own).settled.textureName = own.textureName :=
    hown.textureName
  rw [hname] at hothers ⊢
  have hbare : others.apply own = own := by rw [ProxyTable.apply, hothers]
  rw [hbare]
  exact hown.settled

/-- The textures of a channel and its proxies. Any texture node that a channel with proxies leads to
has its counterpart where no proxy for it exists. If something replaces the channel, both are the
same, so that proxies have no effect. Otherwise the node has the last value of all that was set on
its proxy, and the rest is left as it was. -/
theorem compileChannel_proxies {calls : List (ProxyCall α)} (others : ProxyTable α)
    (hconstants : ctx.HasConstants)
    (hrun : (compileChannel material d).run.run
      { ctx with proxies := ProxyTable.callAll {} calls } = (.ok (some exit), later))
    (hid : later.network.Below exit id) (hnode : later.network.get? id = some node)
    (hoperation : node.operation = .texture lookup)
    (hothers : others.find? (.text lookup.textureName) = none) :
    ∃ later' node' bare, (compileChannel material d).run.run { ctx with proxies := others } =
        (.ok (some exit), later') ∧
      later'.network.Below exit id ∧ later'.network.get? id = some node' ∧
      node'.operation = .texture bare ∧
      ((d.replacement? ctx material).isSome → lookup = bare) ∧
      (d.replacement? ctx material = none → lookup.Honours
        (ProxyTable.settingsOfAll (.text lookup.textureName) {} calls) bare) := by
  obtain ⟨_, _, later', hrun', hrunOthers, hlater, hknown⟩ :=
    abreast_compileChannel_reproxied ctx (.callAll {} calls) others material d _ _
      (reproxied_start _ ctx _ _)
  cases hrun.symm.trans hrun'
  have hstart : Context.HasConstants { ctx with proxies := ProxyTable.callAll {} calls } :=
    ⟨hconstants.one, hconstants.zero⟩
  have hconstants' : later.HasConstants :=
    ((notes_compileChannel hstart material d).ok hrun).1.1.hasConstants hstart
  obtain ⟨node', bare, hid', hnode', hoperation', hrebound⟩ :=
    hlater.exists_texture hconstants' (hknown _ rfl exit rfl) hid hnode hoperation
  refine ⟨later', node', bare, hrunOthers, hid', hnode', hoperation', ?_, ?_⟩
  · intro hreplaced
    rw [Rebound, if_pos hreplaced] at hrebound
    exact hrebound.symm
  · intro hnone
    rw [hnone] at hrebound
    exact honours_of_rebound hrebound hothers

/-- A script that moves wood to the third coordinates. -/
def moveWood : List (ProxyCall ℚ) := [.create (.text "wood"), .set 0 [.uvSet (some (.text "3"))]]

/-- Wood that a texture of the same name replaces. -/
def repaintedFloor : ChannelDescriptor ℚ :=
  { plainFloor with override := some (.texture { path := "wood.png" }) }

/-- The proxy moves the wood of a source, and not the wood that replaces it. -/
theorem compileChannel_proxies_wood :
    exactFresh.HasConstants ∧
    (∃ exit later id node lookup, (compileChannel "M" plainFloor).run.run
        { exactFresh with proxies := ProxyTable.callAll {} moveWood } = (.ok (some exit), later) ∧
      later.network.Below exit id ∧ later.network.get? id = some node ∧
      node.operation = .texture lookup ∧ lookup.textureName = "wood" ∧
      lookup.uvSet = .text "3") ∧
    ∃ exit later id node lookup, (compileChannel "M" repaintedFloor).run.run
        { exactFresh with proxies := ProxyTable.callAll {} moveWood } = (.ok (some exit), later) ∧
      later.network.Below exit id ∧ later.network.get? id = some node ∧
      node.operation = .texture lookup ∧ lookup.textureName = "wood" ∧
      lookup.uvSet = .text "1" := by
  set ctx : Context ℚ := { exactFresh with proxies := ProxyTable.callAll {} moveWood } with hctx
  have hconstants : ctx.HasConstants :=
    ⟨hasConstants_exactFresh.one, hasConstants_exactFresh.zero⟩
  refine ⟨hasConstants_exactFresh, ?_, ?_⟩
  · have hexit : ((compileChannel "M" plainFloor).run.run ctx).1 = .ok (some 5) := by
      decide +kernel
    obtain ⟨later, hrun, -⟩ := exists_run_of_fst hexit
    have hgathers := ((notes_compileChannel hconstants "M" plainFloor).ok hrun).2 5 rfl
    obtain ⟨id, node, hid, hnode, hoperation⟩ :
        (bound ctx (Scope.ofChannel "M" "base_color")
          { name := "wood", path := some "wood.png" }).toTextureLookup.settled ∈
          later.network.texturesBelow 5 := by
      rw [hgathers.eq]
      exact ⟨_, List.mem_singleton.mpr rfl, rfl, rfl⟩
    obtain ⟨_, _, bare, -, -, -, -, -, hhonours⟩ :=
      compileChannel_proxies {} hasConstants_exactFresh hrun hid hnode hoperation rfl
    exact ⟨5, later, id, node, _, hrun, hid, hnode, hoperation, rfl, (hhonours rfl).uvSet⟩
  · have hexit : ((compileChannel "M" repaintedFloor).run.run ctx).1 = .ok (some 5) := by
      decide +kernel
    obtain ⟨later, hrun, -⟩ := exists_run_of_fst hexit
    have hgathers := ((notes_compileChannel hconstants "M" repaintedFloor).ok hrun).2 5 rfl
    have hlookup : (TextureFile.inChannel { path := "wood.png" } ctx
        (Scope.ofChannel "M" "base_color")).lookup ∈ later.network.texturesBelow 5 := by
      rw [hgathers.eq]
      exact ⟨_, List.mem_singleton.mpr rfl, rfl, rfl⟩
    obtain ⟨id, node, hid, hnode, hoperation⟩ := hlookup
    exact ⟨5, later, id, node, _, hrun, hid, hnode, hoperation, rfl, rfl⟩

end Compile

end ShadeGraph
