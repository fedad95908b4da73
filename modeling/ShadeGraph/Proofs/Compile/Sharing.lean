import ShadeGraph.Proofs.Compile.Lasting
import ShadeGraph.Proofs.Compile.NodeCounts
import ShadeGraph.Proofs.Compile.Proxies
import ShadeGraph.Proofs.Exchange.TexturePaths
import ShadeGraph.Proofs.Network.Order

/-!
# Shared nodes

A source is compiled to new nodes and the constants of its session, and to nothing else: what an
operator reads several times is not compiled again. So the network of a source is as large as what was
made for it, with two constants, and the networks of all materials of a session have the same constants.
-/

namespace ShadeGraph

variable {α : Type}

/-! ### Networks on top of others -/

namespace Network

theorem Extends.size_le {net later : Network α} (h : net.Extends later) : net.size ≤ later.size :=
  Nat.le_of_not_lt fun hlt => Nat.lt_irrefl later.size (h.lt_size hlt)

theorem Extends.inputs_eq {net later : Network α} (h : net.Extends later) {id : NodeId}
    (hid : id < net.size) : net.inputs id = later.inputs id := by
  obtain ⟨node, hnode⟩ := lt_size_iff.mp hid
  rw [inputs_of_get? hnode, inputs_of_get? (h id node hnode)]

theorem Extends.of_below {net later : Network α} (h : net.Extends later) {root id : NodeId}
    (hroot : root < net.size) (hid : later.Below root id) : net.Below root id :=
  hid.congr fun _ hj => h.inputs_eq (hj.trans_lt hroot)

/-- A network on top of another one. The further nodes have known inputs, and no names but those of
their textures. -/
structure Built (known : NodeId → Prop) (net later : Network α) : Prop where
  grows : net.Extends later
  inputs {id : NodeId} {node : Node α} (hid : net.size ≤ id) (hnode : later.get? id = some node) :
    ∀ j ∈ node.inputs, known j
  name {id : NodeId} {node : Node α} (hid : net.size ≤ id) (hnode : later.get? id = some node)
    (htexture : node.operation.texture? = none) : node.name = ""

namespace Built

variable {known : NodeId → Prop} {net later : Network α} {root id : NodeId}

theorem refl (known : NodeId → Prop) (net : Network α) : net.Built known net where
  grows := .refl net
  inputs hid hnode := absurd (lt_size_of_get? hnode) (Nat.not_lt.mpr hid)
  name hid hnode := absurd (lt_size_of_get? hnode) (Nat.not_lt.mpr hid)

theorem insert (h : net.Built known later) {node : Node α}
    (hname : node.operation.texture? = none → node.name = "")
    (hinputs : ∀ j ∈ node.inputs, known j) : net.Built known (later.insert node) where
  grows := h.grows.trans (.insert later node)
  inputs {id other} hid hother := by
    rw [get?_insert] at hother
    split_ifs at hother
    · obtain rfl := Option.some.inj hother
      exact fun j hj => hinputs j (List.mem_filter.mp hj).1
    · exact h.inputs hid hother
  name {id other} hid hother := by
    rw [get?_insert] at hother
    split_ifs at hother
    · obtain rfl := Option.some.inj hother
      exact hname
    · exact h.name hid hother

/-- Below a known node there are only known nodes, if the ones of the network underneath are leaves. -/
theorem known_of_below (h : net.Built known later)
    (hleaves : ∀ id, known id → net.size ≤ id ∨ later.inputs id = []) (hroot : known root)
    (hid : later.Below root id) : known id := by
  induction hid with
  | refl => exact hroot
  | @tail i j _ hlast ih =>
    rcases hleaves i ih with hnew | hnone
    · cases hnode : later.get? i with
      | none => rw [Network.inputs, hnode] at hlast; cases hlast
      | some node =>
        rw [inputs_of_get? hnode] at hlast
        exact h.inputs hnew hnode j hlast
    · rw [hnone] at hlast
      cases hlast

end Built

theorem nodup_walk (net : Network α) (root : NodeId) : (net.walk root).Nodup :=
  (net.ordered_walk root).nodup

theorem countNodes_le_of_subset {net : Network α} {root : NodeId} {ids : List NodeId}
    (h : ∀ id, net.Below root id → id ∈ ids) : net.countNodes root ≤ ids.length :=
  ((net.nodup_walk root).subperm fun id hid => h id (mem_walk_iff.mp hid)).length_le

end Network

namespace Compile

/-! ### What a source is compiled to -/

section

variable {start ctx later : Context α} {root id : NodeId}

/-- A session on top of another one, with the same constants. -/
structure Shares (start ctx : Context α) : Prop where
  constants : ctx.constants = start.constants
  network : start.network.Built (Known start) ctx.network

theorem lasting_shares (start : Context α) : Lasting (Known start) (Shares start) where
  registrar h _ := { h with }
  warnings h _ := { h with }
  textures h _ _ _ _ := { h with }
  constants h := by
    rw [h.constants]
    exact ⟨.inr (.inl rfl), .inr (.inr rfl)⟩
  insert h _ hname hinputs := ⟨.inl h.network.grows.size_le,
    { h with network := h.network.insert hname hinputs }⟩

theorem shares_self (start : Context α) : Shares start start := ⟨rfl, .refl _ _⟩

variable [OfScientific α]

theorem hasConstants_of_extends (h : ctx.HasConstants) (hgrows : ctx.network.Extends later.network)
    (hsame : later.constants = ctx.constants) : later.HasConstants := by
  obtain ⟨⟨one, hone⟩, ⟨zero, hzero⟩⟩ := h
  refine ⟨⟨one, ?_⟩, ⟨zero, ?_⟩⟩ <;> rw [hsame]
  · exact hgrows _ _ hone
  · exact hgrows _ _ hzero

namespace Shares

theorem known_of_below (h : Shares start ctx) (hstart : start.HasConstants) (hroot : Known start root)
    (hid : ctx.network.Below root id) : Known start id := by
  refine h.network.known_of_below (fun id hknown => ?_) hroot hid
  have hconstants := hasConstants_of_extends hstart h.network.grows h.constants
  refine (known_cases hconstants h.constants hknown).imp_right ?_
  rintro ⟨v, name, hcolor⟩
  exact Network.inputs_of_get? hcolor

/-- There are no more nodes below a known one than were made, and the two constants. -/
theorem countNodes_le (h : Shares start ctx) (hstart : start.HasConstants)
    (hroot : Known start root) :
    ctx.network.countNodes root ≤ ctx.network.size - start.network.size + 2 := by
  by_cases hlt : root < ctx.network.size
  · have hsubset : ∀ id, ctx.network.Below root id →
        id ∈ start.constants.one :: start.constants.zero ::
          List.range' start.network.size (ctx.network.size - start.network.size) := by
      intro id hid
      have hidlt : id < ctx.network.size := hid.le.trans_lt hlt
      rcases h.known_of_below hstart hroot hid with hnew | rfl | rfl
      · refine List.mem_cons_of_mem _ (List.mem_cons_of_mem _ (List.mem_range'_1.mpr ⟨hnew, ?_⟩))
        rwa [Nat.add_sub_cancel' (hnew.trans hidlt.le)]
      · exact List.mem_cons_self
      · exact List.mem_cons_of_mem _ List.mem_cons_self
    exact (Network.countNodes_le_of_subset hsubset).trans (by simp)
  · -- a place beyond the table has no inputs
    have hsubset : ∀ id, ctx.network.Below root id → id ∈ [root] := by
      intro id hid
      rcases hid.cases_head with rfl | ⟨j, hj, -⟩
      · exact List.mem_singleton_self _
      · rw [Network.inputs, Network.get?, Array.getElem?_eq_none (Nat.not_lt.mp hlt)] at hj
        cases hj
    exact (Network.countNodes_le_of_subset hsubset).trans (by simp)

end Shares

end

variable [Scalar α] {ctx later : Context α}

/-- A source is compiled to at most forty nodes for each source and layer, and to constants. -/
theorem countNodes_compileSource (hctx : ctx.HasConstants) {scope : Scope} {source : Source α}
    {n : NodeId} (hrun : (compileSource scope source).run.run ctx = (.ok (some n), later)) :
    later.network.countNodes n ≤ 40 * source.size + 2 := by
  obtain ⟨hshares, hknown⟩ :=
    (lasting_shares ctx).upholds_compileSource scope source ctx (shares_self ctx)
  have hmakes := makes_compileSource scope source ctx
  rw [hrun] at hshares hknown hmakes
  calc later.network.countNodes n
      ≤ later.network.size - ctx.network.size + 2 :=
        hshares.countNodes_le hctx (hknown _ rfl n rfl)
    _ ≤ 40 * source.size + 2 := by dsimp only at hmakes; omega

/-! ### Constants of a session -/

/-- Below this exit only constants of the session are colors with names. -/
structure Pools (ctx : Context α) (exit : NodeId) : Prop where
  lt : exit < ctx.network.size
  named {id : NodeId} {node : Node α} {v : Rgba α} (hid : ctx.network.Below exit id)
    (hnode : ctx.network.get? id = some node) (hcolor : node.operation = .color v)
    (hname : node.name ≠ "") : id = ctx.constants.one ∨ id = ctx.constants.zero

/-- A session that has kept its constants and all nodes of its network. -/
structure KeepsNodes (ctx later : Context α) : Prop where
  network : ctx.network.Extends later.network
  constants : later.constants = ctx.constants

omit [Scalar α] in
theorem Pools.keepsNodes {exit : NodeId} (h : Pools ctx exit) (hlater : KeepsNodes ctx later) :
    Pools later exit where
  lt := hlater.network.lt_size h.lt
  named {id node v} hid hnode hcolor hname := by
    rw [hlater.constants]
    have hold := hlater.network.of_below h.lt hid
    obtain ⟨old, hget⟩ := Network.lt_size_iff.mp (hold.le.trans_lt h.lt)
    obtain rfl := Option.some.inj ((hlater.network _ _ hget).symm.trans hnode)
    exact h.named hold hget hcolor hname

/-- Whatever becomes of a channel, the session keeps its nodes, and below an exit there are no other
colors with names than its constants. -/
theorem channelWise_pools : ChannelWise (α := α) Context.HasConstants KeepsNodes Pools where
  refl ctx := ⟨.refl _, rfl⟩
  trans hab hbc := ⟨hab.network.trans hbc.network, hbc.constants.trans hab.constants⟩
  registrar ctx _ := ⟨.refl _, rfl⟩
  warnings ctx _ := ⟨.refl _, rfl⟩
  overrides ctx _ := ⟨.refl _, rfl⟩
  slots ctx _ _ _ := ⟨.refl _, rfl⟩
  kind ha hab := hasConstants_of_extends ha hab.network hab.constants
  exits _ hab _ hn := hn.keepsNodes hab
  channel {ctx} hctx material d := by
    obtain ⟨hshares, hknown⟩ :=
      (lasting_shares ctx).upholds_compileChannel material d ctx (shares_self ctx)
    refine ⟨⟨hshares.network.grows, hshares.constants⟩, fun {n later} hrun exit hexit => ?_⟩
    rw [hrun] at hshares hknown
    refine ⟨(((notes_compileChannel hctx material d).ok hrun).2 exit hexit).lt, ?_⟩
    intro id node v hid hnode hcolor hname
    rw [hshares.constants]
    rcases hshares.known_of_below hctx (hknown n rfl exit hexit) hid with hnew | hconstant
    · exact absurd (hshares.network.name hnew hnode (by rw [hcolor]; rfl)) hname
    · exact hconstant

/-! ### Sessions -/

/-- A session with the materials that were compiled in it so far. Between two materials anything may
happen in it that keeps its nodes. -/
inductive Session : List Material → Context α → Prop
  | start (options : Options α) (reporter : Reporter) (registrar : Registrar) (net : Network α) :
    Session [] (Context.start options reporter registrar net)
  | material {ms : List Material} {ctx later : Context α} {result : Except CompileError Material}
    (hosts : HostTable α) (id : HostId) (h : Session ms ctx)
    (hrun : (compileMaterial hosts id).run.run ctx = (result, later)) :
    Session (ms ++ result.toOption.toList) later
  | materials {ms : List Material} {ctx later : Context α}
    {result : Except CompileError (List Material)} (hosts : HostTable α) (ids : List HostId)
    (h : Session ms ctx) (hrun : (compileMaterials hosts ids).run.run ctx = (result, later)) :
    Session (ms ++ result.toOption.getD []) later
  | change {ms : List Material} {ctx later : Context α} (h : Session ms ctx)
    (hlater : KeepsNodes ctx later) : Session ms later

/-- The constants of a session have their names. -/
structure NamesConstants (ctx : Context α) : Prop where
  one : ctx.network.get? ctx.constants.one =
    some { operation := .color (.replicate 1.0), inputs := [], name := "one" }
  zero : ctx.network.get? ctx.constants.zero =
    some { operation := .color (.replicate 0.0), inputs := [], name := "zero" }

theorem NamesConstants.keepsNodes (h : NamesConstants ctx) (hlater : KeepsNodes ctx later) :
    NamesConstants later := by
  constructor <;> rw [hlater.constants]
  · exact hlater.network _ _ h.one
  · exact hlater.network _ _ h.zero

theorem NamesConstants.hasConstants (h : NamesConstants ctx) : ctx.HasConstants :=
  ⟨⟨"one", h.one⟩, ⟨"zero", h.zero⟩⟩

theorem namesConstants_start (options : Options α) (reporter : Reporter) (registrar : Registrar)
    (net : Network α) : NamesConstants (Context.start options reporter registrar net) := by
  let white : Node α := { operation := .color (.replicate 1.0), inputs := [], name := "one" }
  let black : Node α := { operation := .color (.replicate 0.0), inputs := [], name := "zero" }
  have hwhite : (net.insert white).get? net.size = some white :=
    net.get?_insert_size nofun
  have hblack : ((net.insert white).insert black).get? (net.insert white).size = some black :=
    Network.get?_insert_size _ nofun
  exact ⟨Network.Extends.insert _ black _ _ hwhite, hblack⟩

namespace Session

variable {ms : List Material}

theorem namesConstants_and_pools (h : Session ms ctx) :
    NamesConstants ctx ∧ ∀ m ∈ ms, Exits Pools ctx m := by
  have hlater {ms : List Material} {ctx later : Context α} (hlater : KeepsNodes ctx later)
      (h : NamesConstants ctx ∧ ∀ m ∈ ms, Exits Pools ctx m) :
      NamesConstants later ∧ ∀ m ∈ ms, Exits Pools later m :=
    ⟨h.1.keepsNodes hlater, fun m hm c hc => (h.2 m hm c hc).keepsNodes hlater⟩
  induction h with
  | start options reporter registrar net => exact ⟨namesConstants_start _ _ _ _, nofun⟩
  | @material ms ctx later result hosts id _ hrun ih =>
    have hleaves := channelWise_pools.leaves_compileMaterial hosts ih.1.hasConstants id
    have hafter := hleaves.after
    rw [hrun] at hafter
    obtain ⟨hnames, hold⟩ := hlater hafter ih
    refine ⟨hnames, List.forall_mem_append.mpr ⟨hold, fun m hm => ?_⟩⟩
    cases result with
    | error e => cases hm
    | ok m' => exact List.mem_singleton.mp hm ▸ hleaves.result hrun
  | @materials ms ctx later result hosts ids _ hrun ih =>
    have hleaves := channelWise_pools.leaves_compileMaterials hosts ih.1.hasConstants ids
    have hafter := hleaves.after
    rw [hrun] at hafter
    obtain ⟨hnames, hold⟩ := hlater hafter ih
    refine ⟨hnames, List.forall_mem_append.mpr ⟨hold, fun m hm => ?_⟩⟩
    cases result with
    | error e => cases hm
    | ok ms' => exact hleaves.result hrun m hm
  | change _ hkeeps ih => exact hlater hkeeps ih

end Session

/-- Whether a node is a color of this name. -/
def isColorNamed (net : Network α) (name : String) (id : NodeId) : Bool :=
  match net.get? id with
  | some { operation := .color _, name := own, .. } => own = name
  | _ => false

omit [Scalar α] in
theorem exists_of_isColorNamed {net : Network α} {name : String} {id : NodeId}
    (h : isColorNamed net name id = true) :
    ∃ node v, net.get? id = some node ∧ node.operation = .color v ∧ node.name = name := by
  rw [isColorNamed] at h
  split at h
  · next hnode => exact ⟨_, _, hnode, rfl, by simpa using h⟩
  · cases h

/-- In the networks of a session a color with a name is one of the two constants. -/
theorem Session.named_cases {ms : List Material} (h : Session ms ctx) {name : String}
    (hname : name ≠ "") {id : NodeId} (hid : id ∈ distinctNodes ctx.network ms)
    (hcolor : isColorNamed ctx.network name id = true) :
    (id = ctx.constants.one ∧ name = "one") ∨ id = ctx.constants.zero ∧ name = "zero" := by
  obtain ⟨hconstants, hpools⟩ := h.namesConstants_and_pools
  obtain ⟨exit, hexit, hbelow⟩ := Network.mem_reachable_iff.mp hid
  obtain ⟨m, hm, hexit⟩ := List.mem_flatMap.mp hexit
  obtain ⟨c, hc, rfl⟩ := List.mem_map.mp hexit
  obtain ⟨node, v, hnode, hoperation, rfl⟩ := exists_of_isColorNamed hcolor
  rcases (hpools m hm c hc).named hbelow hnode hoperation hname with rfl | rfl
  · obtain rfl := Option.some.inj (hnode.symm.trans hconstants.one)
    exact .inl ⟨rfl, rfl⟩
  · obtain rfl := Option.some.inj (hnode.symm.trans hconstants.zero)
    exact .inr ⟨rfl, rfl⟩

/-- Networks are linear in what they are compiled from, and share their constants. A source that is
compiled to a node is compiled to at most forty nodes for each source and each layer of its tree, and
to the two constants; and among the nodes of all materials of a session there is at most one color
with a given name. -/
theorem compiling_shares :
    (∀ (ctx later : Context α) (scope : Scope) (source : Source α) (n : NodeId), ctx.HasConstants →
      (compileSource scope source).run.run ctx = (.ok (some n), later) →
      later.network.countNodes n ≤ 40 * source.size + 2) ∧
    ∀ (ms : List Material) (ctx : Context α), Session ms ctx → ctx.HasConstants ∧
      ∀ name, name ≠ "" →
        (distinctNodes ctx.network ms).countP (isColorNamed ctx.network name) ≤ 1 := by
  constructor
  · exact fun ctx later scope source n hctx hrun => countNodes_compileSource hctx hrun
  · intro ms ctx h
    refine ⟨h.namesConstants_and_pools.1.hasConstants, fun name hname => ?_⟩
    have hnodup : (distinctNodes ctx.network ms).Nodup := (Network.ordered_reachable _).nodup
    have hconstant : ∀ id ∈ (distinctNodes ctx.network ms).filter (isColorNamed ctx.network name),
        id ∈ [if name = "one" then ctx.constants.one else ctx.constants.zero] := by
      intro id hid
      obtain ⟨hmem, hcolor⟩ := List.mem_filter.mp hid
      rcases h.named_cases hname hmem hcolor with ⟨rfl, rfl⟩ | ⟨rfl, rfl⟩ <;> simp
    rw [List.countP_eq_length_filter]
    exact ((hnodup.filter _).subperm hconstant).length_le

/-- A color that is tinted again and again. -/
def tintedTwice : Source ℚ :=
  .tint (some (.tint (some (.color (.gray (1 / 2)))) .identity)) .identity

/-- Floors with masks, which need both constants. -/
def maskedHosts : HostTable ℚ :=
  ⟨#[{ handle := 1, name := "A", channels := [maskedFloor] },
    { handle := 2, name := "B", channels := [maskedFloor] }]⟩

/-- Two tints that read their source three times each, and two materials with masks. -/
theorem compiling_shares_masked :
    exactFresh.HasConstants ∧
    (∃ n later, (compileSource floorScope tintedTwice).run.run exactFresh = (.ok (some n), later) ∧
      later.network.countNodes n ≤ 40 * 3 + 2) ∧
    ∃ ms ctx, Session ms ctx ∧ ms.length = 2 ∧ "one" ≠ "" ∧
      (distinctNodes ctx.network ms).countP (isColorNamed (α := ℚ) ctx.network "one") ≤ 1 := by
  obtain ⟨hcounts, hcolors⟩ := compiling_shares (α := ℚ)
  refine ⟨hasConstants_exactFresh, ?_, ?_⟩
  · have hexit : ((compileSource floorScope tintedTwice).run.run exactFresh).1 = .ok (some 26) := by
      decide +kernel
    obtain ⟨later, hrun, -⟩ := exists_run_of_fst hexit
    exact ⟨26, later, hrun, hcounts _ _ _ _ _ hasConstants_exactFresh hrun⟩
  · have hlength : (((compileMaterials maskedHosts [0, 1]).run.run exactFresh).1.toOption.getD
        []).length = 2 := by decide +kernel
    rcases hrun : (compileMaterials maskedHosts [0, 1]).run.run exactFresh with ⟨result, later⟩
    rw [hrun] at hlength
    have hstart : Session [] exactFresh := .start .standard .none {} ∅
    have hsession := hstart.materials maskedHosts [0, 1] hrun
    exact ⟨_, later, hsession, hlength, by decide, (hcolors _ _ hsession).2 "one" (by decide)⟩

end Compile

end ShadeGraph
