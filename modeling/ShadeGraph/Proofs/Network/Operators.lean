import ShadeGraph.Network.Operators
import ShadeGraph.Proofs.Network.Values
import ShadeGraph.Proofs.Number.Divisors

/-!
# What operators build

Building only adds nodes, so a node keeps its value in all later networks. Each operator adds a node
whose value is told by the values of its inputs.
-/

namespace ShadeGraph

namespace Rgba

variable {α : Type} [Scalar α]

/-- The mean of the colors. -/
def average (v : Rgba α) : α := (v.red + v.green + v.blue) / 3.0

/-- The colors times alpha. -/
def premultiplied (v : Rgba α) : Rgba α :=
  ⟨v.red * v.alpha, v.green * v.alpha, v.blue * v.alpha, v.alpha⟩

def withAlpha (v : Rgba α) (a : α) : Rgba α := { v with alpha := a }

end Rgba

/-- A point to look at with the images, and which textures may be read there. -/
structure Probe (α : Type) where
  images : ImageTable α
  point : Uv α
  kind : TextureLookup α → Prop

namespace Network

variable {α : Type} {a b c : Network α}

/-- Nothing is lost from one network to another. -/
def Extends (net later : Network α) : Prop :=
  ∀ id node, net.get? id = some node → later.get? id = some node

namespace Extends

theorem refl (net : Network α) : net.Extends net := fun _ _ h => h

theorem trans (hab : a.Extends b) (hbc : b.Extends c) : a.Extends c :=
  fun id node h => hbc id node (hab id node h)

theorem lt_size (h : a.Extends b) {id : NodeId} (hid : id < a.size) : id < b.size := by
  obtain ⟨node, hnode⟩ := lt_size_iff.mp hid
  exact lt_size_of_get? (h id node hnode)

theorem insert (net : Network α) (node : Node α) : net.Extends (net.insert node) := by
  intro id old hold
  rw [net.get?_insert_of_lt (lt_size_of_get? hold), hold]

end Extends

variable [Scalar α]

theorem valueAt_of_extends (h : a.Extends b) (images : ImageTable α) (p : Uv α) {id : NodeId}
    (hid : id < a.size) : b.valueAt images p id = a.valueAt images p id := by
  induction id using Nat.strong_induction_on with
  | h id ih =>
    obtain ⟨node, hnode⟩ := lt_size_iff.mp hid
    rw [valueAt_eq hnode, valueAt_eq (h id node hnode)]
    congr 1
    apply List.map_congr_left
    intro j hj
    have hlt : j < id := a.lt_of_mem_inputs (by rwa [inputs_of_get? hnode])
    exact ih j hlt (hlt.trans hid)

omit [Scalar α] in
theorem all_iff_of_extends (h : a.Extends b) (P : Operation α → Prop) {id : NodeId}
    (hid : id < a.size) : b.All P id ↔ a.All P id := by
  induction id using Nat.strong_induction_on with
  | h id ih =>
    obtain ⟨node, hnode⟩ := lt_size_iff.mp hid
    rw [all_iff hnode, all_iff (h id node hnode)]
    refine and_congr_right' (forall₂_congr fun j hj => ?_)
    have hlt : j < id := a.lt_of_mem_inputs (by rwa [inputs_of_get? hnode])
    exact ih j hlt (hlt.trans hid)

/-- The network has this node, with this value at the point. -/
structure HasValue (net : Network α) (o : Probe α) (n : NodeId) (v : Rgba α) : Prop where
  lt : n < net.size
  eq : net.valueAt o.images o.point n = v
  reads : net.Reads o.kind n

variable {o : Probe α}

theorem HasValue.extends {n : NodeId} {v : Rgba α} (h : a.HasValue o n v) (hab : a.Extends b) :
    b.HasValue o n v :=
  ⟨hab.lt_size h.lt, (valueAt_of_extends hab o.images o.point h.lt).trans h.eq,
    (all_iff_of_extends hab _ h.lt).mpr h.reads⟩

theorem forall₂_hasValue_iff {ids : List NodeId} {vs : List (Rgba α)} :
    List.Forall₂ (a.HasValue o) ids vs ↔ (∀ j ∈ ids, j < a.size ∧ a.Reads o.kind j) ∧
      ids.map (a.valueAt o.images o.point) = vs := by
  constructor
  · intro h
    induction h with
    | nil => simp
    | cons hv _ ih =>
      exact ⟨List.forall_mem_cons.mpr ⟨⟨hv.lt, hv.reads⟩, ih.1⟩, by simp [hv.eq, ih.2]⟩
  · rintro ⟨hids, rfl⟩
    rw [List.forall₂_map_right_iff, List.forall₂_same]
    exact fun j hj => ⟨(hids j hj).1, rfl, (hids j hj).2⟩

theorem hasValue_insert {net : Network α} {node : Node α} {vs : List (Rgba α)}
    (h : List.Forall₂ (net.HasValue o) node.inputs vs)
    (hkind : ∀ lookup, node.operation.texture? = some lookup → o.kind lookup) :
    (net.insert node).HasValue o net.size (node.operation.valueAt o.images o.point vs) := by
  obtain ⟨hinputs, rfl⟩ := forall₂_hasValue_iff.mp h
  have hnode := net.get?_insert_size fun j hj => (hinputs j hj).1
  have hgrows := Extends.insert net node
  refine ⟨lt_size_of_get? hnode, ?_, (all_iff hnode).mpr ⟨hkind, fun j hj => ?_⟩⟩
  · rw [valueAt_eq hnode]
    congr 1
    exact List.map_congr_left fun j hj =>
      valueAt_of_extends hgrows o.images o.point (hinputs j hj).1
  · exact (all_iff_of_extends hgrows _ (hinputs j hj).1).mpr (hinputs j hj).2

end Network

namespace Build

variable {α β γ : Type}

/-- The step only adds nodes, and leaves a result and a network as told. -/
structure Adds (step : Build α β) (net : Network α) (Q : β → Network α → Prop) : Prop where
  grows : net.Extends (step.run net).2
  result : Q (step.run net).1 (step.run net).2

section

variable {net : Network α} {Q : β → Network α → Prop}

theorem adds_pure {b : β} (h : Q b net) : Adds (pure b) net Q := ⟨.refl net, h⟩

theorem Adds.bind {step : Build α β} {f : β → Build α γ} {R : γ → Network α → Prop}
    (h : Adds step net Q) (hf : ∀ b later, net.Extends later → Q b later → Adds (f b) later R) :
    Adds (step >>= f) net R := by
  have hlast := hf _ _ h.grows h.result
  exact ⟨h.grows.trans hlast.grows, hlast.result⟩

theorem Adds.mono {step : Build α β} {R : β → Network α → Prop} (h : Adds step net Q)
    (hR : ∀ b later, net.Extends later → Q b later → R b later) : Adds step net R :=
  ⟨h.grows, hR _ _ h.grows h.result⟩

end

variable [Scalar α] {net : Network α} {o : Probe α}

/-- The step adds nodes and returns one with this value. -/
abbrev Gives (o : Probe α) (step : Build α NodeId) (net : Network α) (v : Rgba α) : Prop :=
  Adds step net fun n later => later.HasValue o n v

/-! ### Single nodes -/

theorem gives_named {operation : Operation α} {ids : List NodeId} {vs : List (Rgba α)}
    (h : List.Forall₂ (net.HasValue o) ids vs)
    (hkind : ∀ lookup, operation.texture? = some lookup → o.kind lookup) (name : String) :
    Gives o (named operation ids name) net (operation.valueAt o.images o.point vs) :=
  ⟨.insert net _, Network.hasValue_insert h hkind⟩

theorem gives_node {operation : Operation α} {ids : List NodeId} {vs : List (Rgba α)}
    (h : List.Forall₂ (net.HasValue o) ids vs) (htexture : operation.texture? = none) :
    Gives o (node operation ids) net (operation.valueAt o.images o.point vs) :=
  gives_named h (by simp [htexture]) ""

variable (o) in
theorem gives_color (v : Rgba α) : Gives o (color v) net v := gives_node .nil rfl

theorem gives_texture {lookup : TextureLookup α} (h : o.kind lookup) :
    Gives o (texture lookup) net (lookup.valueAt o.images o.point) :=
  gives_named .nil (by rintro _ ⟨⟩; exact h) _

section

variable {a b c : NodeId} {u v w : Rgba α}

theorem gives_pair {operation : Operation α} (htexture : operation.texture? = none)
    (ha : net.HasValue o a v) (hb : net.HasValue o b w) :
    Gives o (node operation [a, b]) net (operation.valueAt o.images o.point [v, w]) :=
  gives_node (.cons ha (.cons hb .nil)) htexture

theorem gives_add (ha : net.HasValue o a v) (hb : net.HasValue o b w) :
    Gives o (add a b) net (v.map₂ (· + ·) w) := gives_pair rfl ha hb

theorem gives_subtract (ha : net.HasValue o a v) (hb : net.HasValue o b w) :
    Gives o (subtract a b) net (v.map₂ (· - ·) w) := gives_pair rfl ha hb

theorem gives_multiply (ha : net.HasValue o a v) (hb : net.HasValue o b w) :
    Gives o (multiply a b) net (v.map₂ (· * ·) w) := gives_pair rfl ha hb

theorem gives_divide (ha : net.HasValue o a v) (hb : net.HasValue o b w) :
    Gives o (divide a b) net (v.map₂ Scalar.quotient w) :=
  gives_pair rfl ha hb

theorem gives_power (ha : net.HasValue o a v) (hb : net.HasValue o b w) :
    Gives o (power a b) net (v.map₂ Scalar.power w) := gives_pair rfl ha hb

theorem gives_colorCorrection (ha : net.HasValue o a v) (hb : net.HasValue o b w) :
    Gives o (colorCorrection a b) net (v.correct w) := gives_pair rfl ha hb

theorem gives_clamp (ha : net.HasValue o a u) (hb : net.HasValue o b v)
    (hc : net.HasValue o c w) :
    Gives o (clamp a b c) net ((u.map₂ Scalar.maximum v).map₂ Scalar.minimum w) :=
  gives_node (.cons ha (.cons hb (.cons hc .nil))) rfl

/-! ### Selections -/

theorem hasValue_get {r g b a : NodeId} {u v w x : Rgba α} (hr : net.HasValue o r u)
    (hg : net.HasValue o g v) (hb : net.HasValue o b w) (ha : net.HasValue o a x) (c : Component) :
    net.HasValue o ((⟨r, g, b, a⟩ : Rgba NodeId).get c) ((⟨u, v, w, x⟩ : Rgba (Rgba α)).get c) := by
  cases c with
  | red => exact hr
  | green => exact hg
  | blue => exact hb
  | alpha => exact ha

theorem gives_swizzle {sources : Rgba NodeId} {values : Rgba (Rgba α)}
    (h : ∀ c, net.HasValue o (sources.get c) (values.get c)) (selection : Rgba Component) :
    Gives o (swizzle sources selection) net (values.map₂ Rgba.get selection) :=
  gives_node (.cons (h .red) (.cons (h .green) (.cons (h .blue) (.cons (h .alpha) .nil)))) rfl

theorem gives_broadcast (ha : net.HasValue o a v) (c : Component) :
    Gives o (broadcast a c) net (.replicate (v.get c)) :=
  gives_swizzle (hasValue_get ha ha ha ha) (.replicate c)

theorem gives_replaceAlpha (ha : net.HasValue o a v) (hb : net.HasValue o b w) :
    Gives o (replaceAlpha a b) net (v.withAlpha w.alpha) :=
  gives_swizzle (hasValue_get ha ha ha hb) ⟨.red, .green, .blue, .alpha⟩

/-! ### Operators of several nodes -/

theorem gives_rgbAverage [Scalar.TellsDivisors α] (ha : net.HasValue o a v) :
    Gives o (rgbAverage a) net (.replicate v.average) := by
  have hvalue : ((((Rgba.replicate v.red).map₂ (· + ·) (.replicate v.green)).map₂ (· + ·)
      (.replicate v.blue)).map₂ Scalar.quotient (.replicate 3.0)) = .replicate v.average := by
    simp only [Rgba.replicate, Rgba.map₂, Scalar.quotient_three]
    rfl
  refine (gives_broadcast ha .red).bind fun red net₁ h₁ hred => ?_
  refine (gives_broadcast (ha.extends h₁) .green).bind fun green net₂ h₂ hgreen => ?_
  refine (gives_add (hred.extends h₂) hgreen).bind fun sum net₃ h₃ hsum => ?_
  have ha₃ := ((ha.extends h₁).extends h₂).extends h₃
  refine (gives_broadcast ha₃ .blue).bind fun blue net₄ h₄ hblue => ?_
  refine (gives_add (hsum.extends h₄) hblue).bind fun total net₅ _ htotal => ?_
  refine (gives_color o (.replicate 3.0)).bind fun three net₆ h₆ hthree => ?_
  rw [← hvalue]
  exact gives_divide (htotal.extends h₆) hthree

theorem gives_premultiply (ha : net.HasValue o a v) :
    Gives o (premultiply a) net v.premultiplied := by
  refine (gives_broadcast ha .alpha).bind fun alpha net₁ h₁ halpha => ?_
  have ha₁ := ha.extends h₁
  refine (gives_multiply ha₁ halpha).bind fun product net₂ h₂ hproduct => ?_
  exact gives_replaceAlpha hproduct (ha₁.extends h₂)

end

end Build

end ShadeGraph
