import ShadeGraph.Proofs.Compile.Tour
import ShadeGraph.Proofs.Network.Operators

/-!
# What compiling adds

Compiling a channel only adds nodes to the network of a session. `Adds` tells of a step that it does
so, and what its result is in the network that it leaves.
-/

namespace ShadeGraph

variable {α β γ : Type}

/-- The network has this flat color at a node. -/
def Network.HasColor (net : Network α) (n : NodeId) (v : Rgba α) : Prop :=
  ∃ name, net.get? n = some { operation := .color v, inputs := [], name }

theorem Network.HasColor.hasValue [Scalar α] {net : Network α} {n : NodeId} {v : Rgba α}
    (h : net.HasColor n v) (o : Probe α) : net.HasValue o n v := by
  obtain ⟨name, hnode⟩ := h
  refine ⟨lt_size_of_get? hnode, valueAt_eq hnode o.point, (all_iff hnode).mpr ⟨?_, ?_⟩⟩
  · rintro lookup ⟨⟩
  · simp

/-- A session before and after something was added to it. -/
structure Context.Grows (ctx later : Context α) : Prop extends Context.Continues ctx later where
  network : ctx.network.Extends later.network

/-- The constants of a session are one and zero. -/
structure Context.HasConstants [OfScientific α] (ctx : Context α) : Prop where
  one : ctx.network.HasColor ctx.constants.one (.replicate 1.0)
  zero : ctx.network.HasColor ctx.constants.zero (.replicate 0.0)

namespace Context

variable {a b c : Context α}

theorem Grows.refl (ctx : Context α) : ctx.Grows ctx := ⟨.refl ctx, .refl ctx.network⟩

theorem Grows.trans (hab : a.Grows b) (hbc : b.Grows c) : a.Grows c :=
  ⟨hab.toContinues.trans hbc.toContinues, hab.network.trans hbc.network⟩

theorem Grows.hasConstants [OfScientific α] (h : a.Grows b) (ha : a.HasConstants) :
    b.HasConstants := by
  obtain ⟨one, hone⟩ := ha.one
  obtain ⟨zero, hzero⟩ := ha.zero
  constructor
  · exact ⟨one, by rw [h.constants]; exact h.network _ _ hone⟩
  · exact ⟨zero, by rw [h.constants]; exact h.network _ _ hzero⟩

theorem hasConstants_start [OfScientific α] (options : Options α) (reporter : Reporter)
    (registrar : Registrar) (net : Network α) :
    (start options reporter registrar net).HasConstants := by
  let white : Node α := { operation := .color (.replicate 1.0), inputs := [], name := "one" }
  let black : Node α := { operation := .color (.replicate 0.0), inputs := [], name := "zero" }
  have hwhite : (net.insert white).get? net.size = some white :=
    net.get?_insert_size (by simp [white])
  have hblack : ((net.insert white).insert black).get? (net.insert white).size = some black :=
    Network.get?_insert_size _ (by simp [black])
  exact ⟨⟨"one", Network.Extends.insert _ black _ _ hwhite⟩, ⟨"zero", hblack⟩⟩

end Context

namespace Compile

/-- If it succeeds, the step adds to the session, and leaves a result and a network as told. -/
def Adds (p : Compile α β) (ctx : Context α) (Q : β → Network α → Prop) : Prop :=
  Ends p ctx (fun b later => ctx.Grows later ∧ Q b later.network) fun _ => True

section

variable {ctx : Context α} {p : Compile α β} {Q : β → Network α → Prop}

theorem adds_of_run_ok {b : β} {later : Context α} (hrun : p.run.run ctx = (.ok b, later))
    (hgrows : ctx.Grows later) (h : Q b later.network) : Adds p ctx Q :=
  ends_of_run_ok hrun ⟨hgrows, h⟩

theorem adds_pure {b : β} (h : Q b ctx.network) : Adds (pure b) ctx Q :=
  adds_of_run_ok rfl (.refl ctx) h

theorem adds_throw (e : CompileError) : Adds (throw e) ctx Q := ends_of_run_error rfl trivial

theorem Adds.bind {f : β → Compile α γ} {R : γ → Network α → Prop} (h : Adds p ctx Q)
    (hf : ∀ b later, ctx.Grows later → Q b later.network → Adds (f b) later R) :
    Adds (p >>= f) ctx R := by
  refine Ends.bind h fun b later ⟨hgrows, hb⟩ => ?_
  refine (hf b later hgrows hb).mono (fun c last => ?_) fun _ => id
  rintro ⟨hlast, hc⟩
  exact ⟨hgrows.trans hlast, hc⟩

theorem Adds.mono {R : β → Network α → Prop} (h : Adds p ctx Q) (hR : ∀ b net, Q b net → R b net) :
    Adds p ctx R :=
  Ends.mono h (fun b later hb => ⟨hb.1, hR b later.network hb.2⟩) fun _ => id

theorem adds_get_bind {f : Context α → Compile α β} (h : Adds (f ctx) ctx Q) :
    Adds (get >>= f) ctx Q := by
  refine Ends.bind ends_get ?_
  rintro _ _ ⟨rfl, rfl⟩
  exact h

theorem adds_constants_bind {f : Constants → Compile α β} (h : Adds (f ctx.constants) ctx Q) :
    Adds (constants >>= f) ctx Q := adds_get_bind h

theorem adds_build {step : Build α β} (h : Build.Adds step ctx.network Q) :
    Adds (build step) ctx Q := by
  have hgrows : ctx.Grows ((build step).run.run ctx).2 := ⟨keeps_build step ctx, h.grows⟩
  exact adds_of_run_ok rfl hgrows h.result

variable (ctx) in
theorem adds_warn (text : String) : Adds (warn text) ctx fun _ _ => True :=
  adds_of_run_ok rfl ⟨keeps_warn text ctx, .refl _⟩ trivial

variable (ctx) in
theorem adds_debug (text : String) : Adds (debug text) ctx fun _ _ => True :=
  adds_of_run_ok rfl ⟨keeps_debug text ctx, .refl _⟩ trivial

variable (ctx) in
theorem adds_note (f : Usage α → Usage α) : Adds (note f) ctx fun _ _ => True :=
  adds_of_run_ok rfl ⟨keeps_note f ctx, .refl _⟩ trivial

end

variable [Scalar α] {o : Probe α} {ctx : Context α}

/-- The step adds nodes and returns one with this value. -/
abbrev Gives (o : Probe α) (p : Compile α NodeId) (ctx : Context α) (v : Rgba α) : Prop :=
  Adds p ctx fun n net => net.HasValue o n v

theorem gives_build {step : Build α NodeId} {v : Rgba α} (h : Build.Gives o step ctx.network v) :
    Gives o (build step) ctx v := adds_build h

variable (o ctx) in
theorem adds_color (shade : Shade α) :
    Adds (color shade) ctx fun n net => ∃ v, shade.toRgba 1.0 = .ok v ∧ net.HasValue o n v := by
  unfold color
  cases shade.toRgba 1.0 with
  | error e => exact adds_throw _
  | ok v => exact (gives_build (Build.gives_color o v)).mono fun n net h => ⟨v, rfl, h⟩

end Compile

end ShadeGraph
