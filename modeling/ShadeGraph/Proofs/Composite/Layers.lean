import ShadeGraph.Proofs.Number.Exact
import ShadeGraph.Proofs.Compile.TwinSessions

/-!
# Layers of a composite

A list of layers is compiled part by part: the first usable layer of all of them replaces. A layer
with all of its opacity and without a mask has the node of its source.
-/

namespace ShadeGraph

variable {α β γ : Type} [Scalar α]

/-- Scalars for which an opacity of a hundred percent is a share of one. -/
class Scalar.FullShare (α : Type) [Scalar α] : Prop where
  share_plain : Scalar.eq (LayerSettings.plain : LayerSettings α).share 1.0 = true

instance : Scalar.FullShare Float := ⟨by decide⟩

/-- A layer in use with all of its opacity and without a mask. -/
structure LayerSettings.IsFull (settings : LayerSettings α) (mask : Option (Source α)) : Prop where
  enabled : settings.enabled = true
  unmasked : mask = none ∨ settings.maskEnabled = false
  opacity : settings.opacity = 100.0

theorem LayerSettings.IsFull.share [Scalar.FullShare α] {settings : LayerSettings α}
    {mask : Option (Source α)} (h : settings.IsFull mask) :
    Scalar.eq settings.share 1.0 = true := by
  rw [LayerSettings.share, h.opacity]
  exact Scalar.FullShare.share_plain

/-! ### Exact arithmetic -/

-- Exact numbers are imported first: their operations are then found as those of scalars everywhere.
section

variable {α : Type} [Scalar.Exact α] (settings : LayerSettings α)

theorem LayerSettings.share_exact : settings.share = min (max settings.opacity 0) 100 / 100 := by
  have hhundred : (100.0 : α) = 100 := by norm_num
  simp [share, hhundred]

instance : Scalar.FullShare α where
  share_plain := by
    have hhundred : (LayerSettings.plain : LayerSettings α).opacity = 100 := by
      norm_num [LayerSettings.plain]
    rw [LayerSettings.share_exact, hhundred]
    norm_num

/-- The share of a layer that its mask lets through. -/
def maskCover (mask : Option (Rgba α)) : α := mask.elim 1 fun m => min (max m.average 0) 1

theorem LayerSettings.weighted_alpha (v : Rgba α) (mask : Option (Rgba α)) :
    (settings.weighted v mask).alpha = maskCover mask * v.alpha * settings.share := by
  cases mask <;> simp +contextual [weighted, Rgba.withAlpha, maskCover]

end

/-! ### Premultiplied blends -/

/-- Values that are premultiplied on a condition. -/
def premultipliedIf (condition : Bool) (d : Except EvaluationError (Samples α)) :
    Except EvaluationError (Samples α) :=
  if condition then d.map (·.map Rgba.premultiplied) else d

theorem exists_ok_of_premultipliedIf {condition : Bool} {d : Except EvaluationError (Samples α)}
    {values : Samples α} (h : premultipliedIf condition d = .ok values) :
    ∃ values, d = .ok values := by
  cases d with
  | error e => cases condition <;> cases h
  | ok values => exact ⟨values, rfl⟩

namespace Build

variable {net : Network α} {images : ImageTable α} {uv : UvGrid α}

theorem evaluates_premultiplyIf {n : NodeId} {d : Except EvaluationError (Samples α)}
    (condition : Bool) (h : net.HasOutcome images uv n d) :
    Evaluates (if condition then premultiply n else pure n) net images uv
      (premultipliedIf condition d) := by
  cases condition with
  | true => exact evaluates_premultiply h
  | false => exact adds_pure h

theorem evaluates_blendChannel (scope : Scope) {layers : List (NodeId × BlendType)}
    {ds : List (BlendType × Except EvaluationError (Samples α))}
    (h : List.Forall₂ (net.HasLayerOutcome images uv) layers ds) :
    Evaluates (blendChannel scope layers) net images uv
      (premultipliedIf (scope.premultiply && !scope.isOpacity) (blendOutcomes uv ds)) :=
  (evaluates_layeredBlend h).bind fun _ _ _ hn => evaluates_premultiplyIf _ hn

end Build

/-! ### Lists of layers -/

namespace Compile

/-- The layers of both lists are compiled one after the other. The second list has a bottom layer
only if the first one has no usable layer. -/
theorem compileLayers_append (scope : Scope) (index : Nat) (bottom : Bool)
    (below above : List (Layer α)) :
    compileLayers scope index bottom (below ++ above) = (do
      let first ← compileLayers scope index bottom below
      let second ← compileLayers scope (index + below.length) (bottom && first.isEmpty) above
      return first ++ second) := by
  induction below generalizing index bottom with
  | nil => simp [compileLayers]
  | cons layer below ih =>
    rw [List.cons_append, compileLayers, compileLayers, bind_assoc]
    refine bind_congr fun entry => ?_
    have hindex : index + 1 + below.length = index + (layer :: below).length := by
      rw [List.length_cons, Nat.add_assoc, Nat.add_comm 1]
    cases entry with
    | none =>
      dsimp only
      rw [ih, hindex]
    | some entry => simp [ih, hindex]

omit [Scalar α] in
theorem blendLayers_eq (scope : Scope) {layers : List (NodeId × BlendType)}
    (h : layers.isEmpty = false) : blendLayers (α := α) scope layers = (do
      let n ← build (Build.blendChannel scope layers)
      return some n) := by
  simp [blendLayers, h]

theorem compileLayer_full [Scalar.FullShare α] (scope : Scope) (index : Nat)
    {source mask : Option (Source α)} {settings : LayerSettings α} (h : settings.IsFull mask) :
    compileLayer scope index true (.mk source mask settings) = (do
      match ← compileOptional scope.inner source with
      | none =>
        if source.isSome then warn (failedLayerText scope index)
        return none
      | some n => return some (n, .replace)) := by
  have hlayer (n : NodeId) : (do
      let n ← build (Build.weightedLayer (← constants) n none settings.share)
      let blend ← pure BlendType.replace
      return some (n, blend)) = (pure (some (n, BlendType.replace)) : Compile α _) := by
    simp only [Build.weightedLayer, Build.sharedAlpha, h.share, if_true]
    rfl
  rw [compileLayer]
  simp only [h.enabled]
  refine bind_congr fun n => ?_
  cases n with
  | none => rfl
  | some n =>
    rcases h.unmasked with rfl | hdisabled
    · dsimp only
      split <;> exact hlayer n
    · simp only [hdisabled]
      exact hlayer n

/-! ### Two results of one session -/

/-- Both steps end in the same error, have no node, or have nodes that evaluate as told. -/
inductive Relates (r : OutcomeRelation α) (p q : Compile α (Option NodeId)) (ctx : Context α) : Prop
  | nodes {n m : NodeId} {later later' : Context α} (left : p.run.run ctx = (.ok (some n), later))
      (right : q.run.run ctx = (.ok (some m), later'))
      (values : ∀ images uv,
        r images uv (later.network.evaluate images uv n) (later'.network.evaluate images uv m))
  | none {later later' : Context α} (left : p.run.run ctx = (.ok none, later))
      (right : q.run.run ctx = (.ok none, later'))
  | error {e : CompileError} {later later' : Context α} (left : p.run.run ctx = (.error e, later))
      (right : q.run.run ctx = (.error e, later'))

theorem Agree.relates {r : OutcomeRelation α} {p q : Compile α (Option NodeId)} {ctx : Context α}
    (h : Agree p q ⟨ctx, ctx⟩ fun n m nets => Option.Rel (nets.Related r) n m) :
    Relates r p q ctx := by
  cases h with
  | error hp hq => exact .error hp hq
  | ok hp hq _ hn =>
    cases hn with
    | none => exact .none hp hq
    | some hn => exact .nodes hp hq hn.evaluate

theorem MirrorsOption.relates {p q : Compile α (Option NodeId)} {ctx : Context α}
    (h : MirrorsOption p q ⟨ctx, ctx⟩) : Relates (fun _ _ d d' => d = d') p q ctx := by
  refine Agree.relates (h.mono fun n m nets hn => ?_)
  cases hn with
  | none => exact .none
  | some hn => exact .some hn.related

end Compile

end ShadeGraph
