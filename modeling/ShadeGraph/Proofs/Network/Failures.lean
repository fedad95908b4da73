import ShadeGraph.Proofs.Network.Twins

/-!
# Why there are no values

Whether a node has values depends on the textures below it and on the dimensions of the points, but
on no color. So nodes that differ only in the colors below them have values both, or fail for the same
reason.
-/

namespace ShadeGraph

variable {α β γ δ : Type}

/-- What is left of an outcome without its values. -/
def reason (d : Except δ β) : Except δ Unit := d.map fun _ => ()

theorem reason_eq_cases {d : Except δ β} {d' : Except δ γ} (h : reason d = reason d') :
    (∃ e, d = .error e ∧ d' = .error e) ∨ ∃ b b', d = .ok b ∧ d' = .ok b' := by
  cases d with
  | error e =>
    cases d' with
    | error e' =>
      cases h
      exact .inl ⟨e, rfl, rfl⟩
    | ok b' => cases h
  | ok b =>
    cases d' with
    | error e' => cases h
    | ok b' => exact .inr ⟨b, b', rfl, rfl⟩

theorem reason_mapM {ds : List (Except δ β)} {ds' : List (Except δ γ)}
    (h : List.Forall₂ (fun d d' => reason d = reason d') ds ds') :
    reason (ds.mapM id) = reason (ds'.mapM id) := by
  induction h with
  | nil => rfl
  | cons hfirst _ ih =>
    rw [List.mapM_cons, List.mapM_cons]
    obtain ⟨e, rfl, rfl⟩ | ⟨b, b', rfl, rfl⟩ := reason_eq_cases hfirst
    · rfl
    · obtain ⟨e, hrest, hrest'⟩ | ⟨bs, bs', hrest, hrest'⟩ := reason_eq_cases ih
      · rw [hrest, hrest']
        rfl
      · rw [hrest, hrest']
        rfl

variable [Scalar α]

/-- An operation that is no texture does not look at the values before it fails. -/
theorem reason_samples {operation operation' : Operation α}
    (h : operation.texture? = none) (h' : operation'.texture? = none)
    (hdims : ∀ n, operation.pairedDimensions n = operation'.pairedDimensions n)
    (images : ImageTable α) (uv : UvGrid α) {d d' : Except EvaluationError (List (Samples α))}
    (hinputs : reason d = reason d') :
    reason (d >>= operation.samples images uv) =
      reason (d' >>= operation'.samples images uv) := by
  obtain ⟨e, rfl, rfl⟩ | ⟨inputs, inputs', rfl, rfl⟩ := reason_eq_cases hinputs
  · rfl
  · change reason (operation.samples images uv inputs) =
      reason (operation'.samples images uv inputs')
    rw [Operation.samples_of_not_texture h, Operation.samples_of_not_texture h', hdims]
    split_ifs <;> rfl

namespace Twins

variable {nets later : Twins α} {a b : NodeId}

/-- Both nodes have values, or both have none, for the same reason. -/
abbrev FailAlike (nets : Twins α) (a b : NodeId) : Prop :=
  nets.Related (fun _ _ d d' => reason d = reason d') a b

theorem Alike.failAlike (h : nets.Alike a b) : nets.FailAlike a b :=
  h.related.mono fun _ _ _ _ hsame => congrArg reason hsame

theorem exists_reasons {ids ids' : List NodeId} (h : List.Forall₂ nets.FailAlike ids ids')
    (images : ImageTable α) (uv : UvGrid α) :
    ∃ ds ds', List.Forall₂ (nets.left.HasOutcome images uv) ids ds ∧
      List.Forall₂ (nets.right.HasOutcome images uv) ids' ds' ∧
      List.Forall₂ (fun d d' => reason d = reason d') ds ds' := by
  induction h with
  | nil => exact ⟨[], [], .nil, .nil, .nil⟩
  | cons hfirst _ ih =>
    obtain ⟨d, d', ha, hb, hsame⟩ := hfirst images uv
    obtain ⟨ds, ds', hids, hids', hrest⟩ := ih
    exact ⟨d :: ds, d' :: ds', .cons ha hids, .cons hb hids', .cons hsame hrest⟩

end Twins

namespace Build

variable {nets : Twins α} {n n' : NodeId}

/-- Both steps only add nodes, and return ones that fail alike. -/
abbrev FailsAlike (p q : Build α NodeId) (nets : Twins α) : Prop :=
  Agree p q nets fun a b later => later.FailAlike a b

theorem failsAlike_node {operation operation' : Operation α} (h : operation.texture? = none)
    (h' : operation'.texture? = none)
    (hdims : ∀ n, operation.pairedDimensions n = operation'.pairedDimensions n)
    {ids ids' : List NodeId} (hids : List.Forall₂ nets.FailAlike ids ids') :
    FailsAlike (node operation ids) (node operation' ids') nets := by
  refine agree_of_evaluates fun images uv => ?_
  obtain ⟨ds, ds', hleft, hright, hsame⟩ := Twins.exists_reasons hids images uv
  exact ⟨_, _, evaluates_named hleft operation "", evaluates_named hright operation' "",
    reason_samples h h' hdims images uv (reason_mapM hsame)⟩

variable (nets) in
theorem failsAlike_color (v w : Rgba α) : FailsAlike (color v) (color w) nets := by
  have hcolor (v : Rgba α) : (Operation.color v).texture? = none := rfl
  exact failsAlike_node (hcolor v) (hcolor w) (fun _ => rfl) .nil

theorem failsAlike_swizzle {sources sources' : Rgba NodeId}
    (h : ∀ c, nets.FailAlike (sources.get c) (sources'.get c)) (selection : Rgba Component) :
    FailsAlike (swizzle sources selection) (swizzle sources' selection) nets :=
  failsAlike_node rfl rfl (fun _ => rfl)
    (.cons (h .red) (.cons (h .green) (.cons (h .blue) (.cons (h .alpha) .nil))))

theorem failsAlike_clamp {a a' b b' c c' : NodeId} (ha : nets.FailAlike a a')
    (hb : nets.FailAlike b b') (hc : nets.FailAlike c c') :
    FailsAlike (clamp a b c) (clamp a' b' c') nets :=
  failsAlike_node rfl rfl (fun _ => rfl) (.cons ha (.cons hb (.cons hc .nil)))

/-- An operation on a node and a flat color, and what is built behind it. -/
theorem agree_anyFlat {f : NodeId → Build α β} {g : NodeId → Build α γ}
    {R : β → γ → Twins α → Prop} (hn : nets.FailAlike n n') {operation : Operation α}
    (htexture : operation.texture? = none) (v w : Rgba α)
    (hfg : ∀ m m' later, nets.Extend later → later.FailAlike m m' →
      Agree (f m) (g m') later R) :
    Agree (do f (← node operation [n, ← color v])) (do g (← node operation [n', ← color w])) nets
      R := by
  refine (failsAlike_color nets v w).bind fun c c' net₁ h₁ hc => ?_
  refine (failsAlike_node htexture htexture (fun _ => rfl)
    (.cons (hn.extend h₁) (.cons hc .nil))).bind fun m m' net₂ h₂ hm => ?_
  exact hfg m m' net₂ (h₁.trans h₂) hm

/-- The factors of a pass do not matter to whether there are values. -/
theorem failsAlike_exposurePass (hn : nets.FailAlike n n') (mode : ExposureMode)
    (t t' : ExposureTerms α) :
    FailsAlike (exposurePass n mode t) (exposurePass n' mode t') nets := by
  refine agree_anyFlat hn rfl _ _ fun product product' net₁ h₁ hproduct => ?_
  refine agree_anyFlat hproduct rfl _ _ fun scaled scaled' net₂ h₂ hscaled => ?_
  refine agree_anyFlat hscaled rfl _ _ fun curved curved' net₃ h₃ hcurved => ?_
  refine agree_anyFlat hcurved rfl _ _ fun scaled scaled' net₄ h₄ hscaled => ?_
  refine agree_anyFlat hscaled rfl _ _ fun result result' net₅ h₅ hresult => ?_
  have hn₅ := hn.extend ((h₁.trans h₂).trans ((h₃.trans h₄).trans h₅))
  cases mode with
  | printer => exact agree_pure hresult
  | gain | fstops =>
    refine failsAlike_swizzle (fun c => ?_) _
    cases c with
    | red | green | blue => exact hresult
    | alpha => exact hn₅

end Build

end ShadeGraph
