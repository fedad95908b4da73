import ShadeGraph.Proofs.Compile.Foretelling

/-!
# When compiling completes

A channel that has a source or is replaced gets a node, and a list of host materials is compiled to
its materials, unless a source gets to a gain out of range. Nothing else ends compiling with an
error where colors, rewirings and layer modes are stated as they should be.
-/

namespace ShadeGraph

variable {α : Type}

/-- A color or a texture file; a mapping channel replaces nothing. -/
def ChannelOverride.WellFormed : ChannelOverride α → Prop
  | .color shade => shade.WellFormed
  | .texture _ => True
  | .mapping _ => False

/-- Two sessions with the same settings and overrides. -/
structure Context.SameSettings (ctx later : Context α) : Prop where
  options : later.options = ctx.options
  overrides : later.overrides = ctx.overrides

theorem Context.SameSettings.continues {ctx later last : Context α} (h : ctx.SameSettings later)
    (hlast : later.Continues last) : ctx.SameSettings last :=
  ⟨hlast.options.trans h.options, hlast.overrides.trans h.overrides⟩

theorem Context.SameSettings.registrar {ctx later : Context α} (h : ctx.SameSettings later)
    (registrar : Registrar) : ctx.SameSettings { later with registrar } :=
  ⟨h.options, h.overrides⟩

variable [Scalar α]

namespace ChannelDescriptor

variable (d : ChannelDescriptor α) (ctx : Context α) (material : String)

/-- What replaces a channel of a material in a session. -/
def replacement? : Option (ChannelOverride α) :=
  d.override <|> ctx.overrides.find? (Scope.ofChannel material d.name).key
    ctx.options.useColorOverrides

structure WellFormed : Prop where
  source : Source.OptionalWellFormed d.source
  replacement : ∀ o, d.replacement? ctx material = some o → o.WellFormed

/-- Nothing replaces the channel, and its source gets to a gain out of range. -/
def Overflows : Prop :=
  d.replacement? ctx material = none ∧ ∃ source, d.source = some source ∧ source.hasNode? = none

variable {d ctx material} {later : Context α}

theorem replacement?_of_sameSettings (h : ctx.SameSettings later) :
    d.replacement? later material = d.replacement? ctx material := by
  rw [replacement?, replacement?, h.options, h.overrides]

theorem WellFormed.of_sameSettings (hd : d.WellFormed ctx material) (h : ctx.SameSettings later) :
    d.WellFormed later material :=
  ⟨hd.source, fun o ho => hd.replacement o (replacement?_of_sameSettings h ▸ ho)⟩

theorem overflows_of_sameSettings (h : ctx.SameSettings later) :
    d.Overflows later material ↔ d.Overflows ctx material := by
  rw [Overflows, Overflows, replacement?_of_sameSettings h]

end ChannelDescriptor

namespace Compile

variable {ctx : Context α} {material : String} {d : ChannelDescriptor α}

/-! ### Channels -/

theorem total_overrideTexture (scope : Scope) (file : TextureFile α) :
    Total (overrideTexture scope file) :=
  total_get.bind fun _ => (total_note _).bind fun _ => total_compileTexture scope _

theorem ends_resolveOverride (hd : d.WellFormed ctx material) :
    Ends (resolveOverride (Scope.ofChannel material d.name) d.override) ctx
      (fun n _ => n.isSome = (d.replacement? ctx material).isSome) fun _ => False := by
  have hfind : Ends (overrideFor (Scope.ofChannel material d.name) d.override) ctx
      (fun o later => d.replacement? ctx material = o ∧ ctx = later) fun _ => False :=
    ends_of_run_ok rfl ⟨rfl, rfl⟩
  refine hfind.bind ?_
  rintro o _ ⟨ho, rfl⟩
  rw [ho]
  cases o with
  | none => exact ends_pure rfl
  | some o =>
    have hwell := hd.replacement o ho
    have hnode {p : Compile α (Option NodeId)} (hp : Foretells p Option.isSome (some true)) :
        Ends p ctx (fun n _ => n.isSome = true) fun _ => False :=
      (hp ctx).mono (fun _ _ h => (Option.some.inj h).symm) fun _ h => nomatch h.2
    cases o with
    | color shade => exact hnode ((total_debug _).bind fun _ => foretells_some (total_color hwell))
    | texture file =>
      exact hnode ((total_debug _).bind fun _ => foretells_some (total_overrideTexture _ file))
    | mapping channel => exact hwell.elim

/-- A source that has no node gets a flat color. -/
theorem foretells_sourceNode (scope : Scope) (channel : String) {source : Source α}
    (h : source.WellFormed) :
    Foretells (do
      match ← compileSource scope source with
      | some n => return some n
      | none => return some (← build (fallbackNode channel)))
      Option.isSome (source.hasNode?.map fun _ => true) := by
  rw [Option.map_eq_bind]
  refine (foretells_compileSource scope h).bind fun n => ?_
  cases n with
  | some n => exact foretells_pure (some n)
  | none => exact foretells_some (total_build _)

/-- A channel gets a node if it has a source or is replaced, unless its source gets to a gain out of
range. -/
theorem ends_compileChannel (hd : d.WellFormed ctx material) :
    Ends (compileChannel material d) ctx
      (fun n later => ctx.Continues later ∧ ¬ d.Overflows ctx material ∧
        n.isSome = ((d.replacement? ctx material).isSome || d.source.isSome))
      fun e => e = .gainRange ∧ d.Overflows ctx material := by
  have hends : Ends (compileChannel material d) ctx
      (fun n _ => ¬ d.Overflows ctx material ∧
        n.isSome = ((d.replacement? ctx material).isSome || d.source.isSome))
      fun e => e = .gainRange ∧ d.Overflows ctx material := by
    refine ((ends_resolveOverride hd).mono (fun _ _ h => h) fun _ h => h.elim).bind ?_
    intro n later hn
    cases n with
    | some n =>
      refine ends_pure ⟨fun h => ?_, by rw [← hn]; rfl⟩
      rw [h.1] at hn
      cases hn
    | none =>
      have hnone : d.replacement? ctx material = none :=
        Option.isNone_iff_eq_none.mp (Option.isSome_eq_false_iff.mp hn.symm)
      cases hsource : d.source with
      | none =>
        refine ends_pure ⟨?_, by rw [hnone]; rfl⟩
        rintro ⟨-, source, hsome, -⟩
        cases hsource.symm.trans hsome
      | some source =>
        have hwell : source.WellFormed := by
          have h := hd.source
          rwa [hsource] at h
        refine (foretells_sourceNode _ d.name hwell later).mono ?_ ?_
        · intro n _ htold
          obtain ⟨b, hb, hnode⟩ := Option.map_eq_some_iff.mp htold
          refine ⟨?_, by rw [hnone, ← hnode]; rfl⟩
          rintro ⟨-, source, hsome, hoverflow⟩
          cases hsource.symm.trans hsome
          cases hb.symm.trans hoverflow
        · rintro e ⟨he, htold⟩
          exact ⟨he, hnone, source, hsource, Option.map_eq_none_iff.mp htold⟩
  constructor
  · intro n later hok
    have hkeeps := keeps_compileChannel material d ctx
    rw [hok] at hkeeps
    exact ⟨hkeeps, hends.ok hok⟩
  · exact hends.error

/-! ### Materials -/

variable {middle : Context α} {hosts : HostTable α} {roots : List HostId}

theorem ends_compileChannels_wellFormed {ds : List (ChannelDescriptor α)}
    (hds : ∀ d ∈ ds, d.WellFormed ctx material) (channels : Table String NodeId)
    (h : ctx.SameSettings middle) :
    Ends (compileChannels material ds channels) middle (fun _ later => ctx.SameSettings later)
      fun e => e = .gainRange ∧ ∃ d ∈ ds, d.Overflows ctx material := by
  induction ds generalizing channels middle with
  | nil => exact ends_pure h
  | cons d ds ih =>
    obtain ⟨hd, hds⟩ := List.forall_mem_cons.mp hds
    have hrest (channels : Table String NodeId) {later : Context α} (h : ctx.SameSettings later) :
        Ends (compileChannels material ds channels) later (fun _ last => ctx.SameSettings last)
          fun e => e = .gainRange ∧ ∃ d' ∈ d :: ds, d'.Overflows ctx material := by
      refine (ih hds channels h).mono (fun _ _ h => h) ?_
      rintro e ⟨he, d', hd', hoverflows⟩
      exact ⟨he, d', List.mem_cons_of_mem d hd', hoverflows⟩
    unfold compileChannels
    split
    · exact (ends_warn _).bind fun _ later hlater => hrest channels (h.continues hlater)
    · refine ((ends_compileChannel (hd.of_sameSettings h)).mono (fun _ _ h => h) ?_).bind ?_
      · rintro e ⟨he, hoverflows⟩
        exact ⟨he, d, List.mem_cons_self,
          (ChannelDescriptor.overflows_of_sameSettings h).mp hoverflows⟩
      · rintro n later ⟨hlater, _⟩
        cases n with
        | some n => exact hrest _ (h.continues hlater)
        | none => exact hrest _ (h.continues hlater)

theorem ends_compileMaterial_wellFormed {id : HostId}
    (hds : ∀ d ∈ (hosts.get id).channels, d.WellFormed ctx (hosts.get id).name)
    (h : ctx.SameSettings middle) :
    Ends (compileMaterial hosts id) middle (fun _ later => ctx.SameSettings later) fun e =>
      e = .gainRange ∧ ∃ d ∈ (hosts.get id).channels, d.Overflows ctx (hosts.get id).name := by
  refine (ends_registerStep _).bind ?_
  rintro _ _ ⟨registrar, rfl⟩
  have hchannels := ends_compileChannels_wellFormed hds [] (h.registrar registrar)
  refine hchannels.bind fun channels last hlast => ?_
  refine ends_get.bind ?_
  rintro _ _ ⟨rfl, rfl⟩
  exact (ends_debug _).bind fun _ _ h => ends_pure (hlast.continues h)

/-- All channels of the plain materials that the roots lead to are stated as they should be. -/
def WellFormedBelow (hosts : HostTable α) (roots : List HostId) (ctx : Context α) : Prop :=
  ∀ p, hosts.IsPlain p → hosts.Reached roots p →
    ∀ d ∈ (hosts.get p).channels, d.WellFormed ctx (hosts.get p).name

/-- Some channel of a plain material that the roots lead to gets to a gain out of range. -/
def OverflowsBelow (hosts : HostTable α) (roots : List HostId) (ctx : Context α) : Prop :=
  ∃ p, hosts.IsPlain p ∧ hosts.Reached roots p ∧
    ∃ d ∈ (hosts.get p).channels, d.Overflows ctx (hosts.get p).name

theorem ends_visitWithin_wellFormed (hwell : WellFormedBelow hosts roots ctx) (depth : Nat)
    {id : HostId} (hid : hosts.Reached roots id) (tour : Tour) (h : ctx.SameSettings middle) :
    Ends (visitWithin hosts depth id tour) middle (fun _ later => ctx.SameSettings later)
      fun e => e = .gainRange ∧ OverflowsBelow hosts roots ctx := by
  induction depth generalizing id tour middle with
  | zero => exact ends_pure h
  | succ depth ih =>
    unfold visitWithin
    dsimp only
    split_ifs with hmulti hmet
    · exact ends_pure h
    · refine (ends_registerStep _).bind ?_
      rintro _ _ ⟨registrar, rfl⟩
      refine ends_foldlM (fun _ _ => ()) (g := ()) (I := fun _ _ later => ctx.SameSettings later)
        ?_ (h.registrar registrar)
      rintro ⟨slot, sub⟩ hslot _ tour later hlater
      refine (ends_note _).bind fun _ last hlast => ?_
      exact ih (hid.slot hslot) tour (hlater.continues hlast)
    · refine (ends_registerStep _).bind ?_
      rintro r _ ⟨registrar, rfl⟩
      split_ifs
      · exact ends_pure (h.registrar registrar)
      · have hplain : hosts.IsPlain id := by simpa [HostTable.IsPlain] using hmulti
        have hds := hwell id hplain hid
        have hmaterial := ends_compileMaterial_wellFormed hds (h.registrar registrar)
        refine (hmaterial.mono (fun _ _ h => h) ?_).bind fun m _ h => ends_pure h
        rintro e ⟨he, d, hd, hoverflows⟩
        exact ⟨he, id, hplain, hid, d, hd, hoverflows⟩

theorem ends_compileMaterials_wellFormed (hwell : WellFormedBelow hosts roots ctx) :
    Ends (compileMaterials hosts roots) ctx (fun _ _ => True)
      fun e => e = .gainRange ∧ OverflowsBelow hosts roots ctx := by
  have htours := ends_foldlM (fun _ _ => ()) (g := ()) (s := ({} : Tour))
    (I := fun _ _ later => ctx.SameSettings later)
    (fun id hid _ tour middle h =>
      ends_visitWithin_wellFormed hwell (hosts.size + 1) ⟨id, hid, .refl⟩ tour h) ⟨rfl, rfl⟩
  exact htours.bind fun tour later _ => ends_pure trivial

/-- Compiling a channel that is stated as it should be gives a node if the channel has a source or
is replaced, and compiling a list of host materials with such channels gives its materials. Each
fails only for a gain that leads out of range as an exponent: a channel does just if nothing
replaces it and its source gets to such a gain, and a list only if a channel below it does. -/
theorem compiling_completes (ctx : Context α) :
    (∀ material (d : ChannelDescriptor α), d.WellFormed ctx material →
      (∃ n later, (compileChannel material d).run.run ctx = (.ok n, later) ∧
        ¬ d.Overflows ctx material ∧
        n.isSome = ((d.replacement? ctx material).isSome || d.source.isSome)) ∨
      ∃ later, (compileChannel material d).run.run ctx = (.error .gainRange, later) ∧
        d.Overflows ctx material) ∧
    ∀ (hosts : HostTable α) (ids : List HostId), WellFormedBelow hosts ids ctx →
      (∃ materials later, (compileMaterials hosts ids).run.run ctx = (.ok materials, later)) ∨
      ∃ later, (compileMaterials hosts ids).run.run ctx = (.error .gainRange, later) ∧
        OverflowsBelow hosts ids ctx := by
  constructor
  · intro material d hd
    have hends := ends_compileChannel hd
    rcases hrun : (compileChannel material d).run.run ctx with ⟨e | n, later⟩
    · obtain ⟨rfl, hoverflows⟩ := hends.error hrun
      exact .inr ⟨later, rfl, hoverflows⟩
    · exact .inl ⟨n, later, rfl, (hends.ok hrun).2⟩
  · intro hosts ids hwell
    have hends := ends_compileMaterials_wellFormed hwell
    rcases hrun : (compileMaterials hosts ids).run.run ctx with ⟨e | materials, later⟩
    · obtain ⟨rfl, hoverflows⟩ := hends.error hrun
      exact .inr ⟨later, rfl, hoverflows⟩
    · exact .inl ⟨materials, later, rfl⟩

/-- A gray that is exposed with a gain of 1024. -/
def exposedChannel (mode : ExposureMode) : ChannelDescriptor Float where
  name := "base_color"
  source := some (.correction (some (.color (.gray 0.5))) { Correction.neutral with
    useExposure := true, exposureMode := mode, globalExposure := ⟨1024.0, 1.0, 1.0, 0.0⟩ })

def exposedHost (mode : ExposureMode) : HostTable Float :=
  ⟨#[{ handle := 1, name := "A", channels := [exposedChannel mode] }]⟩

/-- As a factor the gain is in range, as a number of f-stops it need not be. -/
theorem compiling_completes_exposed :
    let ctx : Context Float := Context.start .standard .none {} ∅
    (∃ n later, (compileChannel "A" (exposedChannel .gain)).run.run ctx = (.ok (some n), later)) ∧
    (∃ materials later,
      (compileMaterials (exposedHost .gain) [0]).run.run ctx = (.ok materials, later)) ∧
    ((∃ later, (compileChannel "A" (exposedChannel .fstops)).run.run ctx =
      (.error .gainRange, later)) ↔ Scalar.exp2? (1024.0 : Float) = none) := by
  intro ctx
  have hnone (mode : ExposureMode) : (exposedChannel mode).replacement? ctx "A" = none := rfl
  have hwell (mode : ExposureMode) : (exposedChannel mode).WellFormed ctx "A" := by
    refine ⟨⟨?_, trivial⟩, ?_⟩
    · intro hcustom
      cases hcustom
    · intro o ho
      cases (hnone mode).symm.trans ho
  have hgain : ¬ (exposedChannel .gain).Overflows ctx "A" := by
    rintro ⟨-, source, ⟨⟩, hoverflow⟩
    cases hoverflow
  have hstops :
      (exposedChannel .fstops).Overflows ctx "A" ↔ Scalar.exp2? (1024.0 : Float) = none := by
    rw [ChannelDescriptor.Overflows, hnone, and_iff_right rfl]
    simp only [exposedChannel, Option.some.injEq, exists_eq_left', Source.hasNode?,
      Source.optionalHasNode?, Correction.check, Exposure.check, Exposure.factor?]
    cases Scalar.exp2? (1024.0 : Float) <;> simp [Correction.neutral]
  obtain ⟨hchannel, hmaterials⟩ := compiling_completes ctx
  refine ⟨?_, ?_, ?_⟩
  · rcases hchannel "A" _ (hwell .gain) with ⟨n, later, hrun, _, hnode⟩ | ⟨_, _, hoverflow⟩
    · obtain ⟨n, rfl⟩ := Option.isSome_iff_exists.mp hnode
      exact ⟨n, later, hrun⟩
    · exact absurd hoverflow hgain
  · have hbelow : ∀ p, (exposedHost .gain).Reached [0] p → p = 0 := fun p hp =>
      List.mem_singleton.mp (hp.mem [0] (by decide) (by decide))
    have hchannels : WellFormedBelow (exposedHost .gain) [0] ctx := by
      intro p _ hp d hd
      obtain rfl := hbelow p hp
      obtain rfl := List.mem_singleton.mp hd
      exact hwell .gain
    rcases hmaterials _ [0] hchannels with hdone | ⟨_, _, p, _, hp, d, hd, hoverflow⟩
    · exact hdone
    · obtain rfl := hbelow p hp
      obtain rfl := List.mem_singleton.mp hd
      exact absurd hoverflow hgain
  · rw [← hstops]
    rcases hchannel "A" _ (hwell .fstops) with ⟨n, later, hrun, hfine, _⟩ | ⟨later, hrun, hoverflow⟩
    · refine iff_of_false ?_ hfine
      rintro ⟨later', hrun'⟩
      cases hrun.symm.trans hrun'
    · exact iff_of_true ⟨later, hrun⟩ hoverflow

end Compile

end ShadeGraph
