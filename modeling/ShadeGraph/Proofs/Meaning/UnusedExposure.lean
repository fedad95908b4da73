import ShadeGraph.Proofs.Compile.Remarks
import ShadeGraph.Proofs.Compile.TwinSessions
import ShadeGraph.Proofs.Composite.Shown
import ShadeGraph.Proofs.Network.Failures

/-!
# Exposure settings that are not in use

The exposure settings of a component that is switched off change no value of a compiled correction.
They are read all the same as soon as another component is switched on: what they give rise to is
reported, and a gain out of range among them is an error.
-/

namespace ShadeGraph

variable {α β γ δ ε : Type}

/-! ### Settings that differ where they are not in use -/

/-- The settings differ at most in the exposure of components that are switched off. -/
def Correction.SameInUse (p q : Correction α) : Prop :=
  ∃ red green blue,
    q = { p with redExposure := red, greenExposure := green, blueExposure := blue } ∧
    (p.redEnabled = true → red = p.redExposure) ∧
    (p.greenEnabled = true → green = p.greenExposure) ∧
    (p.blueEnabled = true → blue = p.blueExposure)

section

variable [Scalar α]

theorem Exposure.exposed?_congr {e e' : Exposure α} {used : Bool} (h : used = true → e' = e)
    (mode : ExposureMode) (x : α) : e'.exposed? mode used x = e.exposed? mode used x := by
  cases used with
  | false => rfl
  | true => rw [h rfl]

namespace Correction

variable {p q : Correction α}

theorem SameInUse.value? (h : p.SameInUse q) : q.value? = p.value? := by
  obtain ⟨red, green, blue, rfl, hred, hgreen, hblue⟩ := h
  let q := { p with redExposure := red, greenExposure := green, blueExposure := blue }
  have hexposed : q.exposed? = p.exposed? := by
    funext v
    simp only [q, Correction.exposed?, Exposure.exposed?_congr hred,
      Exposure.exposed?_congr hgreen, Exposure.exposed?_congr hblue]
  have hlightened : q.lightened? = p.lightened? := by
    funext v
    rw [lightened?, lightened?, hexposed]
    rfl
  funext v
  rw [Correction.value?, Correction.value?, hlightened]
  rfl

/-- The settings of components that are switched off give rise to nothing. -/
def UnusedSilent (scope : Scope) (p : Correction α) : Prop :=
  (p.redEnabled = false → p.redExposure.remarks scope p.exposureMode = {}) ∧
  (p.greenEnabled = false → p.greenExposure.remarks scope p.exposureMode = {}) ∧
  (p.blueEnabled = false → p.blueExposure.remarks scope p.exposureMode = {})

end Correction

theorem Exposure.remarks_congr {e e' : Exposure α} {used : Bool} {scope : Scope}
    {mode : ExposureMode} (h : used = true → e' = e) (he : used = false → e.remarks scope mode = {})
    (he' : used = false → e'.remarks scope mode = {}) :
    e.remarks scope mode = e'.remarks scope mode := by
  cases used with
  | false => rw [he rfl, he' rfl]
  | true => rw [h rfl]

namespace Correction

variable {p q : Correction α}

theorem SameInUse.singleRemarks {scope : Scope} (h : p.SameInUse q) (hp : p.UnusedSilent scope)
    (hq : q.UnusedSilent scope) : p.singleRemarks scope = q.singleRemarks scope := by
  obtain ⟨red, green, blue, rfl, hred, hgreen, hblue⟩ := h
  rw [Correction.singleRemarks, Exposure.remarks_congr hred hp.1 hq.1,
    Exposure.remarks_congr hgreen hp.2.1 hq.2.1, Exposure.remarks_congr hblue hp.2.2 hq.2.2]
  rfl

/-- Where unused settings give rise to nothing, or are not read, corrections report the same. -/
theorem SameInUse.remarks (h : p.SameInUse q) (scope : Scope)
    (hsilent : p.useExposure = true → p.usesSingle = true →
      p.UnusedSilent scope ∧ q.UnusedSilent scope) : p.remarks scope = q.remarks scope := by
  have hother : q.remarks scope = p.rewireRemarks.andThen
      (if p.useExposure then
        (p.globalExposure.remarks scope p.exposureMode).andThen
          (if p.usesSingle then q.singleRemarks scope else {})
      else {}) := by
    obtain ⟨red, green, blue, rfl, -⟩ := h
    rfl
  rw [hother, Correction.remarks]
  congr 1
  split_ifs with huse hsingle
  · obtain ⟨hp, hq⟩ := hsilent huse hsingle
    rw [h.singleRemarks hp hq]
  · rfl
  · rfl

end Correction

end

namespace Compile

/-! ### Two runs that both succeed -/

/-- If both steps succeed, they add to their sessions and leave results and networks as told. -/
def Concur (p : Compile α β) (q : Compile α γ) (both : TwinSessions α)
    (R : β → γ → Twins α → Prop) : Prop :=
  ∀ b c later later', p.run.run both.left = (.ok b, later) →
    q.run.run both.right = (.ok c, later') →
    both.Grow ⟨later, later'⟩ ∧ R b c ⟨later.network, later'.network⟩

section

variable {both : TwinSessions α} {p : Compile α β} {q : Compile α γ} {R : β → γ → Twins α → Prop}

theorem Agree.concur (h : Agree p q both R) : Concur p q both R := by
  intro b c later later' hleft hright
  cases h with
  | error hp hq => cases hp.symm.trans hleft
  | ok hp hq hgrow hresult =>
    cases hp.symm.trans hleft
    cases hq.symm.trans hright
    exact ⟨hgrow, hresult⟩

theorem concur_constants_bind {f : Constants → Compile α β} {g : Constants → Compile α γ}
    (h : Concur (f both.left.constants) (g both.right.constants) both R) :
    Concur (constants >>= f) (constants >>= g) both R := h

theorem concur_of_adds {P : β → Network α → Prop} {Q : γ → Network α → Prop}
    (hp : Adds p both.left P) (hq : Adds q both.right Q) : Concur p q both fun _ _ _ => True :=
  fun _ _ _ _ hleft hright => ⟨⟨(hp.ok hleft).1, (hq.ok hright).1⟩, trivial⟩

theorem exists_run_of_bind {f : β → Compile α δ} {ctx last : Context α} {d : δ}
    (h : (p >>= f).run.run ctx = (.ok d, last)) :
    ∃ b later, p.run.run ctx = (.ok b, later) ∧ (f b).run.run later = (.ok d, last) := by
  rw [run_bind] at h
  cases hrun : p.run.run ctx with
  | mk result later =>
    rw [hrun] at h
    cases result with
    | error e => cases h
    | ok b => exact ⟨b, later, rfl, h⟩

theorem Concur.bind {f : β → Compile α δ} {g : γ → Compile α ε} {S : δ → ε → Twins α → Prop}
    (h : Concur p q both R)
    (hfg : ∀ b c later, both.Grow later → R b c later.nets → Concur (f b) (g c) later S) :
    Concur (p >>= f) (q >>= g) both S := by
  intro d e last last' hleft hright
  obtain ⟨b, later, hp, hf⟩ := exists_run_of_bind hleft
  obtain ⟨c, later', hq, hg⟩ := exists_run_of_bind hright
  obtain ⟨hgrow, hresult⟩ := h b c later later' hp hq
  obtain ⟨hlast, hnodes⟩ := hfg b c ⟨later, later'⟩ hgrow hresult d e last last' hf hg
  exact ⟨hgrow.trans hlast, hnodes⟩

end

variable [Scalar α] {both : TwinSessions α} {n n' : NodeId} {scope : Scope}

/-- If both steps succeed, they add to their sessions and return nodes that fail alike. -/
abbrev ConcurInFailing (p q : Compile α NodeId) (both : TwinSessions α) : Prop :=
  Concur p q both fun n n' nets => nets.FailAlike n n'

theorem concur_build {step step' : Build α NodeId} (h : Build.FailsAlike step step' both.nets) :
    ConcurInFailing (build step) (build step') both := (agree_build h).concur

theorem concur_mirrors {p q : Compile α NodeId} (h : Mirrors p q both) :
    ConcurInFailing p q both :=
  (h.mono fun _ _ _ hn => hn.failAlike).concur

variable (both) in
theorem concur_exposureTerm (mode : ExposureMode) (e e' : Exposure α) :
    Concur (exposureTerm scope mode e) (exposureTerm scope mode e') both fun _ _ _ => True :=
  concur_of_adds (adds_exposureTerm scope mode e) (adds_exposureTerm scope mode e')

theorem concur_exposureLightness (hn : both.nets.Alike n n') (p : Correction α)
    (red green blue : Exposure α) :
    ConcurInFailing (exposureLightness scope n p) (exposureLightness scope n'
      { p with redExposure := red, greenExposure := green, blueExposure := blue }) both := by
  refine (agree_exposureTerm both scope _ p.globalExposure).concur.bind ?_
  rintro common _ both₁ h₁ rfl
  have hn₁ := hn.extend h₁.extend
  refine (mirrors_build (Build.mirrors_exposurePass hn₁ _ _)).concur.bind
    fun result result' both₂ h₂ hresult => ?_
  have hn₂ := hn₁.extend h₂.extend
  dsimp only
  split
  · refine (concur_exposureTerm both₂ _ _ _).bind fun r r' both₃ h₃ _ => ?_
    refine (concur_exposureTerm both₃ _ _ _).bind fun g g' both₄ h₄ _ => ?_
    refine (concur_exposureTerm both₄ _ _ _).bind fun b b' both₅ h₅ _ => ?_
    have h := ((h₃.trans h₄).trans h₅).extend
    have hcommon := (hresult.extend h).failAlike
    refine (concur_build (Build.failsAlike_exposurePass hcommon _ _ _)).bind
      fun single single' both₆ h₆ hsingle => ?_
    -- The settings that differ are in the pass of the components, which is taken for some only.
    have hpick (enabled : Bool) : both₆.nets.FailAlike (if enabled then single else result)
        (if enabled then single' else result') := by
      cases enabled with
      | false => exact hcommon.extend h₆.extend
      | true => exact hsingle
    refine concur_build (Build.failsAlike_swizzle (fun c => ?_) _)
    cases c with
    | red | green | blue => exact hpick _
    | alpha => exact ((hn₂.extend h).extend h₆.extend).failAlike
  · refine concur_build (Build.failsAlike_swizzle (fun c => ?_) _)
    cases c with
    | red | green | blue => exact hresult.failAlike
    | alpha => exact hn₂.failAlike

theorem concur_lightness (hn : both.nets.Alike n n') (p : Correction α)
    (red green blue : Exposure α) :
    ConcurInFailing (lightness scope n p) (lightness scope n'
      { p with redExposure := red, greenExposure := green, blueExposure := blue }) both := by
  unfold lightness
  dsimp only
  split
  · exact concur_exposureLightness hn p red green blue
  · exact concur_mirrors (mirrors_build (Build.mirrors_simpleLightness hn p))

theorem concur_correct (h : both.Level) (hn : both.nets.Alike n n') {p q : Correction α}
    (hsame : p.SameInUse q) : ConcurInFailing (correct scope n p) (correct scope n' q) both := by
  obtain ⟨red, green, blue, rfl, -⟩ := hsame
  refine (mirrors_rewire h hn p).concur.bind fun rewired rewired' both₁ h₁ hrewired => ?_
  refine (mirrors_build (Build.mirrors_hslTint hrewired p)).concur.bind
    fun tinted tinted' both₂ h₂ htinted => ?_
  refine (concur_lightness htinted p red green blue).bind fun result result' both₃ h₃ hresult => ?_
  have hlevel := h.grow ((h₁.trans h₂).trans h₃)
  exact concur_constants_bind (concur_build
    (Build.failsAlike_clamp hresult hlevel.zero.failAlike hlevel.one.failAlike))

/-- Corrections that are the same where they are in use have the same values, or fail to for the same
reason. -/
theorem evaluate_correct_eq [Scalar.TellsDivisors α] {ctx left right : Context α}
    (hconstants : ctx.HasConstants) {n m m' : NodeId} (hn : n < ctx.network.size)
    {p q : Correction α} (hsame : p.SameInUse q)
    (hleft : (correct scope n p).run.run ctx = (.ok m, left))
    (hright : (correct scope n q).run.run ctx = (.ok m', right)) (images : ImageTable α)
    (uv : UvGrid α) :
    left.network.evaluate images uv m = right.network.evaluate images uv m' := by
  have hnode : Twins.Alike ⟨ctx.network, ctx.network⟩ n n :=
    fun images uv => ⟨_, ⟨hn, rfl⟩, ⟨hn, rfl⟩⟩
  obtain ⟨-, hfail⟩ := concur_correct (TwinSessions.level_same hconstants) hnode hsame _ _ _ _
    hleft hright
  obtain ⟨d, d', hd, hd', hreason⟩ := hfail images uv
  rw [hd.evaluate, hd'.evaluate]
  -- The runs tell why there are no values; the values themselves follow from what settings mean.
  obtain ⟨e, rfl, rfl⟩ | ⟨values, values', rfl, rfl⟩ := reason_eq_cases hreason
  · rfl
  · have hvalue (point : Uv α) :
        left.network.valueAt images point m = right.network.valueAt images point m' := by
      have hprobe : ctx.network.HasValue ⟨images, point, fun _ => True⟩ n
          (ctx.network.valueAt images point n) := ⟨hn, rfl, fun _ _ _ _ _ _ => trivial⟩
      obtain ⟨-, w, hw, hm⟩ := (adds_correct hconstants hprobe scope p).ok hleft
      obtain ⟨-, w', hw', hm'⟩ := (adds_correct hconstants hprobe scope q).ok hright
      rw [hsame.value?, hw] at hw'
      rw [hm.eq, hm'.eq]
      exact Option.some.inj hw'
    obtain ⟨-, rfl⟩ := (Network.plainValues_eq_ok_iff hd.lt values).mp hd.eq
    obtain ⟨-, rfl⟩ := (Network.plainValues_eq_ok_iff hd'.lt values').mp hd'.eq
    simp [hvalue]

section

variable {ctx middle : Context α} {source : Option (Source α)} {n : NodeId} {p q : Correction α}

/-- Without a node to correct the settings are not read. -/
theorem run_correction_of_none
    (hnone : ¬ ∃ n middle, (compileOptional scope source).run.run ctx = (.ok (some n), middle))
    (p q : Correction α) :
    (compileSource scope (.correction source p)).run.run ctx =
        (compileSource scope (.correction source q)).run.run ctx ∧
      ∀ m, ((compileSource scope (.correction source p)).run.run ctx).1 = .ok m → m = none := by
  rw [run_correction, run_correction]
  cases hsource : (compileOptional scope source).run.run ctx with
  | mk result middle =>
    rcases result with e | _ | n
    · refine ⟨rfl, fun m hm => ?_⟩
      cases hm
    · refine ⟨rfl, fun m hm => ?_⟩
      cases hm
      rfl
    · exact absurd ⟨n, middle, hsource⟩ hnone

theorem corrections_report_iff
    (hsource : (compileOptional scope source).run.run ctx = (.ok (some n), middle)) :
    let left := (compileSource scope (.correction source p)).run.run ctx
    let right := (compileSource scope (.correction source q)).run.run ctx
    reason left.1 = reason right.1 ∧ left.2.warnings = right.2.warnings ↔
      p.remarks scope = q.remarks scope := by
  have htells (params : Correction α) :
      Tells (do return some (← correct scope n params) : Compile α (Option NodeId))
        (params.remarks scope) :=
    (tells_correct scope n params).bind_silent fun _ => tells_pure _
  rw [run_correction, run_correction, hsource]
  exact (htells p).reports_same_iff (htells q) middle

theorem corrections_evaluate [Scalar.TellsDivisors α] (hconstants : ctx.HasConstants)
    (hsource : (compileOptional scope source).run.run ctx = (.ok (some n), middle))
    (h : p.SameInUse q) {m m' : Option NodeId} {left right : Context α}
    (hleft : (compileSource scope (.correction source p)).run.run ctx = (.ok m, left))
    (hright : (compileSource scope (.correction source q)).run.run ctx = (.ok m', right)) :
    Option.Rel (fun a b => ∀ images uv,
      left.network.evaluate images uv a = right.network.evaluate images uv b) m m' := by
  obtain ⟨hgrows, hnode⟩ :=
    (yields_compileOptional (goesOn_start hconstants [] ⟨0.0, 0.0⟩) scope source).ok hsource
  obtain ⟨_, -, hn⟩ := exists_of_rel_some hnode
  rw [run_correction, hsource] at hleft hright
  obtain ⟨a, later, hrun, ha⟩ := exists_run_of_bind hleft
  obtain ⟨b, later', hrun', hb⟩ := exists_run_of_bind hright
  cases ha
  cases hb
  exact .some fun images uv =>
    evaluate_correct_eq (hgrows.hasConstants hconstants) hn.lt h hrun hrun' images uv

end

/-- Corrections that differ in the exposure of components that are switched off end in the same error
or in none, with the same warnings, exactly if both report the same or there is nothing to correct.
If both go through, they evaluate to the same everywhere. They report the same where no component has
settings of its own, or the settings of the others give rise to nothing. -/
theorem compileCorrection_unusedExposure [Scalar.TellsDivisors α] {ctx : Context α}
    (hconstants : ctx.HasConstants) (scope : Scope) (source : Option (Source α))
    {p q : Correction α} (h : p.SameInUse q) :
    let left := (compileSource scope (.correction source p)).run.run ctx
    let right := (compileSource scope (.correction source q)).run.run ctx
    (reason left.1 = reason right.1 ∧ left.2.warnings = right.2.warnings ↔
      ∀ n middle, (compileOptional scope source).run.run ctx = (.ok (some n), middle) →
        p.remarks scope = q.remarks scope) ∧
    (∀ m m', left.1 = .ok m → right.1 = .ok m' → Option.Rel (fun a b => ∀ images uv,
      left.2.network.evaluate images uv a = right.2.network.evaluate images uv b) m m') ∧
    ((p.useExposure = true → p.usesSingle = true →
        p.UnusedSilent scope ∧ q.UnusedSilent scope) →
      p.remarks scope = q.remarks scope) := by
  intro left right
  by_cases hnode : ∃ n middle, (compileOptional scope source).run.run ctx = (.ok (some n), middle)
  · obtain ⟨n, middle, hsource⟩ := hnode
    refine ⟨?_, fun m m' hm hm' => ?_, h.remarks scope⟩
    · refine (corrections_report_iff hsource).trans ?_
      exact ⟨fun hsame _ _ _ => hsame, fun hall => hall n middle hsource⟩
    · exact corrections_evaluate hconstants hsource h (Prod.ext hm rfl) (Prod.ext hm' rfl)
  · obtain ⟨hsame, hresult⟩ := run_correction_of_none hnode p q
    have hright : right = left := hsame.symm
    refine ⟨?_, fun m m' hm hm' => ?_, h.remarks scope⟩
    · rw [hright]
      exact iff_of_true ⟨rfl, rfl⟩ fun n middle hsource => absurd ⟨n, middle, hsource⟩ hnode
    · rw [hright] at hm'
      rw [hresult m hm, hresult m' hm']
      exact .none

/-- The gain of red alone is halved. -/
def halvedRed : Correction ℚ :=
  { Correction.neutral with
    useExposure := true
    redEnabled := true
    redExposure := ⟨1 / 2, 1, 1, 0⟩ }

/-- Green is switched off, and has a gamma of zero. -/
def flatGreen : Correction ℚ := { halvedRed with greenExposure := ⟨1, 0, 1, 0⟩ }

theorem compileCorrection_unusedExposure_flatGreen :
    exactFresh.HasConstants ∧ halvedRed.SameInUse flatGreen ∧
    let left := (compileSource floorScope
      (.correction (some (.color (.gray (1 / 2)))) halvedRed)).run.run exactFresh
    let right := (compileSource floorScope
      (.correction (some (.color (.gray (1 / 2)))) flatGreen)).run.run exactFresh
    left.2.warnings = [] ∧
    right.2.warnings = [.text "Exposure gamma 0 on floor/color is too small, using 1/100"] ∧
    ∃ a b, left.1 = .ok (some a) ∧ right.1 = .ok (some b) ∧ ∀ images uv,
      left.2.network.evaluate images uv a = right.2.network.evaluate images uv b := by
  have hsame : halvedRed.SameInUse flatGreen :=
    ⟨halvedRed.redExposure, ⟨1, 0, 1, 0⟩, halvedRed.blueExposure, rfl, fun _ => rfl,
      by simp [halvedRed, Correction.neutral], fun _ => rfl⟩
  have h := compileCorrection_unusedExposure hasConstants_exactFresh floorScope
    (some (.color (.gray (1 / 2)))) hsame
  have hleft : ((compileSource floorScope (.correction (some (.color (.gray (1 / 2))))
      halvedRed)).run.run exactFresh).1 = .ok (some 28) := by decide +kernel
  have hright : ((compileSource floorScope (.correction (some (.color (.gray (1 / 2))))
      flatGreen)).run.run exactFresh).1 = .ok (some 28) := by decide +kernel
  have hvalues := h.2.1 _ _ hleft hright
  refine ⟨hasConstants_exactFresh, hsame, by decide +kernel, by decide +kernel, 28, 28, hleft,
    hright, ?_⟩
  cases hvalues with
  | some hvalues => exact hvalues

end Compile

end ShadeGraph
