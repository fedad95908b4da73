import ShadeGraph.Proofs.Compile.Foretelling
import ShadeGraph.Proofs.Network.Failures

/-!
# What a correction reports

The warnings of a correction and the error it may end in are told by its settings alone, whatever the
session and the node that is corrected. Settings of single components are read for all of them as
soon as one is in use, so those of the others are reported as well.
-/

namespace ShadeGraph

variable {α β γ : Type}

/-! ### Remarks -/

/-- What a step leaves besides its result: its warnings, and whether it went through. -/
structure Remarks where
  texts : List String := []
  result : Except CompileError Unit := .ok ()

namespace Remarks

/-- What comes behind an error is left out. -/
def andThen (r s : Remarks) : Remarks :=
  match r.result with
  | .ok _ => { s with texts := r.texts ++ s.texts }
  | .error _ => r

theorem andThen_none (r : Remarks) : r.andThen {} = r := by
  obtain ⟨texts, result⟩ := r
  cases result with
  | ok _ => exact congrArg (Remarks.mk · _) (List.append_nil texts)
  | error e => rfl

end Remarks

namespace Compile

/-- Whatever the session, the step goes through or fails as told, and adds the warnings told. -/
def Tells (p : Compile α β) (r : Remarks) : Prop :=
  ∀ ctx, reason (p.run.run ctx).1 = r.result ∧
    (p.run.run ctx).2.warnings = ctx.warnings ++ r.texts.map .text

section

variable {p : Compile α β} {r s : Remarks}

/-- A step that goes through without a warning. -/
theorem tells_silent (h : ∀ ctx, reason (p.run.run ctx).1 = .ok () ∧
    (p.run.run ctx).2.warnings = ctx.warnings) : Tells p {} := fun ctx =>
  ⟨(h ctx).1, by simp [(h ctx).2]⟩

theorem tells_pure (b : β) : Tells (pure b : Compile α β) {} := tells_silent fun _ => ⟨rfl, rfl⟩

theorem tells_build (step : Build α β) : Tells (build step) {} := tells_silent fun _ => ⟨rfl, rfl⟩

theorem tells_constants : Tells (constants : Compile α Constants) {} :=
  tells_silent fun _ => ⟨rfl, rfl⟩

theorem tells_throw (e : CompileError) : Tells (throw e : Compile α β) { result := .error e } :=
  fun ctx => ⟨rfl, (List.append_nil ctx.warnings).symm⟩

theorem tells_warn (text : String) : Tells (warn text : Compile α Unit) { texts := [text] } :=
  fun _ => ⟨rfl, rfl⟩

/-- What follows a step tells the same whatever the step returns. -/
theorem Tells.bind {f : β → Compile α γ} (h : Tells p r) (hf : ∀ b, Tells (f b) s) :
    Tells (p >>= f) (r.andThen s) := by
  intro ctx
  obtain ⟨texts, outcome⟩ := r
  obtain ⟨hresult, hwarnings⟩ := h ctx
  rw [run_bind]
  generalize p.run.run ctx = run at hresult hwarnings
  obtain ⟨result, later⟩ := run
  dsimp only at hresult hwarnings
  subst hresult
  cases result with
  | error e => exact ⟨rfl, hwarnings⟩
  | ok b =>
    obtain ⟨hlast, hadded⟩ := hf b later
    refine ⟨hlast, hadded.trans ?_⟩
    rw [hwarnings, List.append_assoc]
    exact congrArg _ (List.map_append).symm

theorem Tells.silent_bind {f : β → Compile α γ} (h : Tells p {}) (hf : ∀ b, Tells (f b) s) :
    Tells (p >>= f) s := Tells.bind h hf

theorem Tells.bind_silent {f : β → Compile α γ} (h : Tells p r) (hf : ∀ b, Tells (f b) {}) :
    Tells (p >>= f) r := by
  have hbind := h.bind hf
  rwa [Remarks.andThen_none] at hbind

/-- From one session two steps report the same exactly if the same is told of them. -/
theorem Tells.reports_same_iff {q : Compile α γ} (hp : Tells p r) (hq : Tells q s)
    (ctx : Context α) : reason (p.run.run ctx).1 = reason (q.run.run ctx).1 ∧
      (p.run.run ctx).2.warnings = (q.run.run ctx).2.warnings ↔ r = s := by
  obtain ⟨texts, result⟩ := r
  obtain ⟨texts', result'⟩ := s
  have htexts : Function.Injective (Value.text : String → Message) := fun _ _ h => by
    cases h
    rfl
  rw [(hp ctx).1, (hp ctx).2, (hq ctx).1, (hq ctx).2, List.append_cancel_left_eq,
    (List.map_injective_iff.mpr htexts).eq_iff, Remarks.mk.injEq, and_comm]

end

end Compile

/-! ### Corrections -/

open Compile

variable [Scalar α]

namespace Exposure

/-- The warning about a value that is too small. -/
def leastRemarks (what : String) (scope : Scope) (value least : α) : Remarks :=
  if Scalar.lt (Scalar.abs value) least then { texts := [tooSmallText what scope value least] }
  else {}

/-- What is said about a gain. -/
def gainRemarks (mode : ExposureMode) (e : Exposure α) : Remarks :=
  match e.factor? mode with
  | some _ => {}
  | none => { result := .error .gainRange }

/-- What is said when a set of settings is read. -/
def remarks (scope : Scope) (mode : ExposureMode) (e : Exposure α) : Remarks :=
  (leastRemarks "gamma" scope e.gamma leastGamma).andThen
    ((leastRemarks "pivot" scope e.pivot leastPivot).andThen (e.gainRemarks mode))

end Exposure

namespace Correction

def rewireRemarks (params : Correction α) : Remarks :=
  match params.rewire, params.customChannels with
  | .custom, [_, _, _, _] => {}
  | .custom, channels => { result := .error (.rewireChannels channels.length) }
  | _, _ => {}

/-- What is said when the settings of single components are read. -/
def singleRemarks (scope : Scope) (params : Correction α) : Remarks :=
  let read := Exposure.remarks scope params.exposureMode
  (read params.redExposure).andThen
    ((read params.greenExposure).andThen (read params.blueExposure))

/-- Some component has settings of its own. -/
def usesSingle (params : Correction α) : Bool :=
  params.redEnabled || params.greenEnabled || params.blueEnabled

/-- What a correction with these settings reports. -/
def remarks (scope : Scope) (params : Correction α) : Remarks :=
  params.rewireRemarks.andThen
    (if params.useExposure then
      (params.globalExposure.remarks scope params.exposureMode).andThen
        (if params.usesSingle then params.singleRemarks scope else {})
    else {})

end Correction

namespace Compile

theorem tells_atLeast (what : String) (scope : Scope) (value least : α) :
    Tells (atLeast what scope value least) (Exposure.leastRemarks what scope value least) := by
  unfold atLeast Exposure.leastRemarks
  split
  · exact (tells_warn _).bind_silent fun _ => tells_pure least
  · exact tells_pure value

theorem tells_exposureTerm (scope : Scope) (mode : ExposureMode) (e : Exposure α) :
    Tells (exposureTerm scope mode e) (e.remarks scope mode) := by
  refine (tells_atLeast _ scope _ _).bind fun gamma => ?_
  refine (tells_atLeast _ scope _ _).bind fun pivot => ?_
  unfold Exposure.gainRemarks
  cases mode with
  | gain => exact tells_pure _
  | fstops | printer =>
    dsimp only [Exposure.factor?]
    cases Scalar.exp2? e.gain with
    | none => exact tells_throw _
    | some gain => exact tells_pure _

theorem tells_rewire (n : NodeId) (params : Correction α) :
    Tells (rewire n params) params.rewireRemarks := by
  refine tells_constants.silent_bind fun constants => ?_
  unfold Correction.rewireRemarks
  cases params.rewire with
  | normal => exact tells_pure n
  | monochrome | invert => exact tells_build _
  | custom =>
    dsimp only
    generalize params.customChannels = channels
    match channels with
    | [_, _, _, _] => exact tells_build _
    | [] | [_] | [_, _] | [_, _, _] | _ :: _ :: _ :: _ :: _ :: _ => exact tells_throw _

theorem tells_exposureLightness (scope : Scope) (n : NodeId) (params : Correction α) :
    Tells (exposureLightness scope n params)
      ((params.globalExposure.remarks scope params.exposureMode).andThen
        (if params.usesSingle then params.singleRemarks scope else {})) := by
  refine (tells_exposureTerm scope _ _).bind fun common => ?_
  refine (tells_build _).silent_bind fun result => ?_
  unfold Correction.usesSingle
  split
  · refine (tells_exposureTerm scope _ _).bind fun red => ?_
    refine (tells_exposureTerm scope _ _).bind fun green => ?_
    refine (tells_exposureTerm scope _ _).bind_silent fun blue => ?_
    exact (tells_build _).silent_bind fun single => tells_build _
  · exact tells_build _

theorem tells_lightness (scope : Scope) (n : NodeId) (params : Correction α) :
    Tells (lightness scope n params) (if params.useExposure then
      (params.globalExposure.remarks scope params.exposureMode).andThen
        (if params.usesSingle then params.singleRemarks scope else {}) else {}) := by
  unfold lightness
  split
  · exact tells_exposureLightness scope n params
  · exact tells_build _

/-- What a correction reports depends on its settings alone. -/
theorem tells_correct (scope : Scope) (n : NodeId) (params : Correction α) :
    Tells (correct scope n params) (params.remarks scope) := by
  refine (tells_rewire n params).bind fun rewired => ?_
  refine (tells_build _).silent_bind fun tinted => ?_
  refine (tells_lightness scope tinted params).bind_silent fun result => ?_
  exact tells_constants.silent_bind fun _ => tells_build _

end Compile

end ShadeGraph
