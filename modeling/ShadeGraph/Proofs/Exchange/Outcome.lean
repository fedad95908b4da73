import ShadeGraph.Proofs.Compile.Tour
import ShadeGraph.Proofs.Exchange.Threads
import ShadeGraph.Scene.Process

/-!
# What becomes of the end of an engine

An engine hands its end to the polling loop through the state that they share. A result and the text
of an exception arrive as they are. Of an exception that nothing catches there is no trace, and the
loop takes it for an engine that returned nothing.
-/

namespace ShadeGraph

/-- What an engine that ended like this has left in the state. -/
def RunEnding.outcome {ρ : Type} : RunEnding ρ → Option ρ × Option String
  | .returns result => (some result, none)
  | .raises text => (none, some text)
  | .vanishes => (none, none)

/-- The scenes that an engine returned. -/
def RunEnding.scenes : RunEnding Processed → List ExchangeScene
  | .returns processed => processed.toList
  | _ => []

namespace Watch

variable {α ρ : Type}

/-- What is known of the end of the engine. -/
def outcome (w : Watch α ρ) : Option ρ × Option String := (w.state.result, w.state.exception)

theorem outcome_pollAfter (w : Watch α ρ) (n : Nat) : (w.pollAfter n).outcome = w.outcome := by
  rw [outcome, state_pollAfter]
  rfl

variable [Scalar α]

theorem outcome_step (w : Watch α ρ) (event : RunEvent α) : (w.step event).outcome = w.outcome := by
  cases event with
  | log text =>
    rw [step, ProcessingState.addLog]
    split_ifs <;> rfl
  | progress value => rfl
  | poll => rfl

theorem outcome_replay (size : Int) (history : List (RunEvent α)) :
    (replay size history : Watch α ρ).outcome = (none, none) := by
  induction history using List.reverseRecOn with
  | nil => rfl
  | append_singleton history event ih => rw [replay_concat, outcome_step, ih]

theorem outcome_watch (run : EngineRun α ρ) (size : Int) :
    (run.watch size).outcome = run.ending.outcome := by
  rw [EngineRun.watch, outcome_pollAfter]
  have hnone := outcome_replay (ρ := ρ) size run.events
  cases run.ending with
  | returns result => exact congrArg (Prod.mk _) (congrArg Prod.snd hnone)
  | raises text => exact congrArg (Prod.mk · _) (congrArg Prod.fst hnone)
  | vanishes => exact hnone

/-- The loop fails just if the engine ended with an exception that was caught, and otherwise has the
scenes that the engine returned, or none. -/
theorem result_watch (run : EngineRun α Processed) (size : Int) :
    (∀ e, (run.watch size).result = .error e ↔ run.ending = .raises e.text) ∧
      ∀ out, (run.watch size).result = .ok out → out.scenes = run.ending.scenes := by
  have hresult : (run.watch size).state.result = run.ending.outcome.1 :=
    congrArg Prod.fst (outcome_watch run size)
  have hexception : (run.watch size).state.exception = run.ending.outcome.2 :=
    congrArg Prod.snd (outcome_watch run size)
  rw [result, hexception, hresult]
  cases run.ending with
  | raises text =>
    refine ⟨fun e => ⟨?_, ?_⟩, fun out hout => nomatch hout⟩
    · rintro ⟨⟩
      rfl
    · rintro ⟨⟩
      rfl
  | returns processed =>
    refine ⟨fun e => ⟨nofun, nofun⟩, ?_⟩
    rintro out ⟨⟩
    rfl
  | vanishes =>
    refine ⟨fun e => ⟨nofun, nofun⟩, ?_⟩
    rintro out ⟨⟩
    rfl

end Watch

/-- What the result of a scene tells of how its engine ended. -/
structure ProcessResult.Tells {α : Type} (r : ProcessResult α) (ending : RunEnding Processed) :
    Prop where
  scenes : r.scenes = ending.scenes
  raised : ∀ text, ending = .raises text →
    r.finished = false ∧ (EngineError.mk text).message ∈ r.warnings
  vanished : ending = .vanishes → r.finished = true

namespace ProcessResult

variable {α : Type} [Scalar α] {run : EngineRun α Processed} {size : Int} {r : ProcessResult α}

theorem tells_cancel {e : EngineError} (h : (run.watch size).result = .error e)
    (hscenes : r.scenes = []) : (r.cancel e.message).Tells run.ending := by
  rw [((Watch.result_watch run size).1 e).mp h]
  refine ⟨hscenes, ?_, nofun⟩
  rintro text ⟨⟩
  exact ⟨rfl, List.mem_append_right _ List.mem_cons_self⟩

theorem tells_of_result {out : RunResult Processed} (h : (run.watch size).result = .ok out)
    (hscenes : r.scenes = out.scenes) (hvanished : out.scenes = [] → r.finished = true) :
    r.Tells run.ending := by
  obtain ⟨hfails, hreturns⟩ := Watch.result_watch run size
  have hout := hreturns out h
  refine ⟨hscenes.trans hout, fun text hraised => ?_, fun hending => hvanished ?_⟩
  · cases h.symm.trans ((hfails ⟨text⟩).mpr hraised)
  · rw [hout, hending]
    rfl

end ProcessResult

namespace Compile

variable {α : Type} {ctx : Context α} {E : CompileError → Prop}

/-- Matching the scenes changes neither them nor what the engine was given, and without scenes
nothing at all. -/
theorem ends_matchScenes (hosts : HostTable α) (live : HostScene) (scenes : List ExchangeScene)
    (r : ProcessResult α) (ctx : Context α) :
    Ends (matchScenes hosts live scenes r) ctx
      (fun r' _ => r'.scenes = r.scenes ∧ r'.sent = r.sent ∧ (scenes = [] → r' = r)) E := by
  induction scenes generalizing r ctx with
  | nil => exact ends_pure ⟨rfl, rfl, fun _ => rfl⟩
  | cons scene scenes ih =>
    rw [matchScenes]
    refine ends_get.bind fun _ _ _ => ?_
    refine (ends_registerStep _).bind fun matched ctx _ => ?_
    cases matched with
    | ok resolved =>
      refine (ih _ ctx).mono (fun r' _ h => ⟨h.1, h.2.1, nofun⟩) fun _ h => h
    | error e =>
      refine (ends_modify _).bind fun _ ctx _ => ?_
      exact ends_pure ⟨rfl, rfl, nofun⟩

variable [Scalar α]

/-- An engine only runs with a buffer, and the result tells how it ended. -/
theorem ends_runEngine (hosts : HostTable α) (request : ProcessRequest α) (scene : ExchangeScene)
    {r : ProcessResult α} (hfinished : r.finished = true) (hscenes : r.scenes = [])
    (ctx : Context α) :
    Ends (runEngine hosts request scene r) ctx
      (fun r' _ => (∃ size, request.bufferSize = .ok size) ∧ r'.sent = some scene.materials ∧
        r'.Tells (request.engine scene).ending)
      fun e => ∃ b, e = .buffer b ∧ request.bufferSize = .error b := by
  rw [runEngine]
  cases hsize : request.bufferSize with
  | error b => exact ends_of_run_error rfl ⟨b, rfl, rfl⟩
  | ok size =>
    have hsize : Ends (MonadExcept.ofExcept (Except.ok size)) ctx (fun n _ => n = size)
        fun e => ∃ b, e = .buffer b ∧ Except.ok size = .error b := ends_of_run_ok rfl rfl
    refine hsize.bind ?_
    rintro n ctx rfl
    refine (ends_modify _).bind fun _ ctx _ => ?_
    dsimp only
    cases hresult : ((request.engine scene).watch n).result with
    | error e => exact ends_pure ⟨⟨n, rfl⟩, rfl, ProcessResult.tells_cancel hresult hscenes⟩
    | ok out =>
      cases request.live with
      | none =>
        exact ends_pure ⟨⟨n, rfl⟩, rfl, ProcessResult.tells_of_result hresult rfl fun _ => hfinished⟩
      | some live =>
        refine (ends_matchScenes hosts live _ _ ctx).mono ?_ fun _ h => h
        rintro r' _ ⟨hsame, hsent, hnil⟩
        refine ⟨⟨n, rfl⟩, hsent, ProcessResult.tells_of_result hresult hsame fun hnone => ?_⟩
        rw [hnil hnone]
        exact hfinished

/-- A scene either does not get to its engine and is cancelled, or its result tells how the engine
ended that was given the compiled scene with other materials. -/
theorem ends_processScene (hosts : HostTable α) (request : ProcessRequest α) :
    Ends (processScene hosts request) ctx
      (fun r _ => (r.sent = none ∧ r.finished = false ∧ r.scenes = []) ∨
        ∃ compiled middle materials,
          (compileScene hosts request.toSceneRequest).run.run ctx = (.ok compiled, middle) ∧
          (∃ size, request.bufferSize = .ok size) ∧ r.sent = some materials ∧
          r.Tells (request.engine { compiled.scene with materials }).ending)
      fun _ => True := by
  rw [processScene]
  have hcompile : Ends (compileScene hosts request.toSceneRequest) ctx
      (fun compiled middle =>
        (compileScene hosts request.toSceneRequest).run.run ctx = (.ok compiled, middle))
      fun _ => True := ⟨id, fun _ => trivial⟩
  refine hcompile.bind fun compiled middle hcompiled => ?_
  refine (ends_trivial (copyTextures _ _ _ _ _) middle).bind fun copied ctx _ => ?_
  obtain ⟨outcome, copies⟩ := copied
  refine ends_get.bind fun _ ctx _ => ?_
  dsimp only
  cases outcome with
  | error e =>
    cases e <;> first
      | exact ends_of_run_error rfl trivial
      | exact ends_pure (.inl ⟨rfl, rfl, rfl⟩)
  | ok =>
    cases request.textureDirectory with
    | text directory =>
      refine (ends_debug _).bind fun _ ctx _ => ?_
      refine (ends_runEngine hosts request _ ?_ ?_ ctx).mono ?_ fun _ _ => trivial
      · rfl
      · rfl
      · exact fun r _ h => .inr ⟨compiled, middle, _, hcompiled, h⟩
    | _ => exact ends_of_run_error rfl trivial

end Compile

/-- However the threads take turns, the polling loop fails just if the engine ended with an
exception that was caught, and otherwise it has the scenes that the engine returned, or none. A
scene that was processed either did not get to its engine and is cancelled, or there was a buffer of
the size that was asked for, and it is cancelled if the engine failed like this and else has what
the engine returned. An exception that nothing catches is missed: the scene is finished, with
nothing returned. -/
theorem Context.processScene_outcome {α : Type} [Scalar α] (ctx : Context α) (hosts : HostTable α)
    (request : ProcessRequest α) :
    (∀ (calls : List (EngineCall α)) (ending : RunEnding Processed) (size : Int)
        (history : List (RunEvent α)) (t : Threads α Processed),
      (Threads.start calls ending size).Runs history t → t.caller = .stopped →
        (∀ e, t.watch.result = .error e ↔ ending = .raises e.text) ∧
          ∀ out, t.watch.result = .ok out → out.scenes = ending.scenes) ∧
    ∀ r later, ctx.processScene hosts request = (.ok r, later) →
      (r.sent = none ∧ r.finished = false ∧ r.scenes = []) ∨
        ∃ compiled middle materials,
          ctx.compileScene hosts request.toSceneRequest = (.ok compiled, middle) ∧
          (∃ size, request.bufferSize = .ok size) ∧ r.sent = some materials ∧
          r.Tells (request.engine { compiled.scene with materials }).ending := by
  constructor
  · intro calls ending size history t hruns hstop
    obtain ⟨run, -, rfl, -, hwatch⟩ := hruns.exists_run hstop
    exact hwatch ▸ Watch.result_watch run size
  · exact fun r later hrun => (Compile.ends_processScene hosts request).ok hrun

/-- A request for an empty scene with an engine that ends like this. -/
def engineRequest (ending : RunEnding Processed) (bufferSize : Except BufferError Int) :
    ProcessRequest Float where
  materials := []
  engine _ := { events := [.progress 50.0, .log "half"], ending }
  temporary := "/tmp"
  bufferSize := bufferSize
  policy := .standard

/-- A failure is reported; a request to exit is not, and a scene whose engine would have returned
fails if its buffer is too large. -/
theorem Context.processScene_outcome_exitRequest :
    let ctx : Context Float := Context.start Options.standard .none {} ∅
    (∃ r later, ctx.processScene ⟨#[]⟩ (engineRequest (.raises "boom") (.ok 64)) = (.ok r, later) ∧
      r.sent = some [] ∧ r.finished = false) ∧
    (∃ r later, ctx.processScene ⟨#[]⟩ (engineRequest .vanishes (.ok 64)) = (.ok r, later) ∧
      r.sent = some [] ∧ r.finished = true ∧ r.scenes = []) ∧
    (ctx.processScene ⟨#[]⟩ (engineRequest (.returns .nothing) (.error .tooLarge))).1 =
      .error (.buffer .tooLarge) := by
  intro ctx
  have htells (ending : RunEnding Processed)
      (hsent : ((ctx.processScene ⟨#[]⟩ (engineRequest ending (.ok 64))).1.toOption.bind
        (·.sent)).map List.length = some 0) :
      ∃ r later, ctx.processScene ⟨#[]⟩ (engineRequest ending (.ok 64)) = (.ok r, later) ∧
        r.sent = some [] ∧ r.Tells ending := by
    have houtcome := (processScene_outcome ctx ⟨#[]⟩ (engineRequest ending (.ok 64))).2
    cases hrun : ctx.processScene ⟨#[]⟩ (engineRequest ending (.ok 64)) with
    | mk result later =>
      rw [hrun] at hsent
      cases result with
      | error e => cases hsent
      | ok r =>
        obtain ⟨sent, hsent, hlength⟩ := Option.map_eq_some_iff.mp hsent
        replace hsent : r.sent = some sent := hsent
        obtain rfl := List.length_eq_zero_iff.mp hlength
        refine ⟨r, later, rfl, hsent, ?_⟩
        rcases houtcome r later hrun with ⟨hnone, _⟩ | ⟨_, _, _, _, _, _, htells⟩
        · cases hsent.symm.trans hnone
        · exact htells
  refine ⟨?_, ?_, rfl⟩
  · obtain ⟨r, later, hrun, hsent, htells⟩ := htells (.raises "boom") (by decide +kernel)
    exact ⟨r, later, hrun, hsent, (htells.raised "boom" rfl).1⟩
  · obtain ⟨r, later, hrun, hsent, htells⟩ := htells .vanishes (by decide +kernel)
    exact ⟨r, later, hrun, hsent, htells.vanished rfl, htells.scenes⟩

end ShadeGraph
