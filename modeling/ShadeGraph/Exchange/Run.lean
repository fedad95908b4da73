import ShadeGraph.Exchange.Progress
import ShadeGraph.Session.Journal

/-!
# Running an engine

The engine runs beside a loop that polls its state. A run is written down as the reports of the
engine with the polls between them, how the engine ended, and how many polls still found its thread
alive after that. One more poll follows when the thread is gone.
-/

namespace ShadeGraph

/-- A step that the engine or the polling loop takes. -/
inductive RunEvent (α : Type) where
  | log (text : String)
  | progress (value : α)
  | poll
deriving DecidableEq, Repr

/-- How an engine ends. -/
inductive RunEnding (ρ : Type) where
  | returns (result : ρ)
  /-- Ends with an ordinary exception, of this text. -/
  | raises (text : String)
  /-- Ends with an exception that is no ordinary one, as a request to exit is. Nothing catches it,
  and the thread dies without a word. -/
  | vanishes
deriving DecidableEq, Repr

structure EngineRun (α ρ : Type) where
  events : List (RunEvent α) := []
  ending : RunEnding ρ
  latePolls : Nat := 0

/-- What a poll found. -/
structure Poll (α : Type) where
  progress : α
  messages : List String
deriving DecidableEq, Repr

/-- The state of an engine, with the polls so far. -/
structure Watch (α ρ : Type) where
  state : ProcessingState α ρ
  polls : List (Poll α) := []

namespace Watch

variable {α ρ : Type} [Scalar α] (w : Watch α ρ)

def poll : Watch α ρ :=
  let (messages, state) := w.state.drain
  { state, polls := w.polls ++ [⟨state.progress, messages⟩] }

def step : RunEvent α → Watch α ρ
  | .log text => { w with state := w.state.addLog text }
  | .progress value => { w with state := w.state.setProgress value }
  | .poll => w.poll

def finish : RunEnding ρ → Watch α ρ
  | .returns result => { w with state := w.state.finish result }
  | .raises text => { w with state := w.state.fail text }
  | .vanishes => w

/-- Polls `n` times, and then once more. -/
def pollAfter : Nat → Watch α ρ
  | 0 => w.poll
  | n + 1 => (pollAfter n).poll

def messages : List String := w.polls.flatMap (·.messages)

end Watch

/-- The state and all polls when the polling loop ends. -/
def EngineRun.watch {α ρ : Type} [Scalar α] (run : EngineRun α ρ) (bufferSize : Int) : Watch α ρ :=
  ((run.events.foldl Watch.step ⟨.start bufferSize, []⟩).finish run.ending).pollAfter run.latePolls

/-- An engine ended with an exception. -/
structure EngineError where
  text : String
deriving DecidableEq, Repr

def EngineError.message (e : EngineError) : String := s!"Processing engine failed: {e.text}"

/-- What came out of a run; an engine may return nothing. -/
structure RunResult (ρ : Type) where
  result : Option ρ
  log : List String
  warnings : List String

def droppedText (n : Nat) : String := s!"{n} engine log messages were dropped"

/-- The result of a run that was watched. -/
def Watch.result {α ρ : Type} (w : Watch α ρ) : Except EngineError (RunResult ρ) :=
  match w.state.exception with
  | some text => .error ⟨text⟩
  | none =>
    .ok
      { result := w.state.result
        log := w.messages
        warnings := if w.state.dropped = 0 then [] else [droppedText w.state.dropped] }

/-- The messages of an engine as the journal shows them, and its failure. -/
def Watch.record {α ρ : Type} [Scalar α] (w : Watch α ρ) (journal : Journal) : Journal :=
  let journal := w.messages.foldl (fun j text => j.debug s!"engine: {text}") journal
  match w.result with
  | .ok _ => journal
  | .error e => journal.error e.message

end ShadeGraph
