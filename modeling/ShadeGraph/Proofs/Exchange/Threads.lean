import Mathlib.Tactic
import ShadeGraph.Exchange.Run

/-!
# An engine and its polling loop as two threads

An engine runs in a thread of its own: it reports, it ends, and then the thread dies. The polling
loop looks whether the thread is alive, takes a snapshot of the state, and stops behind it if the
thread was dead before it. Each operation on the state is one step, and between two steps of one
thread the other one may take any number. Where the loop has stopped, the two threads have made a
run, and every run can be made.
-/

namespace ShadeGraph

/-- What an engine reports. -/
inductive EngineCall (α : Type) where
  | log (text : String)
  | progress (value : α)
deriving DecidableEq

namespace EngineCall

variable {α : Type}

def event : EngineCall α → RunEvent α
  | log text => .log text
  | progress value => .progress value

def text? : EngineCall α → Option String
  | log text => some text
  | progress _ => none

end EngineCall

def RunEvent.call? {α : Type} : RunEvent α → Option (EngineCall α)
  | log text => some (.log text)
  | progress value => some (.progress value)
  | poll => none

/-- The calls in a history of the state. -/
def callsIn {α : Type} (history : List (RunEvent α)) : List (EngineCall α) :=
  history.filterMap RunEvent.call?

/-- Where the thread of an engine stands. -/
inductive Worker (α ρ : Type) where
  /-- The engine still makes these calls before it ends. -/
  | calling (calls : List (EngineCall α)) (ending : RunEnding ρ)
  /-- The engine has ended, but its thread still runs. -/
  | ended
  | dead

def Worker.alive {α ρ : Type} : Worker α ρ → Bool
  | dead => false
  | _ => true

/-- Where the polling loop stands. -/
inductive Caller where
  | waiting
  /-- It has seen whether the thread of the engine is alive, and takes a snapshot next. -/
  | looked (alive : Bool)
  | stopped

/-- The thread of an engine and the polling loop, with the state that they share. -/
structure Threads (α ρ : Type) where
  worker : Worker α ρ
  caller : Caller := .waiting
  watch : Watch α ρ

namespace Threads

variable {α ρ : Type} [Scalar α]

def start (calls : List (EngineCall α)) (ending : RunEnding ρ) (bufferSize : Int) :
    Threads α ρ where
  worker := .calling calls ending
  watch := ⟨.start bufferSize, []⟩

/-- A step of one of the threads, with what it adds to the history of the state. -/
inductive Step : Threads α ρ → List (RunEvent α) → Threads α ρ → Prop
  | call (c : EngineCall α) (calls : List (EngineCall α)) (ending : RunEnding ρ) (p : Caller)
      (w : Watch α ρ) :
      Step ⟨.calling (c :: calls) ending, p, w⟩ [c.event] ⟨.calling calls ending, p, w.step c.event⟩
  | finish (ending : RunEnding ρ) (p : Caller) (w : Watch α ρ) :
      Step ⟨.calling [] ending, p, w⟩ [] ⟨.ended, p, w.finish ending⟩
  | die (p : Caller) (w : Watch α ρ) : Step ⟨.ended, p, w⟩ [] ⟨.dead, p, w⟩
  | look (k : Worker α ρ) (w : Watch α ρ) : Step ⟨k, .waiting, w⟩ [] ⟨k, .looked k.alive, w⟩
  | snapshot (k : Worker α ρ) (alive : Bool) (w : Watch α ρ) :
      Step ⟨k, .looked alive, w⟩ [.poll] ⟨k, if alive then .waiting else .stopped, w.poll⟩

/-- What the threads lead to by some steps, with the history of the state between. -/
inductive Runs (t : Threads α ρ) : List (RunEvent α) → Threads α ρ → Prop
  | refl : Runs t [] t
  | tail {history events : List (RunEvent α)} {middle later : Threads α ρ} :
      Runs t history middle → Step middle events later → Runs t (history ++ events) later

namespace Runs

variable {s t u : Threads α ρ} {before behind : List (RunEvent α)}

theorem single (h : Step s before t) : Runs s before t := .tail .refl h

theorem trans (hst : Runs s before t) (htu : Runs t behind u) : Runs s (before ++ behind) u := by
  induction htu with
  | refl => simpa using hst
  | tail _ hstep ih => simpa using ih.tail hstep

/-- The loop polls a thread that is alive. -/
theorem pollAlive {k : Worker α ρ} (halive : k.alive = true) (w : Watch α ρ) :
    Runs ⟨k, .waiting, w⟩ [.poll] ⟨k, .waiting, w.poll⟩ := by
  refine .trans (.single (.look k w)) ?_
  rw [halive]
  exact .single (.snapshot k true w)

end Runs

end Threads

/-! ### The threads as a run -/

namespace Watch

variable {α ρ : Type} [Scalar α]

/-- The state behind these operations on a new one. -/
def replay (bufferSize : Int) (history : List (RunEvent α)) : Watch α ρ :=
  history.foldl step ⟨.start bufferSize, []⟩

theorem replay_concat (bufferSize : Int) (history : List (RunEvent α)) (event : RunEvent α) :
    (replay bufferSize (history ++ [event]) : Watch α ρ) =
      (replay bufferSize history).step event := by
  rw [replay, List.foldl_append]
  rfl

theorem step_event_poll (w : Watch α ρ) : w.step .poll = w.poll := rfl

omit [Scalar α] in
theorem pollAfter_eq_iterate (w : Watch α ρ) (n : Nat) : w.pollAfter n = poll^[n + 1] w := by
  induction n with
  | zero => rfl
  | succ n ih => rw [pollAfter, ih, ← Function.iterate_succ_apply' poll]

omit [Scalar α] in
/-- Polls only take messages. -/
theorem state_pollAfter (w : Watch α ρ) (n : Nat) :
    (w.pollAfter n).state = { w.state with messages := [] } := by
  induction n with
  | zero => rfl
  | succ n ih =>
    have hpoll : (w.pollAfter (n + 1)).state = { (w.pollAfter n).state with messages := [] } := rfl
    rw [hpoll, ih]

end Watch

/-- The operations on the state in a run. -/
def EngineRun.history {α ρ : Type} (run : EngineRun α ρ) : List (RunEvent α) :=
  run.events ++ List.replicate (run.latePolls + 1) .poll

@[simp] theorem callsIn_event {α : Type} (c : EngineCall α) : callsIn [c.event] = [c] := by
  cases c <;> rfl

@[simp] theorem callsIn_poll {α : Type} : callsIn [(.poll : RunEvent α)] = [] := rfl

@[simp] theorem callsIn_append {α : Type} (before behind : List (RunEvent α)) :
    callsIn (before ++ behind) = callsIn before ++ callsIn behind :=
  List.filterMap_append

@[simp] theorem callsIn_replicate_poll {α : Type} (n : Nat) :
    callsIn (List.replicate n (.poll : RunEvent α)) = [] :=
  List.filterMap_replicate_of_none rfl

theorem EngineRun.callsIn_history {α ρ : Type} (run : EngineRun α ρ) :
    callsIn run.history = callsIn run.events := by
  simp [history]

namespace Threads

variable {α ρ : Type} [Scalar α] {calls : List (EngineCall α)} {ending : RunEnding ρ} {size : Int}
variable {history events : List (RunEvent α)} {t u : Threads α ρ}

/-- How far the threads are in a run: while the engine makes its calls the loop cannot have seen it
dead, and behind its end there are only polls. -/
inductive Within (calls : List (EngineCall α)) (ending : RunEnding ρ) (size : Int) :
    List (RunEvent α) → Threads α ρ → Prop
  | calling {history : List (RunEvent α)} {rest : List (EngineCall α)} {p : Caller}
      (hcalls : callsIn history ++ rest = calls) (hp : p = .waiting ∨ p = .looked true) :
      Within calls ending size history
        ⟨.calling rest ending, p, .replay size history⟩
  | ended {events : List (RunEvent α)} (late : Nat) {k : Worker α ρ} {p : Caller}
      (hcalls : callsIn events = calls) (hk : k = .ended ∨ k = .dead)
      (hlook : p = .looked false → k = .dead) (hstop : p = .stopped → 0 < late) :
      Within calls ending size (events ++ List.replicate late .poll)
        ⟨k, p, Watch.poll^[late] ((Watch.replay size events).finish ending)⟩

theorem Within.step (h : Within calls ending size history t) (hstep : Step t events u) :
    Within calls ending size (history ++ events) u := by
  cases h with
  | calling hcalls hp =>
    cases hstep with
    | call c rest =>
      rw [← Watch.replay_concat]
      exact .calling (by simpa using hcalls) hp
    | finish =>
      refine .ended 0 (by simpa using hcalls) (.inl rfl) ?_ ?_
      · rintro rfl
        simp at hp
      · rintro rfl
        simp at hp
    | look =>
      rw [List.append_nil]
      exact .calling hcalls (.inr rfl)
    | snapshot _ alive =>
      obtain rfl : alive = true := by simpa using hp
      rw [← Watch.step_event_poll, ← Watch.replay_concat]
      exact .calling (by simpa using hcalls) (.inl rfl)
  | @ended sent late k p hcalls hk hlook hstop =>
    cases hstep with
    | call | finish => simp at hk
    | die =>
      rw [List.append_nil]
      exact .ended late hcalls (.inr rfl) (fun _ => rfl) hstop
    | look =>
      rw [List.append_nil]
      refine .ended late hcalls hk (fun hdead => ?_) (fun hstop => nomatch hstop)
      rcases hk with rfl | rfl
      · simp [Worker.alive] at hdead
      · rfl
    | snapshot _ alive =>
      rw [← Function.iterate_succ_apply' Watch.poll, List.append_assoc, ← List.replicate_succ']
      exact .ended (late + 1) hcalls hk (by cases alive <;> simp) (fun _ => late.succ_pos)

theorem Runs.within (h : Runs (start calls ending size) history t) :
    Within calls ending size history t := by
  induction h with
  | refl => exact .calling rfl (.inl rfl)
  | tail _ hstep ih => exact ih.step hstep

/-- When the loop has stopped, the threads have made a run. -/
theorem Runs.exists_run (h : Runs (start calls ending size) history t)
    (hstop : t.caller = .stopped) :
    ∃ run : EngineRun α ρ, callsIn run.events = calls ∧ run.ending = ending ∧
      run.history = history ∧ run.watch size = t.watch := by
  cases h.within with
  | calling hcalls hp =>
    subst hstop
    simp at hp
  | @ended events late _ _ hcalls _ _ hlate =>
    obtain ⟨late, rfl⟩ := Nat.exists_eq_add_one.mpr (hlate hstop)
    exact ⟨⟨events, ending, late⟩, hcalls, rfl, rfl, Watch.pollAfter_eq_iterate _ _⟩

/-! ### A run by the threads -/

theorem Runs.calling (events : List (RunEvent α)) (rest : List (EngineCall α))
    (ending : RunEnding ρ) (w : Watch α ρ) :
    Runs ⟨.calling (callsIn events ++ rest) ending, .waiting, w⟩ events
      ⟨.calling rest ending, .waiting, events.foldl Watch.step w⟩ := by
  induction events generalizing w with
  | nil => exact .refl
  | cons event events ih =>
    have hfirst : Runs ⟨.calling (callsIn (event :: events) ++ rest) ending, .waiting, w⟩ [event]
        ⟨.calling (callsIn events ++ rest) ending, .waiting, w.step event⟩ := by
      cases event with
      | log text => exact .single (.call (.log text) _ _ _ _)
      | progress value => exact .single (.call (.progress value) _ _ _ _)
      | poll => exact .pollAlive rfl w
    exact hfirst.trans (ih (w.step event))

theorem Runs.polls (n : Nat) {k : Worker α ρ} (halive : k.alive = true) (w : Watch α ρ) :
    Runs ⟨k, .waiting, w⟩ (List.replicate n .poll) ⟨k, .waiting, Watch.poll^[n] w⟩ := by
  induction n generalizing w with
  | zero => exact .refl
  | succ n ih => exact (Runs.pollAlive halive w).trans (ih w.poll)

end Threads

/-- The threads can make every run, and the loop stops where it ends. -/
theorem EngineRun.runs {α ρ : Type} [Scalar α] (run : EngineRun α ρ) (size : Int) :
    (Threads.start (callsIn run.events) run.ending size).Runs run.history
      ⟨.dead, .stopped, run.watch size⟩ := by
  have hcalls := Threads.Runs.calling run.events [] run.ending (⟨.start size, []⟩ : Watch α ρ)
  rw [List.append_nil] at hcalls
  have hended := hcalls.tail (.finish run.ending .waiting _)
  have hlate := hended.trans (.polls run.latePolls rfl _)
  -- The thread dies, the loop sees it, and takes the last snapshot.
  have hlast := ((hlate.tail (.die .waiting _)).tail (.look .dead _)).tail (.snapshot .dead false _)
  rw [← Function.iterate_succ_apply' Watch.poll, ← Watch.pollAfter_eq_iterate] at hlast
  simp only [List.append_nil, List.append_assoc] at hlast
  rw [history, List.replicate_succ']
  exact hlast

end ShadeGraph
