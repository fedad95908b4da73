import Mathlib.Data.List.DropRight
import ShadeGraph.Proofs.Exchange.Threads
import ShadeGraph.Proofs.Number.Order

/-!
# What the polling loop hears of an engine

The messages of an engine are cut into sections by the snapshots. A buffer keeps the newest messages
of the section that is open, and each snapshot takes what is kept, so that the log is the messages
of the engine without the oldest ones of the sections that were too long for the buffer. Progress is
a number that never falls.
-/

namespace ShadeGraph

/-- The messages in a history of the state, apart by the polls. -/
structure Sections where
  polled : List (List String) := []
  /-- The messages since the last poll. -/
  pending : List String := []

namespace Sections

variable {α : Type}

def add (s : Sections) : RunEvent α → Sections
  | .log text => { s with pending := s.pending ++ [text] }
  | .progress _ => s
  | .poll => { polled := s.polled ++ [s.pending] }

def of (history : List (RunEvent α)) : Sections := history.foldl add {}

theorem of_concat (history : List (RunEvent α)) (event : RunEvent α) :
    of (history ++ [event]) = (of history).add event := by
  rw [of, List.foldl_append]
  rfl

/-- How many messages of a section do not fit into a buffer. -/
def excess (limit : Nat) (messages : List String) : Nat := messages.length - limit

theorem excess_nil (limit : Nat) : excess limit [] = 0 := Nat.zero_sub limit

/-- The sections hold all messages in their order. -/
theorem flatten_of (history : List (RunEvent α)) :
    (of history).polled.flatten ++ (of history).pending =
      (callsIn history).filterMap EngineCall.text? := by
  induction history using List.reverseRecOn with
  | nil => rfl
  | append_singleton history event ih =>
    rw [of_concat, callsIn_append, List.filterMap_append, ← ih]
    cases event <;> simp [add, callsIn, RunEvent.call?, EngineCall.text?]

theorem pending_of_history {ρ : Type} (run : EngineRun α ρ) : (of run.history).pending = [] := by
  rw [EngineRun.history, List.replicate_succ', ← List.append_assoc, of_concat]
  rfl

end Sections

/-! ### The buffer -/

section Newest

variable {texts : List String} {text : String} {limit : Nat}

theorem length_rtake (texts : List String) (limit : Nat) :
    (texts.rtake limit).length = min limit texts.length := by
  rw [List.rtake, List.length_drop]
  omega

theorem rtake_concat_of_lt (h : texts.length < limit) :
    (texts ++ [text]).rtake limit = texts.rtake limit ++ [text] := by
  have hall : texts.length + 1 - limit = 0 := by omega
  have hall' : texts.length - limit = 0 := by omega
  simp [List.rtake, hall, hall']

theorem rtake_concat_of_le (hlimit : 0 < limit) (h : limit ≤ texts.length) :
    (texts ++ [text]).rtake limit = (texts.rtake limit).tail ++ [text] := by
  have hone : texts.length + 1 - limit = texts.length - limit + 1 := by omega
  have hfits : texts.length - limit + 1 ≤ texts.length := by omega
  simp [List.rtake, hone, List.drop_append_of_le_length hfits]

theorem flatten_rtake_sublist (limit : Nat) (sections : List (List String)) :
    (sections.map (·.rtake limit)).flatten.Sublist sections.flatten := by
  induction sections with
  | nil => exact .slnil
  | cons texts sections ih => exact (List.drop_sublist _ _).append ih

theorem length_flatten_rtake (limit : Nat) (sections : List (List String)) :
    (sections.map (·.rtake limit)).flatten.length + (sections.map (Sections.excess limit)).sum =
      sections.flatten.length := by
  induction sections with
  | nil => rfl
  | cons texts sections ih =>
    have hlength := length_rtake texts limit
    simp only [List.map_cons, List.flatten_cons, List.length_append, List.sum_cons,
      Sections.excess] at *
    omega

end Newest

namespace Watch

variable {α ρ : Type} [Scalar α] {limit : Nat} {s : Sections} {w : Watch α ρ}

/-- A state with its polls is what sections leave of their messages: the buffer and the polls hold
the newest ones of each section, and the others are counted. -/
structure Buffers (limit : Nat) (s : Sections) (w : Watch α ρ) : Prop where
  limit_eq : w.state.limit = limit
  buffer : w.state.messages = s.pending.rtake limit
  batches : w.polls.map (·.messages) = s.polled.map (·.rtake limit)
  dropped : w.state.dropped =
    (s.polled.map (Sections.excess limit)).sum + Sections.excess limit s.pending

theorem Buffers.log (h : w.Buffers limit s) (hlimit : 0 < limit) (text : String) :
    (w.step (.log text)).Buffers limit (s.add (.log text : RunEvent α)) := by
  have hlength := length_rtake s.pending limit
  have hdropped := h.dropped
  by_cases hfull : limit ≤ s.pending.length
  · have hstep : w.step (.log text) = { w with state := { w.state with
        messages := w.state.messages.tail ++ [text], dropped := w.state.dropped + 1 } } := by
      rw [step, ProcessingState.addLog, if_pos (by rw [h.buffer, h.limit_eq]; omega)]
    rw [hstep]
    refine ⟨h.limit_eq, ?_, h.batches, ?_⟩
    · exact (congrArg (·.tail ++ [text]) h.buffer).trans (rtake_concat_of_le hlimit hfull).symm
    · simp only [Sections.add, Sections.excess, List.length_append, List.length_singleton] at *
      omega
  · have hstep : w.step (.log text) =
        { w with state := { w.state with messages := w.state.messages ++ [text] } } := by
      rw [step, ProcessingState.addLog, if_neg (by rw [h.buffer, h.limit_eq]; omega)]
    rw [hstep]
    refine ⟨h.limit_eq, ?_, h.batches, ?_⟩
    · exact (congrArg (· ++ [text]) h.buffer).trans (rtake_concat_of_lt (by omega)).symm
    · simp only [Sections.add, Sections.excess, List.length_append, List.length_singleton] at *
      omega

omit [Scalar α] in
theorem Buffers.poll (h : w.Buffers limit s) :
    w.poll.Buffers limit (s.add (.poll : RunEvent α)) where
  limit_eq := h.limit_eq
  buffer := by simp [Watch.poll, ProcessingState.drain, Sections.add]
  batches := by simp [Watch.poll, ProcessingState.drain, Sections.add, h.batches, h.buffer]
  dropped := by simp [Watch.poll, ProcessingState.drain, Sections.add, Sections.excess, h.dropped]

theorem Buffers.step (h : w.Buffers limit s) (hlimit : 0 < limit) (event : RunEvent α) :
    (w.step event).Buffers limit (s.add event) := by
  cases event with
  | log text => exact h.log hlimit text
  | progress value => exact ⟨h.limit_eq, h.buffer, h.batches, h.dropped⟩
  | poll => exact h.poll

/-! ### Progress -/

/-- Progress that was polled, and where it is now, is in range and never falls. -/
structure Climbs (polled : List α) (progress : α) : Prop where
  range : ∀ v ∈ polled ++ [progress], Scalar.le 0.0 v = true ∧ Scalar.le v 100.0 = true
  rises : (polled ++ [progress]).Pairwise (Scalar.le · · = true)

section

open Scalar

variable {polled : List α} {progress later : α}

theorem Climbs.inRange (h : Climbs polled progress) :
    le 0.0 progress = true ∧ le progress 100.0 = true :=
  h.range progress (by simp)

variable [Ordered α]

theorem Climbs.start : Climbs [] (0.0 : α) where
  range v hv := by
    obtain rfl := List.mem_singleton.mp hv
    exact ⟨le_refl_of_isNumber isNumber_zero, zero_le_hundred⟩
  rises := List.pairwise_singleton _ _

theorem Climbs.raise (h : Climbs polled progress) (hlater : le progress later = true)
    (hbound : le later 100.0 = true) : Climbs polled later := by
  obtain ⟨hpolled, -, hlast⟩ := List.pairwise_append.mp h.rises
  refine ⟨fun v hv => ?_, List.pairwise_append.mpr ⟨hpolled, List.pairwise_singleton _ _, ?_⟩⟩
  · rcases List.mem_append.mp hv with hv | hv
    · exact h.range v (List.mem_append_left _ hv)
    · obtain rfl := List.mem_singleton.mp hv
      exact ⟨Ordered.le_trans h.inRange.1 hlater, hbound⟩
  · intro a ha b hb
    obtain rfl := List.mem_singleton.mp hb
    exact Ordered.le_trans (hlast a ha progress (List.mem_singleton_self _)) hlater

theorem Climbs.poll (h : Climbs polled progress) : Climbs (polled ++ [progress]) progress := by
  have hself := le_refl_of_isNumber (Ordered.isNumber h.inRange.1).2
  refine ⟨fun v hv => h.range v (by simpa using hv), ?_⟩
  refine List.pairwise_append.mpr ⟨h.rises, List.pairwise_singleton _ _, fun a ha b hb => ?_⟩
  obtain rfl := List.mem_singleton.mp hb
  rcases List.mem_append.mp ha with ha | ha
  · exact (List.pairwise_append.mp h.rises).2.2 a ha b hb
  · exact List.mem_singleton.mp ha ▸ hself

/-- What an engine sends as progress never gets beyond a hundred, nor does it lower the progress. -/
theorem Climbs.set (h : Climbs polled progress) (value : α) :
    Climbs polled (larger progress (ProcessingState.percent value)) := by
  refine h.raise (le_larger_left (Ordered.isNumber h.inRange.1).2 _) ?_
  exact larger_le h.inRange.2 (smaller_le isNumber_hundred)

end

/-! ### Both threads -/

/-- The state with its polls is what a history makes of messages and progress. -/
structure Reports (limit : Nat) (history : List (RunEvent α)) (w : Watch α ρ) : Prop where
  buffers : w.Buffers limit (.of history)
  climbs : Climbs (w.polls.map (·.progress)) w.state.progress

section

variable [Scalar.Ordered α] {history : List (RunEvent α)}

theorem Reports.start (size : Int) :
    Reports (max 1 size.toNat) ([] : List (RunEvent α)) (⟨.start size, []⟩ : Watch α ρ) where
  buffers := by constructor <;> simp [ProcessingState.start, Sections.of, Sections.excess]
  climbs := .start

theorem Reports.step (h : w.Reports limit history) (hlimit : 0 < limit) (event : RunEvent α) :
    (w.step event).Reports limit (history ++ [event]) where
  buffers := Sections.of_concat history event ▸ h.buffers.step hlimit event
  climbs := by
    cases event with
    | log text =>
      have hsame : (w.step (.log text)).state.progress = w.state.progress := by
        rw [Watch.step, ProcessingState.addLog]
        split_ifs <;> rfl
      exact hsame ▸ h.climbs
    | progress value => exact h.climbs.set value
    | poll => simpa [Watch.step, Watch.poll, ProcessingState.drain] using h.climbs.poll

theorem Reports.finish (h : w.Reports limit history) (ending : RunEnding ρ) :
    (w.finish ending).Reports limit history := by
  obtain ⟨⟨hlimit_eq, hbuffer, hbatches, hdropped⟩, hclimbs⟩ := h
  cases ending with
  | returns result =>
    have hhundred := Scalar.le_refl_of_isNumber (Scalar.isNumber_hundred (α := α))
    exact ⟨⟨hlimit_eq, hbuffer, hbatches, hdropped⟩, hclimbs.raise hclimbs.inRange.2 hhundred⟩
  | raises text => exact ⟨⟨hlimit_eq, hbuffer, hbatches, hdropped⟩, hclimbs⟩
  | vanishes => exact ⟨⟨hlimit_eq, hbuffer, hbatches, hdropped⟩, hclimbs⟩

end

omit [Scalar α] in
theorem eq_of_result_eq_ok {r : RunResult ρ} (h : w.result = .ok r) :
    r = ⟨w.state.result, w.messages,
      if w.state.dropped = 0 then [] else [droppedText w.state.dropped]⟩ := by
  rw [result] at h
  split at h
  · cases h
  · exact (Except.ok.inj h).symm

omit [Scalar α] in
/-- The last poll finds the progress as it was before the polls. -/
theorem getLast?_polls_pollAfter (w : Watch α ρ) (n : Nat) :
    ((w.pollAfter n).polls.map (·.progress)).getLast? = some w.state.progress := by
  cases n with
  | zero => simp [pollAfter, poll, ProcessingState.drain]
  | succ n => simp [pollAfter, poll, ProcessingState.drain, state_pollAfter]

end Watch

namespace Threads

variable {α ρ : Type} [Scalar α] [Scalar.Ordered α] {calls : List (EngineCall α)}
variable {ending : RunEnding ρ} {size : Int} {history : List (RunEvent α)} {t : Threads α ρ}

theorem Runs.reports (h : (start calls ending size).Runs history t) :
    t.watch.Reports (max 1 size.toNat) history := by
  induction h with
  | refl => exact .start size
  | tail _ hstep ih =>
    cases hstep with
    | call c => exact ih.step (by omega) c.event
    | finish ending =>
      rw [List.append_nil]
      exact ih.finish ending
    | die | look => simpa using ih
    | snapshot => exact ih.step (by omega) .poll

/-- What is left when the polling loop has stopped. -/
structure Accounts (calls : List (EngineCall α)) (ending : RunEnding ρ) (limit : Nat)
    (history : List (RunEvent α)) (w : Watch α ρ) : Prop where
  empty : w.state.messages = []
  /-- Each snapshot took the newest messages since the one before it. -/
  batches : w.polls.map (·.messages) = (Sections.of history).polled.map (·.rtake limit)
  sections : (Sections.of history).polled.flatten = calls.filterMap EngineCall.text?
  sublist : w.messages.Sublist (calls.filterMap EngineCall.text?)
  counted : w.messages.length + w.state.dropped = (calls.filterMap EngineCall.text?).length
  log : ∀ r, w.result = .ok r → r.log = (w.polls.map (·.messages)).flatten ∧
    r.warnings = if 0 < w.state.dropped then [droppedText w.state.dropped] else []
  rises : (w.polls.map (·.progress)).Pairwise (Scalar.le · · = true)
  range : ∀ v ∈ w.polls.map (·.progress), Scalar.le 0.0 v = true ∧ Scalar.le v 100.0 = true
  ends : ∀ result, ending = .returns result → (w.polls.map (·.progress)).getLast? = some 100.0

/-- However the two threads take turns, the buffer never holds more messages than fit into it, and
when the loop has stopped no message was lost that is not counted. -/
theorem runs_accounts (h : (start calls ending size).Runs history t) :
    t.watch.state.messages.length ≤ max 1 size.toNat ∧
      (t.caller = .stopped → Accounts calls ending (max 1 size.toNat) history t.watch) := by
  obtain ⟨hbuffers, hclimbs⟩ := h.reports
  refine ⟨?_, fun hstop => ?_⟩
  · rw [hbuffers.buffer, length_rtake]
    exact Nat.min_le_left _ _
  · obtain ⟨run, rfl, rfl, rfl, hwatch⟩ := h.exists_run hstop
    have hpending := Sections.pending_of_history run
    have htexts : (Sections.of run.history).polled.flatten =
        (callsIn run.events).filterMap EngineCall.text? := by
      have hflatten := Sections.flatten_of run.history
      rwa [hpending, List.append_nil, EngineRun.callsIn_history] at hflatten
    have hmessages : t.watch.messages =
        ((Sections.of run.history).polled.map (·.rtake (max 1 size.toNat))).flatten := by
      rw [← hbuffers.batches]
      exact List.flatMap_def
    have hclimbs' := List.pairwise_append.mp hclimbs.rises
    refine
      { empty := by rw [hbuffers.buffer, hpending, List.rtake_nil]
        batches := hbuffers.batches
        sections := htexts
        sublist := ?_
        counted := ?_
        log := fun r hr => ?_
        rises := hclimbs'.1
        range := fun v hv => hclimbs.range v (List.mem_append_left _ hv)
        ends := fun result hending => ?_ }
    · rw [hmessages, ← htexts]
      exact flatten_rtake_sublist _ _
    · have hlength := length_flatten_rtake (max 1 size.toNat) (Sections.of run.history).polled
      rw [hmessages, hbuffers.dropped, hpending, ← htexts, ← hlength, Sections.excess_nil,
        Nat.add_zero]
    · obtain rfl := Watch.eq_of_result_eq_ok hr
      refine ⟨List.flatMap_def, ?_⟩
      simp only [Nat.pos_iff_ne_zero, ite_not]
    · rw [← hwatch, EngineRun.watch, Watch.getLast?_polls_pollAfter, hending]
      rfl

/-- Three messages are logged behind the first snapshot. -/
def crowdedRun : EngineRun Float String where
  events := [.log "a", .progress 40.0, .poll, .log "b", .log "c", .progress 20.0, .log "d"]
  ending := .returns "done"
  latePolls := 1

/-- A buffer of two keeps the newest two of three messages. -/
theorem runs_accounts_crowdedRun :
    ∃ t, (start (callsIn crowdedRun.events) (.returns "done") 2).Runs crowdedRun.history t ∧
      t.caller = .stopped ∧
      Accounts (callsIn crowdedRun.events) (.returns "done") 2 crowdedRun.history t.watch ∧
      t.watch.polls = [⟨40.0, ["a"]⟩, ⟨100.0, ["c", "d"]⟩, ⟨100.0, []⟩] ∧
      t.watch.state.dropped = 1 := by
  have hruns := crowdedRun.runs 2
  refine ⟨_, hruns, rfl, (runs_accounts hruns).2 rfl, ?_, ?_⟩ <;> decide +kernel

end Threads

end ShadeGraph
