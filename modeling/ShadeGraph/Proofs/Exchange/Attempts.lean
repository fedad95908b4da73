import Mathlib.Tactic
import ShadeGraph.Exchange.Disk

/-!
# Attempts to copy a file

Once its directory is made, copying a file is a run of attempts. An attempt is made on a disk and turns
out well or fails; after a failure because the file is in use there is a delay and another attempt, as
long as the bound on further attempts is not reached. The rules for such a run hold of copying whatever
the bound and the clock are.
-/

namespace ShadeGraph

/-! ### How attempts turn out -/

/-- What a file system says about a file in use. -/
def FileError.busy : FileError := .ofCode 16 "Device or resource busy"

/-- The attempt failed because the file is in use. -/
def InUse (outcome : Option FileError) : Prop := ∃ e, outcome = some e ∧ e.isInUse = true

@[simp] theorem not_inUse_none : ¬ InUse none := by
  rintro ⟨e, he, _⟩
  cases he

@[simp] theorem inUse_some_iff {e : FileError} : InUse (some e) ↔ e.isInUse = true := by
  constructor
  · rintro ⟨e', he, hbusy⟩
    rwa [Option.some.inj he]
  · exact fun hbusy => ⟨e, rfl, hbusy⟩

namespace Disk

variable {disk later : Disk} {source target : String} {e : FileError}

/-- An attempt to copy a file: how it fails, if it does, and the disk behind it. -/
def attempt (disk : Disk) (source target : String) : Option FileError × Disk :=
  match disk.waiting source with
  | e :: failures => (some e, disk.setWaiting source failures)
  | [] =>
    match disk.copy? source target with
    | .ok later => (none, later)
    | .error e => (some e, disk)

/-- How the attempt with this number turns out, counted from zero. -/
def outcome (disk : Disk) (source target : String) (k : ℕ) : Option FileError :=
  match (disk.waiting source)[k]? with
  | some e => some e
  | none => disk.refuses? source target

theorem fst_attempt (disk : Disk) (source target : String) :
    (disk.attempt source target).1 = disk.outcome source target 0 := by
  unfold attempt outcome copy?
  cases disk.waiting source with
  | cons e failures => rfl
  | nil => cases disk.refuses? source target <;> rfl

theorem outcome_zero_of_attempt {outcome : Option FileError}
    (h : disk.attempt source target = (outcome, later)) :
    disk.outcome source target 0 = outcome := by
  rw [← fst_attempt disk source target, h]

theorem waiting_setWaiting (disk : Disk) (source : String) (failures : List FileError) :
    (disk.setWaiting source failures).waiting source = failures := by
  rw [waiting, setWaiting, Table.get?_insert, if_pos rfl, Option.getD_some]

theorem refuses?_of_copy? (h : disk.copy? source target = .error e) :
    disk.refuses? source target = some e := by
  unfold copy? at h
  split at h <;> cases h
  assumption

/-- What refuses a copy on its own is no other program. -/
theorem isInUse_of_refuses? (h : disk.refuses? source target = some e) : e.isInUse = false := by
  unfold refuses? at h
  split_ifs at h
  · obtain rfl := Option.some.inj h
    decide
  · obtain rfl := Option.some.inj h
    rfl

/-- Behind a failure for a file in use the same failures come, one attempt earlier. -/
theorem outcome_of_attempt (h : disk.attempt source target = (some e, later))
    (hbusy : e.isInUse = true) (k : ℕ) :
    later.outcome source target k = disk.outcome source target (k + 1) := by
  unfold attempt copy? at h
  cases hwaiting : disk.waiting source with
  | cons first failures =>
    rw [hwaiting] at h
    cases h
    unfold outcome
    rw [waiting_setWaiting, hwaiting, List.getElem?_cons_succ]
    rfl
  | nil =>
    rw [hwaiting] at h
    cases hrefuses : disk.refuses? source target with
    | none =>
      rw [hrefuses] at h
      cases h
    | some why =>
      rw [hrefuses] at h
      cases h
      rw [isInUse_of_refuses? hrefuses] at hbusy
      cases hbusy

/-! ### The directory of a copy -/

/-- A disk with the directory of a path, and otherwise as it was. -/
structure Prepared (disk ready : Disk) (target : String) : Prop where
  files : ready.files = disk.files
  failures : ready.failures = disk.failures
  copies : ready.copies = disk.copies
  tree : ready.tree = disk.tree
  made : disk.made ⊆ ready.made
  directory : Text.directoryName target ∈ "" :: ready.made

theorem prepared_of_prepare? {ready : Disk} (h : disk.prepare? target = .ok ready) :
    disk.Prepared ready target := by
  unfold prepare? at h
  dsimp only at h
  split_ifs at h with hempty
  · obtain rfl := Except.ok.inj h
    rw [String.isEmpty_iff] at hempty
    exact ⟨rfl, rfl, rfl, rfl, List.Subset.refl _, hempty ▸ List.mem_cons_self⟩
  · split at h
    · cases h
    · obtain rfl := Except.ok.inj h
      refine ⟨rfl, rfl, rfl, rfl, List.subset_append_left _ _, ?_⟩
      exact List.mem_cons_of_mem _ (List.mem_append_right _ (List.mem_singleton_self _))

/-- A tree that refuses no directory lets each one be made. -/
theorem exists_prepare? (h : ∀ directory, disk.tree.refuses? disk.files directory = none)
    (target : String) : ∃ ready, disk.prepare? target = .ok ready := by
  unfold prepare?
  dsimp only
  rw [h]
  split_ifs
  · exact ⟨_, rfl⟩
  · exact ⟨_, rfl⟩

/-- Only the tree refuses a directory. -/
theorem refuses?_of_prepare? (h : disk.prepare? target = .error e) :
    disk.tree.refuses? disk.files (Text.directoryName target) = some e := by
  unfold prepare? at h
  dsimp only at h
  split_ifs at h
  split at h
  next hrefuses =>
    cases h
    exact hrefuses
  next => cases h

namespace Prepared

variable {ready : Disk}

theorem waiting (h : disk.Prepared ready target) (path : String) :
    ready.waiting path = disk.waiting path := by
  rw [Disk.waiting, Disk.waiting, h.failures]

theorem isFile (h : disk.Prepared ready target) {path : String} (hpath : disk.isFile path = true) :
    ready.isFile path = true := by
  unfold Disk.isFile at hpath ⊢
  rw [Bool.and_eq_true] at hpath ⊢
  rw [h.tree, h.files]
  exact hpath.imp_left (disk.tree.reaches_of_subset h.made)

end Prepared

end Disk

/-! ### What a run of attempts does -/

/-- An attempt, with the way in which it turned out, or a delay behind one. -/
inductive CopyEvent (α : Type) where
  | attempt (outcome : Option FileError)
  | wait (delay : α)

namespace RetryPolicy

variable {α : Type} [Scalar α] (policy : RetryPolicy α)

/-- The delay behind another one. -/
def next (delay : α) : α := Scalar.smaller (delay * 2.0) policy.maxDelay

/-- The delay behind the attempt with this number. -/
def delayAt (k : ℕ) : α := policy.next^[k] policy.delay

end RetryPolicy

namespace Workbench

variable {α : Type} [Scalar α] {policy : RetryPolicy α} {source target : String}

/-- The state behind an attempt and the words about it. -/
def told (w : Workbench α) (disk : Disk) (level : Level) (text : String) : Workbench α :=
  { w with disk, journal := w.journal.print level text }

/-- The state behind a delay. -/
def waited (w : Workbench α) (delay : α) : Workbench α :=
  if w.timer = .record then { w with sleeps := w.sleeps ++ [delay] } else w

/-- The state behind a failure for a file in use, the words about it and the delay. -/
def delayed (w : Workbench α) (policy : RetryPolicy α) (source : String) (n : ℕ) (d : α)
    (disk : Disk) : Workbench α :=
  (w.told disk .warning (retryText source d (n + 1) policy.limit.display)).waited d

@[simp] theorem disk_delayed (w : Workbench α) (n : ℕ) (d : α) (disk : Disk) :
    (w.delayed policy source n d disk).disk = disk := by
  unfold delayed waited
  split_ifs <;> rfl

@[simp] theorem timer_delayed (w : Workbench α) (n : ℕ) (d : α) (disk : Disk) :
    (w.delayed policy source n d disk).timer = w.timer := by
  unfold delayed waited
  split_ifs <;> rfl

@[simp] theorem size_console_delayed (w : Workbench α) (n : ℕ) (d : α) (disk : Disk) :
    (w.delayed policy source n d disk).journal.console.size = w.journal.console.size + 1 := by
  unfold delayed waited
  split_ifs <;> exact Array.size_push _

theorem sleeps_delayed (n : ℕ) (d : α) (disk : Disk) {w : Workbench α}
    (htimer : w.timer = .record) :
    (w.delayed policy source n d disk).sleeps = w.sleeps ++ [d] := by
  have htold : (w.told disk .warning (retryText source d (n + 1) policy.limit.display)).timer =
      .record := htimer
  rw [delayed, waited, if_pos htold]
  rfl

/-- A run of attempts behind `n` retries, with the delay that comes next. -/
inductive Tries (policy : RetryPolicy α) (source target : String) :
    ℕ → α → Workbench α → List (CopyEvent α) → Except CopyError Unit → Workbench α → Prop
  | copied {n : ℕ} {d : α} {w : Workbench α} {disk : Disk} :
    w.disk.attempt source target = (none, disk) →
    Tries policy source target n d w [.attempt none] (.ok ())
      (w.told disk .debug (copiedText source target))
  | failed {n : ℕ} {d : α} {w : Workbench α} {disk : Disk} {e : FileError} :
    w.disk.attempt source target = (some e, disk) → e.isInUse = false →
    Tries policy source target n d w [.attempt (some e)] (.error (.failed source target e))
      (w.told disk .error (failedText source e))
  /-- The bound is no number. -/
  | unordered {n : ℕ} {d : α} {w : Workbench α} {disk : Disk} {e : FileError} :
    w.disk.attempt source target = (some e, disk) → e.isInUse = true →
    policy.isReached? n = none →
    Tries policy source target n d w [.attempt (some e)]
      (.error (.unordered policy.limit.kindName)) { w with disk }
  | exhausted {n : ℕ} {d : α} {w : Workbench α} {disk : Disk} {e : FileError} :
    w.disk.attempt source target = (some e, disk) → e.isInUse = true →
    policy.isReached? n = some true →
    Tries policy source target n d w [.attempt (some e)]
      (.error (.inUse source policy.limit.display e))
      (w.told disk .error (stillInUseText source policy.limit.display))
  /-- The clock refuses the delay. -/
  | refused {n : ℕ} {d : α} {w : Workbench α} {disk : Disk} {e : FileError} {why : DelayError} :
    w.disk.attempt source target = (some e, disk) → e.isInUse = true →
    policy.isReached? n = some false → w.timer.refuses? d = some why →
    Tries policy source target n d w [.attempt (some e)] (.error (.delay why))
      (w.delayed policy source n d disk)
  | again {n : ℕ} {d : α} {w later : Workbench α} {disk : Disk} {e : FileError}
      {events : List (CopyEvent α)} {result : Except CopyError Unit} :
    w.disk.attempt source target = (some e, disk) → e.isInUse = true →
    policy.isReached? n = some false → w.timer.refuses? d = none →
    Tries policy source target (n + 1) (policy.next d) (w.delayed policy source n d disk)
      events result later →
    Tries policy source target n d w (.attempt (some e) :: .wait d :: events) result later

omit [Scalar α] in
theorem run_copyNow_eq (source target : String) (w : Workbench α) :
    (copyNow source target).run w =
      match w.disk.copy? source target with
      | .ok disk => (.ok (), w.told disk .debug (copiedText source target))
      | .error e => (.error (.failed source target e),
          w.told w.disk .error (failedText source e)) := by
  unfold copyNow
  rw [StateT.run_bind, StateT.run_get, pure_bind]
  cases w.disk.copy? source target <;> rfl

theorem run_sleep (d : α) (w : Workbench α) :
    (sleep d).run w = (w.timer.refuses? d, w.waited d) := rfl

/-- Behind a failure for a file in use, copying goes on after the delay. -/
theorem run_copyAgainst_retry {e : FileError} (failures : List FileError) {n : ℕ} (d : α)
    (w : Workbench α) (hbusy : e.isInUse = true) (hreached : policy.isReached? n = some false) :
    (copyAgainst policy source target (e :: failures) n d).run w =
      let middle := w.delayed policy source n d (w.disk.setWaiting source failures)
      match w.timer.refuses? d with
      | some why => (.error (.delay why), middle)
      | none => (copyAgainst policy source target failures (n + 1) (policy.next d)).run middle := by
  have hrun : (copyAgainst policy source target (e :: failures) n d).run w =
      (sleep d >>= fun refusal => match refusal with
        | some why => pure (.error (.delay why))
        | none => copyAgainst policy source target failures (n + 1) (policy.next d)).run
          (w.told (w.disk.setWaiting source failures) .warning
            (retryText source d (n + 1) policy.limit.display)) := by
    simp only [copyAgainst, hbusy, hreached]
    rfl
  have htimer : (w.told (w.disk.setWaiting source failures) .warning
      (retryText source d (n + 1) policy.limit.display)).timer = w.timer := rfl
  rw [hrun, StateT.run_bind, run_sleep, htimer]
  cases w.timer.refuses? d <;> rfl

/-- Whatever the bound and the clock, copying is a run of attempts. -/
theorem exists_tries_copyAgainst (policy : RetryPolicy α) (source target : String)
    (failures : List FileError) (n : ℕ) (d : α) (w : Workbench α)
    (h : w.disk.waiting source = failures) :
    ∃ events result later, (copyAgainst policy source target failures n d).run w = (result, later) ∧
      Tries policy source target n d w events result later := by
  induction failures generalizing n d w with
  | nil =>
    have hattempt : w.disk.attempt source target =
        match w.disk.copy? source target with
        | .ok disk => (none, disk)
        | .error e => (some e, w.disk) := by
      unfold Disk.attempt
      rw [h]
    rw [copyAgainst, run_copyNow_eq]
    cases hcopy : w.disk.copy? source target with
    | ok disk =>
      rw [hcopy] at hattempt
      exact ⟨_, _, _, rfl, .copied hattempt⟩
    | error e =>
      rw [hcopy] at hattempt
      have hother := Disk.isInUse_of_refuses? (Disk.refuses?_of_copy? hcopy)
      exact ⟨_, _, _, rfl, .failed hattempt hother⟩
  | cons e failures ih =>
    have hattempt : w.disk.attempt source target = (some e, w.disk.setWaiting source failures) := by
      unfold Disk.attempt
      rw [h]
    by_cases hbusy : e.isInUse = true
    · cases hreached : policy.isReached? n with
      | none =>
        refine ⟨_, _, _, ?_, .unordered hattempt hbusy hreached⟩
        simp only [copyAgainst, hbusy, hreached]
        rfl
      | some reached =>
        cases reached with
        | true =>
          refine ⟨_, _, _, ?_, .exhausted hattempt hbusy hreached⟩
          simp only [copyAgainst, hbusy, hreached]
          rfl
        | false =>
          cases hrefuses : w.timer.refuses? d with
          | some why =>
            refine ⟨_, _, _, ?_, .refused hattempt hbusy hreached hrefuses⟩
            rw [run_copyAgainst_retry failures d w hbusy hreached, hrefuses]
          | none =>
            obtain ⟨events, result, later, hrun, htries⟩ := ih (n + 1) (policy.next d)
              (w.delayed policy source n d (w.disk.setWaiting source failures))
              (by rw [disk_delayed, Disk.waiting_setWaiting])
            refine ⟨_, result, later, ?_, .again hattempt hbusy hreached hrefuses htries⟩
            rw [run_copyAgainst_retry failures d w hbusy hreached, hrefuses]
            exact hrun
    · refine ⟨_, _, _, ?_, .failed hattempt (Bool.eq_false_iff.mpr hbusy)⟩
      simp only [copyAgainst, hbusy]
      rfl

/-- A directory that cannot be made is told, and nothing else happens. -/
theorem run_copy_of_refused (policy : RetryPolicy α) {source target : String} {w : Workbench α}
    {e : FileError} (h : w.disk.prepare? target = .error e) :
    (copy policy source target).run w = (.error (.directory e), w) := by
  unfold copy
  rw [StateT.run_bind, StateT.run_get, pure_bind, h]
  rfl

/-- The directory is made first, and the attempts begin with the first delay. -/
theorem run_copy_of_ready (policy : RetryPolicy α) {source target : String} {w : Workbench α}
    {ready : Disk} (h : w.disk.prepare? target = .ok ready) :
    (copy policy source target).run w =
      (copyAgainst policy source target (ready.waiting source) 0 policy.delay).run
        { w with disk := ready } := by
  unfold copy
  rw [StateT.run_bind, StateT.run_get, pure_bind, h]
  rfl

/-- Copying is a run of attempts from the first delay on. -/
theorem exists_tries (policy : RetryPolicy α) (source : String) {target : String}
    {w : Workbench α} {ready : Disk} (h : w.disk.prepare? target = .ok ready) :
    ∃ events result later, (copy policy source target).run w = (result, later) ∧
      Tries policy source target 0 policy.delay { w with disk := ready } events result later := by
  rw [run_copy_of_ready policy h]
  exact exists_tries_copyAgainst policy source target _ 0 policy.delay { w with disk := ready } rfl

end Workbench

end ShadeGraph
