import ShadeGraph.Proofs.Exchange.Attempts

/-!
# Bounded retries

The attempts to copy a file may turn out in any way. The first one that does not find the file in use
decides, if it is within the bound on further attempts; otherwise all of them found it in use, and
copying gives up. Between two attempts there is one delay.
-/

namespace ShadeGraph

/-! ### Disks for all sequences -/

namespace Disk

/-- The attempts on this disk turn out in this way, as far as there are any with so many retries. -/
def Shows (disk : Disk) (source target : String) (limit : ℕ)
    (outcomes : ℕ → Option FileError) : Prop :=
  ∀ k ≤ limit, (∀ j < k, InUse (disk.outcome source target j)) →
    disk.outcome source target k = outcomes k

/-- The failures of the first `n` attempts, up to one that turns out well. -/
def failuresOf : ℕ → (ℕ → Option FileError) → List FileError
  | 0, _ => []
  | n + 1, outcomes =>
    match outcomes 0 with
    | some e => e :: failuresOf n fun k => outcomes (k + 1)
    | none => []

theorem getElem?_failuresOf {n k : ℕ} (outcomes : ℕ → Option FileError) (hk : k < n)
    (hbefore : ∀ j < k, (failuresOf n outcomes)[j]? ≠ none) :
    (failuresOf n outcomes)[k]? = outcomes k := by
  induction n generalizing outcomes k with
  | zero => exact absurd hk (Nat.not_lt_zero k)
  | succ n ih =>
    unfold failuresOf at hbefore ⊢
    cases hfirst : outcomes 0 with
    | none =>
      cases k with
      | zero => exact hfirst.symm
      | succ k =>
        rw [hfirst] at hbefore
        exact absurd rfl (hbefore 0 (Nat.succ_pos k))
    | some e =>
      rw [hfirst] at hbefore
      cases k with
      | zero => exact hfirst.symm
      | succ k =>
        refine ih (fun k => outcomes (k + 1)) (Nat.lt_of_succ_lt_succ hk) fun j hj => ?_
        exact hbefore (j + 1) (Nat.succ_lt_succ hj)

/-- Attempts may turn out in any way. -/
theorem exists_shows (source target : String) (limit : ℕ) (outcomes : ℕ → Option FileError) :
    ∃ disk ready : Disk, disk.prepare? target = .ok ready ∧
      ready.Shows source target limit outcomes := by
  let disk : Disk :=
    { files := [source], failures := [(source, failuresOf (limit + 1) outcomes)] }
  obtain ⟨ready, hready⟩ := disk.exists_prepare? (fun _ => rfl) target
  have hprepared := prepared_of_prepare? hready
  have hwaiting : ready.waiting source = failuresOf (limit + 1) outcomes := by
    rw [hprepared.waiting]
    simp [disk, waiting, Table.get?_cons]
  have hfree : ready.refuses? source target = none := by
    have hfile : ready.isFile source = true := by
      apply hprepared.isFile
      simp [disk, isFile, FileTree.flat]
    have hguard : ready.tree.guarded = false := by rw [hprepared.tree]; rfl
    simp [refuses?, hfile, hguard]
  have houtcome (k : ℕ) :
      ready.outcome source target k = (failuresOf (limit + 1) outcomes)[k]? := by
    unfold outcome
    rw [hwaiting, hfree]
    cases (failuresOf (limit + 1) outcomes)[k]? <;> rfl
  refine ⟨disk, ready, hready, fun k hk hbefore => ?_⟩
  rw [houtcome]
  refine getElem?_failuresOf outcomes (Nat.lt_succ_of_le hk) fun j hj => ?_
  obtain ⟨e, he, _⟩ := hbefore j hj
  rw [← houtcome, he]
  exact Option.some_ne_none e

end Disk

/-! ### The last attempt -/

namespace CopyEvent

variable {α : Type}

/-- Attempts with these numbers up to the last one, with one delay between two of them. -/
def history (outcomes : ℕ → Option FileError) (delays : ℕ → α) (last : ℕ) : List (CopyEvent α) :=
  ((List.range last).flatMap fun k => [.attempt (outcomes k), .wait (delays k)]) ++
    [.attempt (outcomes last)]

theorem history_zero (outcomes : ℕ → Option FileError) (delays : ℕ → α) :
    history outcomes delays 0 = [.attempt (outcomes 0)] := rfl

theorem history_succ (outcomes : ℕ → Option FileError) (delays : ℕ → α) (last : ℕ) :
    history outcomes delays (last + 1) = .attempt (outcomes 0) :: .wait (delays 0) ::
      history (fun k => outcomes (k + 1)) (fun k => delays (k + 1)) last := by
  rw [history, List.range_succ_eq_map, List.flatMap_cons, List.flatMap_map]
  rfl

theorem history_congr {outcomes outcomes' : ℕ → Option FileError} (delays : ℕ → α) {last : ℕ}
    (h : ∀ k ≤ last, outcomes k = outcomes' k) :
    history outcomes delays last = history outcomes' delays last := by
  rw [history, history, h last le_rfl]
  congr 1
  refine List.flatMap_congr fun k hk => ?_
  rw [h k (List.mem_range.mp hk).le]

def isAttempt : CopyEvent α → Bool
  | attempt _ => true
  | wait _ => false

def delay? : CopyEvent α → Option α
  | attempt _ => none
  | wait delay => some delay

theorem countP_isAttempt_retry (outcome : Option FileError) (delay : α)
    (events : List (CopyEvent α)) :
    (attempt outcome :: wait delay :: events).countP isAttempt = events.countP isAttempt + 1 := by
  rw [List.countP_cons_of_pos rfl, List.countP_cons_of_neg Bool.false_ne_true]

theorem filterMap_delay?_retry (outcome : Option FileError) (delay : α)
    (events : List (CopyEvent α)) :
    (attempt outcome :: wait delay :: events).filterMap delay? =
      delay :: events.filterMap delay? := rfl

theorem countP_isAttempt_history (outcomes : ℕ → Option FileError) (delays : ℕ → α) (last : ℕ) :
    (history outcomes delays last).countP isAttempt = last + 1 := by
  induction last generalizing outcomes delays with
  | zero => rfl
  | succ last ih =>
    rw [history_succ, countP_isAttempt_retry, ih]

theorem filterMap_delay?_history (outcomes : ℕ → Option FileError) (delays : ℕ → α) (last : ℕ) :
    (history outcomes delays last).filterMap delay? = (List.range last).map delays := by
  induction last generalizing outcomes delays with
  | zero => rfl
  | succ last ih =>
    rw [history_succ, filterMap_delay?_retry, ih, List.range_succ_eq_map, List.map_cons,
      List.map_map]
    rfl

end CopyEvent

/-- With at most `limit` retries, the attempt with this number is the last one. -/
structure LastAttempt (limit : ℕ) (outcomes : ℕ → Option FileError) (last : ℕ) : Prop where
  before : ∀ k < last, InUse (outcomes k)
  le : last ≤ limit
  stops : InUse (outcomes last) → last = limit

namespace LastAttempt

variable {limit last : ℕ} {outcomes : ℕ → Option FileError}

/-- The first attempt is the last one if it does not find the file in use, or without retries. -/
theorem zero (h : InUse (outcomes 0) → limit = 0) : LastAttempt limit outcomes 0 :=
  ⟨fun k hk => absurd hk (Nat.not_lt_zero k), Nat.zero_le limit, fun hbusy => (h hbusy).symm⟩

theorem succ (hfirst : InUse (outcomes 0))
    (h : LastAttempt limit (fun k => outcomes (k + 1)) last) :
    LastAttempt (limit + 1) outcomes (last + 1) := by
  refine ⟨fun k hk => ?_, Nat.succ_le_succ h.le, fun hbusy => congrArg Nat.succ (h.stops hbusy)⟩
  cases k with
  | zero => exact hfirst
  | succ k => exact h.before k (Nat.lt_of_succ_lt_succ hk)

theorem congr {outcomes' : ℕ → Option FileError} (h : LastAttempt limit outcomes last)
    (hsame : ∀ k ≤ last, outcomes k = outcomes' k) : LastAttempt limit outcomes' last := by
  refine ⟨fun k hk => ?_, h.le, fun hbusy => h.stops ?_⟩
  · rw [← hsame k hk.le]
    exact h.before k hk
  · rwa [hsame last le_rfl]

/-- The first attempt that does not find the file in use is the last one, within the bound. -/
theorem eq_of_first (h : LastAttempt limit outcomes last) {k : ℕ} (hk : k ≤ limit)
    (hother : ¬ InUse (outcomes k)) (hbefore : ∀ j < k, InUse (outcomes j)) : last = k := by
  rcases Nat.lt_trichotomy last k with hlt | heq | hgt
  · have hend := h.stops (hbefore last hlt)
    omega
  · exact heq
  · exact absurd (h.before k hgt) hother

end LastAttempt

namespace RetryPolicy

variable {α : Type} [Scalar α] (policy : RetryPolicy α)

/-- A bound that is a whole number is reached by as many retries. -/
theorem isReached?_of_integer {policy : RetryPolicy α} {limit : Int}
    (h : policy.limit.integer? = some limit) (retries : ℕ) :
    policy.isReached? retries = some (decide (limit ≤ retries)) := by
  unfold isReached?
  cases hlimit : policy.limit with
  | integer n =>
    obtain rfl : n = limit := by simpa [hlimit, Value.integer?] using h
    rfl
  | flag b =>
    obtain rfl : (if b then 1 else 0) = limit := by simpa [hlimit, Value.integer?] using h
    rfl
  | _ => simp [hlimit, Value.integer?] at h

/-- What copying comes to with the last attempt. -/
def verdict (source target : String) : Option FileError → Except CopyError Unit
  | none => .ok ()
  | some e =>
    .error (if e.isInUse then .inUse source policy.limit.display e else .failed source target e)

theorem verdict_of_inUse {e : FileError} (source target : String) (h : e.isInUse = true) :
    policy.verdict source target (some e) = .error (.inUse source policy.limit.display e) := by
  rw [verdict, h]
  rfl

theorem verdict_of_other {e : FileError} (source target : String) (h : e.isInUse = false) :
    policy.verdict source target (some e) = .error (.failed source target e) := by
  rw [verdict, h]
  rfl

/-- How copying ends when the attempts turn out in this way, with at most `limit` retries. -/
structure Decides (source target : String) (limit : ℕ) (outcomes : ℕ → Option FileError)
    (last : ℕ) (result : Except CopyError Unit) : Prop where
  bounded : last ≤ limit
  returns : result = .ok () ↔ ∃ k ≤ limit, outcomes k = none ∧ ∀ j < k, InUse (outcomes j)
  stops : ∀ k ≤ limit, ¬ InUse (outcomes k) → (∀ j < k, InUse (outcomes j)) → last = k
  fails : ∀ k ≤ limit, ∀ e, outcomes k = some e → e.isInUse = false →
    (∀ j < k, InUse (outcomes j)) → last = k ∧ result = .error (.failed source target e)
  givesUp : (∀ k ≤ limit, InUse (outcomes k)) → last = limit ∧
    ∃ e, outcomes limit = some e ∧ result = .error (.inUse source policy.limit.display e)

theorem decides_verdict (source target : String) {limit last : ℕ}
    {outcomes : ℕ → Option FileError} (h : LastAttempt limit outcomes last) :
    policy.Decides source target limit outcomes last
      (policy.verdict source target (outcomes last)) where
  bounded := h.le
  returns := by
    constructor
    · intro hok
      refine ⟨last, h.le, ?_, h.before⟩
      cases houtcome : outcomes last with
      | none => rfl
      | some e =>
        rw [houtcome] at hok
        cases hok
    · rintro ⟨k, hk, hwell, hbefore⟩
      have hother : ¬ InUse (outcomes k) := hwell ▸ not_inUse_none
      rw [h.eq_of_first hk hother hbefore, hwell]
      rfl
  stops k hk hother hbefore := h.eq_of_first hk hother hbefore
  fails k hk e he hother hbefore := by
    have hfree : ¬ InUse (outcomes k) := by simp [he, hother]
    obtain rfl := h.eq_of_first hk hfree hbefore
    exact ⟨rfl, he ▸ policy.verdict_of_other source target hother⟩
  givesUp hall := by
    obtain rfl := h.stops (hall last h.le)
    obtain ⟨e, he, hbusy⟩ := hall last le_rfl
    exact ⟨rfl, e, he, he ▸ policy.verdict_of_inUse source target hbusy⟩

/-- How copying ends with the attempt of this number: as the attempt turns out, or because the clock
refuses the delay behind it. -/
inductive EndsAt (source target : String) (timer : Timer) (limit : ℕ) (delays : ℕ → α)
    (outcomes : ℕ → Option FileError) (last : ℕ) : Except CopyError Unit → Prop
  | decided : LastAttempt limit outcomes last →
    EndsAt source target timer limit delays outcomes last
      (policy.verdict source target (outcomes last))
  | refused {why : DelayError} : last < limit → (∀ k ≤ last, InUse (outcomes k)) →
    timer.refuses? (delays last) = some why →
    EndsAt source target timer limit delays outcomes last (.error (.delay why))

namespace EndsAt

variable {policy : RetryPolicy α} {source target : String} {timer : Timer} {limit last : ℕ}
variable {delays : ℕ → α} {outcomes : ℕ → Option FileError} {result : Except CopyError Unit}

theorem le (h : policy.EndsAt source target timer limit delays outcomes last result) :
    last ≤ limit := by
  cases h with
  | decided h => exact h.le
  | refused hlt => exact hlt.le

theorem before (h : policy.EndsAt source target timer limit delays outcomes last result) :
    ∀ k < last, InUse (outcomes k) := by
  cases h with
  | decided h => exact h.before
  | refused _ hbusy => exact fun k hk => hbusy k hk.le

/-- A failure for a file in use comes before what would be the first attempt. -/
theorem succ (hfirst : InUse (outcomes 0))
    (h : policy.EndsAt source target timer limit (fun k => delays (k + 1))
      (fun k => outcomes (k + 1)) last result) :
    policy.EndsAt source target timer (limit + 1) delays outcomes (last + 1) result := by
  cases h with
  | decided h => exact .decided (h.succ hfirst)
  | refused hlt hbusy hrefuses =>
    refine .refused (Nat.succ_lt_succ hlt) (fun k hk => ?_) hrefuses
    cases k with
    | zero => exact hfirst
    | succ k => exact hbusy k (Nat.le_of_succ_le_succ hk)

theorem congr {outcomes' : ℕ → Option FileError}
    (h : policy.EndsAt source target timer limit delays outcomes last result)
    (hsame : ∀ k ≤ last, outcomes k = outcomes' k) :
    policy.EndsAt source target timer limit delays outcomes' last result := by
  cases h with
  | decided h =>
    rw [hsame last le_rfl]
    exact .decided (h.congr hsame)
  | refused hlt hbusy hrefuses =>
    exact .refused hlt (fun k hk => hsame k hk ▸ hbusy k hk) hrefuses

/-- Where the clock takes the delays, the attempts decide. -/
theorem lastAttempt (h : policy.EndsAt source target timer limit delays outcomes last result)
    (hwaits : ∀ k < limit, timer.refuses? (delays k) = none) :
    LastAttempt limit outcomes last ∧
      result = policy.verdict source target (outcomes last) := by
  cases h with
  | decided h => exact ⟨h, rfl⟩
  | refused hlt _ hrefuses =>
    rw [hwaits last hlt] at hrefuses
    cases hrefuses

end EndsAt

/-- The first attempt ends the run if it does not find the file in use, or without retries. -/
theorem exists_endsAt_of_first (source target : String) (timer : Timer) {limit : ℕ}
    (delays : ℕ → α) {outcomes : ℕ → Option FileError} {outcome : Option FileError}
    (hfirst : outcomes 0 = outcome) (h : InUse outcome → limit = 0) :
    ∃ last, [.attempt outcome] = CopyEvent.history outcomes delays last ∧
      policy.EndsAt source target timer limit delays outcomes last
        (policy.verdict source target outcome) := by
  subst hfirst
  exact ⟨0, rfl, .decided (.zero h)⟩

end RetryPolicy

namespace Workbench

variable {α : Type} [Scalar α] {policy : RetryPolicy α} {source target : String}

/-! ### Runs of attempts -/

namespace Tries

variable {n : ℕ} {d : α} {w later : Workbench α} {events : List (CopyEvent α)}
variable {result : Except CopyError Unit}

/-- Under a bound that is a whole number, a run of attempts goes up to the last one. -/
theorem exists_endsAt {limit : Int} (hlimit : policy.limit.integer? = some limit)
    (h : Tries policy source target n d w events result later) :
    ∃ last,
      events = CopyEvent.history (w.disk.outcome source target) (fun k => policy.next^[k] d) last ∧
      policy.EndsAt source target w.timer (limit - n).toNat (fun k => policy.next^[k] d)
        (w.disk.outcome source target) last result := by
  have hreach (n : ℕ) := RetryPolicy.isReached?_of_integer hlimit n
  induction h with
  | copied hattempt =>
    have houtcome := Disk.outcome_zero_of_attempt hattempt
    exact policy.exists_endsAt_of_first source target _ _ houtcome
      fun hbusy => absurd hbusy not_inUse_none
  | failed hattempt hother =>
    have houtcome := Disk.outcome_zero_of_attempt hattempt
    rw [← policy.verdict_of_other source target hother]
    refine policy.exists_endsAt_of_first source target _ _ houtcome fun hbusy => ?_
    rw [inUse_some_iff, hother] at hbusy
    cases hbusy
  | @unordered n _ _ _ _ _ _ hreached =>
    -- A bound that is a whole number can be compared.
    rw [hreach n] at hreached
    cases hreached
  | @exhausted n _ _ _ _ hattempt hbusy hreached =>
    have houtcome := Disk.outcome_zero_of_attempt hattempt
    have hnone : limit ≤ n := by simpa [hreach n] using hreached
    rw [← policy.verdict_of_inUse source target hbusy]
    exact policy.exists_endsAt_of_first source target _ _ houtcome fun _ => by omega
  | @refused n _ _ _ e _ hattempt hbusy hreached hrefuses =>
    have houtcome := Disk.outcome_zero_of_attempt hattempt
    have hmore : ¬ limit ≤ n := by simpa [hreach n] using hreached
    refine ⟨0, ?_, .refused (by omega) (fun k hk => ?_) hrefuses⟩
    · rw [CopyEvent.history_zero, houtcome]
    · exact ⟨e, Nat.le_zero.mp hk ▸ houtcome, hbusy⟩
  | @again n d w later disk e events result hattempt hbusy hreached _ _ ih =>
    have houtcome := Disk.outcome_zero_of_attempt hattempt
    have hmore : ¬ limit ≤ n := by simpa [hreach n] using hreached
    have hleft : (limit - n).toNat = (limit - (n + 1 : ℕ)).toNat + 1 := by omega
    -- The rest of the run meets what this disk shows one attempt later.
    have hshift : (fun k => w.disk.outcome source target (k + 1)) = disk.outcome source target :=
      funext fun k => (Disk.outcome_of_attempt hattempt hbusy k).symm
    rw [disk_delayed, timer_delayed, ← hshift] at ih
    obtain ⟨last, rfl, hends⟩ := ih
    refine ⟨last + 1, ?_, ?_⟩
    · rw [CopyEvent.history_succ, houtcome]
      rfl
    · rw [hleft]
      exact .succ ⟨e, houtcome, hbusy⟩ hends

/-- A bound that is a number leaves a line on the console for each attempt. -/
theorem size_console {limit : Int} (hlimit : policy.limit.integer? = some limit)
    (h : Tries policy source target n d w events result later) :
    later.journal.console.size =
      w.journal.console.size + events.countP CopyEvent.isAttempt := by
  induction h with
  | copied => exact Array.size_push _
  | failed => exact Array.size_push _
  | @unordered n _ _ _ _ _ _ hreached =>
    rw [RetryPolicy.isReached?_of_integer hlimit n] at hreached
    cases hreached
  | exhausted => exact Array.size_push _
  | refused =>
    rw [size_console_delayed]
    rfl
  | again _ _ _ _ _ ih =>
    rw [ih, size_console_delayed, CopyEvent.countP_isAttempt_retry]
    omega

/-- Delays that are written down are those between the attempts. -/
theorem sleeps_eq (h : Tries policy source target n d w events result later)
    (htimer : w.timer = .record) :
    later.sleeps = w.sleeps ++ events.filterMap CopyEvent.delay? := by
  induction h with
  | copied => exact (List.append_nil _).symm
  | failed => exact (List.append_nil _).symm
  | unordered => exact (List.append_nil _).symm
  | exhausted => exact (List.append_nil _).symm
  | refused _ _ _ hrefuses =>
    rw [htimer] at hrefuses
    cases hrefuses
  | again _ _ _ _ _ ih =>
    rw [ih ((timer_delayed _ _ _ _).trans htimer), sleeps_delayed _ _ _ htimer,
      CopyEvent.filterMap_delay?_retry, List.append_assoc]
    rfl

end Tries

/-! ### The whole copy -/

/-- Copying goes up to the last attempt. -/
theorem exists_endsAt_copy {limit : Int} (hlimit : policy.limit.integer? = some limit)
    {bench : Workbench α} {ready : Disk} (source : String) {target : String}
    (hready : bench.disk.prepare? target = .ok ready) :
    ∃ last result later, (copy policy source target).run bench = (result, later) ∧
      policy.EndsAt source target bench.timer limit.toNat policy.delayAt
        (ready.outcome source target) last result ∧
      Tries policy source target 0 policy.delay { bench with disk := ready }
        (CopyEvent.history (ready.outcome source target) policy.delayAt last) result later ∧
      (bench.timer = .record →
        later.sleeps = bench.sleeps ++ (List.range last).map policy.delayAt) := by
  obtain ⟨events, result, later, hrun, htries⟩ := exists_tries policy source hready
  obtain ⟨last, rfl, hends⟩ := htries.exists_endsAt hlimit
  rw [Nat.cast_zero, sub_zero] at hends
  refine ⟨last, result, later, hrun, hends, htries, fun htimer => ?_⟩
  rw [htries.sleeps_eq htimer, CopyEvent.filterMap_delay?_history]
  rfl

/-- However the attempts turn out, and for every whole number as the bound, copying makes at most one
attempt more than the bound allows retries, with one delay between two attempts and none behind the
last one. Where the clock takes the delays, the attempts decide how it ends. All of this is behind
making the directory of the copy; if that cannot be, no attempt is made. -/
theorem copy_decides (policy : RetryPolicy α) {limit : Int}
    (hlimit : policy.limit.integer? = some limit) (source target : String)
    (outcomes : ℕ → Option FileError) :
    (∃ disk ready : Disk, disk.prepare? target = .ok ready ∧
      ready.Shows source target limit.toNat outcomes) ∧
    ∀ bench : Workbench α,
      (∀ e, bench.disk.prepare? target = .error e →
        (copy policy source target).run bench = (.error (.directory e), bench)) ∧
      ∀ ready, bench.disk.prepare? target = .ok ready →
        ready.Shows source target limit.toNat outcomes →
        ∃ last ≤ limit.toNat, ∃ result later,
          (copy policy source target).run bench = (result, later) ∧
          Tries policy source target 0 policy.delay { bench with disk := ready }
            (CopyEvent.history outcomes policy.delayAt last) result later ∧
          later.journal.console.size = bench.journal.console.size + (last + 1) ∧
          (bench.timer = .record →
            later.sleeps = bench.sleeps ++ (List.range last).map policy.delayAt) ∧
          policy.EndsAt source target bench.timer limit.toNat policy.delayAt outcomes last result ∧
          ((∀ k < limit.toNat, bench.timer.refuses? (policy.delayAt k) = none) →
            policy.Decides source target limit.toNat outcomes last result) := by
  refine ⟨Disk.exists_shows source target limit.toNat outcomes, fun bench => ?_⟩
  refine ⟨fun _ => run_copy_of_refused policy, fun ready hready hshows => ?_⟩
  obtain ⟨last, result, later, hrun, hends, htries, hsleeps⟩ :=
    exists_endsAt_copy hlimit source hready
  have hsame (k : ℕ) (hk : k ≤ last) : ready.outcome source target k = outcomes k :=
    hshows k (hk.trans hends.le) fun j hj => hends.before j (hj.trans_le hk)
  rw [CopyEvent.history_congr policy.delayAt hsame] at htries
  replace hends := hends.congr hsame
  refine ⟨last, hends.le, result, later, hrun, htries, ?_, hsleeps, hends, fun hwaits => ?_⟩
  · rw [htries.size_console hlimit, CopyEvent.countP_isAttempt_history]
  · obtain ⟨hlast, rfl⟩ := hends.lastAttempt hwaits
    exact policy.decides_verdict source target hlast

/-- With one retry, a file that stays in use is given up behind the second attempt. -/
theorem copy_decides_busy :
    let policy : RetryPolicy Float := { limit := .integer 1, delay := 0.1, maxDelay := 2.0 }
    policy.limit.integer? = some 1 ∧ ∃ (bench : Workbench Float) (ready : Disk),
      bench.disk.prepare? "/out/a.png" = .ok ready ∧
      ready.Shows "/src/a.png" "/out/a.png" 1 (fun _ => some .busy) ∧
      ∃ later, (copy policy "/src/a.png" "/out/a.png").run bench =
          (.error (.inUse "/src/a.png" "1" .busy), later) ∧
        later.journal.console.size = 2 ∧ later.sleeps = [0.1] := by
  intro policy
  have hlimit : policy.limit.integer? = some 1 := rfl
  obtain ⟨⟨disk, ready, hready, hshows⟩, hall⟩ :=
    copy_decides policy hlimit "/src/a.png" "/out/a.png" fun _ => some .busy
  obtain ⟨last, _, result, later, hrun, _, hconsole, hsleeps, _, hdecides⟩ :=
    (hall { disk }).2 ready hready hshows
  obtain ⟨rfl, e, he, rfl⟩ :=
    (hdecides fun _ _ => rfl).givesUp fun _ _ => ⟨.busy, rfl, by decide⟩
  obtain rfl := Option.some.inj he
  exact ⟨hlimit, { disk }, ready, hready, hshows, later, hrun, hconsole, hsleeps rfl⟩

end Workbench

end ShadeGraph
