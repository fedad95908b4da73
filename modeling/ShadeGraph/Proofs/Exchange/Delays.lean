import Mathlib.Algebra.Order.BigOperators.Group.Finset
import ShadeGraph.Proofs.Exchange.Retries
import ShadeGraph.Proofs.Number.Exact

/-!
# Delays between attempts

In exact arithmetic the delays double up to the bound, but the bound is first looked at behind the
first delay. So the first delay is as long as it was asked for, and only where that is within the
bound do all delays and their sum keep to it.
-/

namespace ShadeGraph

open Finset

variable {α : Type} [Scalar.Exact α]

theorem Timer.refuses?_of_nonneg (timer : Timer) {delay : α} (h : 0 ≤ delay) :
    timer.refuses? delay = none := by
  cases timer with
  | record => rfl
  | clock => simp [refuses?, h.not_gt]

namespace RetryPolicy

variable (policy : RetryPolicy α)

@[simp] theorem next_exact (delay : α) : policy.next delay = min (delay * 2) policy.maxDelay := by
  simp [next]

@[simp] theorem delayAt_zero : policy.delayAt 0 = policy.delay := rfl

theorem delayAt_succ (k : ℕ) :
    policy.delayAt (k + 1) = min (policy.delayAt k * 2) policy.maxDelay := by
  rw [delayAt, Function.iterate_succ_apply', next_exact]
  rfl

variable {policy} (hmax : 0 ≤ policy.maxDelay)
include hmax

/-- Behind the first delay stands the doubled one, up to the bound. -/
theorem delayAt_succ_eq (k : ℕ) :
    policy.delayAt (k + 1) = min (policy.delay * 2 ^ (k + 1)) policy.maxDelay := by
  induction k with
  | zero => rw [delayAt_succ, delayAt_zero, zero_add, pow_one]
  | succ k ih =>
    have hdouble : policy.maxDelay ≤ policy.maxDelay * 2 := by linarith
    calc policy.delayAt (k + 2)
        = min (min (policy.delay * 2 ^ (k + 1)) policy.maxDelay * 2) policy.maxDelay := by
          rw [delayAt_succ, ih]
      _ = min (min (policy.delay * 2 ^ (k + 1) * 2) (policy.maxDelay * 2)) policy.maxDelay := by
          rw [min_mul_of_nonneg _ _ zero_le_two]
      _ = min (policy.delay * 2 ^ (k + 2)) policy.maxDelay := by
          rw [min_assoc, min_eq_right hdouble, mul_assoc, ← pow_succ]

theorem delayAt_eq (k : ℕ) :
    policy.delayAt k =
      if k = 0 then policy.delay else min (policy.delay * 2 ^ k) policy.maxDelay := by
  cases k with
  | zero => rfl
  | succ k => exact delayAt_succ_eq hmax k

theorem delayAt_succ_le (k : ℕ) : policy.delayAt (k + 1) ≤ policy.maxDelay :=
  (delayAt_succ_eq hmax k).trans_le (min_le_right _ _)

theorem delayAt_nonneg (hdelay : 0 ≤ policy.delay) (k : ℕ) : 0 ≤ policy.delayAt k := by
  cases k with
  | zero => exact hdelay
  | succ k =>
    rw [delayAt_succ_eq hmax]
    exact le_min (by positivity) hmax

/-! ### The bound on delays -/

/-- All delays keep to the bound just if the first one does. -/
theorem delayAt_le_iff (n : ℕ) :
    (∀ k < n, policy.delayAt k ≤ policy.maxDelay) ↔ n = 0 ∨ policy.delay ≤ policy.maxDelay := by
  constructor
  · intro h
    exact n.eq_zero_or_pos.imp_right fun hn => h 0 hn
  · rintro (rfl | hfirst) k hk
    · exact absurd hk (Nat.not_lt_zero k)
    · cases k with
      | zero => exact hfirst
      | succ k => exact delayAt_succ_le hmax k

/-- All delays are doubled ones up to the bound just if the first one is within it. -/
theorem delayAt_eq_min_iff (n : ℕ) :
    (∀ k < n, policy.delayAt k = min (policy.delay * 2 ^ k) policy.maxDelay) ↔
      n = 0 ∨ policy.delay ≤ policy.maxDelay := by
  rw [← delayAt_le_iff hmax]
  constructor
  · intro h k hk
    exact (h k hk).trans_le (min_le_right _ _)
  · intro h k hk
    cases k with
    | zero =>
      have hfirst : policy.delay ≤ policy.maxDelay := h 0 hk
      rw [delayAt_zero, pow_zero, mul_one, min_eq_left hfirst]
    | succ k => exact delayAt_succ_eq hmax k

/-- The sum exceeds that of as many longest delays by what the first delay does, at most. -/
theorem sum_delayAt_le {n limit : ℕ} (h : n ≤ limit) :
    ∑ k ∈ range n, policy.delayAt k ≤
      limit * policy.maxDelay + max (policy.delay - policy.maxDelay) 0 := by
  have hlimit : (n : α) * policy.maxDelay ≤ limit * policy.maxDelay :=
    mul_le_mul_of_nonneg_right (Nat.cast_le.mpr h) hmax
  refine le_trans ?_ (add_le_add_left hlimit _)
  cases n with
  | zero => simp
  | succ n =>
    have hrest : ∑ k ∈ range n, policy.delayAt (k + 1) ≤ n * policy.maxDelay := by
      have hsum := sum_le_card_nsmul (range n) _ _ fun k _ => delayAt_succ_le hmax k
      rwa [card_range, nsmul_eq_mul] at hsum
    have hfirst : policy.delay - policy.maxDelay ≤ max (policy.delay - policy.maxDelay) 0 :=
      le_max_left _ _
    rw [sum_range_succ', delayAt_zero, Nat.cast_succ]
    linarith

end RetryPolicy

namespace Workbench

variable {policy : RetryPolicy α}

/-- In exact arithmetic the first delay is as asked for, and those behind it are the doubled ones up
to the bound. What was asked for within the bound keeps each delay and the sum of all to it; and only
then are all the delays doubled ones up to the bound, if there are any. There are none at all where the
directory of the copy cannot be made. -/
theorem copy_delays (policy : RetryPolicy α) {limit : Int}
    (hlimit : policy.limit.integer? = some limit) (hdelay : 0 ≤ policy.delay)
    (hmax : 0 ≤ policy.maxDelay) (source target : String) (bench : Workbench α) :
    (∀ e, bench.disk.prepare? target = .error e →
      (copy policy source target).run bench = (.error (.directory e), bench)) ∧
    ∀ ready, bench.disk.prepare? target = .ok ready →
      ∃ n result later, (copy policy source target).run bench = (result, later) ∧
        LastAttempt limit.toNat (ready.outcome source target) n ∧
        Tries policy source target 0 policy.delay { bench with disk := ready }
          (CopyEvent.history (ready.outcome source target) policy.delayAt n) result later ∧
        (bench.timer = .record →
          later.sleeps = bench.sleeps ++ (List.range n).map policy.delayAt) ∧
        (∀ k, policy.delayAt k =
          if k = 0 then policy.delay else min (policy.delay * 2 ^ k) policy.maxDelay) ∧
        ((∀ k < n, policy.delayAt k = min (policy.delay * 2 ^ k) policy.maxDelay) ↔
          n = 0 ∨ policy.delay ≤ policy.maxDelay) ∧
        ((∀ k < n, policy.delayAt k ≤ policy.maxDelay) ↔
          n = 0 ∨ policy.delay ≤ policy.maxDelay) ∧
        ∑ k ∈ range n, policy.delayAt k ≤
          limit.toNat * policy.maxDelay + max (policy.delay - policy.maxDelay) 0 ∧
        (policy.delay ≤ policy.maxDelay →
          ∑ k ∈ range n, policy.delayAt k ≤ limit.toNat * policy.maxDelay) := by
  refine ⟨fun _ => run_copy_of_refused policy, fun ready hready => ?_⟩
  obtain ⟨n, result, later, hrun, hends, htries, hsleeps⟩ :=
    exists_endsAt_copy hlimit source hready
  have hlast := hends.lastAttempt fun k _ =>
    bench.timer.refuses?_of_nonneg (RetryPolicy.delayAt_nonneg hmax hdelay k)
  have hsum := RetryPolicy.sum_delayAt_le hmax hends.le
  refine ⟨n, result, later, hrun, hlast.1, htries, hsleeps, RetryPolicy.delayAt_eq hmax,
    RetryPolicy.delayAt_eq_min_iff hmax n, RetryPolicy.delayAt_le_iff hmax n, hsum,
    fun hfirst => ?_⟩
  rwa [max_eq_right (sub_nonpos.mpr hfirst), add_zero] at hsum

/-- Between two failures and a copy there are two delays; the first one may exceed the bound. -/
theorem copy_delays_long :
    let policy : RetryPolicy ℚ := { limit := .integer 5, delay := 5, maxDelay := 2 }
    let bench : Workbench ℚ :=
      { disk := { files := ["/src/a.png"], failures := [("/src/a.png", [.busy, .busy])] } }
    policy.limit.integer? = some 5 ∧ 0 ≤ policy.delay ∧ 0 ≤ policy.maxDelay ∧
    ∃ result later, (copy policy "/src/a.png" "/out/a.png").run bench = (result, later) ∧
      later.sleeps = [5, 2] ∧ ¬ ∀ k < 2, policy.delayAt k ≤ policy.maxDelay := by
  intro policy bench
  have hlimit : policy.limit.integer? = some 5 := rfl
  have hdelay : 0 ≤ policy.delay := by decide
  have hmax : 0 ≤ policy.maxDelay := by decide
  let ready : Disk := { bench.disk with made := ["/out"] }
  have hready : bench.disk.prepare? "/out/a.png" = .ok ready := by rfl
  obtain ⟨n, result, later, hrun, hlast, _, hsleeps, hdelays, _, hbounded, _⟩ :=
    (copy_delays policy hlimit hdelay hmax "/src/a.png" "/out/a.png" bench).2 ready hready
  have hfree : ¬ InUse (ready.outcome "/src/a.png" "/out/a.png" 2) := not_inUse_none
  obtain rfl : n = 2 := by
    refine hlast.eq_of_first (by decide) hfree fun k hk => ⟨.busy, ?_, by decide⟩
    interval_cases k <;> rfl
  have hsecond : policy.delayAt 1 = 2 := (hdelays 1).trans (by norm_num [policy])
  refine ⟨hlimit, hdelay, hmax, result, later, hrun, ?_, ?_⟩
  · rw [hsleeps rfl]
    change [policy.delay, policy.delayAt 1] = [5, 2]
    rw [hsecond]
  · rw [hbounded]
    decide

end Workbench

end ShadeGraph
