import SentinelADC.Lib.Potential
import Mathlib.Algebra.Order.Ring.Int
import Mathlib.Tactic.Ring

/-!
# Periodic tasks

A timer starts a job each time it runs and is set anew for one interval later.
A job is allowed some time until it ends.  The event loop may run everything
late by some lag, and a late timer makes the following ones late as well.  The
result bounds the time until a given number of jobs has ended, whatever else
happens in between.
-/

namespace SentinelADC
namespace Runs

universe u v

/-- What a system shows of a periodic task. -/
structure PeriodicTask (σ : Type u) (ε : Type v) where
  /-- When the timer is due, if it is set. -/
  due : σ → Option ℤ
  /-- When the jobs that have not ended were started. -/
  jobs : σ → List ℤ
  clock : ε → ℤ
  /-- How many jobs the event ends. -/
  ended : σ → ε → ℕ

namespace PeriodicTask

/-- What one event does to a timer that is due at `due` and to the jobs. -/
inductive Move (interval now due : ℤ) (jobs : List ℤ) : ℤ → List ℤ → ℕ → Prop
  | idle :
      Move interval now due jobs due jobs 0
  | tick :
      Move interval now due jobs (now + interval) (jobs ++ [now]) 0
  | finish {before after : List ℤ} {start : ℤ} (hjobs : jobs = before ++ start :: after) :
      Move interval now due jobs due (before ++ after) 1

variable {σ : Type u} {ε : Type v}

/-- No timer and no job is late by more than `lag`. -/
def Punctual (task : PeriodicTask σ ε) (lag allowed : ℤ) (s : σ) (now : ℤ) : Prop :=
  (∀ due ∈ task.due s, now ≤ due + lag) ∧ ∀ start ∈ task.jobs s, now ≤ start + allowed + lag

/-- While the timer is set, a permitted event moves the task. -/
def Steps (task : PeriodicTask σ ε) (step : σ → ε → σ) (interval : ℤ) (I : σ → Prop)
    (Q : σ → ε → Prop) : Prop :=
  ∀ s e due, I s → Q s e → task.due s = some due →
    ∃ due', task.due (step s e) = some due' ∧
      Move interval (task.clock e) due (task.jobs s) due' (task.jobs (step s e)) (task.ended s e)

section Deadline

variable {task : PeriodicTask σ ε} {step : σ → ε → σ} {interval lag allowed since now : ℤ}
  {count n f : ℕ} {I : σ → Prop} {Q : σ → ε → Prop}

/-- Jobs that were started by the time at which the last of `count` ticks is late. -/
def early (interval lag since : ℤ) (count : ℕ) (jobs : List ℤ) : ℕ :=
  jobs.countP (fun start => start ≤ since + count * (interval + lag))

/-- The state of a task after `n` ticks, when `f` jobs have ended. -/
structure OnTime (interval lag since : ℤ) (count n f : ℕ) (due : ℤ) (jobs : List ℤ) : Prop where
  due : due ≤ since + interval + n * (interval + lag)
  counted : min n count ≤ f + early interval lag since count jobs

/-- One event keeps a task on time. -/
theorem OnTime.move {due due' : ℤ} {jobs jobs' : List ℤ} {ended : ℕ}
    (hpositive : 0 ≤ interval + lag) (h : OnTime interval lag since count n f due jobs)
    (hmove : Move interval now due jobs due' jobs' ended) (hlate : now ≤ due + lag) :
    ∃ n', OnTime interval lag since count n' (f + ended) due' jobs' := by
  cases hmove with
  | idle => exact ⟨n, h⟩
  | tick =>
      have hnext : ((n + 1 : ℕ) : ℤ) * (interval + lag) =
          n * (interval + lag) + (interval + lag) := by
        push_cast
        ring
      have hdue := h.due
      refine ⟨n + 1, by omega, ?_⟩
      have hcounted := h.counted
      rw [early, List.countP_append, ← early]
      by_cases hmany : n + 1 ≤ count
      · -- the job of one of the first `count` ticks is early
        have hle : ((n + 1 : ℕ) : ℤ) * (interval + lag) ≤ count * (interval + lag) :=
          mul_le_mul_of_nonneg_right (by exact_mod_cast hmany) hpositive
        have hearly : now ≤ since + count * (interval + lag) := by omega
        simp only [List.countP_singleton, hearly, decide_true, if_true]
        omega
      · omega
  | finish hjobs =>
      refine ⟨n, h.due, h.counted.trans ?_⟩
      rw [hjobs, early, early, List.countP_append, List.countP_append, List.countP_cons]
      split_ifs <;> omega

/-- When the last of `count` ticks and its job cannot be late any more, `count`
jobs have ended. -/
theorem OnTime.ended {due : ℤ} {jobs : List ℤ} (hpositive : 0 ≤ interval + lag)
    (h : OnTime interval lag since count n f due jobs) (hallowed : 0 ≤ allowed + lag)
    (hdue : now ≤ due + lag) (hjobs : ∀ start ∈ jobs, now ≤ start + allowed + lag)
    (hnow : since + count * (interval + lag) + allowed + lag < now) :
    count ≤ f := by
  have hticks : count ≤ n := by
    by_contra hfew
    have hle : ((n + 1 : ℕ) : ℤ) * (interval + lag) ≤ count * (interval + lag) :=
      mul_le_mul_of_nonneg_right (by exact_mod_cast (by omega : n + 1 ≤ count)) hpositive
    have hnext : ((n + 1 : ℕ) : ℤ) * (interval + lag) =
        n * (interval + lag) + (interval + lag) := by
      push_cast
      ring
    have hearlier := h.due
    omega
  have hnone : early interval lag since count jobs = 0 := by
    refine List.countP_eq_zero.mpr (fun start hstart => ?_)
    have hlate := hjobs start hstart
    simp only [decide_eq_true_eq]
    omega
  have hcounted := h.counted
  omega

/-- A run that goes on from a task on time and is never late. -/
theorem OnTime.ended_run (hsteps : task.Steps step interval I Q)
    (hI : ∀ s e, I s → Q s e → I (step s e)) (hpositive : 0 ≤ interval + lag)
    (hallowed : 0 ≤ allowed + lag) {s : σ} {es : List ε} {due : ℤ} (hs : I s)
    (hQ : EachStep step Q s es)
    (hpunctual : EachStep step (fun s e => task.Punctual lag allowed s (task.clock e)) s es)
    (hdue : task.due s = some due) (hon : OnTime interval lag since count n f due (task.jobs s))
    (hend : task.Punctual lag allowed (run step s es) now)
    (hnow : since + count * (interval + lag) + allowed + lag < now) :
    count ≤ f + cost step task.ended s es := by
  induction es generalizing s due n f with
  | nil => exact hon.ended hpositive hallowed (hend.1 due hdue) hend.2 hnow
  | cons e es ih =>
      obtain ⟨due', hdue', hmove⟩ := hsteps s e due hs hQ.1 hdue
      obtain ⟨n', hon'⟩ := hon.move hpositive hmove (hpunctual.1.1 due hdue)
      have hrest := ih (hI s e hs hQ.1) hQ.2 hpunctual.2 hdue' hon' hend
      rw [cost]
      omega

/-- A run that is never late ends `count` jobs in time. -/
theorem ended_in_time (hsteps : task.Steps step interval I Q)
    (hI : ∀ s e, I s → Q s e → I (step s e)) (hpositive : 0 ≤ interval + lag)
    (hallowed : 0 ≤ allowed + lag) {s : σ} {es : List ε} {due : ℤ} (hs : I s)
    (hQ : EachStep step Q s es)
    (hpunctual : EachStep step (fun s e => task.Punctual lag allowed s (task.clock e)) s es)
    (hdue : task.due s = some due) (hfirst : due ≤ since + interval)
    (hend : task.Punctual lag allowed (run step s es) now)
    (hnow : since + count * (interval + lag) + allowed + lag < now) :
    count ≤ cost step task.ended s es := by
  have hstart : OnTime interval lag since count 0 0 due (task.jobs s) :=
    ⟨by simpa using hfirst, by simp⟩
  have hall := hstart.ended_run hsteps hI hpositive hallowed hs hQ hpunctual hdue hend hnow
  omega

end Deadline

end PeriodicTask

end Runs
end SentinelADC
