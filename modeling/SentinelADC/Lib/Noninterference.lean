import SentinelADC.Lib.Runs

/-!
# Noninterference

A system answers events, and an observer sees some of the events and their
answers.  Suppose that states which look alike to the observer answer alike
what it sees and stay alike under it, and that an event which it does not see
changes nothing for it.  Then everything that the observer learns in a run is
decided by the events that it sees: two runs with the same visible events are
the same to it, whatever else happens in them.
-/

namespace SentinelADC
namespace Runs

universe u v w

variable {σ : Type u} {ε : Type v} {ω : Type w}

/-- The answer to an event that is seen. -/
def seenAnswer (sees : ε → Bool) (answer : σ → ε → ω) (s : σ) (e : ε) : List ω :=
  if sees e then [answer s e] else []

/-- What single events do to what an observer sees; `Q` is a condition on the
events that may happen. -/
structure Unwinding (step : σ → ε → σ) (answer : σ → ε → ω) (sees : ε → Bool) (Q : ε → Prop)
    (Alike : σ → σ → Prop) : Prop where
  equivalence : Equivalence Alike
  hidden : ∀ s e, Q e → sees e = false → Alike (step s e) s
  seen : ∀ s t e, Q e → sees e = true → Alike s t → Alike (step s e) (step t e)
  answered : ∀ s t e, Q e → sees e = true → Alike s t → answer s e = answer t e

namespace Unwinding

variable {step : σ → ε → σ} {answer : σ → ε → ω} {sees : ε → Bool} {Q : ε → Prop}
  {Alike : σ → σ → Prop}

/-- A run against the same run without its hidden events. -/
theorem run_filter (h : Unwinding step answer sees Q Alike) {s t : σ} {es : List ε}
    (hst : Alike s t) (hQ : ∀ e ∈ es, Q e) :
    Alike (run step s es) (run step t (es.filter sees)) ∧
      log step (seenAnswer sees answer) s es =
        log step (seenAnswer sees answer) t (es.filter sees) := by
  induction es generalizing s t with
  | nil => exact ⟨hst, rfl⟩
  | cons e es ih =>
      have he := hQ e List.mem_cons_self
      have hes : ∀ e' ∈ es, Q e' := fun e' he' => hQ e' (List.mem_cons_of_mem e he')
      cases hsees : sees e with
      | true =>
          obtain ⟨halike, hlog⟩ := ih (h.seen s t e he hsees hst) hes
          have hanswer := h.answered s t e he hsees hst
          rw [List.filter_cons_of_pos hsees, run_cons, run_cons, log, log, hlog]
          exact ⟨halike, by rw [seenAnswer, seenAnswer, hanswer]⟩
      | false =>
          have hnext := h.equivalence.trans (h.hidden s e he hsees) hst
          obtain ⟨halike, hlog⟩ := ih hnext hes
          rw [List.filter_cons_of_neg (by simp [hsees]), run_cons, log, hlog]
          exact ⟨halike, by simp [seenAnswer, hsees]⟩

variable {s t : σ} {es fs : List ε}

/-- Runs with the same visible events end in states that look alike. -/
theorem alike_run (h : Unwinding step answer sees Q Alike) (hst : Alike s t)
    (hes : ∀ e ∈ es, Q e) (hfs : ∀ e ∈ fs, Q e) (hsame : es.filter sees = fs.filter sees) :
    Alike (run step s es) (run step t fs) := by
  have hleft := (h.run_filter hst hes).1
  have hright := (h.run_filter (h.equivalence.refl t) hfs).1
  rw [hsame] at hleft
  exact h.equivalence.trans hleft (h.equivalence.symm hright)

/-- Runs with the same visible events answer them alike. -/
theorem log_eq (h : Unwinding step answer sees Q Alike) (hst : Alike s t)
    (hes : ∀ e ∈ es, Q e) (hfs : ∀ e ∈ fs, Q e) (hsame : es.filter sees = fs.filter sees) :
    log step (seenAnswer sees answer) s es = log step (seenAnswer sees answer) t fs := by
  have hleft := (h.run_filter hst hes).2
  have hright := (h.run_filter (h.equivalence.refl t) hfs).2
  rw [hsame] at hleft
  exact hleft.trans hright.symm

end Unwinding

end Runs
end SentinelADC
