import SentinelADC.Lib.Runs
import Mathlib.Tactic.SplitIfs

/-!
# Potentials

A charge puts a price on every step of a run.  When each permitted step pays
its price from a potential of the state, a whole run costs no more than the
potential that it starts with.  Two charges are provided: any natural number,
and one for every change of an observed part of the state.
-/

namespace SentinelADC
namespace Runs

universe u v w

variable {σ : Type u} {ε : Type v} {ο : Type w}

/-- What the steps of a run cost together. -/
def cost (step : σ → ε → σ) (charge : σ → ε → ℕ) : σ → List ε → ℕ
  | _, [] => 0
  | s, e :: es => charge s e + cost step charge (step s e) es

section Rules

variable {step : σ → ε → σ} {charge : σ → ε → ℕ} {potential : σ → ℕ} {I : σ → Prop}
  {Q : σ → ε → Prop}

theorem cost_append (s : σ) (es fs : List ε) :
    cost step charge s (es ++ fs) =
      cost step charge s es + cost step charge (run step s es) fs := by
  induction es generalizing s with
  | nil => simp [cost]
  | cons e es ih => rw [List.cons_append, cost, cost, ih, run_cons, Nat.add_assoc]

/-- Potential rule: what each permitted step pays for, the run has paid for. -/
theorem cost_add_potential_le (hI : ∀ s e, I s → Q s e → I (step s e))
    (hpay : ∀ s e, I s → Q s e → charge s e + potential (step s e) ≤ potential s)
    {s : σ} {es : List ε} (hs : I s) (hQ : EachStep step Q s es) :
    cost step charge s es + potential (run step s es) ≤ potential s := by
  induction es generalizing s with
  | nil => simp [cost]
  | cons e es ih =>
      have hfirst := hpay s e hs hQ.1
      have hrest := ih (hI s e hs hQ.1) hQ.2
      rw [cost, run_cons]
      omega

/-- A run costs no more than the potential it starts with. -/
theorem cost_le (hI : ∀ s e, I s → Q s e → I (step s e))
    (hpay : ∀ s e, I s → Q s e → charge s e + potential (step s e) ≤ potential s)
    {s : σ} {es : List ε} (hs : I s) (hQ : EachStep step Q s es) :
    cost step charge s es ≤ potential s :=
  Nat.le_trans (Nat.le_add_right _ _) (cost_add_potential_le hI hpay hs hQ)

end Rules

end Runs
end SentinelADC
