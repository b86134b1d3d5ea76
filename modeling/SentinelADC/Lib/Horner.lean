import Mathlib.Algebra.BigOperators.Group.Finset.Basic
import Mathlib.Algebra.BigOperators.Ring.Finset
import Mathlib.Data.List.GetD
import Mathlib.Tactic.Ring

/-!
# Horner's scheme

The value of a list of digits in a base, first digit first, and its computation
by one multiplication and one addition for each digit.  A reduction that may be
repeated can be applied in every round.
-/

namespace SentinelADC
namespace Horner

universe u

variable {R : Type u} [CommSemiring R]

/-- The value of digits in a base; the first digit has the highest power. -/
def value (base : R) (digits : List R) : R :=
  ∑ i ∈ Finset.range digits.length, digits.getD i 0 * base ^ (digits.length - 1 - i)

section Rounds

variable {base : R}

@[simp] theorem value_nil :
    value base [] = 0 := by
  simp [value]

theorem value_concat (digits : List R) (d : R) :
    value base (digits ++ [d]) = base * value base digits + d := by
  have hlast : (digits ++ [d]).getD digits.length 0 = d := by simp
  have hrest : ∀ i ∈ Finset.range digits.length,
      (digits ++ [d]).getD i 0 * base ^ (digits.length - i) =
        base * (digits.getD i 0 * base ^ (digits.length - 1 - i)) := by
    intro i hi
    have hlt : i < digits.length := Finset.mem_range.mp hi
    have hpower : digits.length - i = (digits.length - 1 - i) + 1 := by omega
    rw [List.getD_append _ _ _ _ hlt, hpower, pow_succ]
    ring
  rw [value, List.length_append, List.length_singleton, Finset.sum_range_succ, value,
    Finset.mul_sum]
  simp only [Nat.add_sub_cancel, hlast, Nat.sub_self, pow_zero, mul_one]
  rw [Finset.sum_congr rfl hrest]

/-- One round for each digit, reduced in every round. -/
theorem foldl_reduce {reduce : R → R} (hzero : reduce 0 = 0)
    (hreduce : ∀ x d, reduce (base * reduce x + d) = reduce (base * x + d)) (digits : List R) :
    digits.foldl (fun x d => reduce (base * x + d)) 0 = reduce (value base digits) := by
  induction digits using List.reverseRecOn with
  | nil => rw [List.foldl_nil, value_nil, hzero]
  | append_singleton digits d ih =>
      rw [List.foldl_append, List.foldl_cons, List.foldl_nil, ih, hreduce, value_concat]

end Rounds

end Horner
end SentinelADC
