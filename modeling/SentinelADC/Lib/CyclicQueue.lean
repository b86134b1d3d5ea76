import Mathlib.Data.List.Basic
import Mathlib.Data.List.Infix
import Mathlib.Tactic.Linarith

/-!
# Dealing from a cyclic schedule

A schedule is dealt item by item; when it is used up, it starts over.  The
state is the part that has not been dealt yet.  As many items in a row as the
schedule has are always a rearrangement of it, wherever one starts.
-/

namespace SentinelADC
namespace CyclicQueue

universe u

variable {α : Type u} {cycle queue : List α} {n : Nat}

/-- An empty queue is filled with the whole schedule. -/
def refill (cycle : List α) : List α → List α
  | [] => cycle
  | a :: queue => a :: queue

/-- The next `n` items. -/
def deal (cycle : List α) : Nat → List α → List α
  | 0, _ => []
  | n + 1, queue =>
      match refill cycle queue with
      | [] => []
      | a :: queue => a :: deal cycle n queue

@[simp] theorem refill_nil :
    refill cycle [] = cycle := by
  rfl

@[simp] theorem refill_cons (a : α) :
    refill cycle (a :: queue) = a :: queue := by
  rfl

@[simp] theorem refill_self (cycle : List α) :
    refill cycle cycle = cycle := by
  cases cycle with
  | nil => rfl
  | cons a rest => rfl

/-- What is left after one item is still the end of the schedule. -/
theorem suffix_of_refill {a : α} {rest : List α} (h : queue <:+ cycle)
    (hnext : refill cycle queue = a :: rest) :
    rest <:+ cycle := by
  cases queue with
  | nil =>
      rw [refill_nil] at hnext
      exact hnext ▸ List.suffix_cons a rest
  | cons b queue =>
      obtain ⟨-, rfl⟩ := List.cons.inj hnext
      exact (List.suffix_cons b queue).trans h

theorem deal_refill (n : Nat) (queue : List α) :
    deal cycle n (refill cycle queue) = deal cycle n queue := by
  cases n with
  | zero => rfl
  | succ n =>
      cases queue with
      | nil => rw [deal, deal, refill_nil, refill_self]
      | cons a queue => rfl

/-- The queue is dealt first, then the schedule starts over. -/
theorem deal_length_add (n : Nat) (queue : List α) :
    deal cycle (queue.length + n) queue = queue ++ deal cycle n [] := by
  induction queue with
  | nil => simp
  | cons a queue ih =>
      rw [List.length_cons, Nat.add_right_comm, deal, refill_cons]
      simp only [ih, List.cons_append]

theorem deal_of_le (hn : n ≤ queue.length) :
    deal cycle n queue = queue.take n := by
  induction queue generalizing n with
  | nil =>
      obtain rfl : n = 0 := by simpa using hn
      rfl
  | cons a queue ih =>
      cases n with
      | zero => rfl
      | succ n =>
          rw [deal, refill_cons, List.take_succ_cons]
          simp only [ih (Nat.le_of_succ_le_succ hn)]

/-- Items dealt are not taken back. -/
theorem deal_initial {m : Nat} (hmn : m ≤ n) (queue : List α) :
    deal cycle m queue <+: deal cycle n queue := by
  induction m generalizing n queue with
  | zero => exact List.nil_prefix
  | succ m ih =>
      obtain ⟨n, rfl⟩ : ∃ k, n = k + 1 := ⟨n - 1, by omega⟩
      simp only [deal]
      cases refill cycle queue with
      | nil => exact List.nil_prefix
      | cons a rest =>
          exact (List.prefix_cons_inj a).mpr (ih (Nat.le_of_succ_le_succ hmn) rest)

/-- One round is a rearrangement of the schedule. -/
theorem perm_deal (h : queue <:+ cycle) :
    (deal cycle cycle.length queue).Perm cycle := by
  obtain ⟨dealt, rfl⟩ := h
  have hagain : deal (dealt ++ queue) dealt.length [] = dealt := by
    rw [← deal_refill, refill_nil, deal_of_le (by simp), List.take_left']
    rfl
  rw [List.length_append, Nat.add_comm, deal_length_add, hagain]
  exact List.perm_append_comm

end CyclicQueue
end SentinelADC
