import Mathlib.Data.List.MinMax
import Mathlib.Data.Prod.Lex
import Mathlib.Order.Lattice

/-!
# The lexicographic minimum in two passes

A first pass over a list collects the items with the least `f`, in order; a
second one takes the first of them with the greatest `g`.  Together they find
the first item that is least by `f` and, among those, greatest by `g`.
-/

namespace SentinelADC

universe u v w

variable {α : Type u} {β : Type v} {γ : Type w} [LinearOrder β] [LinearOrder γ]

/-- One step of the first pass: the least value so far, if any, and the items that
have it. -/
def leastStep (f : α → β) (acc : Option β × List α) (x : α) : Option β × List α :=
  match acc.1 with
  | none => (some (f x), [x])
  | some low =>
      if f x < low then (some (f x), [x])
      else if f x = low then (some low, acc.2 ++ [x])
      else acc

/-- Least by `f`, then greatest by `g`. -/
def lexKey (f : α → β) (g : α → γ) (x : α) : β ×ₗ γᵒᵈ :=
  toLex (f x, OrderDual.toDual (g x))

theorem lexKey_lt_iff {f : α → β} {g : α → γ} {x y : α} :
    lexKey f g x < lexKey f g y ↔ f x < f y ∨ f x = f y ∧ g y < g x := by
  rw [lexKey, lexKey, Prod.Lex.toLex_lt_toLex]
  rfl

/-- The first pass has found the least value, and the second will find the item. -/
theorem leastStep_spec (f : α → β) (g : α → γ) (l : List α) :
    l.foldl (leastStep f) (none, []) = (none, []) ∧ l.argmin (lexKey f g) = none ∨
      ∃ c ties, l.foldl (leastStep f) (none, []) = (some (f c), ties) ∧
        ties.argmax g = some c ∧ l.argmin (lexKey f g) = some c := by
  induction l using List.reverseRecOn with
  | nil => exact Or.inl ⟨rfl, rfl⟩
  | append_singleton l x ih =>
      refine Or.inr ?_
      rw [List.foldl_append, List.foldl_cons, List.foldl_nil, List.argmin_concat]
      rcases ih with ⟨hfold, hmin⟩ | ⟨c, ties, hfold, hties, hmin⟩
      · exact ⟨x, [x], by rw [hfold]; rfl, rfl, by rw [hmin]⟩
      · rw [hfold, hmin]
        rcases lt_trichotomy (f x) (f c) with hlow | hsame | hhigh
        · refine ⟨x, [x], ?_, rfl, if_pos (lexKey_lt_iff.mpr (Or.inl hlow))⟩
          simp [leastStep, hlow]
        · have hstep : leastStep f (some (f c), ties) x = (some (f c), ties ++ [x]) := by
            simp [leastStep, hsame]
          have hties' : (ties ++ [x]).argmax g = if g c < g x then some x else some c := by
            rw [List.argmax_concat, hties]
          by_cases hbetter : g c < g x
          · rw [if_pos hbetter] at hties'
            refine ⟨x, ties ++ [x], ?_, hties',
              if_pos (lexKey_lt_iff.mpr (Or.inr ⟨hsame, hbetter⟩))⟩
            rw [hstep, hsame]
          · rw [if_neg hbetter] at hties'
            refine ⟨c, ties ++ [x], hstep, hties', if_neg ?_⟩
            rw [lexKey_lt_iff]
            rintro (h | ⟨-, h⟩)
            · exact hsame.not_lt h
            · exact hbetter h
        · refine ⟨c, ties, ?_, hties, if_neg ?_⟩
          · simp [leastStep, hhigh.not_gt, hhigh.ne']
          · rw [lexKey_lt_iff]
            rintro (h | ⟨h, -⟩)
            · exact hhigh.not_gt h
            · exact hhigh.ne' h

/-- Both passes together. -/
theorem argmax_ties (f : α → β) (g : α → γ) (l : List α) :
    (l.foldl (leastStep f) (none, [])).2.argmax g = l.argmin (lexKey f g) := by
  rcases leastStep_spec f g l with ⟨hfold, hmin⟩ | ⟨c, ties, hfold, hties, hmin⟩
  · rw [hfold, hmin]
    rfl
  · rw [hfold, hmin]
    exact hties

end SentinelADC
