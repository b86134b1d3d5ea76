import SentinelADC.Strategies
import SentinelADC.MetricsWindow
import SentinelADC.Lib.LexMin
import Mathlib.Data.Int.ConditionallyCompleteOrder

/-!
# What least connections picks

The first loop of `strategies/leastConnections.js` collects the backends with
the fewest connections and the second one takes the best score among them.
Reading a score prunes a list and changes no score.
-/

namespace SentinelADC

section Scores

variable {now : Int} {pool : BackendPool} {m : StrategyMemory}

/-- Pruning twice at one time is pruning once. -/
theorem pruneTransactions_pruneTransactions (now : Int) (list : List Transaction) :
    pruneTransactions now (pruneTransactions now list) = pruneTransactions now list := by
  rw [pruneTransactions_eq, newestInWindow, newestInWindow, rtake_filter_rtake,
    List.filter_filter]
  · simp
  · apply List.pairwise_of_forall_mem_list
    intro x _ y hy _
    exact (List.mem_filter.mp hy).2

/-- Pruning a list changes no score that is read at the same time. -/
theorem StrategyMemory.scoreOf_cleanup (now : Int) (pool : BackendPool) (id id' : String)
    (m : StrategyMemory) :
    ((m.cleanup now id).scoreOf now pool id').1 = (m.scoreOf now pool id').1 := by
  have hhistory : ((m.cleanup now id).cleanup now id').history id' =
      (m.cleanup now id').history id' := by
    simp only [history_cleanup, if_true]
    split_ifs
    · rw [Option.map_map]
      congr 1
      funext list
      exact pruneTransactions_pruneTransactions now list
    · rfl
  simp only [scoreOf, getBackendMetrics, hhistory]
  cases pool.find id' with
  | none => rfl
  | some backend => cases (m.cleanup now id').history id' <;> rfl

theorem StrategyMemory.scoreOf_nonneg (now : Int) (pool : BackendPool) (id : String)
    (m : StrategyMemory) :
    0 ≤ (m.scoreOf now pool id).1 := by
  simp only [scoreOf, getBackendMetrics]
  split
  · exact calculateScore_nonneg _ _ _ _
  · exact Int.zero_le_ofNat 100

end Scores

namespace LeastConnections

section Picks

variable {now : Int} {pool : BackendPool} {m : StrategyMemory}

theorem minStep_eq :
    minStep = leastStep Backend.activeConnections := by
  funext ⟨low, ties⟩ b
  cases low <;> simp [minStep, leastStep]

/-- The second loop, once it has a backend. -/
theorem breakTie_some (score : String → Int) (bs : List Backend) (selected : Backend)
    (hscore : ∀ id, (m.scoreOf now pool id).1 = score id) :
    (breakTie now pool bs (score selected.id) (some selected) m).1 =
      bs.foldl (List.argAux (fun b c => score c.id < score b.id)) (some selected) := by
  induction bs generalizing selected m with
  | nil => rfl
  | cons b bs ih =>
      have hlater : ∀ id, ((m.scoreOf now pool b.id).2.scoreOf now pool id).1 = score id := by
        intro id
        rw [StrategyMemory.scoreOf_snd, StrategyMemory.scoreOf_cleanup, hscore]
      rw [breakTie, List.foldl_cons, List.argAux]
      simp only [hscore]
      split_ifs
      · exact ih b hlater
      · exact ih selected hlater

/-- The second loop takes the first backend with the highest score: no score is as
low as the one that the loop starts with. -/
theorem breakTie_eq_argmax (now : Int) (pool : BackendPool) (bs : List Backend)
    (m : StrategyMemory) :
    (breakTie now pool bs (-1) bs.head? m).1 =
      bs.argmax (fun b => (m.scoreOf now pool b.id).1) := by
  cases bs with
  | nil => rfl
  | cons b bs =>
      have hpos : -1 < (m.scoreOf now pool b.id).1 := by
        have := m.scoreOf_nonneg now pool b.id
        omega
      have hlater : ∀ id, ((m.scoreOf now pool b.id).2.scoreOf now pool id).1 =
          (m.scoreOf now pool id).1 := by
        intro id
        rw [StrategyMemory.scoreOf_snd, StrategyMemory.scoreOf_cleanup]
      rw [breakTie]
      simp only [hpos, if_true]
      exact breakTie_some (fun id => (m.scoreOf now pool id).1) bs b hlater

/-- The pick is the first backend with the fewest connections and, among those, the
highest score. -/
theorem select_eq_argmin (now : Int) (pool : BackendPool) (backends : List Backend)
    (m : StrategyMemory) :
    (select now pool backends m).1 =
      backends.argmin
        (lexKey Backend.activeConnections (fun b => (m.scoreOf now pool b.id).1)) := by
  simp only [select]
  rw [breakTie_eq_argmax, minStep_eq, argmax_ties]

end Picks

end LeastConnections

end SentinelADC
