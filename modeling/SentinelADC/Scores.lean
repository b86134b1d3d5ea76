import SentinelADC.WeightedRoundRobin
import Mathlib.Order.Monotone.Defs
import Mathlib.Data.Int.ConditionallyCompleteOrder

/-!
# Performance scores

Measures of a backend, ordered by being no worse.  A score lies between 0 and
100 and does not go up when a measure gets worse, and the same is true of the
weight that weighted round robin derives from it, between 1 and the configured
weight.
-/

namespace SentinelADC

/-- What a score is computed from. -/
structure Measures where
  averageLatency : Rat
  /-- In percent. -/
  errorRate : Rat
  activeConnections : Int
  averageLatency_nonneg : 0 ≤ averageLatency
  errorRate_nonneg : 0 ≤ errorRate
  errorRate_le : errorRate ≤ 100
  activeConnections_nonneg : 0 ≤ activeConnections

namespace Measures

/-- `x ≤ y` says that `x` is no worse than `y` in any measure. -/
instance : Preorder Measures where
  le x y :=
    x.averageLatency ≤ y.averageLatency ∧ x.errorRate ≤ y.errorRate ∧
      x.activeConnections ≤ y.activeConnections
  le_refl x := ⟨le_refl _, le_refl _, le_refl _⟩
  le_trans _ _ _ h h' := ⟨h.1.trans h'.1, h.2.1.trans h'.2.1, h.2.2.trans h'.2.2⟩

/-- `calculateScore` on the measures. -/
def score (healthy : Bool) (x : Measures) : Int :=
  calculateScore healthy x.averageLatency x.errorRate x.activeConnections

/-- The measures that `getBackendMetrics` takes of a list of transactions. -/
def ofList (backend : Backend) (list : List Transaction)
    (hlist : ∀ item ∈ list, 0 ≤ item.latency) (hactive : 0 ≤ backend.activeConnections) :
    Measures where
  averageLatency := (metricsOf backend list).averageLatency
  errorRate := (metricsOf backend list).errorRate
  activeConnections := backend.activeConnections
  averageLatency_nonneg := averageLatency_metricsOf_nonneg backend hlist
  errorRate_nonneg := errorRate_metricsOf_nonneg backend list
  errorRate_le := errorRate_metricsOf_le backend list
  activeConnections_nonneg := hactive

theorem score_ofList (backend : Backend) (list : List Transaction)
    (hlist : ∀ item ∈ list, 0 ≤ item.latency) (hactive : 0 ≤ backend.activeConnections) :
    (ofList backend list hlist hactive).score backend.healthy = (metricsOf backend list).score := by
  rfl

theorem score_nonneg (healthy : Bool) (x : Measures) :
    0 ≤ x.score healthy :=
  calculateScore_nonneg _ _ _ _

theorem score_le (healthy : Bool) (x : Measures) :
    x.score healthy ≤ 100 :=
  calculateScore_le healthy x.averageLatency_nonneg x.errorRate_nonneg
    x.activeConnections_nonneg

/-- Each penalty grows with its measure, and rounding and clamping keep the order. -/
theorem score_antitone :
    Antitone (score true) := by
  rintro x y ⟨hlatency, herror, hactive⟩
  have hlatencyPenalty : min 40 (x.averageLatency / 10) ≤ min 40 (y.averageLatency / 10) :=
    min_le_min_left _ (by linarith)
  have hconnPenalty : min 30 ((x.activeConnections : Rat) * 5) ≤
      min 30 ((y.activeConnections : Rat) * 5) := by
    have hcast : (x.activeConnections : Rat) ≤ y.activeConnections := by exact_mod_cast hactive
    exact min_le_min_left _ (by linarith)
  exact max_le_max_left _ (jsRound_mono (by linarith))

theorem orOne_eq_max (weight : Nat) :
    WeightedRoundRobin.orOne weight = max 1 weight := by
  rw [WeightedRoundRobin.orOne]
  split_ifs <;> omega

theorem dynamicWeight_pos (weight : Nat) (score : Int) :
    1 ≤ WeightedRoundRobin.dynamicWeight weight score := by
  simp only [WeightedRoundRobin.dynamicWeight]
  omega

/-- A higher score never means a lower weight. -/
theorem dynamicWeight_mono (weight : Nat) :
    Monotone (WeightedRoundRobin.dynamicWeight weight) := by
  intro score score' h
  have hcast : (score : Rat) ≤ score' := by exact_mod_cast h
  have hproduct : (WeightedRoundRobin.orOne weight : Rat) * ((score : Rat) / 100) ≤
      (WeightedRoundRobin.orOne weight : Rat) * ((score' : Rat) / 100) :=
    mul_le_mul_of_nonneg_left (by linarith) (by positivity)
  exact Int.toNat_le_toNat (max_le_max_left _ (jsRound_mono hproduct))

/-- Scores lie between 0 and 100, dynamic weights between 1 and the configured
weight, and a healthy backend that is no worse in any measure gets no lower
score and, with the same configured weight, no lower dynamic weight. -/
theorem scores_bounded_antitone :
    (∀ (healthy : Bool) (x : Measures), 0 ≤ x.score healthy ∧ x.score healthy ≤ 100) ∧
    Antitone (score true) ∧
    (∀ (weight : Nat) (healthy : Bool) (x : Measures),
      1 ≤ WeightedRoundRobin.dynamicWeight weight (x.score healthy) ∧
        WeightedRoundRobin.dynamicWeight weight (x.score healthy) ≤ max 1 weight) ∧
    ∀ weight : Nat,
      Antitone (fun x => WeightedRoundRobin.dynamicWeight weight (score true x)) := by
  refine ⟨fun healthy x => ⟨x.score_nonneg healthy, x.score_le healthy⟩, score_antitone, ?_, ?_⟩
  · intro weight healthy x
    rw [← orOne_eq_max]
    exact ⟨dynamicWeight_pos _ _, WeightedRoundRobin.dynamicWeight_le weight (x.score_le healthy)⟩
  · exact fun weight => (dynamicWeight_mono weight).comp_antitone score_antitone

end Measures

end SentinelADC
