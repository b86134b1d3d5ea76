import SentinelADC.Helpers
import Mathlib.Algebra.BigOperators.Group.List.Basic
import Mathlib.Algebra.Order.BigOperators.Group.List
import Mathlib.Tactic.Linarith
import Mathlib.Tactic.Positivity

/-!
# Metrics store

`metrics/metricsStore.js`: a sliding window of transactions for each backend
and the performance score derived from it.  The store prunes a window on every
read as well as on every write, so reading metrics returns a new memory.
-/

namespace SentinelADC

/-- Length of the sliding window in milliseconds. -/
def metricsWindowMs : Int := 60000

/-- Number of transactions kept for each backend. -/
def metricsHistoryLimit : Nat := 100

/-- `cleanup` on one list: drop old entries, then keep the newest ones. -/
def pruneTransactions (now : Int) (list : List Transaction) : List Transaction :=
  let filtered := list.filter (fun item => now - metricsWindowMs < item.timestamp)
  if metricsHistoryLimit < filtered.length then
    filtered.drop (filtered.length - metricsHistoryLimit)
  else filtered

/-- `calculateScore`, in exact arithmetic where the source has doubles. -/
def calculateScore (healthy : Bool) (avgLatency errorRate : Rat)
    (activeConnections : Int) : Int :=
  if !healthy then 0
  else
    let latencyPenalty := min 40 (avgLatency / 10)
    let errorPenalty := errorRate / 100 * 50
    let connPenalty : Rat := min 30 ((activeConnections : Rat) * 5)
    max 0 (jsRound (100 - latencyPenalty - errorPenalty - connPenalty))

/-- The figures of `getBackendMetrics`. -/
structure BackendMetrics where
  requestCount : Nat
  averageLatency : Rat
  errorRate : Rat
  activeConnections : Int
  score : Int
deriving DecidableEq, Repr

/-- The figures computed from one pruned list.  Sums and quotients are exact here; in
doubles an average that lies half way between two hundredths may round down
(latencies 1 and 1.01 average to 1 in the source, to 1.01 here). -/
def metricsOf (backend : Backend) (list : List Transaction) : BackendMetrics :=
  let requestCount := list.length
  let averageLatency : Rat :=
    if requestCount = 0 then 0
    else round2 ((list.map (fun item => item.latency)).sum / requestCount)
  let errorRate : Rat :=
    if requestCount = 0 then 0
    else
      (jsRound (((list.filter (fun item => item.error)).length : Rat) / requestCount * 10000)
        : Rat) / 100
  { requestCount := requestCount
    averageLatency := averageLatency
    errorRate := errorRate
    activeConnections := backend.activeConnections
    score :=
      calculateScore backend.healthy averageLatency errorRate backend.activeConnections }

namespace StrategyMemory

/-- Prune the stored list of one backend. -/
def cleanup (now : Int) (id : String) (m : StrategyMemory) : StrategyMemory :=
  match m.history id with
  | none => m
  | some list =>
      { m with history := Function.update m.history id (some (pruneTransactions now list)) }

/-- Record a completed transaction. -/
def recordTransaction (now : Int) (id : String) (latency : Rat) (error : Bool)
    (m : StrategyMemory) : StrategyMemory :=
  match m.history id with
  | none => m
  | some list =>
      cleanup now id
        { m with history := Function.update m.history id (some (list ++ [⟨latency, error, now⟩])) }

/-- Metrics of one backend; `none` for an id without a record. -/
def getBackendMetrics (now : Int) (pool : BackendPool) (id : String)
    (m : StrategyMemory) : Option BackendMetrics × StrategyMemory :=
  let m := m.cleanup now id
  match pool.find id, m.history id with
  | some backend, some list => (some (metricsOf backend list), m)
  | _, _ => (none, m)

/-- The score a strategy uses: 100 when no metrics exist. -/
def scoreOf (now : Int) (pool : BackendPool) (id : String) (m : StrategyMemory) :
    Int × StrategyMemory :=
  let (metrics, m) := m.getBackendMetrics now pool id
  ((metrics.map (fun x => x.score)).getD 100, m)

section Figures

variable {m : StrategyMemory} {now : Int} {id : String}

/-- Every recorded duration is a duration. -/
def Durations (m : StrategyMemory) : Prop :=
  ∀ id list, m.history id = some list → ∀ item ∈ list, 0 ≤ item.latency

theorem mem_of_mem_pruneTransactions {list : List Transaction} {item : Transaction}
    (h : item ∈ pruneTransactions now list) :
    item ∈ list := by
  simp only [pruneTransactions] at h
  split_ifs at h
  · exact List.mem_of_mem_filter (List.mem_of_mem_drop h)
  · exact List.mem_of_mem_filter h

@[simp] theorem wrr_cleanup (now : Int) (id : String) (m : StrategyMemory) :
    (m.cleanup now id).wrr = m.wrr := by
  simp only [cleanup]
  split <;> rfl

@[simp] theorem wrr_recordTransaction (latency : Rat) (error : Bool) :
    (m.recordTransaction now id latency error).wrr = m.wrr := by
  simp only [recordTransaction]
  split
  · rfl
  · rw [wrr_cleanup]

theorem history_cleanup (now : Int) (id id' : String) (m : StrategyMemory) :
    (m.cleanup now id).history id' =
      if id' = id then (m.history id').map (pruneTransactions now) else m.history id' := by
  simp only [cleanup]
  by_cases hid : id' = id
  · subst hid
    split <;> next hlist => simp [hlist]
  · split <;> simp [hid]

theorem history_recordTransaction (latency : Rat) (error : Bool) (id' : String) :
    (m.recordTransaction now id latency error).history id' =
      if id' = id then
        (m.history id').map (fun list => pruneTransactions now (list ++ [⟨latency, error, now⟩]))
      else m.history id' := by
  simp only [recordTransaction]
  by_cases hid : id' = id
  · subst hid
    split <;> next hlist => simp [history_cleanup, hlist]
  · split <;> simp [history_cleanup, hid]

theorem getBackendMetrics_snd (now : Int) (pool : BackendPool) (id : String)
    (m : StrategyMemory) :
    (m.getBackendMetrics now pool id).2 = m.cleanup now id := by
  simp only [getBackendMetrics]
  split <;> rfl

theorem scoreOf_snd (now : Int) (pool : BackendPool) (id : String) (m : StrategyMemory) :
    (m.scoreOf now pool id).2 = m.cleanup now id :=
  getBackendMetrics_snd now pool id m

theorem Durations.cleanup (h : m.Durations) (now : Int) (id : String) :
    (m.cleanup now id).Durations := by
  simp only [StrategyMemory.cleanup]
  split
  · exact h
  · next list hlist =>
      intro id' list' hlist' item hitem
      by_cases hid : id' = id
      · subst hid
        obtain rfl : pruneTransactions now list = list' := by simpa using hlist'
        exact h id' list hlist item (mem_of_mem_pruneTransactions hitem)
      · simp only [Function.update_of_ne hid] at hlist'
        exact h id' list' hlist' item hitem

theorem Durations.recordTransaction (h : m.Durations) {latency : Rat} (hlatency : 0 ≤ latency)
    (error : Bool) :
    (m.recordTransaction now id latency error).Durations := by
  simp only [StrategyMemory.recordTransaction]
  split
  · exact h
  · next list hlist =>
      apply Durations.cleanup
      intro id' list' hlist' item hitem
      by_cases hid : id' = id
      · subst hid
        obtain rfl : list ++ [⟨latency, error, now⟩] = list' := by simpa using hlist'
        rcases List.mem_append.mp hitem with hold | hnew
        · exact h id' list hlist item hold
        · obtain rfl := List.mem_singleton.mp hnew
          exact hlatency
      · simp only [Function.update_of_ne hid] at hlist'
        exact h id' list' hlist' item hitem

end Figures

end StrategyMemory

section Scores

/-- Rounding does not pass an integer. -/
theorem jsRound_le {x : Rat} {n : Int} (h : x ≤ n) :
    jsRound x ≤ n := by
  have hlt : jsRound x < n + 1 := by
    rw [jsRound, Int.floor_lt]
    push_cast
    linarith
  omega

theorem jsRound_mono {x y : Rat} (h : x ≤ y) :
    jsRound x ≤ jsRound y :=
  Int.floor_le_floor (by linarith)

theorem jsRound_nonneg {x : Rat} (h : 0 ≤ x) :
    0 ≤ jsRound x := by
  rw [jsRound, Int.floor_nonneg]
  linarith

theorem round2_nonneg {x : Rat} (h : 0 ≤ x) :
    0 ≤ round2 x := by
  have hround : (0 : Rat) ≤ jsRound (x * 100) := by
    exact_mod_cast jsRound_nonneg (by positivity)
  rw [round2]
  positivity

theorem calculateScore_nonneg (healthy : Bool) (avgLatency errorRate : Rat)
    (activeConnections : Int) :
    0 ≤ calculateScore healthy avgLatency errorRate activeConnections := by
  rw [calculateScore]
  split_ifs
  · exact le_refl 0
  · exact le_max_left _ _

/-- No score exceeds 100, as every penalty is a penalty. -/
theorem calculateScore_le (healthy : Bool) {avgLatency errorRate : Rat}
    {activeConnections : Int} (hlatency : 0 ≤ avgLatency) (herror : 0 ≤ errorRate)
    (hactive : 0 ≤ activeConnections) :
    calculateScore healthy avgLatency errorRate activeConnections ≤ 100 := by
  unfold calculateScore
  split_ifs
  · decide
  · dsimp only
    have hpenalty₁ : 0 ≤ min 40 (avgLatency / 10) := le_min (by norm_num) (by positivity)
    have hpenalty₂ : 0 ≤ errorRate / 100 * 50 := by positivity
    have hpenalty₃ : (0 : Rat) ≤ min 30 ((activeConnections : Rat) * 5) := by
      have : (0 : Rat) ≤ activeConnections := by exact_mod_cast hactive
      exact le_min (by norm_num) (by positivity)
    exact max_le (by decide) (jsRound_le (by push_cast; linarith))

theorem averageLatency_metricsOf_nonneg (backend : Backend) {list : List Transaction}
    (hlist : ∀ item ∈ list, 0 ≤ item.latency) :
    0 ≤ (metricsOf backend list).averageLatency := by
  have hsum : 0 ≤ (list.map (fun item => item.latency)).sum :=
    List.sum_nonneg (by simpa using hlist)
  simp only [metricsOf]
  split_ifs
  · exact le_refl _
  · exact round2_nonneg (by positivity)

theorem errorRate_metricsOf_nonneg (backend : Backend) (list : List Transaction) :
    0 ≤ (metricsOf backend list).errorRate := by
  simp only [metricsOf]
  split_ifs
  · exact le_refl _
  · have hround : (0 : Rat) ≤ jsRound (((list.filter (fun item => item.error)).length : Rat) /
        list.length * 10000) := by
      exact_mod_cast jsRound_nonneg (by positivity)
    positivity

theorem errorRate_metricsOf_le (backend : Backend) (list : List Transaction) :
    (metricsOf backend list).errorRate ≤ 100 := by
  simp only [metricsOf]
  split_ifs with hempty
  · norm_num
  · have hlength : ((list.filter (fun item => item.error)).length : Rat) ≤ list.length := by
      exact_mod_cast List.length_filter_le _ _
    have hratio : ((list.filter (fun item => item.error)).length : Rat) / list.length ≤ 1 :=
      div_le_one_of_le₀ hlength (by positivity)
    have hround : jsRound (((list.filter (fun item => item.error)).length : Rat) /
        list.length * 10000) ≤ 10000 :=
      jsRound_le (by push_cast; linarith)
    have hcast : (jsRound (((list.filter (fun item => item.error)).length : Rat) /
        list.length * 10000) : Rat) ≤ 10000 := by
      exact_mod_cast hround
    linarith

theorem score_metricsOf_le {backend : Backend} {list : List Transaction}
    (hlist : ∀ item ∈ list, 0 ≤ item.latency) (hactive : 0 ≤ backend.activeConnections) :
    (metricsOf backend list).score ≤ 100 :=
  calculateScore_le backend.healthy (averageLatency_metricsOf_nonneg backend hlist)
    (errorRate_metricsOf_nonneg backend list) hactive

/-- Every score a strategy reads is at most 100. -/
theorem StrategyMemory.scoreOf_le {m : StrategyMemory} (hm : m.Durations) (now : Int)
    {pool : BackendPool} {id : String}
    (hactive : ∀ b, pool.find id = some b → 0 ≤ b.activeConnections) :
    (m.scoreOf now pool id).1 ≤ 100 := by
  simp only [scoreOf, getBackendMetrics]
  split
  · next backend list hfind hlist =>
      exact score_metricsOf_le ((hm.cleanup now id) id list hlist) (hactive backend hfind)
  · exact le_refl _

end Scores

end SentinelADC
