import SentinelADC.Connections
import SentinelADC.HalfOpenProbes

/-!
# Routing soundness

What a caller of `selectBackend` may rely on, in every state of every run.  The
memory of the strategies is the only part of the state that could stand in the
way: the round robin index and the threshold of weighted round robin were left
by calls on other candidate lists.  The index is reduced before it is used; the
threshold is not, and it goes down by subtraction in double precision.
-/

namespace SentinelADC

open Runs

/-- The largest weight from which subtracting a smaller weight leads down in
double precision; from the next double on, `2 ^ 53 + 4`, subtracting 1 changes
nothing. -/
def weightLimit : Nat :=
  2 ^ 53 + 2

/-- A weight within the limit, if one is set, and a measured duration that is
one. -/
def Op.moderate : Op → Bool
  | .setWeight _ (some weight) => weight ≤ weightLimit
  | .proxyRes _ _ latency => 0 ≤ latency
  | .proxyError _ _ latency _ => 0 ≤ latency
  | _ => true

/-- Recorded durations are durations, and the threshold is within the limit. -/
structure StrategyMemory.Moderate (m : StrategyMemory) : Prop where
  durations : m.Durations
  threshold : m.wrr.currentWeight ≤ weightLimit

section Strategies

variable {m : StrategyMemory} {now : Int} {pool : BackendPool}

theorem StrategyMemory.Moderate.cleanup (h : m.Moderate) (now : Int) (id : String) :
    (m.cleanup now id).Moderate :=
  ⟨h.durations.cleanup now id, by rw [wrr_cleanup]; exact h.threshold⟩

theorem LeastConnections.moderate_breakTie (bs : List Backend) (bestScore : Int)
    (selected : Option Backend) (h : m.Moderate) :
    (breakTie now pool bs bestScore selected m).2.Moderate := by
  induction bs generalizing bestScore selected m with
  | nil => exact h
  | cons b bs ih =>
      have hread : (m.scoreOf now pool b.id).2.Moderate := by
        rw [StrategyMemory.scoreOf_snd]
        exact h.cleanup now b.id
      simp only [breakTie]
      split_ifs
      · exact ih _ _ hread
      · exact ih _ _ hread

theorem WeightedRoundRobin.durations_virtualPool (now : Int) (pool : BackendPool)
    (backends : List Backend) (h : m.Durations) :
    (virtualPool now pool backends m).2.Durations := by
  induction backends generalizing m with
  | nil => exact h
  | cons b bs ih =>
      simp only [virtualPool, StrategyMemory.scoreOf_snd]
      exact ih (h.cleanup now b.id)

/-- A selection from moderate weights leaves a moderate memory. -/
theorem Strategy.moderate_select (cfg : Config) (now : Int) (req : ClientRequest)
    (strategy : Strategy)
    (hactive : ∀ id b, pool.find id = some b → 0 ≤ b.activeConnections)
    {backends : List Backend} (hweight : ∀ b ∈ backends, b.weight ≤ weightLimit)
    (h : m.Moderate) :
    (strategy.select cfg now pool req backends m).2.Moderate := by
  cases strategy with
  | roundRobin => exact ⟨h.durations, h.threshold⟩
  | leastConnections => exact LeastConnections.moderate_breakTie _ _ _ h
  | weightedRoundRobin =>
      constructor
      · have hpool := WeightedRoundRobin.durations_virtualPool now pool backends h.durations
        simp only [select, WeightedRoundRobin.select]
        split_ifs <;> exact hpool
      · exact WeightedRoundRobin.currentWeight_select_le (by decide) (le_refl _) hactive hweight
          h.durations h.threshold
  | ipHash => exact h
  | consistentHash => exact h
  | inherited member => exact h

end Strategies

namespace Cell

variable {cfg : Config} {c : Cell}

/-- Only the operator writes the weight. -/
theorem weight_step {op : CellOp} (hop : ∀ weight, op ≠ .setWeight weight) :
    (c.step cfg op).backend.weight = c.backend.weight := by
  cases op with
  | setWeight weight => exact absurd rfl (hop weight)
  | override healthy => rfl
  | connect => rfl
  | disconnect =>
      simp only [step, disconnect]
      split_ifs <;> rfl
  | _ => exact field_step Backend.weight (fun _ _ _ _ _ => rfl) rfl

/-- The breaker of an admitted backend is not open after the call. -/
theorem state_of_admitted {now : Int} (hen : cfg.enabled = false → c.breaker.state = .closed)
    (h : (c.canExecute cfg now).1 = true) :
    (c.canExecute cfg now).2.breaker.state ≠ .opened := by
  cases henabled : cfg.enabled with
  | false => simp [canExecute_of_disabled henabled, hen henabled]
  | true =>
      cases hs : c.breaker.state with
      | closed => simp [canExecute_of_closed hs, hs]
      | opened =>
          rw [canExecute_of_opened henabled hs] at h ⊢
          split_ifs at h ⊢
          simp [enterHalfOpen]
      | halfOpen =>
          rw [canExecute_of_halfOpen henabled hs] at h ⊢
          split_ifs at h ⊢
          simp [takePermit, hs]

end Cell

namespace Gateway

/-- The backend is healthy and its breaker admits it. -/
def Available (cfg : Config) (now : Int) (g : Gateway) (id : String) : Prop :=
  ∃ c, g.cell id = some c ∧ c.backend.healthy = true ∧ (c.canExecute cfg now).1 = true

/-- What a caller of `selectBackend` may rely on. -/
structure RoutesSoundly (cfg : Config) (now : Int) (req : ClientRequest)
    (failedBackends : List String) (g : Gateway) : Prop where
  /-- `null` means that no backend is available. -/
  none_iff : (g.selectBackend cfg now req failedBackends).1 = .noneHealthy ↔
    ∀ id ∈ g.pool.ids, ¬ g.Available cfg now id
  /-- Otherwise the call returns an available backend, one that has not failed
  for this request if there is any, whose breaker is not `OPEN` then. -/
  selects : (g.selectBackend cfg now req failedBackends).1 ≠ .noneHealthy →
    ∃ id, (g.selectBackend cfg now req failedBackends).1 = .selected id ∧
      id ∈ excludeFailed failedBackends (g.getHealthyBackends cfg now).1 ∧
      g.Available cfg now id ∧
      ∃ breaker, (g.selectBackend cfg now req failedBackends).2.breakers id = some breaker ∧
        breaker.state ≠ .opened

/-- No weight and no threshold exceeds the limit. -/
structure Moderate (g : Gateway) : Prop where
  weights : ∀ id c, g.cell id = some c → c.backend.weight ≤ weightLimit
  memory : g.memory.Moderate

section Steps

variable {cfg : Config} {g : Gateway} {now : Int}

theorem admits_iff {id : String} :
    g.admits cfg now id = true ↔ g.Available cfg now id := by
  simp only [admits, Available]
  cases hc : g.cell id with
  | none => simp
  | some c =>
      simp only [Option.some.injEq, exists_eq_left', Cell.consult]
      split_ifs with hhealthy <;> simp [hhealthy]

/-- A selection changes the memory only through the strategy. -/
theorem moderate_selectBackend (now : Int) (hg : Reachable cfg g) (h : g.Moderate)
    (req : ClientRequest) (failedBackends : List String) :
    (g.selectBackend cfg now req failedBackends).2.memory.Moderate := by
  -- the filter does to the state what a status poll does
  have hpoll : Reachable cfg (g.getHealthyBackends cfg now).2 :=
    hg.run_step [⟨now, .status⟩]
  have hmoves : Moves g (g.getHealthyBackends cfg now).2 (fun _ c => (c.consult cfg now).2) :=
    moves_getHealthyBackends hg.complete
  have hmemory : (g.getHealthyBackends cfg now).2.memory.Moderate := by
    rw [(breakerFrame_getHealthyBackends g cfg now).memory]
    exact h.memory
  have hcell : ∀ id b, (g.getHealthyBackends cfg now).2.pool.find id = some b →
      ∃ c, (g.getHealthyBackends cfg now).2.cell id = some c ∧ c.backend = b := by
    intro id b hb
    exact hpoll.complete.exists_cell hb
  have hactive : ∀ id b, (g.getHealthyBackends cfg now).2.pool.find id = some b →
      0 ≤ b.activeConnections := by
    intro id b hb
    obtain ⟨c, hc, rfl⟩ := hcell id b hb
    rw [hpoll.activeConnections_eq hc]
    exact Int.natCast_nonneg _
  have hweight : ∀ id b, (g.getHealthyBackends cfg now).2.pool.find id = some b →
      b.weight ≤ weightLimit := by
    intro id b hb
    obtain ⟨c', hc', rfl⟩ := hcell id b hb
    rw [hmoves.cell id] at hc'
    obtain ⟨c, hc, rfl⟩ := Option.map_eq_some_iff.mp hc'
    have hsame : (c.consult cfg now).2.backend.weight = c.backend.weight :=
      Cell.weight_step (show ∀ weight, .consult now ≠ CellOp.setWeight weight by simp)
    rw [hsame]
    exact h.weights id c hc
  have hweights : ∀ b ∈ (excludeFailed failedBackends (g.getHealthyBackends cfg now).1).filterMap
      (g.getHealthyBackends cfg now).2.pool.find, b.weight ≤ weightLimit := by
    intro b hb
    obtain ⟨id, -, hfind⟩ := List.mem_filterMap.mp hb
    exact hweight id b hfind
  have hselect := Strategy.moderate_select cfg now req (g.getHealthyBackends cfg now).2.strategy
    hactive hweights hmemory
  simp only [selectBackend]
  split_ifs
  · exact hmemory
  · split <;> exact hselect

theorem moderate_router (hg : Reachable cfg g) (h : g.Moderate) (rid : Nat) :
    (g.router cfg now rid).memory.Moderate := by
  simp only [router]
  split
  · exact h.memory
  · next x hx =>
      split_ifs
      · exact h.memory
      · split
        · exact h.memory
        · have hselect := moderate_selectBackend now hg h x.request x.failedBackends
          split <;> next heq => rw [heq] at hselect; exact hselect

theorem moderate_collect (h : g.memory.Moderate) (backendId : Option String) {latency : Rat}
    (hlatency : 0 ≤ latency) (error : Bool) :
    (g.collect now backendId latency error).memory.Moderate := by
  simp only [collect]
  split
  · exact h
  · constructor
    · exact h.durations.recordTransaction hlatency error
    · rw [StrategyMemory.wrr_recordTransaction]
      exact h.threshold

/-- What an event does to the memory of the strategies. -/
theorem memory_moderate_step {e : Event} (hg : Reachable cfg g) (h : g.Moderate)
    (he : e.op.moderate = true) :
    (g.step cfg e).memory.Moderate := by
  have hframe : ∀ {g'}, RecordsFrame g g' → g'.memory.Moderate := by
    intro g' hsame
    rw [hsame.memory]
    exact h.memory
  obtain ⟨now, op⟩ := e
  cases op with
  | healthCheck id outcome => exact hframe (records_healthCheck outcome)
  | healthOverride id healthy => exact hframe (records_healthOverride healthy)
  | setWeight id weight => exact hframe (records_setWeight weight)
  | setAlgorithm algorithm =>
      simp only [step, setAlgorithm]
      cases Strategy.getStrategy algorithm <;> exact h.memory
  | drain id timeoutSec => exact hframe (records_drainBackend timeoutSec)
  | undrain id => exact hframe records_undrainBackend
  | resetBreaker backendId =>
      simp only [step, resetRoute]
      cases truthy backendId with
      | none => exact h.memory
      | some id => exact hframe breakerFrame_resetBreaker.records
  | resetAllBreakers => exact hframe records_resetAllBreakers
  | status => exact hframe (breakerFrame_getHealthyBackends g cfg now).records
  | drainTimer handle => exact hframe (records_fireDrainTimer handle)
  | request rid req =>
      simp only [step, request]
      cases g.exchange rid <;> exact h.memory
  | route rid => exact moderate_router hg h rid
  | proxyRes rid status latency =>
      have hlatency : 0 ≤ latency := by simpa [Op.moderate] using he
      simp only [step, proxyRes]
      split
      · exact h.memory
      · split_ifs
        · exact h.memory
        · simp only [modifyExchange, (records_reportStatus _ _).memory]
          exact moderate_collect h.memory _ hlatency _
  | pipeBody rid =>
      rcases pipeBody_cases rid g with heq | ⟨f, heq⟩ <;> simp only [step, heq] <;> exact h.memory
  | proxyError rid err latency random =>
      have hlatency : 0 ≤ latency := by simpa [Op.moderate] using he
      simp only [step, handleProxyError]
      split
      · exact h.memory
      · split_ifs
        · exact h.memory
        · simp only [modifyExchange, (records_reportError _ _).memory]
          exact moderate_collect h.memory _ hlatency _
  | resumeRetry rid =>
      rcases resumeRetry_cases rid g with heq | ⟨f, heq⟩ <;> simp only [step, heq]
      · exact h.memory
      · exact h.memory
  | finish rid =>
      rcases responseFinish_cases rid g with heq | ⟨selections, f, heq⟩ <;> simp only [step, heq]
      · exact h.memory
      · simp only [modifyExchange, (records_runDecrements _ _).memory]
        exact h.memory
  | close rid =>
      rcases responseClose_cases rid g with heq | ⟨selections, f, heq⟩ <;> simp only [step, heq]
      · exact h.memory
      · simp only [modifyExchange, (records_runDecrements _ _).memory]
        exact h.memory

/-- A weight written by an event is the one the operator set. -/
theorem eq_of_setWeight_mem_effects {e : Event} {id : String} {weight : Nat}
    (h : .setWeight weight ∈ effects cfg g e id) :
    ∃ w : Int, e.op = .setWeight id (some w) ∧ weight = w.toNat := by
  obtain ⟨w, hop⟩ := causes_of_mem_effects h
  obtain ⟨now, op⟩ := e
  obtain rfl : op = .setWeight id w := hop
  cases w with
  | none => simp [effects] at h
  | some w =>
      simp only [effects] at h
      split_ifs at h
      · simp at h
      · obtain ⟨-, hmem⟩ := eq_and_mem_of_mem_opsAt h
        exact ⟨w, rfl, by simpa using hmem⟩

/-- A moderate event keeps the state moderate. -/
theorem moderate_step {e : Event} (hg : Reachable cfg g) (h : g.Moderate)
    (he : e.op.moderate = true) :
    (g.step cfg e).Moderate := by
  refine ⟨?_, memory_moderate_step hg h he⟩
  intro id c' hc'
  rw [(performs_step cfg e hg.complete).cell id] at hc'
  obtain ⟨c, hc, rfl⟩ := Option.map_eq_some_iff.mp hc'
  refine run_preserves (P := fun c : Cell => c.backend.weight ≤ weightLimit)
    (h.weights id c hc) ?_
  intro op hop c hle
  by_cases hset : ∃ weight, op = .setWeight weight
  · obtain ⟨weight, rfl⟩ := hset
    obtain ⟨w, hw, rfl⟩ := eq_of_setWeight_mem_effects hop
    simp only [hw, Op.moderate, decide_eq_true_eq] at he
    show w.toNat ≤ weightLimit
    omega
  · rw [Cell.weight_step (fun weight heq => hset ⟨weight, heq⟩)]
    exact hle

theorem Booted.moderate (h : Booted cfg g) :
    g.Moderate := by
  obtain ⟨now, strategy, rfl⟩ := h.eq_initial
  refine ⟨?_, ?_, ?_⟩
  · intro id c hc
    have hweight := weight_le_of_mem_createBackendPool
      (BackendPool.mem_of_find (cell_eq_some_iff.mp hc).1)
    exact hweight.trans (by decide)
  · intro id list hlist item hitem
    simp only [initial] at hlist
    split_ifs at hlist
    obtain rfl := Option.some.inj hlist
    simp at hitem
  · show (0 : Int) ≤ weightLimit
    decide

/-- Nothing in a run of moderate events takes the state over the limit. -/
theorem moderate_run {es : List Event} (hg : Reachable cfg g) (h : g.Moderate)
    (hes : ∀ e ∈ es, e.op.moderate = true) :
    (run (step cfg) g es).Moderate := by
  induction es generalizing g with
  | nil => exact h
  | cons e es ih =>
      exact ih (hg.run_step [e]) (moderate_step hg h (hes e (by simp)))
        (fun e' he' => hes e' (by simp [he']))

end Steps

section Soundness

variable {cfg : Config} {g : Gateway} {now : Int} {req : ClientRequest}
  {failedBackends : List String}

theorem candidates_eq_nil_iff :
    g.candidates cfg now = [] ↔ ∀ id ∈ g.pool.ids, ¬ g.Available cfg now id := by
  simp only [candidates, List.filter_eq_nil_iff, admits_iff]

/-- The breaker of a selected backend is not open after the call. -/
theorem breaker_of_selected (hg : Reachable cfg g) {id : String}
    (h : (g.selectBackend cfg now req failedBackends).1 = .selected id) :
    g.Available cfg now id ∧
      ∃ breaker, (g.selectBackend cfg now req failedBackends).2.breakers id = some breaker ∧
        breaker.state ≠ .opened := by
  have hmem := mem_candidates_of_selected hg.complete h
  have havailable := admits_iff.mp (List.of_mem_filter hmem)
  refine ⟨havailable, ?_⟩
  obtain ⟨c, hc, hhealthy, hadmitted⟩ := havailable
  have hafter := (moves_selectBackend cfg now hg.complete req failedBackends).cell_some hc
  refine ⟨_, (cell_eq_some_iff.mp hafter).2.1, ?_⟩
  simp only [Cell.consult, hhealthy, if_true]
  exact Cell.state_of_admitted (fun hen => hg.closed_of_disabled hen hc) hadmitted

/-- With one of the five strategies and a moderate memory a call is sound. -/
theorem routesSoundly_of_moderate (hg : Reachable cfg g) (hstrategy : g.strategy.genuine = true)
    (h : g.memory.Moderate) :
    g.RoutesSoundly cfg now req failedBackends := by
  have hnone : (g.selectBackend cfg now req failedBackends).1 = .noneHealthy ↔
      g.candidates cfg now = [] :=
    selectBackend_noneHealthy_iff hg.complete
  constructor
  · rw [hnone, candidates_eq_nil_iff]
  · intro hsome
    obtain ⟨id, -, hselected⟩ := selectBackend_selects req failedBackends hg.complete hstrategy
      h.threshold (fun hnil => hsome (hnone.mpr hnil))
    obtain ⟨havailable, hbreaker⟩ := breaker_of_selected hg hselected
    exact ⟨id, hselected, mem_excludeFailed_of_selected hg.complete hselected, havailable,
      hbreaker⟩

/--
In every run from start-up whose events are moderate, and with one of the five
strategies installed at the end of it, a call of `selectBackend` is sound,
whatever the request and the backends it has failed at.
-/
theorem routing_sound {es : List Event} (hboot : Booted cfg g)
    (hes : ∀ e ∈ es, e.op.moderate = true)
    (hstrategy : (run (step cfg) g es).strategy.genuine = true) (now : Int)
    (req : ClientRequest) (failedBackends : List String) :
    (run (step cfg) g es).RoutesSoundly cfg now req failedBackends := by
  have hg : Reachable cfg g := .start hboot
  exact routesSoundly_of_moderate (hg.run_step es) hstrategy
    (moderate_run hg hboot.moderate hes).memory

/-- A request under weighted round robin while the first backend has the given
weight, which is then set back to 3. -/
def reweighted (weight : Int) : List Event :=
  [⟨0, .setAlgorithm "weighted-round-robin"⟩, ⟨0, .setWeight "backend-1" (some weight)⟩,
    ⟨0, .request 0 ⟨"GET", "/", none, none, none, none⟩⟩, ⟨0, .route 0⟩,
    ⟨0, .setWeight "backend-1" (some 3)⟩]

theorem routing_sound_reweighted :
    (run (step (Config.default (fun _ => 0))) sampleGateway
      (reweighted 1000)).RoutesSoundly (Config.default (fun _ => 0)) 1
        ⟨"GET", "/", none, none, none, none⟩ [] :=
  routing_sound ⟨0, rfl⟩ (by decide) (by decide +kernel) 1 _ []

/-- The backends that the strategy is asked to choose from. -/
def choices (cfg : Config) (now : Int) (failedBackends : List String) (g : Gateway) :
    List Backend :=
  (excludeFailed failedBackends (g.getHealthyBackends cfg now).1).filterMap
    (g.getHealthyBackends cfg now).2.pool.find

/-- A call of `selectBackend` returns only if the strategy does. -/
theorem selectBackend_of_endless (hstrategy : g.strategy = .weightedRoundRobin)
    (hne : g.choices cfg now failedBackends ≠ [])
    (hendless : (WeightedRoundRobin.select now (g.getHealthyBackends cfg now).2.pool
      (g.choices cfg now failedBackends) (g.getHealthyBackends cfg now).2.memory).1 =
        .endless) :
    (g.selectBackend cfg now req failedBackends).1 = .endless := by
  have hhealthy : excludeFailed failedBackends (g.getHealthyBackends cfg now).1 ≠ [] := by
    intro hnil
    exact hne (by rw [choices, hnil]; rfl)
  have hkept : (g.getHealthyBackends cfg now).2.strategy = .weightedRoundRobin :=
    (breakerFrame_getHealthyBackends g cfg now).strategy.trans hstrategy
  simp only [choices] at hendless
  simp [selectBackend, hhealthy, hkept, Strategy.select, hendless]

/-- The threshold left by a weight of `10 ^ 17` stays where it is when 1 is
subtracted, and no weight reaches it: the next call does not return. -/
theorem routing_unsound :
    ¬ ∀ (cfg : Config) (g : Gateway) (now : Int) (req : ClientRequest)
      (failedBackends : List String), Reachable cfg g → g.strategy.genuine = true →
      g.RoutesSoundly cfg now req failedBackends := by
  intro hclaim
  have hsound := hclaim (Config.default (fun _ => 0))
    (run (step (Config.default (fun _ => 0))) sampleGateway (reweighted (10 ^ 17))) 1
    ⟨"GET", "/", none, none, none, none⟩ [] (reachable_sampleGateway.run_step _)
    (by decide +kernel)
  have hendless : (selectBackend (Config.default (fun _ => 0)) 1
      ⟨"GET", "/", none, none, none, none⟩ []
      (run (step (Config.default (fun _ => 0))) sampleGateway (reweighted (10 ^ 17)))).1 =
        .endless :=
    selectBackend_of_endless (by decide +kernel) (by decide +kernel)
      (WeightedRoundRobin.select_of_stuck (by decide +kernel)
        ⟨by decide +kernel, by decide +kernel, by decide +kernel⟩ (by decide +kernel))
  obtain ⟨id, hselected, -⟩ := hsound.selects (by rw [hendless]; simp)
  rw [hendless] at hselected
  cases hselected

end Soundness

end Gateway

end SentinelADC
