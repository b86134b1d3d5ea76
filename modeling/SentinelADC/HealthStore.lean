import SentinelADC.CircuitBreaker
import SentinelADC.Helpers

/-!
# Health store, health monitor and the override route

`health/healthStore.js` records active check results and derives the `healthy`
and `status` fields from them; `health/healthMonitor.js` feeds it and the
circuit breaker with each result; `health/healthRoutes.js` lets an operator
override a backend by hand.
-/

namespace SentinelADC

/-- The record the store creates for each pool member. -/
def HealthStats.fresh : HealthStats where
  checks := []
  consecutiveFailures := 0
  consecutiveSuccesses := 0
  totalChecks := 0
  successfulChecks := 0
  averageLatency := 0
  uptimePercentage := 100
  lastCheckTime := none
  successRate := none

/-- Number of check results kept for each backend. -/
def historyLimit : Nat := 20

/-- `push` followed by `shift` when the window has grown too long. -/
def pushCheck (check : HealthCheck) (checks : List HealthCheck) : List HealthCheck :=
  let checks := checks ++ [check]
  if historyLimit < checks.length then checks.tail else checks

/-- The counters and derived figures after one more check result. -/
def HealthStats.record (success : Bool) (latency : Rat) (timestamp : Int)
    (stats : HealthStats) : HealthStats :=
  let checks := pushCheck ⟨success, latency, timestamp⟩ stats.checks
  let totalChecks := stats.totalChecks + 1
  let successfulChecks := stats.successfulChecks + if success then 1 else 0
  let successfulRecent := (checks.filter (fun c => c.success)).length
  let totalLatency := (checks.map (fun c => c.latency)).sum
  { checks := checks
    consecutiveFailures := if success then 0 else stats.consecutiveFailures + 1
    consecutiveSuccesses := if success then stats.consecutiveSuccesses + 1 else 0
    totalChecks := totalChecks
    successfulChecks := successfulChecks
    averageLatency := round2 (totalLatency / checks.length)
    uptimePercentage := (jsRound ((successfulChecks : Rat) / totalChecks * 10000) : Rat) / 100
    lastCheckTime := some timestamp
    successRate := some ((successfulRecent : Rat) / checks.length * 100) }

/-- `updateBackendHealthState`: the four rules, in source order. -/
def updateBackendHealthState (stats : HealthStats) (b : Backend) : Backend :=
  if b.adminDisabled then
    { b with healthy := false, status := .unhealthy }
  else if 3 ≤ stats.consecutiveFailures then
    { b with healthy := false, status := .unhealthy }
  else if 2 ≤ stats.consecutiveSuccesses ∧ b.healthy = false then
    { b with healthy := true, status := .healthy }
  else if 0 < stats.consecutiveFailures ∨ (∃ r ∈ stats.successRate, r < 90) then
    { b with status := .degraded, healthy := decide (stats.consecutiveFailures < 3) }
  else
    { b with healthy := true, status := .healthy }

@[simp] theorem id_updateBackendHealthState (stats : HealthStats) (b : Backend) :
    (updateBackendHealthState stats b).id = b.id := by
  simp only [updateBackendHealthState]
  split_ifs <;> rfl

@[simp] theorem adminDisabled_updateBackendHealthState (stats : HealthStats) (b : Backend) :
    (updateBackendHealthState stats b).adminDisabled = b.adminDisabled := by
  simp only [updateBackendHealthState]
  split_ifs <;> rfl

/-- The rules together: whatever the flag was before, a check result leaves it
set exactly when the backend is not disabled and fewer than three failures
came in a row. -/
theorem healthy_updateBackendHealthState (stats : HealthStats) (b : Backend) :
    (updateBackendHealthState stats b).healthy =
      (!b.adminDisabled && decide (stats.consecutiveFailures < 3)) := by
  simp only [updateBackendHealthState]
  by_cases hadmin : b.adminDisabled = true
  · simp [hadmin]
  · by_cases hfail : 3 ≤ stats.consecutiveFailures
    · simp [hadmin, hfail]
    · have hlt : stats.consecutiveFailures < 3 := by omega
      rw [if_neg hadmin, if_neg hfail]
      split_ifs <;> simp [hadmin, hlt]

/-- What the health monitor learns from one check. -/
inductive CheckOutcome where
  | passed (elapsed : Rat)
  | badStatus (status : Nat) (elapsed : Rat)
  | fetchError (isTimeout : Bool) (message : String) (elapsed : Rat)
deriving DecidableEq, Repr

/-- Fields the override route writes to the pool object. -/
def Backend.override (healthy : Bool) (b : Backend) : Backend :=
  { b with
    adminDisabled := !healthy
    healthy := healthy
    status := if healthy then .healthy else .unhealthy }

@[simp] theorem Backend.id_override (healthy : Bool) (b : Backend) :
    (b.override healthy).id = b.id := by
  rfl

/-- Counters the override route writes to the health record. -/
def HealthStats.override (healthy : Bool) (stats : HealthStats) : HealthStats :=
  { stats with
    consecutiveFailures := if healthy then 0 else 3
    consecutiveSuccesses := if healthy then 2 else 0 }

namespace Gateway

/-- Record a health check result. -/
def recordResult (now : Int) (id : String) (success : Bool) (latency : Rat)
    (g : Gateway) : Gateway :=
  match g.stats id with
  | none => g
  | some stats =>
      let stats := stats.record success latency now
      (g.setStats id stats).modifyBackend id (updateBackendHealthState stats)
        (id_updateBackendHealthState stats)

/-- `checkBackend`: the store is updated first, then the breaker. -/
def checkBackend (cfg : Config) (now : Int) (id : String) (outcome : CheckOutcome)
    (g : Gateway) : Gateway :=
  match outcome with
  | .passed elapsed =>
      (g.recordResult now id true elapsed).recordSuccess cfg now id
  | .badStatus status elapsed =>
      (g.recordResult now id false elapsed).recordFailure cfg now id
        ("HTTP " ++ toString status)
  | .fetchError isTimeout message elapsed =>
      (g.recordResult now id false elapsed).recordFailure cfg now id
        (if isTimeout then "Request timeout" else message)

/-- `POST /api/health/:id/override`.  The body field is `none` when it is
missing or not a boolean. -/
def healthOverride (id : String) (healthy : Option Bool) (g : Gateway) :
    Except String Gateway :=
  match healthy with
  | none => .error "Missing or invalid parameter \"healthy\" (must be boolean)"
  | some healthy =>
      match g.pool.find id with
      | none => .error s!"Backend with ID \"{id}\" not found"
      | some _ =>
          let g := g.modifyBackend id (Backend.override healthy) (Backend.id_override healthy)
          match g.stats id with
          | none => .ok g
          | some stats => .ok (g.setStats id (stats.override healthy))

end Gateway

namespace Cell

/-- `recordResult` on one cell. -/
def recordResult (now : Int) (success : Bool) (latency : Rat) (c : Cell) : Cell :=
  let stats := c.stats.record success latency now
  { c with stats := stats, backend := updateBackendHealthState stats c.backend }

/-- The override route on one cell. -/
def override (healthy : Bool) (c : Cell) : Cell :=
  { c with
    backend := c.backend.override healthy
    stats := c.stats.override healthy }

end Cell

namespace Gateway

section HealthMoves

variable {g : Gateway} {id : String} {c : Cell} {cfg : Config} {now : Int}

theorem moves_recordResult (success : Bool) (latency : Rat) (hg : g.Complete) :
    Moves g (g.recordResult now id success latency)
      (onlyAt id (Cell.recordResult now success latency)) := by
  apply Moves.of_self hg
  · simp only [recordResult]
    split
    · rfl
    · simp
  · intro c hc
    obtain ⟨-, -, hst⟩ := cell_eq_some_iff.mp hc
    simp only [recordResult, hst, Cell.recordResult]
    exact cell_modifyBackend_self (id_updateBackendHealthState _) (cell_setStats_self _ hc)
  · intro id' hne
    simp only [recordResult]
    split
    · rfl
    · simp [hne]

/-- A successful override writes one cell; a refused one changes nothing. -/
theorem moves_healthOverride {healthy : Option Bool} {g' : Gateway}
    (hg : g.Complete) (hok : g.healthOverride id healthy = .ok g') :
    ∃ h, healthy = some h ∧ Moves g g' (onlyAt id (Cell.override h)) := by
  cases healthy with
  | none => simp [healthOverride] at hok
  | some h =>
      refine ⟨h, rfl, ?_⟩
      cases hfind : g.pool.find id with
      | none => simp [healthOverride, hfind] at hok
      | some b =>
          have hsome := hg id (by
            rw [← BackendPool.find_isSome_iff, hfind]
            rfl)
          obtain ⟨c₀, hc₀⟩ := Option.isSome_iff_exists.mp hsome
          obtain ⟨-, -, hst⟩ := cell_eq_some_iff.mp hc₀
          have hg' :
              g' = (g.modifyBackend id (Backend.override h)
                (Backend.id_override h)).setStats id (c₀.stats.override h) := by
            simpa [healthOverride, hfind, modifyBackend, hst] using hok.symm
          subst hg'
          apply Moves.of_self hg
          · simp
          · intro c hc
            obtain rfl : c₀ = c := Option.some.inj (hc₀.symm.trans hc)
            exact cell_setStats_self _ (cell_modifyBackend_self _ hc)
          · intro id' hne
            simp [hne]

end HealthMoves

end Gateway

end SentinelADC
