import SentinelADC.GatewayStep
import SentinelADC.Figures
import SentinelADC.Lib.CappedList

/-!
# Figures of the health store

`health/healthStore.js` updates its figures with every check result: averages
over the last twenty results, an uptime over all of them, and two counters that
an override by hand sets.  After any run of the gateway the record of a backend
is a closed form of the results and overrides of that backend, and nothing else
that happens leaves a trace in it.
-/

namespace SentinelADC

open Runs

/-- What the health store is told about a backend. -/
inductive HealthEntry where
  | result (check : HealthCheck)
  | override (healthy : Bool)
deriving DecidableEq, Repr

namespace HealthEntry

/-- The check result of an entry. -/
def check? : HealthEntry → Option HealthCheck
  | .result check => some check
  | .override _ => none

/-- Failures and successes in a row, after one more entry. -/
def count (streaks : Nat × Nat) : HealthEntry → Nat × Nat
  | .result check => if check.success then (0, streaks.2 + 1) else (streaks.1 + 1, 0)
  | .override healthy => if healthy then (0, 2) else (3, 0)

/-- The check results among some entries. -/
def checks (entries : List HealthEntry) : List HealthCheck :=
  entries.filterMap check?

theorem checks_concat (entries : List HealthEntry) (entry : HealthEntry) :
    checks (entries ++ [entry]) = checks entries ++ entry.check?.toList := by
  rw [checks, checks, List.filterMap_append, List.filterMap_cons, List.filterMap_nil]
  cases entry <;> rfl

end HealthEntry

/-- What a cell operation tells the health store. -/
def CellOp.healthEntry? : CellOp → Option HealthEntry
  | .recordResult now success latency => some (.result ⟨success, latency, now⟩)
  | .override healthy => some (.override healthy)
  | _ => none

/-- The check result that the health store records for an outcome. -/
def CheckOutcome.check (now : Int) : CheckOutcome → HealthCheck
  | .passed elapsed => ⟨true, elapsed, now⟩
  | .badStatus _ elapsed => ⟨false, elapsed, now⟩
  | .fetchError _ _ elapsed => ⟨false, elapsed, now⟩

/-- What an event tells the health store about a backend. -/
def Event.healthEntry? (b : String) (e : Event) : Option HealthEntry :=
  match e.op with
  | .healthCheck id outcome => if id = b then some (.result (outcome.check e.now)) else none
  | .healthOverride id (some healthy) => if id = b then some (.override healthy) else none
  | _ => none

namespace HealthStats

/-- The record of a backend by what the store was told about it. -/
def ofEntries (entries : List HealthEntry) : HealthStats :=
  let all := HealthEntry.checks entries
  let latest := all.rtake historyLimit
  let streaks := entries.foldl HealthEntry.count (0, 0)
  { checks := latest
    consecutiveFailures := streaks.1
    consecutiveSuccesses := streaks.2
    totalChecks := all.length
    successfulChecks := all.countP HealthCheck.success
    averageLatency :=
      if all = [] then 0
      else round2 ((latest.map HealthCheck.latency).sum / latest.length)
    uptimePercentage :=
      if all = [] then 100
      else round2 ((all.countP HealthCheck.success : Rat) / all.length * 100)
    lastCheckTime := all.getLast?.map HealthCheck.timestamp
    successRate :=
      if all = [] then none
      else some ((latest.countP HealthCheck.success : Rat) / latest.length * 100) }

/-- One more result. -/
theorem record_ofEntries (entries : List HealthEntry) (check : HealthCheck) :
    (ofEntries entries).record check.success check.latency check.timestamp =
      ofEntries (entries ++ [.result check]) := by
  have hchecks : HealthEntry.checks (entries ++ [.result check]) =
      HealthEntry.checks entries ++ [check] :=
    HealthEntry.checks_concat entries _
  have hlatest : pushCheck check ((HealthEntry.checks entries).rtake historyLimit) =
      (HealthEntry.checks entries ++ [check]).rtake historyLimit :=
    pushCapped_rtake (by decide) _ _
  have hcount : (HealthEntry.checks entries ++ [check]).countP HealthCheck.success =
      (HealthEntry.checks entries).countP HealthCheck.success +
        if check.success then 1 else 0 := by
    rw [List.countP_append, List.countP_singleton]
  simp only [record, ofEntries, hchecks, hlatest, hcount, List.foldl_append, List.foldl_cons,
    List.foldl_nil, HealthEntry.count, List.append_eq_nil_iff, List.cons_ne_nil, and_false,
    if_false, List.length_append, List.length_singleton, List.getLast?_concat, Option.map_some,
    percentage_eq_round2, ← List.countP_eq_length_filter]
  cases check.success <;> rfl

/-- One more override. -/
theorem override_ofEntries (entries : List HealthEntry) (healthy : Bool) :
    (ofEntries entries).override healthy = ofEntries (entries ++ [.override healthy]) := by
  have hchecks : HealthEntry.checks (entries ++ [.override healthy]) =
      HealthEntry.checks entries := by
    rw [HealthEntry.checks_concat]
    exact List.append_nil _
  simp only [override, ofEntries, hchecks, List.foldl_append, List.foldl_cons, List.foldl_nil,
    HealthEntry.count]
  cases healthy <;> rfl

end HealthStats

namespace Gateway

section HealthFigures

variable {cfg : Config} {g : Gateway} {b : String} {c : Cell}

/-- An operation that tells the store nothing leaves the record alone. -/
theorem stats_step_of_none {op : CellOp} (hop : op.healthEntry? = none) :
    (c.step cfg op).stats = c.stats := by
  cases op with
  | recordResult now success latency => simp [CellOp.healthEntry?] at hop
  | override healthy => simp [CellOp.healthEntry?] at hop
  | consult now =>
      rcases Cell.consult_cases cfg now c with hc | ⟨-, -, hc⟩ | ⟨-, -, hc⟩ <;>
        rw [Cell.step, hc]
      · rfl
      · rfl
  | recordSuccess now =>
      simp only [Cell.step, Cell.recordSuccess, Cell.transitionTo]
      split_ifs <;> rfl
  | recordFailure now error =>
      simp only [Cell.step, Cell.recordFailure, Cell.transitionTo]
      split_ifs <;> rfl
  | resetBreaker now =>
      simp only [Cell.step, Cell.resetBreaker, Cell.transitionTo]
      split_ifs <;> rfl
  | drain now =>
      simp only [Cell.step, Cell.drain]
      split_ifs <;> rfl
  | drainDeadline =>
      simp only [Cell.step, Cell.drainDeadline]
      split_ifs <;> rfl
  | disconnect =>
      simp only [Cell.step, Cell.disconnect]
      split_ifs <;> rfl
  | setWeight weight => rfl
  | undrain => rfl
  | connect => rfl

/-- Results and overrides are all that reaches the record. -/
theorem stats_step {entries : List HealthEntry} (op : CellOp)
    (h : c.stats = HealthStats.ofEntries entries) :
    (c.step cfg op).stats = HealthStats.ofEntries (entries ++ op.healthEntry?.toList) := by
  cases op with
  | recordResult now success latency =>
      have hrecord := HealthStats.record_ofEntries entries ⟨success, latency, now⟩
      rw [← h] at hrecord
      exact hrecord
  | override healthy =>
      have hoverride := HealthStats.override_ofEntries entries healthy
      rw [← h] at hoverride
      exact hoverride
  | _ =>
      rw [stats_step_of_none rfl, h]
      exact congrArg HealthStats.ofEntries (List.append_nil entries).symm

theorem stats_run (cfg : Config) {entries : List HealthEntry} (ops : List CellOp)
    (h : c.stats = HealthStats.ofEntries entries) :
    (run (Cell.step cfg) c ops).stats =
      HealthStats.ofEntries (entries ++ ops.filterMap CellOp.healthEntry?) := by
  induction ops generalizing c entries with
  | nil => simpa using h
  | cons op ops ih =>
      rw [run_cons, ih (stats_step op h), List.append_assoc]
      congr 2
      rw [List.filterMap_cons]
      cases op.healthEntry? <;> rfl

/-- What an event makes a backend's operations tell the store. -/
theorem healthEntries_effects (cfg : Config) (g : Gateway) (b : String) (e : Event) :
    (effects cfg g e b).filterMap CellOp.healthEntry? = (e.healthEntry? b).toList := by
  have hnone : (∀ outcome, e.op ≠ .healthCheck b outcome) →
      (∀ healthy, e.op ≠ .healthOverride b (some healthy)) →
      (effects cfg g e b).filterMap CellOp.healthEntry? = [] := by
    intro hcheck hoverride
    rw [List.filterMap_eq_nil_iff]
    intro op hop
    have hcause := causes_of_mem_effects hop
    cases op with
    | recordResult now success latency =>
        obtain ⟨-, outcome, heq⟩ := hcause
        exact absurd heq (hcheck outcome)
    | override healthy => exact absurd hcause (hoverride healthy)
    | _ => rfl
  obtain ⟨now, op⟩ := e
  cases op with
  | healthCheck id outcome =>
      by_cases hid : id = b
      · subst hid
        cases outcome <;>
          simp [effects, checkOps, Event.healthEntry?, CellOp.healthEntry?, CheckOutcome.check]
      · rw [hnone (by simp [hid]) (by simp)]
        simp [Event.healthEntry?, hid]
  | healthOverride id healthy =>
      cases healthy with
      | none => rfl
      | some healthy =>
          by_cases hid : id = b
          · subst hid
            simp [effects, Event.healthEntry?, CellOp.healthEntry?]
          · rw [hnone (by simp) (by simp [hid])]
            simp [Event.healthEntry?, hid]
  | _ => exact hnone (by simp) (by simp)

theorem stats_effects_of_none {e : Event} (he : e.healthEntry? b = none) :
    (run (Cell.step cfg) c (effects cfg g e b)).stats = c.stats := by
  have hnone := healthEntries_effects cfg g b e
  rw [he, Option.toList_none, List.filterMap_eq_nil_iff] at hnone
  refine run_preserves (P := fun c' : Cell => c'.stats = c.stats) rfl ?_
  intro op hop c' hc'
  rw [stats_step_of_none (hnone op hop), hc']

/-- The record of a backend after any run is the closed form of the check results
and overrides of that backend. -/
theorem health_figures_exact (h : Booted cfg g) (hb : b ∈ g.pool.ids) (es : List Event) :
    (run (step cfg) g es).stats b =
      some (HealthStats.ofEntries (es.filterMap (Event.healthEntry? b))) := by
  have hrun : ∀ (es : List Event) (g : Gateway) (c : Cell) (entries : List HealthEntry),
      g.Complete → g.cell b = some c → c.stats = HealthStats.ofEntries entries →
      (run (step cfg) g es).stats b =
        some (HealthStats.ofEntries (entries ++ es.filterMap (Event.healthEntry? b))) := by
    intro es
    induction es with
    | nil =>
        intro g c entries _ hc hstats
        rw [run_nil, (cell_eq_some_iff.mp hc).2.2, hstats, List.filterMap_nil, List.append_nil]
    | cons e es ih =>
        intro g c entries hg hc hstats
        have hcell := cell_step cfg e hg hc
        have hentries := stats_run cfg (effects cfg g e b) hstats
        rw [healthEntries_effects] at hentries
        rw [run_cons, ih _ _ _ (complete_step e hg) hcell hentries, List.append_assoc]
        congr 3
        rw [List.filterMap_cons]
        cases e.healthEntry? b <;> rfl
  obtain ⟨c, hc⟩ := Option.isSome_iff_exists.mp (h.complete b hb)
  obtain ⟨-, -, hstats, -⟩ := h.cell_eq hc
  exact hrun es g c [] h.complete hc hstats

/-- Two checks of one backend around a failed request and an override of another. -/
theorem health_figures_exact_sample :
    (run (step (Config.default (fun _ => 0))) sampleGateway
        ([⟨1, .healthCheck "backend-1" (.passed 4)⟩] ++ answeredRequests 1 2 500 ++
          [⟨3, .healthOverride "backend-2" (some false)⟩,
            ⟨4, .healthCheck "backend-1" (.badStatus 503 8)⟩])).stats "backend-1" =
      some (HealthStats.ofEntries [.result ⟨true, 4, 1⟩, .result ⟨false, 8, 4⟩]) := by
  have hboot : Booted (Config.default (fun _ => 0)) sampleGateway := ⟨0, rfl⟩
  exact health_figures_exact hboot (by decide) _

end HealthFigures

end Gateway

end SentinelADC
