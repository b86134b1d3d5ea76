import SentinelADC.GatewayStep
import SentinelADC.Lib.Hysteresis

/-!
# Runs of health check results

What a sequence of `healthStore.recordResult` calls makes of a backend's flag.
The rules of the store amount to a switch that three failures in a row turn off
and one success turns on.
-/

namespace SentinelADC

open Runs

/-- A call of `recordResult`. -/
structure HealthCall where
  now : Int
  backendId : String
  success : Bool
  latency : Rat
deriving DecidableEq, Repr

namespace HealthCall

/-- The results recorded for one backend, oldest first. -/
def resultsOf (b : String) (calls : List HealthCall) : List Bool :=
  (calls.filter (fun m => m.backendId = b)).map success

end HealthCall

/-- The flag and the counters of a backend as a switch. -/
def Cell.switch (c : Cell) : Switch where
  on := c.backend.healthy
  failures := c.stats.consecutiveFailures
  successes := c.stats.consecutiveSuccesses

namespace Gateway

/-- One call. -/
def record (g : Gateway) (m : HealthCall) : Gateway :=
  g.recordResult m.now m.backendId m.success m.latency

/-- After every call the flag of a backend is that of a switch with the thresholds
three and two. -/
def FollowsSwitch (b : String) (g : Gateway) (calls : List HealthCall) : Prop :=
  ∀ before, before <+: calls →
    ((run record g before).pool.find b).map Backend.healthy =
      some (Switch.after 3 2 (HealthCall.resultsOf b before)).on

section HealthRuns

variable {cfg : Config} {b : String} {g : Gateway} {c : Cell}

/-- Three failures turn the flag off and one success turns it on. -/
theorem switch_recordResult (now : Int) (success : Bool) (latency : Rat)
    (hadmin : c.backend.adminDisabled = false)
    (hflag : c.backend.healthy = decide (c.stats.consecutiveFailures < 3)) :
    (c.recordResult now success latency).switch = c.switch.step 3 1 success := by
  have hhealthy : (c.recordResult now success latency).backend.healthy =
      decide ((c.stats.record success latency now).consecutiveFailures < 3) := by
    simp [Cell.recordResult, healthy_updateBackendHealthState, hadmin]
  rw [Cell.switch, hhealthy]
  cases success with
  | true => simp [Cell.recordResult, Cell.switch, HealthStats.record, Switch.step]
  | false =>
      by_cases hlong : 2 ≤ c.stats.consecutiveFailures
      · simp [Cell.recordResult, Cell.switch, HealthStats.record, Switch.step, hlong]
      · simp [Cell.recordResult, Cell.switch, HealthStats.record, Switch.step, hlong, hflag]
        omega

theorem moves_record (m : HealthCall) (hg : g.Complete) :
    Moves g (g.record m) (onlyAt m.backendId (Cell.recordResult m.now m.success m.latency)) :=
  moves_recordResult m.success m.latency hg

/-- The switch of a backend as a function of its results. -/
theorem switch_run (hboot : Booted cfg g) (hb : b ∈ g.pool.ids) (calls : List HealthCall) :
    (run record g calls).Complete ∧
      ∃ c, (run record g calls).cell b = some c ∧ c.backend.adminDisabled = false ∧
        c.switch = Switch.after 3 1 (HealthCall.resultsOf b calls) := by
  induction calls using List.reverseRecOn with
  | nil =>
      obtain ⟨c, hc⟩ := Option.isSome_iff_exists.mp (hboot.complete b hb)
      obtain ⟨-, -, hstats, hhealthy, -, -, hadmin⟩ := hboot.cell_eq hc
      refine ⟨hboot.complete, c, hc, hadmin, ?_⟩
      simp [Cell.switch, hhealthy, hstats, HealthStats.fresh, HealthCall.resultsOf, Switch.start]
  | append_singleton calls m ih =>
      obtain ⟨hg, c, hc, hadmin, hswitch⟩ := ih
      have hmove := moves_record m hg
      rw [run_append, run_cons, run_nil]
      refine ⟨hmove.complete hg, _, hmove.cell_some hc, ?_⟩
      by_cases hm : m.backendId = b
      · have hflag : c.backend.healthy = decide (c.stats.consecutiveFailures < 3) := by
          have hon := Switch.on_after_one (by decide : 0 < 3) (HealthCall.resultsOf b calls)
          rwa [← hswitch] at hon
        have hresults : HealthCall.resultsOf b (calls ++ [m]) =
            HealthCall.resultsOf b calls ++ [m.success] := by
          simp [HealthCall.resultsOf, hm]
        rw [hm, onlyAt_self, hresults, Switch.after_concat, ← hswitch]
        refine ⟨?_, switch_recordResult m.now m.success m.latency hadmin hflag⟩
        rw [Cell.recordResult, adminDisabled_updateBackendHealthState, hadmin]
      · have hresults : HealthCall.resultsOf b (calls ++ [m]) = HealthCall.resultsOf b calls := by
          simp [HealthCall.resultsOf, hm]
        rw [onlyAt_ne (Ne.symm hm), hresults]
        exact ⟨hadmin, hswitch⟩

/-- A backend with a fresh record goes out of rotation on the third failure in a
row and comes back on the second success in a row, for as long as no success
comes right after three failures. -/
theorem hysteresis_iff (hboot : Booted cfg g) (hb : b ∈ g.pool.ids) (calls : List HealthCall) :
    FollowsSwitch b g calls ↔
      ¬ [false, false, false, true] <:+: HealthCall.resultsOf b calls := by
  have hpattern := Switch.agree_iff (by decide : 0 < 3) (by decide : 1 < 2)
    (HealthCall.resultsOf b calls)
  have hflag : ∀ before, ((run record g before).pool.find b).map Backend.healthy =
      some (Switch.after 3 1 (HealthCall.resultsOf b before)).on := by
    intro before
    obtain ⟨-, c, hc, -, hswitch⟩ := switch_run hboot hb before
    rw [(cell_eq_some_iff.mp hc).1, ← hswitch]
    rfl
  refine Iff.trans ?_ hpattern
  simp only [FollowsSwitch, hflag, Option.some.injEq]
  constructor
  · intro hall results hinit
    obtain ⟨ofBackend, hfilter, rfl⟩ := List.prefix_map_iff.mp hinit
    obtain ⟨before, hbefore, rfl⟩ := List.prefix_filter_iff.mp hfilter
    exact hall before hbefore
  · intro hall before hinit
    exact hall _ ((hinit.filter _).map _)

/-- Three failures, a fourth, and no success until the end. -/
theorem hysteresis_iff_sample :
    FollowsSwitch "backend-1" sampleGateway
      [⟨1, "backend-1", false, 3⟩, ⟨2, "backend-1", true, 4⟩, ⟨3, "backend-1", false, 3⟩,
        ⟨4, "backend-1", false, 3⟩, ⟨4, "backend-2", true, 3⟩, ⟨5, "backend-1", false, 3⟩,
        ⟨6, "backend-1", false, 3⟩] := by
  have hboot : Booted (Config.default (fun _ => 0)) sampleGateway := ⟨0, rfl⟩
  exact (hysteresis_iff hboot (by decide) _).mpr (by decide)

/-- One success brings a backend back after three failures. -/
theorem hysteresis_violated :
    ¬ ∀ (cfg : Config) (b : String) (g : Gateway) (calls : List HealthCall),
      Booted cfg g → b ∈ g.pool.ids → FollowsSwitch b g calls := by
  intro hclaim
  have hflag := hclaim (Config.default (fun _ => 0)) "backend-1" sampleGateway
    [⟨1, "backend-1", false, 3⟩, ⟨2, "backend-1", false, 3⟩, ⟨3, "backend-1", false, 3⟩,
      ⟨4, "backend-1", true, 3⟩] ⟨0, rfl⟩ (by decide) _ List.prefix_rfl
  revert hflag
  decide +kernel

end HealthRuns

end Gateway

end SentinelADC
