import SentinelADC.HealthMonitor
import SentinelADC.HealthFigures
import SentinelADC.BreakerSync
import SentinelADC.DrainTimers
import SentinelADC.HalfOpenProbes

/-!
# How soon the monitor acts

A backend leaves the rotation with the third failed check in a row and comes
back with the first one that passes.  The monitor brings these results in
bounded time, so a failure and a recovery are noticed in bounded time, however
the events of the gateway interleave.
-/

namespace SentinelADC

open Runs

namespace Gateway

/-- Events that speak for a backend: a check that passes, an operator who brings
the backend back, and whatever closes a breaker that is not closed. -/
def speaksFor (cfg : Config) (b : String) (g : Gateway) (e : Event) : Bool :=
  match e.op with
  | .healthCheck id (.passed _) => id = b
  | .healthCheck _ _ => false
  | _ => restoredByHand b e || reinstates cfg b g e

/-- Events that speak against a backend: a check that fails, an answer from 500
on, a connection error, a drain, and an operator who disables the backend. -/
def speaksAgainst (b : String) (g : Gateway) (e : Event) : Bool :=
  match e.op with
  | .healthCheck _ (.passed _) => false
  | .healthCheck id _ => id = b
  | .proxyRes rid status _ => g.awaitsResponse b rid ∧ 500 ≤ status
  | .proxyError rid _ _ _ => g.awaitsError b rid
  | .healthOverride id healthy => id = b ∧ healthy = some false
  | .drain id _ => id = b
  | _ => false

/-- The event is the result of a check of the backend. -/
def checks (b : String) (e : Event) : Bool :=
  match e.op with
  | .healthCheck id _ => id = b
  | _ => false

end Gateway

/-- The operation is no result of a check and puts nothing out of service. -/
def CellOp.spares : CellOp → Bool
  | .recordFailure _ _ => false
  | .recordResult _ _ _ => false
  | .override healthy => healthy
  | .drain _ => false
  | _ => true

namespace Cell

/-- The store has `n` results of failed checks, as far as three of them matter. -/
structure Failing (n : ℕ) (c : Cell) : Prop where
  counted : min n 3 ≤ c.stats.consecutiveFailures
  down : 0 < n → 3 ≤ c.stats.consecutiveFailures → c.backend.healthy = false

/-- In rotation, not draining, and with a closed breaker. -/
structure InService (c : Cell) : Prop where
  healthy : c.backend.healthy = true
  status : c.backend.status ≠ .draining
  closed : c.breaker.state = .closed

/-- Not disabled by hand, and in service once a check has passed. -/
structure Passing (cfg : Config) (n : ℕ) (c : Cell) : Prop where
  adminDisabled : c.backend.adminDisabled = false
  /-- Without circuit breaking no breaker ever opens. -/
  disabled : cfg.enabled = false → c.breaker.state = .closed
  up : 0 < n → c.InService

section Checks

variable {cfg : Config} {c : Cell} {n : ℕ} {now : Int}

/-- One more failed check. -/
theorem Failing.check (h : c.Failing n) (elapsed : Rat) (error : String) :
    ((c.recordResult now false elapsed).recordFailure cfg now error).Failing (n + 1) := by
  have hstats : ((c.recordResult now false elapsed).recordFailure cfg now error).stats =
      (c.recordResult now false elapsed).stats :=
    Gateway.stats_step_of_none (rfl : CellOp.healthEntry? (.recordFailure now error) = none)
  have hcount : (c.recordResult now false elapsed).stats.consecutiveFailures =
      c.stats.consecutiveFailures + 1 := by
    simp [Cell.recordResult, HealthStats.record]
  refine ⟨?_, fun _ hthree => ?_⟩
  · have hcounted := h.counted
    rw [hstats, hcount]
    omega
  · rw [hstats, hcount] at hthree
    have hmany : ¬ c.stats.consecutiveFailures + 1 < 3 := by omega
    simp [healthy_recordFailure, healthy_recordResult, hmany]

/-- Only a drain makes a backend draining. -/
theorem not_draining_step {op : CellOp} (hop : op.spares = true)
    (h : c.backend.status ≠ .draining) :
    (c.step cfg op).backend.status ≠ .draining := by
  have hdrain : ∀ now, op ≠ .drain now := by
    rintro now rfl
    cases hop
  intro hdraining
  exact h (backend_of_draining hdrain hdraining).1

/-- A success closes the breaker, or finds it closed. -/
theorem closed_recordSuccess (hdisabled : cfg.enabled = false → c.breaker.state = .closed) :
    (c.recordSuccess cfg now).breaker.state = .closed := by
  cases hen : cfg.enabled with
  | true => exact state_recordSuccess hen
  | false => exact state_closed_step hen (.recordSuccess now) (hdisabled hen)

/-- A check that passes, of a backend that is not disabled. -/
theorem inService_check (hadmin : c.backend.adminDisabled = false)
    (hdisabled : cfg.enabled = false → c.breaker.state = .closed) (elapsed : Rat) :
    ((c.recordResult now true elapsed).recordSuccess cfg now).InService := by
  have hup : (c.recordResult now true elapsed).backend.healthy = true := by
    simp [healthy_recordResult, hadmin]
  have hstatus : (c.recordResult now true elapsed).backend.status ≠ .draining :=
    not_draining_updateBackendHealthState _ c.backend
  have hkept : ((c.recordResult now true elapsed).step cfg (.recordSuccess now)).backend.status ≠
      .draining :=
    not_draining_step rfl hstatus
  refine ⟨?_, hkept, closed_recordSuccess hdisabled⟩
  rw [healthy_recordSuccess, hup, Bool.true_or]

/-- What keeps a backend in service. -/
theorem InService.step {op : CellOp} (h : c.InService) (hop : op.spares = true) :
    (c.step cfg op).InService := by
  have hstatus : (c.step cfg op).backend.status ≠ .draining := not_draining_step hop h.status
  cases op with
  | consult now =>
      rcases consult_cases cfg now c with hc | ⟨-, hs, -⟩ | ⟨-, hs, -⟩
      · rw [Cell.step, hc]
        exact h
      · simp [h.closed] at hs
      · simp [h.closed] at hs
  | recordSuccess now =>
      refine ⟨?_, hstatus, closed_recordSuccess (fun _ => h.closed)⟩
      rw [Cell.step, healthy_recordSuccess, h.healthy, Bool.true_or]
  | recordFailure now error => cases hop
  | resetBreaker now =>
      refine ⟨?_, hstatus, state_resetBreaker⟩
      rw [Cell.step, healthy_resetBreaker, h.healthy, Bool.true_or]
  | recordResult now success latency => cases hop
  | override healthy =>
      obtain rfl : healthy = true := hop
      exact ⟨rfl, hstatus, h.closed⟩
  | setWeight weight => exact ⟨h.healthy, hstatus, h.closed⟩
  | drain now => cases hop
  | drainDeadline =>
      -- the deadline finds nothing to finish
      rw [Cell.step, drainDeadline, if_neg h.status]
      exact h
  | undrain => exact ⟨rfl, hstatus, h.closed⟩
  | connect => exact ⟨h.healthy, hstatus, h.closed⟩
  | disconnect =>
      have hidle : c.backend.disconnect.status ≠ .draining := h.status
      simp only [Cell.step, disconnect, hidle, and_false, if_false]
      exact ⟨h.healthy, h.status, h.closed⟩

theorem Passing.step {op : CellOp} (h : c.Passing cfg n) (hop : op.spares = true) :
    (c.step cfg op).Passing cfg n := by
  refine ⟨?_, fun hen => state_closed_step hen op (h.disabled hen), fun hn => (h.up hn).step hop⟩
  cases op with
  | override healthy =>
      obtain rfl : healthy = true := hop
      rfl
  | _ => rw [Gateway.adminDisabled_step (by simp), h.adminDisabled]

end Checks

end Cell

namespace Gateway

section Events

variable {cfg : Config} {g : Gateway} {b : String} {c : Cell} {n : ℕ} {e : Event}

/-- Checks apart, whatever puts a backend back into rotation speaks for it. -/
theorem speaksFor_of_not_checks (hcheck : checks b e = false) :
    speaksFor cfg b g e = (restoredByHand b e || reinstates cfg b g e) := by
  obtain ⟨now, op⟩ := e
  cases op with
  | healthCheck id outcome =>
      have hid : id ≠ b := by simpa [checks] using hcheck
      cases outcome <;> simp [speaksFor, restoredByHand, reinstates, hid]
  | _ => rfl

theorem effects_healthCheck (now : Int) (outcome : CheckOutcome) :
    effects cfg g ⟨now, .healthCheck b outcome⟩ b = checkOps now outcome :=
  opsAt_self b _

theorem healthEntry_eq_none (hcheck : checks b e = false)
    (hoverride : e.op ≠ .healthOverride b (some false)) (he : speaksFor cfg b g e = false) :
    e.healthEntry? b = none := by
  obtain ⟨now, op⟩ := e
  cases op with
  | healthCheck id outcome => simp_all [checks, Event.healthEntry?]
  | healthOverride id healthy =>
      cases healthy with
      | none => rfl
      | some healthy =>
          have hne : id ≠ b := by
            rintro rfl
            cases healthy with
            | true => simp [speaksFor, restoredByHand] at he
            | false => exact hoverride rfl
          simp [hne, Event.healthEntry?]
  | _ => rfl

/-- Without events that speak for it, the failed checks of a backend add up. -/
theorem failing_effects (hc : g.cell b = some c) (h : c.Failing n)
    (he : speaksFor cfg b g e = false) :
    (run (Cell.step cfg) c (effects cfg g e b)).Failing
      (n + if checks b e then 1 else 0) := by
  cases hcheck : checks b e with
  | true =>
      obtain ⟨now, op⟩ := e
      cases op with
      | healthCheck id outcome =>
          obtain rfl : id = b := by simpa [checks] using hcheck
          rw [effects_healthCheck, if_pos rfl]
          cases outcome with
          | passed elapsed => simp [speaksFor] at he
          | badStatus status elapsed => exact h.check elapsed _
          | fetchError isTimeout message elapsed => exact h.check elapsed _
      | _ => simp [checks] at hcheck
  | false =>
      rw [if_neg Bool.false_ne_true, Nat.add_zero]
      by_cases hoverride : e.op = .healthOverride b (some false)
      · have heffects : effects cfg g e b = [.override false] := by
          simp [effects, hoverride]
        rw [heffects]
        exact ⟨by simp [Cell.step, Cell.override, HealthStats.override], fun _ _ => rfl⟩
      · have hsame : (run (Cell.step cfg) c (effects cfg g e b)).stats = c.stats :=
          stats_effects_of_none (healthEntry_eq_none hcheck hoverride he)
        refine ⟨by rw [hsame]; exact h.counted, fun hn hthree => ?_⟩
        rw [hsame] at hthree
        rw [speaksFor_of_not_checks hcheck, Bool.or_eq_false_iff] at he
        have hflag := healthy_effects cfg e hc (h.down hn hthree)
        simpa [he.1, he.2] using hflag

/-- What does not speak against a backend spares it. -/
theorem spares_of_mem_effects {op : CellOp} (hcheck : checks b e = false)
    (he : speaksAgainst b g e = false) (hop : op ∈ effects cfg g e b) :
    op.spares = true := by
  have hother : ∀ outcome, e.op ≠ .healthCheck b outcome := by
    intro outcome heop
    simp [checks, heop] at hcheck
  have hcause := causes_of_mem_effects hop
  cases op with
  | recordFailure now error =>
      obtain ⟨-, ⟨status, elapsed, heop⟩ | ⟨isTimeout, message, elapsed, heop⟩ |
        ⟨rid, status, latency, heop, hawaits, hstatus⟩ |
        ⟨rid, err, latency, random, heop, hawaits⟩⟩ := hcause
      · exact absurd heop (hother _)
      · exact absurd heop (hother _)
      · simp [speaksAgainst, heop, hawaits, hstatus] at he
      · simp [speaksAgainst, heop, hawaits] at he
  | recordResult now success latency =>
      obtain ⟨-, outcome, heop⟩ := hcause
      exact absurd heop (hother outcome)
  | override healthy =>
      cases healthy with
      | true => rfl
      | false =>
          have heop : e.op = .healthOverride b (some false) := hcause
          simp [speaksAgainst, heop] at he
  | drain now =>
      obtain ⟨-, timeoutSec, heop⟩ := hcause
      simp [speaksAgainst, heop] at he
  | _ => rfl

/-- Without events that speak against it, a backend stays in service from the
first check that passes. -/
theorem passing_effects (h : c.Passing cfg n) (he : speaksAgainst b g e = false) :
    (run (Cell.step cfg) c (effects cfg g e b)).Passing cfg
      (n + if checks b e then 1 else 0) := by
  cases hcheck : checks b e with
  | true =>
      obtain ⟨now, op⟩ := e
      cases op with
      | healthCheck id outcome =>
          obtain rfl : id = b := by simpa [checks] using hcheck
          rw [effects_healthCheck, if_pos rfl]
          cases outcome with
          | passed elapsed =>
              refine ⟨?_, fun hen => ?_,
                fun _ => Cell.inService_check h.adminDisabled (fun hen => h.disabled hen) elapsed⟩
              · rw [adminDisabled_run (by simp [checkOps]), h.adminDisabled]
              · exact run_preserves (P := fun c : Cell => c.breaker.state = .closed)
                  (h.disabled hen) (fun op _ _ hc => Cell.state_closed_step hen op hc)
          | badStatus status elapsed => simp [speaksAgainst] at he
          | fetchError isTimeout message elapsed => simp [speaksAgainst] at he
      | _ => simp [checks] at hcheck
  | false =>
      rw [if_neg Bool.false_ne_true, Nat.add_zero]
      refine run_preserves (P := fun c' : Cell => c'.Passing cfg n) h ?_
      intro op hop c' hc'
      exact hc'.step (spares_of_mem_effects hcheck he hop)

end Events

end Gateway

namespace HealthMonitor

section Detection

variable {settings : HealthSettings} {cfg : Config} {lag : ℕ} {b : String} {m : HealthMonitor}
  {e : MonitorEvent} {since now : Int}

/-- A check that ends is a result for the gateway. -/
theorem ended_eq :
    (HealthMonitor.checksOf b).ended m e =
      (m.gatewayEvent? e).elim 0 (fun event => if Gateway.checks b event then 1 else 0) := by
  obtain ⟨now, op⟩ := e
  cases op with
  | checkEnds check outcome =>
      by_cases hmem : check ∈ m.checks <;>
        simp [HealthMonitor.checksOf, endsCheckOf, gatewayEvent?, Gateway.checks, hmem]
  | gateway op =>
      have hother : Gateway.checks b ⟨now, op.val⟩ = false := by
        obtain ⟨op, hop⟩ := op
        cases op with
        | healthCheck id outcome => simp [Op.isHealthCheck] at hop
        | _ => rfl
      simp [HealthMonitor.checksOf, endsCheckOf, gatewayEvent?, hother]
  | _ => rfl

/-- What single events do to a cell, by the number of checks so far, a run of
the monitor does by the number of checks that have ended. -/
theorem cells_run {P : ℕ → Cell → Prop} {Q : Gateway → Event → Prop}
    (hstep : ∀ g event c n, g.cell b = some c → Q g event → P n c →
      P (n + if Gateway.checks b event then 1 else 0)
        (run (Cell.step cfg) c (Gateway.effects cfg g event b)))
    {es : List MonitorEvent} {n : ℕ} {c : Cell} (hm : m.Has b) (hc : m.gateway.cell b = some c)
    (hP : P n c)
    (hQ : EachStep (step settings cfg)
      (fun m e => ∀ event ∈ m.gatewayEvent? e, Q m.gateway event) m es) :
    ∃ c', (run (step settings cfg) m es).gateway.cell b = some c' ∧
      P (n + cost (step settings cfg) (HealthMonitor.checksOf b).ended m es) c' := by
  induction es generalizing m n c with
  | nil => exact ⟨c, hc, hP⟩
  | cons e es ih =>
      have hnext : ∃ c', (m.step settings cfg e).gateway.cell b = some c' ∧
          P (n + (HealthMonitor.checksOf b).ended m e) c' := by
        rw [gateway_step, ended_eq]
        cases hevent : m.gatewayEvent? e with
        | none => exact ⟨c, hc, hP⟩
        | some event =>
            exact ⟨_, Gateway.cell_step cfg event hm.1 hc,
              hstep m.gateway event c n hc (hQ.1 event hevent) hP⟩
      obtain ⟨c', hc', hP'⟩ := hnext
      obtain ⟨last, hlast, hPlast⟩ := ih (hm.step settings cfg e) hc' hP' hQ.2
      refine ⟨last, hlast, ?_⟩
      rw [cost, ← Nat.add_assoc]
      exact hPlast

/-- The interval is due within one interval. -/
theorem due_step (h : ∀ due ∈ m.intervalId, due ≤ since + timerDelay settings.interval)
    (he : e.now ≤ since) :
    ∀ due ∈ (m.step settings cfg e).intervalId, due ≤ since + timerDelay settings.interval := by
  have hwait : ∀ due ∈ (m.checkAndWait settings e.now).intervalId,
      due ≤ since + timerDelay settings.interval := by
    intro due hdue
    have heq : e.now + timerDelay settings.interval = due := Option.some.inj hdue
    omega
  obtain ⟨now, op⟩ := e
  cases op with
  | start =>
      simp only [step, start]
      split_ifs
      · exact h
      · exact hwait
  | stop => simp [step, stop]
  | interval =>
      simp only [step, runInterval]
      split
      · exact h
      · split_ifs
        · exact hwait
        · exact h
  | checkEnds check outcome => exact h
  | gateway op => exact h

/-- A run from start-up in which the monitor is running at the time `since` and
goes on without being late until `now`. -/
structure Watched (settings : HealthSettings) (cfg : Config) (lag : ℕ) (since now : Int)
    (start : HealthMonitor) (before after : List MonitorEvent) : Prop where
  booted : start.Booted cfg
  earlier : ∀ e ∈ before, e.now ≤ since
  running : (run (step settings cfg) start before).intervalId.isSome
  going : ∀ e ∈ after, e.op ≠ .stop
  punctual : EachStep (step settings cfg) (fun m e => m.Punctual settings lag e.now)
    (run (step settings cfg) start before) after
  current : (run (step settings cfg) start (before ++ after)).Punctual settings lag now

variable {start : HealthMonitor} {before after : List MonitorEvent}

theorem has_run (h : m.Has b) (es : List MonitorEvent) :
    (run (step settings cfg) m es).Has b :=
  run_preserves h (fun e _ _ h => h.step settings cfg e)

theorem reachable_run (h : Gateway.Reachable cfg m.gateway) (es : List MonitorEvent) :
    Gateway.Reachable cfg (run (step settings cfg) m es).gateway := by
  refine run_preserves (P := fun m : HealthMonitor => Gateway.Reachable cfg m.gateway) h ?_
  intro e _ m hm
  rw [gateway_step]
  cases m.gatewayEvent? e with
  | none => exact hm
  | some event => exact hm.run_step [event]

/-- The results of so many checks arrive in time. -/
theorem Watched.reported (count : ℕ) (h : Watched settings cfg lag since now start before after)
    (hb : b ∈ start.gateway.pool.ids)
    (hnow : since + count * (timerDelay settings.interval + lag) + timerDelay settings.timeout +
      lag < now) :
    count ≤ cost (step settings cfg) (HealthMonitor.checksOf b).ended
      (run (step settings cfg) start before) after := by
  have hhas : start.Has b := ⟨h.booted.gateway.complete, hb⟩
  obtain ⟨due, hdue⟩ := Option.isSome_iff_exists.mp h.running
  have hwithin : ∀ due ∈ (run (step settings cfg) start before).intervalId,
      due ≤ since + timerDelay settings.interval := by
    refine run_preserves (P := fun m : HealthMonitor => ∀ due ∈ m.intervalId,
      due ≤ since + timerDelay settings.interval) ?_ (fun e he _ hm => due_step hm (h.earlier e he))
    simp [h.booted.intervalId]
  have hend := h.current
  rw [run_append] at hend
  exact checks_reported (has_run hhas before) ⟨due, hdue, hwithin due hdue⟩ h.going h.punctual
    hend hnow

/-- One backend right after start-up. -/
def sampleConfig : Config :=
  { Config.default (fun _ => 0) with backends := ["http://localhost:4001"] }

def sampleMonitor : HealthMonitor :=
  ⟨Gateway.initial sampleConfig 0 .roundRobin, none, []⟩

/-- Some rounds of checks with the default settings and one outcome. -/
def checkRounds (rounds : ℕ) (outcome : CheckOutcome) : List MonitorEvent :=
  (List.range rounds).flatMap (fun i =>
    [⟨5000 * i + 10, .checkEnds ⟨"backend-1", 5000 * i⟩ outcome⟩, ⟨5000 * (i + 1), .interval⟩])

theorem ne_stop_of_mem_checkRounds {rounds : ℕ} {outcome : CheckOutcome} :
    ∀ e ∈ checkRounds rounds outcome, e.op ≠ .stop := by
  intro e he
  obtain ⟨i, -, hi⟩ := List.mem_flatMap.mp he
  simp only [List.mem_cons, List.not_mem_nil, or_false] at hi
  rcases hi with rfl | rfl <;> simp

/-- A backend for which nothing speaks any more is out of rotation after three
intervals and one timeout, and no request is sent to it. -/
theorem failing_backend_leaves (h : Watched settings cfg lag since now start before after)
    (hb : b ∈ start.gateway.pool.ids)
    (hfailing : EachStep (step settings cfg)
      (fun m e => ∀ event ∈ m.gatewayEvent? e, m.gateway.speaksFor cfg b event = false)
      (run (step settings cfg) start before) after)
    (hnow : since + 3 * (timerDelay settings.interval + lag) + timerDelay settings.timeout + lag <
      now) :
    Gateway.OutOfRotation cfg b (run (step settings cfg) start (before ++ after)).gateway := by
  have hhas : (run (step settings cfg) start before).Has b :=
    has_run ⟨h.booted.gateway.complete, hb⟩ before
  have hlast : (run (step settings cfg) start (before ++ after)).Has b :=
    has_run ⟨h.booted.gateway.complete, hb⟩ (before ++ after)
  have hmany := h.reported 3 hb hnow
  obtain ⟨c, hc⟩ := Option.isSome_iff_exists.mp (hhas.1 b hhas.2)
  have hstart : c.Failing 0 := ⟨by simp, by simp⟩
  obtain ⟨c', hc', hfail⟩ := cells_run (P := Cell.Failing)
    (fun g event c n hcell hquiet hP => Gateway.failing_effects hcell hP hquiet) hhas hc hstart
    hfailing
  rw [run_append] at hlast ⊢
  have hcount := hfail.counted
  have hdown : c'.backend.healthy = false := hfail.down (by omega) (by omega)
  exact (Gateway.outOfRotation_iff hlast.1).mpr ⟨c', hc', hdown⟩

/-- A backend that is down from the start. -/
theorem failing_backend_leaves_sample :
    Gateway.OutOfRotation sampleConfig "backend-1"
      (run (step HealthSettings.default sampleConfig) sampleMonitor
        ([⟨0, .start⟩] ++ checkRounds 4 (.badStatus 503 10))).gateway := by
  have hwatched : Watched HealthSettings.default sampleConfig 0 0 20001 sampleMonitor [⟨0, .start⟩]
      (checkRounds 4 (.badStatus 503 10)) :=
    { booted := ⟨⟨0, rfl⟩, rfl, rfl⟩
      earlier := by simp
      running := rfl
      going := ne_stop_of_mem_checkRounds
      punctual := by decide
      current := by decide }
  exact failing_backend_leaves hwatched (by decide) (by decide) (by decide)

/-- A backend against which nothing speaks any more is in rotation after one
interval and one timeout, unless it is disabled by hand. -/
theorem working_backend_returns (h : Watched settings cfg lag since now start before after)
    (hb : b ∈ start.gateway.pool.ids)
    (henabled : ∀ backend ∈ (run (step settings cfg) start before).gateway.pool.find b,
      backend.adminDisabled = false)
    (hworking : EachStep (step settings cfg)
      (fun m e => ∀ event ∈ m.gatewayEvent? e, m.gateway.speaksAgainst b event = false)
      (run (step settings cfg) start before) after)
    (hnow : since + (timerDelay settings.interval + lag) + timerDelay settings.timeout + lag <
      now) :
    ∃ c, (run (step settings cfg) start (before ++ after)).gateway.cell b = some c ∧
      c.InService := by
  have hhas : (run (step settings cfg) start before).Has b :=
    has_run ⟨h.booted.gateway.complete, hb⟩ before
  have hone := h.reported 1 hb (by omega)
  obtain ⟨c, hc⟩ := Option.isSome_iff_exists.mp (hhas.1 b hhas.2)
  have hstart : c.Passing cfg 0 :=
    ⟨henabled c.backend (Gateway.cell_eq_some_iff.mp hc).1,
      fun hen => (reachable_run (.start h.booted.gateway) before).closed_of_disabled hen hc,
      by simp⟩
  obtain ⟨c', hc', hpass⟩ := cells_run (P := Cell.Passing cfg)
    (fun g event c n _ hquiet hP => Gateway.passing_effects hP hquiet) hhas hc hstart hworking
  rw [run_append]
  exact ⟨c', hc', hpass.up (by omega)⟩

/-- A backend that works from the start. -/
theorem working_backend_returns_sample :
    ∃ c, (run (step HealthSettings.default sampleConfig) sampleMonitor
        ([⟨0, .start⟩] ++ checkRounds 2 (.passed 10))).gateway.cell "backend-1" = some c ∧
      c.InService := by
  have hwatched : Watched HealthSettings.default sampleConfig 0 0 10001 sampleMonitor [⟨0, .start⟩]
      (checkRounds 2 (.passed 10)) :=
    { booted := ⟨⟨0, rfl⟩, rfl, rfl⟩
      earlier := by simp
      running := rfl
      going := ne_stop_of_mem_checkRounds
      punctual := by decide +kernel
      current := by decide +kernel }
  exact working_backend_returns hwatched (by decide) (by decide) (by decide +kernel) (by decide)

end Detection

end HealthMonitor

end SentinelADC
