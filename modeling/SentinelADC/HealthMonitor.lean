import SentinelADC.GatewayStep
import SentinelADC.Lib.Periodic

/-!
# Health monitor

`health/healthMonitor.js` with its timers.  An interval starts one check of
every backend.  A check ends when its request is answered or fails, at the
latest soon after the timeout has aborted it, and its result goes to the health
store and the circuit breaker.  How late the event loop runs what is due is a
parameter of the results.
-/

namespace SentinelADC

open Runs

/-- `config.health`, as far as the monitor uses it. -/
structure HealthSettings where
  interval : Int
  timeout : Int
deriving DecidableEq, Repr

/-- The defaults of `config/index.js`. -/
def HealthSettings.default : HealthSettings where
  interval := 5000
  timeout := 3000

/-- A call of `checkBackend` that waits for its request. -/
structure PendingCheck where
  backendId : String
  startTime : Int
deriving DecidableEq, Repr

/-- The gateway with its health monitor. -/
structure HealthMonitor where
  gateway : Gateway
  /-- When the interval is due, if it is set. -/
  intervalId : Option Int
  checks : List PendingCheck

/-- The operation is a result of a check. -/
def Op.isHealthCheck : Op → Bool
  | .healthCheck _ _ => true
  | _ => false

/-- What can happen to the gateway and its monitor. -/
inductive MonitorOp where
  | start
  | stop
  /-- The callback of the interval. -/
  | interval
  /-- The request of a check is answered, fails or is aborted. -/
  | checkEnds (check : PendingCheck) (outcome : CheckOutcome)
  /-- Anything else. -/
  | gateway (op : { op : Op // op.isHealthCheck = false })

/-- An operation and the time at which it happens. -/
structure MonitorEvent where
  now : Int
  op : MonitorOp

namespace HealthMonitor

/-- `checkAll`, up to the requests that it sends. -/
def checkAll (now : Int) (m : HealthMonitor) : HealthMonitor :=
  { m with checks := m.checks ++ m.gateway.pool.ids.map (fun id => ⟨id, now⟩) }

/-- `checkAll` with the interval set from now on. -/
def checkAndWait (settings : HealthSettings) (now : Int) (m : HealthMonitor) : HealthMonitor :=
  { m.checkAll now with intervalId := some (now + timerDelay settings.interval) }

/-- `start`. -/
def start (settings : HealthSettings) (now : Int) (m : HealthMonitor) : HealthMonitor :=
  if m.intervalId.isSome then m else m.checkAndWait settings now

/-- `stop`. -/
def stop (m : HealthMonitor) : HealthMonitor :=
  { m with intervalId := none }

/-- The interval runs when it is due; the next one counts from then. -/
def runInterval (settings : HealthSettings) (now : Int) (m : HealthMonitor) : HealthMonitor :=
  match m.intervalId with
  | none => m
  | some due => if due ≤ now then m.checkAndWait settings now else m

/-- What an event is to the gateway behind the monitor. -/
def gatewayEvent? (e : MonitorEvent) (m : HealthMonitor) : Option Event :=
  match e.op with
  | .checkEnds check outcome =>
      if check ∈ m.checks then some ⟨e.now, .healthCheck check.backendId outcome⟩ else none
  | .gateway op => some ⟨e.now, op⟩
  | _ => none

/-- One event. -/
def step (settings : HealthSettings) (cfg : Config) (m : HealthMonitor) (e : MonitorEvent) :
    HealthMonitor :=
  let gateway := (m.gatewayEvent? e).elim m.gateway (m.gateway.step cfg)
  match e.op with
  | .start => m.start settings e.now
  | .stop => m.stop
  | .interval => m.runInterval settings e.now
  | .checkEnds check _ => { m with gateway := gateway, checks := m.checks.erase check }
  | .gateway _ => { m with gateway := gateway }

/-- The gateway right after start-up, with the monitor not started. -/
structure Booted (cfg : Config) (m : HealthMonitor) : Prop where
  gateway : Gateway.Booted cfg m.gateway
  intervalId : m.intervalId = none
  checks : m.checks = []

/-- No timer of the monitor is late by more than `lag` milliseconds. -/
def Punctual (settings : HealthSettings) (lag : Nat) (m : HealthMonitor) (now : Int) : Prop :=
  (∀ due ∈ m.intervalId, now ≤ due + lag) ∧
    ∀ check ∈ m.checks, now ≤ check.startTime + timerDelay settings.timeout + lag

instance decidablePunctual (settings : HealthSettings) (lag : Nat) (m : HealthMonitor)
    (now : Int) : Decidable (m.Punctual settings lag now) :=
  inferInstanceAs (Decidable ((∀ due ∈ m.intervalId, now ≤ due + lag) ∧
    ∀ check ∈ m.checks, now ≤ check.startTime + timerDelay settings.timeout + lag))

/-- The event ends a check of the backend. -/
def endsCheckOf (b : String) (m : HealthMonitor) (e : MonitorEvent) : Bool :=
  match e.op with
  | .checkEnds check _ => check.backendId = b ∧ check ∈ m.checks
  | _ => false

/-- The checks of one backend as a periodic task. -/
def checksOf (b : String) : PeriodicTask HealthMonitor MonitorEvent where
  due m := m.intervalId
  jobs m := (m.checks.filter (fun check => check.backendId = b)).map PendingCheck.startTime
  clock := MonitorEvent.now
  ended m e := if m.endsCheckOf b e then 1 else 0

section Checks

variable {settings : HealthSettings} {cfg : Config} {m : HealthMonitor} {b : String}
  {e : MonitorEvent} {lag : Nat}

theorem one_le_timerDelay (ms : Int) : 1 ≤ timerDelay ms := by
  simp only [timerDelay]
  split_ifs <;> omega

/-- An event changes the gateway as it says. -/
theorem gateway_step :
    (m.step settings cfg e).gateway = (m.gatewayEvent? e).elim m.gateway (m.gateway.step cfg) := by
  obtain ⟨now, op⟩ := e
  cases op with
  | start =>
      simp only [step, start, gatewayEvent?]
      split_ifs <;> rfl
  | stop => rfl
  | interval =>
      simp only [step, runInterval, gatewayEvent?]
      split
      · rfl
      · split_ifs <;> rfl
  | checkEnds check outcome => rfl
  | gateway op => rfl

/-- The gateway of the monitor is complete and has the backend. -/
def Has (b : String) (m : HealthMonitor) : Prop :=
  m.gateway.Complete ∧ b ∈ m.gateway.pool.ids

theorem Has.step (h : m.Has b) (settings : HealthSettings) (cfg : Config) (e : MonitorEvent) :
    (m.step settings cfg e).Has b := by
  rw [Has, gateway_step]
  cases m.gatewayEvent? e with
  | none => exact h
  | some event => exact ⟨Gateway.complete_step event h.1, by
      rw [Option.elim, Gateway.ids_step cfg event h.1]
      exact h.2⟩

theorem Punctual.checksOf {now : Int} (h : m.Punctual settings lag now) :
    (checksOf b).Punctual lag (timerDelay settings.timeout) m now := by
  refine ⟨h.1, fun start hstart => ?_⟩
  obtain ⟨check, hcheck, rfl⟩ := List.mem_map.mp hstart
  exact h.2 check (List.mem_of_mem_filter hcheck)

/-- `checkAll` starts one check of every backend. -/
theorem jobs_checkAll (now : Int) (hb : b ∈ m.gateway.pool.ids) :
    (HealthMonitor.checksOf b).jobs (m.checkAll now) =
      (HealthMonitor.checksOf b).jobs m ++ [now] := by
  have hone : m.gateway.pool.ids.filter (fun id => id = b) = [b] := by
    rw [List.filter_eq, List.count_eq_one_of_mem m.gateway.pool.ids_nodup hb, List.replicate_one]
  simp only [HealthMonitor.checksOf, checkAll, List.filter_append, List.map_append,
    List.filter_map, Function.comp_def, hone, List.map_cons, List.map_nil]

/-- The checks of a backend follow the interval while it is set. -/
theorem steps_checksOf (b : String) :
    (HealthMonitor.checksOf b).Steps (step settings cfg) (timerDelay settings.interval) (Has b)
      (fun _ e => e.op ≠ .stop) := by
  intro m e due hm hstop hdue
  have hset : m.intervalId = some due := hdue
  obtain ⟨now, op⟩ := e
  cases op with
  | start =>
      have hsame : m.step settings cfg ⟨now, .start⟩ = m := by
        simp [step, start, hset]
      rw [hsame]
      exact ⟨due, hdue, .idle⟩
  | stop => exact absurd rfl hstop
  | interval =>
      simp only [step, runInterval, hset]
      split_ifs
      · refine ⟨now + timerDelay settings.interval, rfl, ?_⟩
        have hjobs := jobs_checkAll now hm.2
        simp only [checkAndWait]
        exact hjobs ▸ .tick
      · exact ⟨due, hdue, .idle⟩
  | checkEnds check outcome =>
      refine ⟨due, hdue, ?_⟩
      by_cases hmem : check ∈ m.checks
      · obtain ⟨before, after, -, hsplit, herase⟩ := List.exists_erase_eq hmem
        by_cases hcheck : check.backendId = b
        · have hended : (HealthMonitor.checksOf b).ended m ⟨now, .checkEnds check outcome⟩ = 1 := by
            simp [HealthMonitor.checksOf, endsCheckOf, hcheck, hmem]
          have hjobs : (HealthMonitor.checksOf b).jobs m =
              (HealthMonitor.checksOf b).jobs { m with checks := before } ++
                check.startTime :: (HealthMonitor.checksOf b).jobs { m with checks := after } := by
            simp [HealthMonitor.checksOf, hsplit, hcheck]
          have hrest : (HealthMonitor.checksOf b).jobs
              (m.step settings cfg ⟨now, .checkEnds check outcome⟩) =
                (HealthMonitor.checksOf b).jobs { m with checks := before } ++
                  (HealthMonitor.checksOf b).jobs { m with checks := after } := by
            simp only [HealthMonitor.checksOf, step, herase, List.filter_append, List.map_append]
          rw [hended, hrest]
          exact .finish hjobs
        · have hended : (HealthMonitor.checksOf b).ended m ⟨now, .checkEnds check outcome⟩ = 0 := by
            simp [HealthMonitor.checksOf, endsCheckOf, hcheck]
          have hjobs : (HealthMonitor.checksOf b).jobs
              (m.step settings cfg ⟨now, .checkEnds check outcome⟩) =
                (HealthMonitor.checksOf b).jobs m := by
            simp only [HealthMonitor.checksOf, step, herase]
            simp [hsplit, hcheck]
          rw [hended, hjobs]
          exact .idle
      · have hended : (HealthMonitor.checksOf b).ended m ⟨now, .checkEnds check outcome⟩ = 0 := by
          simp [HealthMonitor.checksOf, endsCheckOf, hmem]
        rw [hended]
        simp only [HealthMonitor.checksOf, step, List.erase_of_not_mem hmem]
        exact .idle
  | gateway op => exact ⟨due, hdue, .idle⟩

/-- When the interval has been set by some moment, and nothing is late, every
later stretch of time brings the results of so many checks. -/
theorem checks_reported {count : ℕ} {since now : Int} {es : List MonitorEvent} (hm : m.Has b)
    (hrunning : ∃ due ∈ m.intervalId, due ≤ since + timerDelay settings.interval)
    (hstop : ∀ e ∈ es, e.op ≠ .stop)
    (hpunctual : EachStep (step settings cfg) (fun m e => m.Punctual settings lag e.now) m es)
    (hend : (run (step settings cfg) m es).Punctual settings lag now)
    (hnow : since + count * (timerDelay settings.interval + lag) + timerDelay settings.timeout +
      lag < now) :
    count ≤ cost (step settings cfg) (HealthMonitor.checksOf b).ended m es := by
  obtain ⟨due, hdue, hfirst⟩ := hrunning
  have hinterval := one_le_timerDelay settings.interval
  have htimeout := one_le_timerDelay settings.timeout
  have htask : EachStep (step settings cfg) (fun m e => (HealthMonitor.checksOf b).Punctual lag
      (timerDelay settings.timeout) m e.now) m es :=
    eachStep_of_invariant (I := fun _ => True) (fun _ _ _ _ => trivial)
      (fun _ _ _ h => h.checksOf) trivial hpunctual
  exact PeriodicTask.ended_in_time (steps_checksOf b) (fun m e h _ => h.step settings cfg e)
    (by omega) (by omega) hm (eachStep_of_forall hstop) htask hdue hfirst hend.checksOf hnow

end Checks

end HealthMonitor

end SentinelADC
