import SentinelADC.ExchangeStep

/-!
# Leaving and entering rotation

The router only considers backends whose `healthy` flag is set.  The flag is
written by the health store, the circuit breaker, the drain manager and the
override route; this module says what each of them does to it, and from that
how long a backend stays out of rotation after it was drained or disabled.
-/

namespace SentinelADC

open Runs

/-- Operations that can set the flag of a backend that is out of rotation. -/
def CellOp.raises : CellOp → Bool
  | .recordResult _ _ _ => true
  | .recordSuccess _ => true
  | .resetBreaker _ => true
  | .override _ => true
  | .undrain => true
  | _ => false

namespace Cell

section HealthyFlag

variable {cfg : Config} {now : Int} {c : Cell}

/-- A breaker leaving `OPEN` or `HALF_OPEN` sets the flag, whoever cleared it. -/
theorem healthy_recordSuccess :
    (c.recordSuccess cfg now).backend.healthy =
      (c.backend.healthy || (cfg.enabled && decide (c.breaker.state ≠ .closed))) := by
  simp only [recordSuccess, transitionTo]
  cases hen : cfg.enabled with
  | false => simp
  | true =>
      by_cases hs : c.breaker.state = .closed
      · simp [hs]
      · simp [hs, Backend.syncBreaker]

theorem healthy_resetBreaker :
    (c.resetBreaker now).backend.healthy =
      (c.backend.healthy || decide (c.breaker.state ≠ .closed)) := by
  simp only [resetBreaker, transitionTo]
  by_cases hs : c.breaker.state = .closed
  · simp [hs]
  · simp [hs, Backend.syncBreaker]

theorem healthy_recordFailure (error : String) :
    (c.recordFailure cfg now error).backend.healthy =
      (c.backend.healthy && !c.breaker.trips cfg) := by
  cases htrip : c.breaker.trips cfg with
  | true =>
      have hs : c.breaker.state ≠ .opened := by
        rcases (trips_eq_true_iff.mp htrip).2 with h | h <;> simp [h]
      simp [recordFailure_of_trips htrip, countFailure, transitionTo, hs, Backend.syncBreaker]
  | false =>
      cases hen : cfg.enabled with
      | false => simp [recordFailure_of_disabled hen]
      | true => simp [recordFailure_of_not_trips hen htrip, countFailure]

theorem healthy_recordResult (success : Bool) (latency : Rat) :
    (c.recordResult now success latency).backend.healthy =
      (!c.backend.adminDisabled &&
        (success || decide (c.stats.consecutiveFailures + 1 < 3))) := by
  simp only [recordResult]
  rw [healthy_updateBackendHealthState]
  cases success <;> simp [HealthStats.record]

@[simp] theorem breaker_recordResult (success : Bool) (latency : Rat) :
    (c.recordResult now success latency).breaker = c.breaker := by
  rfl

theorem consult_of_unhealthy (hdown : c.backend.healthy = false) :
    c.consult cfg now = (false, c) := by
  simp [consult, hdown]

/-- A finished or forced drain leaves the backend out of rotation. -/
theorem healthy_disconnect_of_unhealthy (hdown : c.backend.healthy = false) :
    c.disconnect.backend.healthy = false := by
  unfold disconnect
  dsimp only
  split_ifs
  · rfl
  · exact hdown

/-- The other operations leave a backend out of rotation. -/
theorem healthy_step_of_unhealthy {op : CellOp} (hop : op.raises = false)
    (hdown : c.backend.healthy = false) :
    (c.step cfg op).backend.healthy = false := by
  cases op with
  | consult now =>
      rw [step, consult_of_unhealthy hdown]
      exact hdown
  | recordSuccess now => cases hop
  | recordFailure now error => rw [step, healthy_recordFailure, hdown, Bool.false_and]
  | resetBreaker now => cases hop
  | recordResult now success latency => cases hop
  | override healthy => cases hop
  | setWeight weight => exact hdown
  | drain now =>
      simp only [step, drain]
      split_ifs
      · exact hdown
      · rfl
      · rfl
  | drainDeadline =>
      simp only [step, drainDeadline]
      split_ifs
      · rfl
      · exact hdown
  | undrain => cases hop
  | connect => exact hdown
  | disconnect => exact healthy_disconnect_of_unhealthy hdown

end HealthyFlag

end Cell

/-- The status never contradicts the flag: a backend shown as healthy is in
rotation, one shown as unhealthy, draining or offline is not. -/
def Backend.FlagsAgree (b : Backend) : Prop :=
  (b.status = .healthy → b.healthy = true) ∧
    (b.status ∈ [.unhealthy, .draining, .offline] → b.healthy = false)

section FlagsAgree

variable {cfg : Config} {c : Cell}

theorem Backend.flagsAgree_syncBreaker (s : CircuitState) (b : Backend) :
    (b.syncBreaker s).FlagsAgree := by
  cases s <;> simp [Backend.FlagsAgree, Backend.syncBreaker]

theorem Cell.flagsAgree_transitionTo (now : Int) (s : CircuitState)
    (h : c.backend.FlagsAgree) :
    (c.transitionTo now s).backend.FlagsAgree := by
  simp only [Cell.transitionTo]
  split_ifs
  · exact h
  · exact Backend.flagsAgree_syncBreaker s c.backend

theorem flagsAgree_updateBackendHealthState (stats : HealthStats) (b : Backend) :
    (updateBackendHealthState stats b).FlagsAgree := by
  simp only [updateBackendHealthState]
  split_ifs <;> simp [Backend.FlagsAgree]

/-- Every operation keeps status and flag in agreement. -/
theorem Cell.flagsAgree_step (op : CellOp) (h : c.backend.FlagsAgree) :
    (c.step cfg op).backend.FlagsAgree := by
  cases op with
  | consult now =>
      rcases Cell.consult_cases cfg now c with
        hc | ⟨-, -, hc⟩ | ⟨-, -, hc⟩ <;> rw [Cell.step, hc]
      · exact h
      · exact Backend.flagsAgree_syncBreaker .halfOpen c.backend
      · exact h
  | recordSuccess now =>
      simp only [Cell.step, Cell.recordSuccess]
      split_ifs
      · exact h
      · exact Cell.flagsAgree_transitionTo now .closed h
  | recordFailure now error =>
      simp only [Cell.step, Cell.recordFailure]
      split_ifs
      · exact h
      · exact Cell.flagsAgree_transitionTo now .opened h
      · exact h
  | resetBreaker now => exact Cell.flagsAgree_transitionTo now .closed h
  | recordResult now success latency => exact flagsAgree_updateBackendHealthState _ _
  | override healthy => cases healthy <;> simp [Cell.step, Cell.override, Backend.override,
      Backend.FlagsAgree]
  | setWeight weight => exact h
  | drain now =>
      simp only [Cell.step, Cell.drain]
      split_ifs
      · exact h
      · simp [Backend.FlagsAgree, Backend.startDrain, Backend.finishDrain]
      · simp [Backend.FlagsAgree, Backend.startDrain, Backend.attachDrainCallback]
  | drainDeadline =>
      simp only [Cell.step, Cell.drainDeadline]
      split_ifs
      · simp [Backend.FlagsAgree, Backend.finishDrain]
      · exact h
  | undrain => simp [Cell.step, Cell.undrain, Backend.FlagsAgree, Backend.undrain]
  | connect => exact h
  | disconnect =>
      simp only [Cell.step, Cell.disconnect]
      split_ifs
      · simp [Backend.FlagsAgree, Backend.finishDrain]
      · exact h

end FlagsAgree

namespace Gateway

section Reinstatement

variable {cfg : Config} {b : String} {g : Gateway} {c : Cell}

theorem Reachable.flagsAgree (h : Reachable cfg g) (hc : g.cell b = some c) :
    c.backend.FlagsAgree := by
  refine h.cell_invariant (P := fun c => c.backend.FlagsAgree) ?_
    (fun c op hP => Cell.flagsAgree_step op hP) hc
  intro g hboot id c hc
  obtain ⟨-, -, -, hhealthy, hstatus, -, -⟩ := hboot.cell_eq hc
  simp [Backend.FlagsAgree, hhealthy, hstatus]

/-- In every reachable state, every backend has a status that fits its flag. -/
theorem status_fits_rotation (h : Reachable cfg g) :
    ∀ backend ∈ g.pool.backends, backend.FlagsAgree := by
  intro backend hmem
  obtain ⟨c, hc, hbackend⟩ := h.complete.exists_cell (BackendPool.find_of_mem hmem)
  rw [← hbackend]
  exact h.flagsAgree hc

/-- A drain, a check that passes meanwhile, and the deadline of the drain. -/
theorem status_fits_rotation_sample :
    ∃ backend ∈ (run (step (Config.default (fun _ => 0))) sampleGateway
      [⟨0, .request 0 ⟨"GET", "/", none, none, none, none⟩⟩, ⟨0, .route 0⟩,
        ⟨1, .drain "backend-1" 30⟩, ⟨2, .healthCheck "backend-1" (.passed 5)⟩,
        ⟨30001, .drainTimer 0⟩]).pool.backends,
      backend.id = "backend-1" ∧ backend.FlagsAgree := by
  obtain ⟨backend, hmem, hid⟩ : ∃ backend ∈ (run (step (Config.default (fun _ => 0)))
      sampleGateway [⟨0, .request 0 ⟨"GET", "/", none, none, none, none⟩⟩, ⟨0, .route 0⟩,
        ⟨1, .drain "backend-1" 30⟩, ⟨2, .healthCheck "backend-1" (.passed 5)⟩,
        ⟨30001, .drainTimer 0⟩]).pool.backends, backend.id = "backend-1" := by
    decide +kernel
  exact ⟨backend, hmem, hid, status_fits_rotation (reachable_sampleGateway.run_step _) backend hmem⟩

/-- The breaker of `b` is not `CLOSED`. -/
def isBroken (b : String) (g : Gateway) : Bool :=
  match g.cell b with
  | none => false
  | some c => c.breaker.state ≠ .closed

/-- A health check result of `b` that makes the health store set the flag, and
does not at once trip the breaker. -/
def checkReinstates (cfg : Config) (b : String) (outcome : CheckOutcome) (g : Gateway) : Bool :=
  match g.cell b, outcome with
  | some c, .passed _ =>
      c.backend.adminDisabled = false ∨ (cfg.enabled ∧ c.breaker.state ≠ .closed)
  | some c, _ =>
      c.backend.adminDisabled = false ∧ c.stats.consecutiveFailures ≤ 1 ∧
        c.breaker.trips cfg = false
  | none, _ => false

/-- Events that put `b` back into rotation although no operator asked for it. -/
def reinstates (cfg : Config) (b : String) (g : Gateway) (e : Event) : Bool :=
  match e.op with
  | .healthCheck id outcome => id = b ∧ g.checkReinstates cfg b outcome
  | .resetBreaker backendId => truthy backendId = some b ∧ g.isBroken b
  | .resetAllBreakers => g.isBroken b
  | .proxyRes rid status _ =>
      g.awaitsResponse b rid ∧ status < 400 ∧ cfg.enabled ∧ g.isBroken b
  | _ => false

/-- Events by which an operator puts `b` back into rotation. -/
def restoredByHand (b : String) (e : Event) : Bool :=
  match e.op with
  | .undrain id => id = b
  | .healthOverride id healthy => id = b ∧ healthy = some true
  | _ => false

theorem healthy_checkOps (cfg : Config) (now : Int) (outcome : CheckOutcome)
    (hc : g.cell b = some c) :
    (run (Cell.step cfg) c (checkOps now outcome)).backend.healthy =
      g.checkReinstates cfg b outcome ∨ c.backend.healthy = true := by
  cases hup : c.backend.healthy with
  | true => exact Or.inr rfl
  | false =>
      refine Or.inl ?_
      have hlt : ∀ n : Nat, n + 1 < 3 ↔ n ≤ 1 := by omega
      cases outcome <;>
        simp [checkOps, checkReinstates, hc, Cell.step, Cell.healthy_recordSuccess,
          Cell.healthy_recordFailure, Cell.healthy_recordResult, hlt, Bool.and_assoc]

/-- Effects of the `proxyRes` hook on a backend that is out of rotation. -/
theorem healthy_statusOps {now : Int} {backendId : Option String} {status : Nat}
    (hdown : c.backend.healthy = false) :
    (run (Cell.step cfg) c (statusOps now backendId status b)).backend.healthy = true ↔
      truthy backendId = some b ∧ status < 400 ∧ cfg.enabled = true ∧
        c.breaker.state ≠ .closed := by
  simp only [statusOps]
  cases hid : truthy backendId with
  | none => simp [hdown]
  | some id =>
      by_cases hb : b = id
      · subst hb
        by_cases h500 : 500 ≤ status
        · have hlt : ¬ status < 400 := by omega
          simp [h500, hlt, Cell.step, Cell.healthy_recordFailure, hdown]
        · by_cases h400 : status < 400
          · simp [h500, h400, Cell.step, Cell.healthy_recordSuccess, hdown]
          · simp [h500, h400, hdown]
      · have hne : id ≠ b := fun h => hb h.symm
        split_ifs <;> simp [opsAt_ne hb, hdown, hne]

/-- Events whose operations can set the flag. -/
def mayRaise (e : Event) : Bool :=
  match e.op with
  | .healthCheck _ _ => true
  | .healthOverride _ _ => true
  | .undrain _ => true
  | .resetBreaker _ => true
  | .resetAllBreakers => true
  | .proxyRes _ _ _ => true
  | _ => false

theorem raises_of_mem_effects {e : Event} (he : mayRaise e = false) {op : CellOp}
    (hop : op ∈ effects cfg g e b) :
    op.raises = false := by
  have hcause := causes_of_mem_effects hop
  cases op with
  | recordResult now success latency =>
      obtain ⟨-, outcome, heq⟩ := hcause
      simp [mayRaise, heq] at he
  | recordSuccess now =>
      obtain ⟨-, ⟨elapsed, heq⟩ | ⟨rid, status, latency, heq, -⟩⟩ := hcause <;>
        simp [mayRaise, heq] at he
  | resetBreaker now =>
      obtain ⟨-, heq | ⟨backendId, heq, -⟩⟩ := hcause <;> simp [mayRaise, heq] at he
  | override healthy =>
      have heq : e.op = .healthOverride b (some healthy) := hcause
      simp [mayRaise, heq] at he
  | undrain =>
      have heq : e.op = .undrain b := hcause
      simp [mayRaise, heq] at he
  | _ => rfl

/-- The other events leave a backend out of rotation. -/
theorem healthy_effects_of_not_mayRaise {e : Event} (he : mayRaise e = false)
    (hdown : c.backend.healthy = false) :
    (run (Cell.step cfg) c (effects cfg g e b)).backend.healthy = false := by
  refine run_preserves (P := fun c : Cell => c.backend.healthy = false) hdown ?_
  intro op hop c hdown
  exact Cell.healthy_step_of_unhealthy (raises_of_mem_effects he hop) hdown

theorem healthy_effects_healthCheck {now : Int} {id : String} {outcome : CheckOutcome}
    (hc : g.cell b = some c) (hdown : c.backend.healthy = false) :
    (run (Cell.step cfg) c (effects cfg g ⟨now, .healthCheck id outcome⟩ b)).backend.healthy =
        true ↔
      id = b ∧ g.checkReinstates cfg b outcome = true := by
  by_cases hid : b = id
  · subst hid
    have hcheck := (healthy_checkOps cfg now outcome hc).resolve_right (by simp [hdown])
    simp [effects, hcheck]
  · have hne : id ≠ b := fun h => hid h.symm
    simp [effects, opsAt_ne hid, hne, hdown]

theorem healthy_effects_healthOverride {now : Int} {id : String} {healthy : Option Bool}
    (hdown : c.backend.healthy = false) :
    (run (Cell.step cfg) c (effects cfg g ⟨now, .healthOverride id healthy⟩ b)).backend.healthy =
        true ↔
      id = b ∧ healthy = some true := by
  cases healthy with
  | none => simp [effects, hdown]
  | some healthy =>
      by_cases hid : b = id
      · subst hid
        simp [effects, Cell.step, Cell.override, Backend.override]
      · have hne : id ≠ b := fun h => hid h.symm
        simp [effects, opsAt_ne hid, hne, hdown]

theorem healthy_effects_undrain {now : Int} {id : String} (hdown : c.backend.healthy = false) :
    (run (Cell.step cfg) c (effects cfg g ⟨now, .undrain id⟩ b)).backend.healthy = true ↔
      id = b := by
  by_cases hid : b = id
  · subst hid
    simp [effects, Cell.step, Cell.undrain, Backend.undrain]
  · have hne : id ≠ b := fun h => hid h.symm
    simp [effects, opsAt_ne hid, hne, hdown]

theorem healthy_effects_resetBreaker {now : Int} {backendId : Option String}
    (hc : g.cell b = some c) (hdown : c.backend.healthy = false) :
    (run (Cell.step cfg) c (effects cfg g ⟨now, .resetBreaker backendId⟩ b)).backend.healthy =
        true ↔
      truthy backendId = some b ∧ g.isBroken b = true := by
  cases hb : truthy backendId with
  | none => simp [effects, hb, hdown]
  | some id =>
      by_cases hid : b = id
      · subst hid
        simp [effects, hb, isBroken, hc, Cell.step, Cell.healthy_resetBreaker, hdown]
      · have hne : id ≠ b := fun h => hid h.symm
        simp [effects, hb, opsAt_ne hid, hne, hdown]

theorem healthy_effects_resetAllBreakers {now : Int} (hc : g.cell b = some c)
    (hdown : c.backend.healthy = false) :
    (run (Cell.step cfg) c (effects cfg g ⟨now, .resetAllBreakers⟩ b)).backend.healthy = true ↔
      g.isBroken b = true := by
  simp [effects, isBroken, hc, Cell.step, Cell.healthy_resetBreaker, hdown]

theorem healthy_effects_proxyRes {now : Int} {rid status : Nat} {latency : Rat}
    (hc : g.cell b = some c) (hdown : c.backend.healthy = false) :
    (run (Cell.step cfg) c (effects cfg g ⟨now, .proxyRes rid status latency⟩ b)).backend.healthy =
        true ↔
      g.awaitsResponse b rid = true ∧ status < 400 ∧ cfg.enabled = true ∧
        g.isBroken b = true := by
  simp only [effects, awaitsResponse, isBroken, hc]
  cases hx : g.exchange rid with
  | none => simp [hdown]
  | some x =>
      by_cases hphase : x.phase = .upstream
      · simp [hphase, healthy_statusOps hdown]
      · simp [hphase, hdown]

/-- What one event does to a backend that is out of rotation. -/
theorem healthy_effects (cfg : Config) (e : Event) (hc : g.cell b = some c)
    (hdown : c.backend.healthy = false) :
    (run (Cell.step cfg) c (effects cfg g e b)).backend.healthy = true ↔
      reinstates cfg b g e = true ∨ restoredByHand b e = true := by
  have hidle : mayRaise e = false → reinstates cfg b g e = false → restoredByHand b e = false →
      ((run (Cell.step cfg) c (effects cfg g e b)).backend.healthy = true ↔
        reinstates cfg b g e = true ∨ restoredByHand b e = true) := by
    intro he hreinstates hrestored
    simp [healthy_effects_of_not_mayRaise he hdown, hreinstates, hrestored]
  obtain ⟨now, op⟩ := e
  cases op with
  | healthCheck id outcome =>
      simp [healthy_effects_healthCheck hc hdown, reinstates, restoredByHand]
  | healthOverride id healthy =>
      simp [healthy_effects_healthOverride hdown, reinstates, restoredByHand]
  | undrain id => simp [healthy_effects_undrain hdown, reinstates, restoredByHand]
  | resetBreaker backendId =>
      simp [healthy_effects_resetBreaker hc hdown, reinstates, restoredByHand]
  | resetAllBreakers =>
      simp [healthy_effects_resetAllBreakers hc hdown, reinstates, restoredByHand]
  | proxyRes rid status latency =>
      simp [healthy_effects_proxyRes hc hdown, reinstates, restoredByHand]
  | _ => exact hidle rfl rfl rfl

end Reinstatement

end Gateway

end SentinelADC
