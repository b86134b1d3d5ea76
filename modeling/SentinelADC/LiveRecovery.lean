import SentinelADC.BreakerSync

/-!
# Recovery through live traffic

After the cooldown an open breaker is meant to let a probe request through.
The breaker only learns of the request from the router's filter, and the
filter asks it about healthy backends only, while the trip has marked the
backend unhealthy.  So a backend that failed under live traffic is admitted
again exactly at those calls at which somebody else has set its flag.
-/

namespace SentinelADC

open Runs

namespace Gateway

section Filter

variable {cfg : Config} {b : String} {g : Gateway} {c : Cell}

/-- The event runs the router's filter. -/
def callsFilter (cfg : Config) (g : Gateway) (e : Event) : Bool :=
  match e.op with
  | .status => true
  | .route rid => (g.routerSelection cfg e.now rid).isSome
  | _ => false

/-- A filter call that finds the breaker of `b` open and its cooldown over. -/
def cooledCall (cfg : Config) (b : String) (g : Gateway) (e : Event) : Bool :=
  match g.cell b with
  | none => false
  | some c =>
      g.callsFilter cfg e ∧ c.breaker.state = .opened ∧
        cfg.cooldownMs ≤ e.now - c.breaker.lastStateChange

/-- A filter call that finds the breaker of `b` half-open with permits left. -/
def permitCall (cfg : Config) (b : String) (g : Gateway) (e : Event) : Bool :=
  match g.cell b with
  | none => false
  | some c =>
      g.callsFilter cfg e ∧ c.breaker.state = .halfOpen ∧
        (c.breaker.probeCount : Int) < cfg.halfOpenMaxProbes

/-- The flag of `b` is set. -/
def isUp (b : String) (g : Gateway) : Bool :=
  match g.cell b with
  | none => false
  | some c => c.backend.healthy

/-- What the recovery rule asks of a step: the first call after the cooldown
makes the breaker half-open and lists `b`, later calls with permits list it. -/
def Recovers (cfg : Config) (b : String) (g : Gateway) (e : Event) : Prop :=
  (g.cooledCall cfg b e = true →
    b ∈ (g.getHealthyBackends cfg e.now).1 ∧ (g.step cfg e).isHalfOpen b = true) ∧
  (g.permitCall cfg b e = true → b ∈ (g.getHealthyBackends cfg e.now).1)

theorem mem_getHealthyBackends_iff (hg : g.Complete) (hc : g.cell b = some c) (now : Int) :
    b ∈ (g.getHealthyBackends cfg now).1 ↔ (c.consult cfg now).1 = true := by
  rw [getHealthyBackends_fst hg]
  simp [candidates, admits, hc, mem_ids_of_cell hc]

/-- A filter call asks the breaker of `b` and may then connect to `b`. -/
theorem effects_of_callsFilter {e : Event} (h : g.callsFilter cfg e = true) :
    effects cfg g e b = [.consult e.now] ∨ effects cfg g e b = [.consult e.now, .connect] := by
  obtain ⟨now, op⟩ := e
  cases op with
  | status => exact Or.inl rfl
  | route rid =>
      rcases hsel : g.routerSelection cfg now rid with - | - | id | - | -
      · simp [callsFilter, hsel] at h
      · exact Or.inl (by simp [effects, routerOps, hsel])
      · by_cases hid : b = id
        · exact Or.inr (by simp [effects, routerOps, hsel, hid])
        · exact Or.inl (by simp [effects, routerOps, hsel, opsAt_ne hid])
      · exact Or.inl (by simp [effects, routerOps, hsel])
      · exact Or.inl (by simp [effects, routerOps, hsel])
  | _ => simp [callsFilter] at h

/-- A filter call leaves the breaker of `b` as the admission step does. -/
theorem isHalfOpen_step_of_callsFilter {e : Event} (hg : g.Complete) (hc : g.cell b = some c)
    (h : g.callsFilter cfg e = true) :
    (g.step cfg e).isHalfOpen b =
      decide ((c.consult cfg e.now).2.breaker.state = .halfOpen) := by
  obtain ⟨-, hbr, -⟩ := cell_eq_some_iff.mp (cell_step cfg e hg hc)
  rcases effects_of_callsFilter (b := b) h with hops | hops <;>
    simp [isHalfOpen, hbr, hops, Cell.step, Cell.connect]

/-- At a call at which `b` is due, it recovers when its flag is set and only
then. -/
theorem recovers_iff (hen : cfg.enabled = true) (hg : g.Complete) (e : Event) :
    Recovers cfg b g e ↔
      (g.cooledCall cfg b e = true ∨ g.permitCall cfg b e = true → g.isUp b = true) := by
  cases hc : g.cell b with
  | none => simp [Recovers, cooledCall, permitCall, hc]
  | some c =>
      simp only [Recovers, mem_getHealthyBackends_iff hg hc, cooledCall, permitCall, isUp, hc,
        decide_eq_true_eq]
      cases hup : c.backend.healthy with
      | false => simp [Cell.consult, hup]
      | true =>
          simp only [implies_true, iff_true]
          constructor
          · rintro ⟨hcall, hs, hcool⟩
            rw [isHalfOpen_step_of_callsFilter hg hc hcall]
            simp [Cell.consult, hup, Cell.canExecute_of_opened hen hs, hcool, Cell.enterHalfOpen]
          · rintro ⟨-, hs, hprobe⟩
            simp [Cell.consult, hup, Cell.canExecute_of_halfOpen hen hs, hprobe]

end Filter

section LiveTrip

variable {cfg : Config} {b : String} {g : Gateway} {c : Cell}

/-- A failed attempt at `b`: a 5xx response or a proxy error. -/
def liveFailure (b : String) (g : Gateway) (e : Event) : Bool :=
  match e.op with
  | .proxyRes rid status _ => g.awaitsResponse b rid ∧ 500 ≤ status
  | .proxyError rid _ _ _ => g.awaitsError b rid
  | _ => false

/-- A failed attempt at `b` that trips its breaker. -/
def tripsLive (cfg : Config) (b : String) (g : Gateway) (e : Event) : Bool :=
  match g.cell b with
  | none => false
  | some c => g.liveFailure b e ∧ c.breaker.trips cfg

/-- No health check result for `b`, no drain of `b` and no order disabling it. -/
def liveOnly (b : String) (e : Event) : Bool :=
  match e.op with
  | .healthCheck id _ => id ≠ b
  | .drain id _ => id ≠ b
  | .healthOverride id healthy => id ≠ b ∨ healthy ≠ some false
  | _ => true

/-- A failed attempt records one failure and does nothing else to the cell. -/
theorem effects_of_liveFailure (cfg : Config) {e : Event} (h : g.liveFailure b e = true) :
    ∃ error, effects cfg g e b = [.recordFailure e.now error] := by
  obtain ⟨now, op⟩ := e
  cases op with
  | proxyRes rid status latency =>
      cases hx : g.exchange rid with
      | none => simp [liveFailure, awaitsResponse, hx] at h
      | some x =>
          simp only [liveFailure, awaitsResponse, hx, decide_eq_true_eq] at h
          obtain ⟨⟨hphase, hb⟩, h500⟩ := h
          refine ⟨"HTTP " ++ toString status, ?_⟩
          simp only [effects, hx, hphase, if_true, statusOps, hb, h500, opsAt_self]
  | proxyError rid err latency random =>
      cases hx : g.exchange rid with
      | none => simp [liveFailure, awaitsError, hx] at h
      | some x =>
          simp only [liveFailure, awaitsError, hx, decide_eq_true_eq] at h
          refine ⟨err.text, ?_⟩
          simp only [effects, hx, h.1, if_true, errorOps, h.2, opsAt_self]
  | _ => simp [liveFailure] at h

/-- The trip opens the breaker at the time of the failure and clears the flag. -/
theorem cell_of_tripsLive {e : Event} (hg : g.Complete) (h : g.tripsLive cfg b e = true) :
    ∃ c, (g.step cfg e).cell b = some c ∧ c.breaker.state = .opened ∧
      c.breaker.lastStateChange = e.now ∧ c.backend.healthy = false := by
  cases hc : g.cell b with
  | none => simp [tripsLive, hc] at h
  | some c =>
      simp only [tripsLive, hc, decide_eq_true_eq] at h
      obtain ⟨error, hops⟩ := effects_of_liveFailure cfg h.1
      have hcell := cell_step cfg e hg hc
      rw [hops, run_cons, run_nil, Cell.step, Cell.recordFailure_of_trips h.2] at hcell
      have hs : (c.countFailure error).breaker.state ≠ .opened := by
        rcases (Cell.trips_eq_true_iff.mp h.2).2 with hs | hs <;> simp [Cell.countFailure, hs]
      refine ⟨_, hcell, ?_⟩
      simp [Cell.transitionTo, hs, Backend.syncBreaker]

/-- A broken breaker and a cleared flag stay together while no health check
reports and no operator restores the backend. -/
theorem brokenDown_step {e : Event} (hlive : liveOnly b e = true)
    (hhand : restoredByHand b e = false)
    (h : c.DownIn (fun s => s ≠ .closed)) :
    (run (Cell.step cfg) c (effects cfg g e b)).DownIn (fun s => s ≠ .closed) := by
  refine downIn_effects _ _ _ (by simp) ?_ hhand h
  intro outcome hop
  simp [liveOnly, hop] at hlive

/--
Runs after a trip by live failures, without health checks, drains or disabling
orders for `b`.  Such a run follows the recovery rule exactly when the flag of
`b` is set at every filter call at which `b` is due; and when no operator
restores `b` in the run, no such call admits it.
-/
theorem live_recovery_iff {e₀ : Event} {es : List Event} (hen : cfg.enabled = true)
    (hg : Reachable cfg g) (htrip : g.tripsLive cfg b e₀ = true)
    (hes : ∀ e ∈ es, liveOnly b e = true) :
    (EachStep (step cfg) (Recovers cfg b) (g.step cfg e₀) es ↔
      EachStep (step cfg)
        (fun g e => g.cooledCall cfg b e = true ∨ g.permitCall cfg b e = true →
          g.isUp b = true)
        (g.step cfg e₀) es) ∧
    ((∀ e ∈ es, restoredByHand b e = false) →
      EachStep (step cfg)
        (fun g e => g.cooledCall cfg b e = true ∨ g.permitCall cfg b e = true →
          b ∉ (g.getHealthyBackends cfg e.now).1)
        (g.step cfg e₀) es) := by
  have hcomplete : (g.step cfg e₀).Complete := complete_step e₀ hg.complete
  constructor
  · exact eachStep_congr (I := Complete) (Q := fun _ _ => True)
      (fun g e hg _ => complete_step e hg)
      (fun g e hg _ => recovers_iff hen hg e) hcomplete (eachStep_of_forall (by simp))
  · intro hhand
    obtain ⟨c₀, hc₀, -, -, hdown₀⟩ := cell_of_tripsLive hg.complete htrip
    refine eachStep_of_invariant
      (I := fun g => g.Complete ∧ ∃ c, g.cell b = some c ∧ c.DownIn (fun s => s ≠ .closed))
      (Q := fun _ e => liveOnly b e = true ∧ restoredByHand b e = false) ?_ ?_
      ⟨hcomplete, c₀, hc₀, fun _ => hdown₀⟩
      (eachStep_of_forall (fun e he => ⟨hes e he, hhand e he⟩))
    · rintro g e ⟨hg, c, hc, hdown⟩ ⟨hlive, hhand⟩
      exact ⟨complete_step e hg, _, cell_step _ e hg hc, brokenDown_step hlive hhand hdown⟩
    · rintro g e ⟨hg, c, hc, hdown⟩ -
      simp only [cooledCall, permitCall, hc, decide_eq_true_eq,
        mem_getHealthyBackends_iff hg hc]
      intro hdue
      have hdown' : c.backend.healthy = false := by
        apply hdown
        rcases hdue with ⟨-, hs, -⟩ | ⟨-, hs, -⟩ <;> simp [hs]
      simp [Cell.consult, hdown']

/-- The sample gateway with a fifth failing attempt at the first backend on
its way. -/
def failingSample : Gateway :=
  run (step (Config.default (fun _ => 0))) sampleGateway
    (answeredRequests 12 1 500 ++
      [⟨1, .request 12 ⟨"GET", "/", none, none, none, none⟩⟩, ⟨1, .route 12⟩])

theorem reachable_failingSample :
    Reachable (Config.default (fun _ => 0)) failingSample :=
  reachable_sampleGateway.run (eachStep_of_forall (by simp))

/-- An operator who enables the backend after the trip lets the next call past
the cooldown open the half-open phase. -/
theorem live_recovery_sample :
    EachStep (step (Config.default (fun _ => 0)))
      (Recovers (Config.default (fun _ => 0)) "backend-1")
      (failingSample.step (Config.default (fun _ => 0)) ⟨1, .proxyRes 12 503 4⟩)
      [⟨2, .healthOverride "backend-1" (some true)⟩, ⟨20000, .status⟩, ⟨20001, .status⟩] :=
  (live_recovery_iff rfl reachable_failingSample (by decide +kernel) (by decide)).1.mpr
    (by decide +kernel)

/-- Without such help the first call after the cooldown passes the backend by. -/
theorem live_recovery_violated :
    ¬ ∀ (cfg : Config) (b : String) (g : Gateway) (e₀ : Event) (es : List Event),
      cfg.enabled = true → Reachable cfg g → g.tripsLive cfg b e₀ = true →
      (∀ c, g.cell b = some c →
        c.backend.adminDisabled = false ∧ c.backend.drainStartTime = none) →
      (∀ e ∈ es, liveOnly b e = true) →
      EachStep (step cfg) (Recovers cfg b) (g.step cfg e₀) es := by
  intro hclaim
  have hfresh : ((failingSample.pool.find "backend-1").map
      (fun backend => (backend.adminDisabled, backend.drainStartTime))) =
        some (false, none) := by
    decide +kernel
  have hrun := hclaim (Config.default (fun _ => 0)) "backend-1" failingSample
    ⟨1, .proxyRes 12 503 4⟩ [⟨20000, .status⟩] rfl reachable_failingSample
    (by decide +kernel)
    (by
      intro c hc
      simpa [(cell_eq_some_iff.mp hc).1] using hfresh)
    (by decide)
  have hlisted := (hrun.1.1 (by decide +kernel)).1
  revert hlisted
  decide +kernel

end LiveTrip

end Gateway

end SentinelADC
