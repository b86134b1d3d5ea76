import SentinelADC.Rotation

/-!
# Drained and disabled backends over whole runs

An operator takes a backend out of rotation by draining it or by disabling it.
Both orders are kept exactly until one of a few events happens, and these
events are listed here: the health store re-enables a drained backend on the
next result that does not count three failures in a row, and a breaker that
closes sets the `healthy` flag without looking at either order.
-/

namespace SentinelADC

open Runs

namespace Gateway

/-- `b` is in the pool with its flag cleared, and no request is routed to it. -/
def OutOfRotation (cfg : Config) (b : String) (g : Gateway) : Prop :=
  (g.pool.find b).map Backend.healthy = some false ∧
    ∀ now req failedBackends,
      (g.selectBackend cfg now req failedBackends).1 ≠ .selected b

section OutOfRotation

variable {cfg : Config} {b : String} {g g' : Gateway} {c : Cell}

/-- The cleared flag is all that it takes. -/
theorem outOfRotation_iff (hg : g.Complete) :
    OutOfRotation cfg b g ↔ ∃ c, g.cell b = some c ∧ c.backend.healthy = false := by
  constructor
  · rintro ⟨hflag, -⟩
    obtain ⟨backend, hfind, hdown⟩ := Option.map_eq_some_iff.mp hflag
    obtain ⟨c, hc, hb⟩ := hg.exists_cell hfind
    exact ⟨c, hc, by rw [hb, hdown]⟩
  · rintro ⟨c, hc, hdown⟩
    refine ⟨by simp [(cell_eq_some_iff.mp hc).1, hdown], ?_⟩
    intro now req failedBackends
    exact not_selected_of_unhealthy hg hc hdown

/-- One step keeps a backend out of rotation unless it reinstates it. -/
theorem outOfRotation_step (e : Event) (hg : g.Complete) (hout : OutOfRotation cfg b g) :
    OutOfRotation cfg b (g.step cfg e) ↔
      reinstates cfg b g e = false ∧ restoredByHand b e = false := by
  obtain ⟨c, hc, hdown⟩ := (outOfRotation_iff hg).mp hout
  have hcell := cell_step cfg e hg hc
  have hflag := healthy_effects cfg e hc hdown
  rw [outOfRotation_iff (complete_step e hg)]
  constructor
  · rintro ⟨c', hc', hdown'⟩
    obtain rfl := Option.some.inj (hcell.symm.trans hc')
    rw [hdown'] at hflag
    simpa [not_or] using hflag
  · rintro ⟨hre, hhand⟩
    refine ⟨_, hcell, ?_⟩
    simpa [hre, hhand] using hflag

/-- A drain request that succeeds clears the flag, also when the backend was
already draining. -/
theorem outOfRotation_drainBackend {now timeoutSec : Int} {message : String}
    (hg : Reachable cfg g)
    (hdrain : g.drainBackend now b timeoutSec = .ok (message, g')) :
    OutOfRotation cfg b g' := by
  have hmove := moves_drainBackend hg.complete hdrain
  have hmem : b ∈ g.pool.ids := by
    rw [← BackendPool.find_isSome_iff]
    cases hfind : g.pool.find b with
    | none => simp [drainBackend, hfind] at hdrain
    | some backend => rfl
  obtain ⟨c, hc⟩ := Option.isSome_iff_exists.mp (hg.complete b hmem)
  refine (outOfRotation_iff (hmove.complete hg.complete)).mpr ⟨_, hmove.cell_some hc, ?_⟩
  rw [onlyAt_self]
  simp only [Cell.drain]
  split_ifs with hdraining
  · exact (hg.flagsAgree hc).2 (by simp [hdraining])
  · rfl
  · rfl

theorem outOfRotation_healthOverride (cfg : Config) (hg : g.Complete)
    (hdisable : g.healthOverride b (some false) = .ok g') :
    OutOfRotation cfg b g' ∧
      ∃ c, g'.cell b = some c ∧ c.backend.adminDisabled = true := by
  obtain ⟨h, heq, hmove⟩ := moves_healthOverride hg hdisable
  obtain rfl := Option.some.inj heq
  have hmem : b ∈ g.pool.ids := by
    rw [← BackendPool.find_isSome_iff]
    cases hfind : g.pool.find b with
    | none => simp [healthOverride, hfind] at hdisable
    | some backend => rfl
  obtain ⟨c, hc⟩ := Option.isSome_iff_exists.mp (hg b hmem)
  have hcell := hmove.cell_some hc
  rw [onlyAt_self] at hcell
  exact ⟨(outOfRotation_iff (hmove.complete hg)).mpr ⟨_, hcell, rfl⟩, _, hcell, rfl⟩

end OutOfRotation

section DrainExclusion

variable {cfg : Config} {b : String} {g g' : Gateway}

/-- Neither an undrain nor an override of `b`. -/
def leavesOrdersFor (b : String) (e : Event) : Bool :=
  match e.op with
  | .undrain id => id ≠ b
  | .healthOverride id _ => id ≠ b
  | _ => true

theorem restoredByHand_of_leavesOrdersFor {e : Event} (h : leavesOrdersFor b e = true) :
    restoredByHand b e = false := by
  obtain ⟨now, op⟩ := e
  cases op <;> simp_all [leavesOrdersFor, restoredByHand]

/-- After a successful drain, a backend without undrain or override stays out
of rotation exactly as long as no event reinstates it. -/
theorem drain_excludes_iff (now timeoutSec : Int) {message : String} {es : List Event}
    (hg : Reachable cfg g)
    (hdrain : g.drainBackend now b timeoutSec = .ok (message, g'))
    (hes : ∀ e ∈ es, leavesOrdersFor b e = true) :
    Always (step cfg) (OutOfRotation cfg b) g' es ↔
      EachStep (step cfg) (fun g e => reinstates cfg b g e = false) g' es := by
  have hcomplete : g'.Complete := (moves_drainBackend hg.complete hdrain).complete hg.complete
  refine always_iff_eachStep (I := Complete)
    (fun g e hg _ => complete_step e hg) ?_ hcomplete
    (outOfRotation_drainBackend hg hdrain) (eachStep_of_forall hes)
  intro g e hg hout hleave
  rw [outOfRotation_step e hg hout]
  simp [restoredByHand_of_leavesOrdersFor hleave]

/-- The sample gateway after a drain of its idle first backend. -/
def drainedSample : Gateway :=
  (sampleGateway.modifyBackend "backend-1" (Backend.startDrain 0)
    (Backend.id_startDrain 0)).completeDrain "backend-1"

/-- The first backend fails two checks. -/
def twiceFailedSample : Gateway :=
  run (step (Config.default (fun _ => 0))) sampleGateway
    [⟨1, .healthCheck "backend-1" (.badStatus 503 4)⟩,
      ⟨2, .healthCheck "backend-1" (.badStatus 503 4)⟩]

/-- The same gateway after a drain of this backend. -/
def drainedTwiceFailed : Gateway :=
  (twiceFailedSample.modifyBackend "backend-1" (Backend.startDrain 3)
    (Backend.id_startDrain 3)).completeDrain "backend-1"

/-- A third failure in a row, a status poll and a request do not bring the
drained backend back. -/
theorem drain_excludes_sample :
    Always (step (Config.default (fun _ => 0)))
      (OutOfRotation (Config.default (fun _ => 0)) "backend-1")
      drainedTwiceFailed
      [⟨4, .healthCheck "backend-1" (.badStatus 503 4)⟩, ⟨5, .status⟩,
        ⟨6, .request 0 ⟨"GET", "/", none, none, none, none⟩⟩, ⟨6, .route 0⟩,
        ⟨7, .healthCheck "backend-1" (.badStatus 503 4)⟩] :=
  (drain_excludes_iff (g := twiceFailedSample) 3 30 (reachable_sampleGateway.run_step _) rfl
    (by decide)).mpr (by decide +kernel)

/-- The next health check that passes brings a drained backend back. -/
theorem drain_excludes_violated :
    ¬ ∀ (cfg : Config) (b : String) (g g' : Gateway) (now timeoutSec : Int)
        (message : String) (es : List Event),
      Reachable cfg g →
      g.drainBackend now b timeoutSec = .ok (message, g') →
      (∀ e ∈ es, leavesOrdersFor b e = true) →
      Always (step cfg) (OutOfRotation cfg b) g' es := by
  intro hclaim
  have hrun := hclaim (Config.default (fun _ => 0)) "backend-1" sampleGateway drainedSample
    0 30 _ [⟨10, .healthCheck "backend-1" (.passed 5)⟩] reachable_sampleGateway rfl (by decide)
  have hflag := hrun.last.1
  revert hflag
  decide +kernel

end DrainExclusion

section StickyDisable

variable {cfg : Config} {b : String} {g g' : Gateway} {c : Cell}

/-- The event is not an override that enables `b`. -/
def noReenable (b : String) (e : Event) : Bool :=
  match e.op with
  | .healthOverride id healthy => id ≠ b ∨ healthy ≠ some true
  | _ => true

/-- Events that put a disabled backend back into rotation: an undrain, and a
success or a reset that closes its breaker. -/
def overrulesDisable (cfg : Config) (b : String) (g : Gateway) (e : Event) : Bool :=
  match e.op with
  | .healthCheck id (.passed _) => id = b ∧ cfg.enabled ∧ g.isBroken b
  | .resetBreaker backendId => truthy backendId = some b ∧ g.isBroken b
  | .resetAllBreakers => g.isBroken b
  | .proxyRes rid status _ =>
      g.awaitsResponse b rid ∧ status < 400 ∧ cfg.enabled ∧ g.isBroken b
  | .undrain id => id = b
  | _ => false

/-- Only the override route writes `adminDisabled`. -/
theorem adminDisabled_step {op : CellOp} (hop : ∀ healthy, op ≠ .override healthy) :
    (c.step cfg op).backend.adminDisabled = c.backend.adminDisabled := by
  cases op with
  | override healthy => exact absurd rfl (hop healthy)
  | setWeight weight => rfl
  | connect => rfl
  | disconnect =>
      simp only [Cell.step, Cell.disconnect]
      split_ifs <;> rfl
  | _ => exact Cell.field_step Backend.adminDisabled (fun _ _ _ _ _ => rfl) rfl

theorem adminDisabled_run {ops : List CellOp} (hops : ∀ healthy, .override healthy ∉ ops) :
    (run (Cell.step cfg) c ops).backend.adminDisabled = c.backend.adminDisabled := by
  refine run_preserves (P := fun c' : Cell => c'.backend.adminDisabled = c.backend.adminDisabled)
    rfl ?_
  intro op hop c' hc'
  rw [adminDisabled_step (fun healthy heq => hops healthy (heq ▸ hop)), hc']

/-- As long as no request enables it, a disabled backend stays marked as
disabled. -/
theorem adminDisabled_effects {e : Event} (hdisabled : c.backend.adminDisabled = true)
    (he : noReenable b e = true) :
    (run (Cell.step cfg) c (effects cfg g e b)).backend.adminDisabled = true := by
  by_cases hoverride : ∃ healthy, .override healthy ∈ effects cfg g e b
  · obtain ⟨healthy, hmem⟩ := hoverride
    have hop : e.op = .healthOverride b (some healthy) := causes_of_mem_effects hmem
    have hfalse : healthy = false := by
      simpa [noReenable, hop] using he
    simp [effects, hop, hfalse, Cell.step, Cell.override, Backend.override]
  · rw [adminDisabled_run (fun healthy hmem => hoverride ⟨healthy, hmem⟩), hdisabled]

/-- For a disabled backend the health store is out of the picture: what is left
are the breaker and the undrain. -/
theorem overrulesDisable_iff {e : Event} (hc : g.cell b = some c)
    (hdisabled : c.backend.adminDisabled = true) (he : noReenable b e = true) :
    overrulesDisable cfg b g e = false ↔
      reinstates cfg b g e = false ∧ restoredByHand b e = false := by
  obtain ⟨now, op⟩ := e
  cases op with
  | healthCheck id outcome =>
      cases outcome <;>
        simp [overrulesDisable, reinstates, restoredByHand, checkReinstates, isBroken, hc,
          hdisabled]
  | healthOverride id healthy =>
      simpa [overrulesDisable, reinstates, restoredByHand, noReenable, imp_iff_not_or]
        using he
  | undrain id => simp [overrulesDisable, reinstates, restoredByHand]
  | _ => simp [overrulesDisable, reinstates, restoredByHand]

/-- After an operator disabled a backend, and without a request that enables it
again, it stays out of rotation exactly as long as nothing overrules the
order. -/
theorem disable_sticks_iff {es : List Event} (hg : Reachable cfg g)
    (hdisable : g.healthOverride b (some false) = .ok g')
    (hes : ∀ e ∈ es, noReenable b e = true) :
    Always (step cfg) (OutOfRotation cfg b) g' es ↔
      EachStep (step cfg) (fun g e => overrulesDisable cfg b g e = false) g' es := by
  obtain ⟨hout, hdisabled⟩ := outOfRotation_healthOverride cfg hg.complete hdisable
  obtain ⟨h, -, hmove⟩ := moves_healthOverride hg.complete hdisable
  refine always_iff_eachStep
    (I := fun g => g.Complete ∧ ∃ c, g.cell b = some c ∧ c.backend.adminDisabled = true)
    ?_ ?_ ⟨hmove.complete hg.complete, hdisabled⟩ hout (eachStep_of_forall hes)
  · rintro g e ⟨hg, c, hc, hadmin⟩ he
    exact ⟨complete_step e hg, _, cell_step _ e hg hc, adminDisabled_effects hadmin he⟩
  · rintro g e ⟨hg, c, hc, hadmin⟩ hout he
    rw [outOfRotation_step e hg hout, overrulesDisable_iff hc hadmin he]

/-- The sample gateway after an operator disabled its first backend. -/
def disabledSample : Gateway :=
  (sampleGateway.modifyBackend "backend-1" (Backend.override false)
    (Backend.id_override false)).setStats "backend-1" (HealthStats.fresh.override false)

/-- Checks that pass while the breaker is closed leave the order in force. -/
theorem disable_sticks_sample :
    Always (step (Config.default (fun _ => 0)))
      (OutOfRotation (Config.default (fun _ => 0)) "backend-1")
      disabledSample
      [⟨1, .healthCheck "backend-1" (.passed 4)⟩, ⟨2, .healthCheck "backend-1" (.passed 4)⟩,
        ⟨3, .drain "backend-1" 30⟩, ⟨4, .healthOverride "backend-1" none⟩] :=
  (disable_sticks_iff reachable_sampleGateway rfl (by decide)).mpr (by decide)

/-- Five failed checks open the breaker of the disabled backend, and the next
check that passes closes it and sets the flag. -/
theorem disable_sticks_violated :
    ¬ ∀ (cfg : Config) (b : String) (g g' : Gateway) (es : List Event),
      Reachable cfg g →
      g.healthOverride b (some false) = .ok g' →
      (∀ e ∈ es, noReenable b e = true) →
      Always (step cfg) (OutOfRotation cfg b) g' es := by
  intro hclaim
  have hrun := hclaim (Config.default (fun _ => 0)) "backend-1" sampleGateway disabledSample
    (List.replicate 5 ⟨1, .healthCheck "backend-1" (.badStatus 503 4)⟩ ++
      [⟨10, .healthCheck "backend-1" (.passed 5)⟩])
    reachable_sampleGateway rfl (by decide)
  have hflag := hrun.last.1
  revert hflag
  decide

end StickyDisable

end Gateway

end SentinelADC
