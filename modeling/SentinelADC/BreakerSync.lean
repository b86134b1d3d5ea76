import SentinelADC.RotationRuns

/-!
# Breaker state and rotation

A tripped breaker clears the `healthy` flag of its backend, and the router's
filter reads that flag before it asks the breaker.  This module follows both
over runs: when an open breaker can be found together with a set flag, and
when traffic can bring a tripped backend back.
-/

namespace SentinelADC

open Runs

namespace Cell

/-- In the listed breaker states the flag is cleared. -/
def DownIn (states : CircuitState → Prop) (c : Cell) : Prop :=
  states c.breaker.state → c.backend.healthy = false

section Operations

variable {cfg : Config} {now : Int} {c : Cell}

@[simp] theorem state_resetBreaker :
    (c.resetBreaker now).breaker.state = .closed := by
  simp only [resetBreaker, transitionTo]
  by_cases hs : c.breaker.state = .closed <;> simp [hs]

theorem state_recordSuccess (hen : cfg.enabled = true) :
    (c.recordSuccess cfg now).breaker.state = .closed := by
  rw [recordSuccess_of_enabled hen]
  simp only [transitionTo]
  by_cases hs : c.breaker.state = .closed <;> simp [hs]

theorem state_recordFailure (error : String) :
    (c.recordFailure cfg now error).breaker.state =
      if c.breaker.trips cfg then .opened else c.breaker.state := by
  cases htrip : c.breaker.trips cfg with
  | true =>
      rw [recordFailure_of_trips htrip]
      simp only [transitionTo]
      by_cases hs : (c.countFailure error).breaker.state = .opened <;> simp [hs]
  | false =>
      cases hen : cfg.enabled with
      | false => simp [recordFailure_of_disabled hen]
      | true => simp [recordFailure_of_not_trips hen htrip, countFailure]

theorem not_trips_of_opened (cfg : Config) (hs : c.breaker.state = .opened) :
    c.breaker.trips cfg = false := by
  simp [Breaker.trips, hs]

/-- A transition to `OPEN` or `HALF_OPEN` clears the flag.  Besides the health
store, only an operator sets it while the breaker is not closed. -/
theorem downIn_step {states : CircuitState → Prop} {op : CellOp}
    (hclosed : ¬ states .closed)
    (hresult : ∀ now success latency, op ≠ .recordResult now success latency)
    (hoverride : op ≠ .override true) (hundrain : op ≠ .undrain)
    (h : c.DownIn states) :
    (c.step cfg op).DownIn states := by
  cases op with
  | consult now =>
      rcases consult_cases cfg now c with hc | ⟨-, -, hc⟩ | ⟨-, -, hc⟩ <;> rw [step, hc]
      · exact h
      · exact fun _ => rfl
      · exact h
  | recordSuccess now =>
      cases hen : cfg.enabled with
      | false => simpa [step, recordSuccess_of_disabled hen] using h
      | true =>
          intro hs
          rw [step, state_recordSuccess hen] at hs
          exact absurd hs hclosed
  | recordFailure now error =>
      intro hs
      simp only [step, healthy_recordFailure, state_recordFailure] at hs ⊢
      cases htrip : c.breaker.trips cfg with
      | true => simp
      | false =>
          rw [htrip, if_neg Bool.false_ne_true] at hs
          simp [h hs]
  | resetBreaker now =>
      intro hs
      rw [step, state_resetBreaker] at hs
      exact absurd hs hclosed
  | recordResult now success latency => exact absurd rfl (hresult now success latency)
  | override healthy =>
      cases healthy with
      | true => exact absurd rfl hoverride
      | false => exact fun _ => rfl
  | setWeight weight => exact h
  | drain now =>
      simp only [step, drain]
      split_ifs
      · exact h
      · exact fun _ => rfl
      · exact fun _ => rfl
  | drainDeadline =>
      simp only [step, drainDeadline]
      split_ifs
      · exact fun _ => rfl
      · exact h
  | undrain => exact absurd rfl hundrain
  | connect => exact h
  | disconnect =>
      simp only [step, disconnect]
      split_ifs
      · exact fun _ => rfl
      · exact h

end Operations

end Cell

/-- The check did not pass. -/
def CheckOutcome.failed : CheckOutcome → Bool
  | .passed _ => false
  | _ => true

namespace Gateway

section Synchronisation

variable {cfg : Config} {b : String} {g : Gateway} {c : Cell}

/-- While the breaker of `b` is open, `b` is out of rotation. -/
def InSync (b : String) (g : Gateway) : Prop :=
  ∀ backend breaker, g.pool.find b = some backend → g.breakers b = some breaker →
    breaker.state = .opened → backend.healthy = false

/-- A failed check of `b` while its breaker is open and the health store counts
at most one failure in a row. -/
def failedCheckWhileOpen (b : String) (g : Gateway) (e : Event) : Bool :=
  match g.cell b, e.op with
  | some c, .healthCheck id outcome =>
      id = b ∧ outcome.failed ∧ c.breaker.state = .opened ∧ c.stats.consecutiveFailures ≤ 1
  | _, _ => false

theorem inSync_iff (hc : g.cell b = some c) :
    InSync b g ↔ c.DownIn (fun s => s = .opened) := by
  obtain ⟨hb, hbr, -⟩ := cell_eq_some_iff.mp hc
  simp [InSync, Cell.DownIn, hb, hbr]

theorem not_inSync (hup : (g.pool.find b).map Backend.healthy = some true)
    (hopen : (g.breakers b).map Breaker.state = some .opened) :
    ¬ InSync b g := by
  obtain ⟨backend, hb, hhealthy⟩ := Option.map_eq_some_iff.mp hup
  obtain ⟨breaker, hbr, hs⟩ := Option.map_eq_some_iff.mp hopen
  intro hsync
  have hdown := hsync backend breaker hb hbr hs
  simp [hhealthy] at hdown

theorem inSync_of_missing (hfind : g.pool.find b = none) :
    InSync b g := by
  intro backend breaker hb
  simp [hfind] at hb

/-- Every operation on the cell of `b`, other than those of a health check of
`b`, keeps the flag cleared in the listed states. -/
theorem downIn_effects (cfg : Config) (g : Gateway) (states : CircuitState → Prop) {e : Event}
    (hclosed : ¬ states .closed) (hcheck : ∀ outcome, e.op ≠ .healthCheck b outcome)
    (hhand : restoredByHand b e = false) (h : c.DownIn states) :
    (run (Cell.step cfg) c (effects cfg g e b)).DownIn states := by
  refine run_preserves (P := fun c : Cell => c.DownIn states) h ?_
  intro op hop c' hc'
  have hcause := causes_of_mem_effects hop
  refine Cell.downIn_step hclosed ?_ ?_ ?_ hc'
  · rintro now success latency rfl
    obtain ⟨-, outcome, hop⟩ := hcause
    exact hcheck outcome hop
  · rintro rfl
    have hop : e.op = .healthOverride b (some true) := hcause
    simp [restoredByHand, hop] at hhand
  · rintro rfl
    have hop : e.op = .undrain b := hcause
    simp [restoredByHand, hop] at hhand

/-- A health check of an enabled backend: the flag follows the health store
unless the breaker trips at that very result. -/
theorem openDown_checkOps (cfg : Config) (hen : cfg.enabled = true) (now : Int)
    (outcome : CheckOutcome)
    (henabled : c.backend.adminDisabled = false) :
    (run (Cell.step cfg) c (checkOps now outcome)).DownIn (fun s => s = .opened) ↔
      ¬(outcome.failed = true ∧ c.breaker.state = .opened ∧
        c.stats.consecutiveFailures ≤ 1) := by
  have hlt : ∀ n : Nat, n + 1 < 3 ↔ n ≤ 1 := by omega
  have hfailed : ∀ latency error,
      ((c.recordResult now false latency).recordFailure cfg now error).DownIn
          (fun s => s = .opened) ↔
        ¬(c.breaker.state = .opened ∧ c.stats.consecutiveFailures ≤ 1) := by
    intro latency error
    simp only [Cell.DownIn, Cell.state_recordFailure, Cell.healthy_recordFailure,
      Cell.healthy_recordResult, Cell.breaker_recordResult, henabled]
    cases htrip : c.breaker.trips cfg with
    | true =>
        have hs : c.breaker.state ≠ .opened := by
          rcases (Cell.trips_eq_true_iff.mp htrip).2 with h | h <;> simp [h]
        simp [hs]
    | false => simp [hlt]
  cases outcome with
  | passed elapsed =>
      simp [checkOps, Cell.step, Cell.DownIn, Cell.state_recordSuccess hen,
        CheckOutcome.failed]
  | badStatus status elapsed =>
      simpa [checkOps, Cell.step, CheckOutcome.failed] using
        hfailed elapsed ("HTTP " ++ toString status)
  | fetchError isTimeout message elapsed =>
      simpa [checkOps, Cell.step, CheckOutcome.failed] using
        hfailed elapsed (if isTimeout then "Request timeout" else message)

/-- Without orders of an operator the mark of an enabled backend stays off. -/
theorem enabled_effects {e : Event} (henabled : c.backend.adminDisabled = false)
    (he : leavesOrdersFor b e = true) :
    (run (Cell.step cfg) c (effects cfg g e b)).backend.adminDisabled = false := by
  rw [adminDisabled_run, henabled]
  intro healthy hmem
  have hop : e.op = .healthOverride b (some healthy) := causes_of_mem_effects hmem
  simp [leavesOrdersFor, hop] at he

/-- With breakers enabled and without orders of an operator, every run keeps an
open breaker's backend out of rotation exactly as long as no check of it fails
while the breaker is open and the store counts at most one failure. -/
theorem open_excludes_iff {es : List Event} (hen : cfg.enabled = true)
    (hboot : Booted cfg g) (hes : ∀ e ∈ es, leavesOrdersFor b e = true) :
    Always (step cfg) (InSync b) g es ↔
      EachStep (step cfg) (fun g e => failedCheckWhileOpen b g e = false) g es := by
  refine always_iff_eachStep
    (I := fun g => g.Complete ∧ ∀ c, g.cell b = some c → c.backend.adminDisabled = false)
    ?_ ?_ ⟨hboot.complete, fun c hc => (hboot.cell_eq hc).2.2.2.2.2.2⟩ ?_
    (eachStep_of_forall hes)
  · rintro g e ⟨hg, henabled⟩ he
    refine ⟨complete_step e hg, fun c' hc' => ?_⟩
    rw [(performs_step cfg e hg).cell b] at hc'
    obtain ⟨c, hc, rfl⟩ := Option.map_eq_some_iff.mp hc'
    exact enabled_effects (henabled c hc) he
  · rintro g e ⟨hg, henabled⟩ hsync he
    cases hc : g.cell b with
    | none =>
        simp [failedCheckWhileOpen, hc, inSync_of_missing (find_step_eq_none cfg e hg hc)]
    | some c =>
        rw [inSync_iff (cell_step _ e hg hc)]
        by_cases hcheck : ∃ outcome, e.op = .healthCheck b outcome
        · obtain ⟨outcome, hop⟩ := hcheck
          have hdown := openDown_checkOps cfg hen e.now outcome (henabled c hc)
          simp only [effects, hop, opsAt_self]
          rw [hdown]
          simp [failedCheckWhileOpen, hc, hop]
        · have hkeep := downIn_effects cfg g (fun s => s = .opened)
            (by simp) (fun outcome hop => hcheck ⟨outcome, hop⟩)
            (restoredByHand_of_leavesOrdersFor he) ((inSync_iff hc).mp hsync)
          have hquiet : failedCheckWhileOpen b g e = false := by
            simp only [failedCheckWhileOpen]
            split
            · next id outcome _ hop =>
                have hid : id ≠ b := fun h => hcheck ⟨outcome, h ▸ hop⟩
                simp [hid]
            · rfl
          simp [hkeep, hquiet]
  · intro backend breaker hb hbr hs
    cases hc : g.cell b with
    | none => simp [hboot.complete.find_eq_none hc] at hb
    | some c =>
        obtain ⟨-, hbr', -⟩ := cell_eq_some_iff.mp hc
        rw [hbr] at hbr'
        rw [Option.some.inj hbr', (hboot.cell_eq hc).1] at hs
        simp at hs

/-- Checks that fail three times before the breaker opens keep it in step. -/
theorem open_excludes_sample :
    Always (step (Config.default (fun _ => 0))) (InSync "backend-1") sampleGateway
      (List.replicate 6 ⟨1, .healthCheck "backend-1" (.badStatus 503 4)⟩ ++
        [⟨2, .healthCheck "backend-1" (.passed 4)⟩]) :=
  (open_excludes_iff rfl ⟨0, rfl⟩ (by decide)).mpr (by decide)

/-- No breaker is reset. -/
def leavesBreakers (e : Event) : Bool :=
  match e.op with
  | .resetBreaker _ => false
  | .resetAllBreakers => false
  | _ => true

/-- Five live failures open the breaker; the next check fails as well, counts
one failure in a row and puts the backend back into rotation. -/
theorem open_excludes_violated :
    ¬ ∀ (cfg : Config) (b : String) (g : Gateway) (es : List Event),
      cfg.enabled = true → Booted cfg g →
      (∀ e ∈ es, leavesOrdersFor b e = true ∧ leavesBreakers e = true) →
      Always (step cfg) (InSync b) g es := by
  intro hclaim
  have hrun := hclaim (Config.default (fun _ => 0)) "backend-1" sampleGateway
    (answeredRequests 13 1 500 ++ [⟨2, .healthCheck "backend-1" (.badStatus 503 4)⟩])
    rfl ⟨0, rfl⟩ (by decide)
  exact not_inSync (by decide +kernel) (by decide +kernel) hrun.last

end Synchronisation

end Gateway

end SentinelADC
