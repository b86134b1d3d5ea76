import SentinelADC.GatewayStep

/-!
# Status polls

`GET /api/status` (`api/statusRoutes.js`) counts the healthy backends with the
filter of the routing engine, and the filter asks the breaker of every healthy
backend for admission.  The question is not free: an `OPEN` breaker past its
cooldown answers it by entering `HALF_OPEN`, which takes its backend out of the
rotation, and a `HALF_OPEN` breaker answers it with one of its permits.

A poll that meets no such breaker changes nothing at all, and only such a poll
leaves the routing as it was.
-/

namespace SentinelADC

open Runs

/-- The filter asks this breaker, and the answer costs a permit. -/
def Cell.spendsPermit (cfg : Config) (now : Int) (c : Cell) : Bool :=
  cfg.enabled ∧ c.backend.healthy ∧
    (c.breaker.state = .opened ∧ cfg.cooldownMs ≤ now - c.breaker.lastStateChange ∨
      c.breaker.state = .halfOpen ∧ (c.breaker.probeCount : Int) < cfg.halfOpenMaxProbes)

/-- What the routing reads of a breaker record. -/
def Breaker.routingView (breaker : Breaker) : CircuitState × Nat × Int :=
  (breaker.state, breaker.probeCount, breaker.lastStateChange)

/-- What the routing reads and the dashboard shows of a pool object. -/
def Backend.routingView (b : Backend) : Bool × BackendStatus :=
  (b.healthy, b.status)

section SpendsPermit

variable {cfg : Config} {now : Int} {c : Cell}

/-- A permit that was spent shows in the record. -/
theorem Cell.routingView_consult_of_spends (h : c.spendsPermit cfg now = true) :
    (c.consult cfg now).2.breaker.routingView ≠ c.breaker.routingView := by
  simp only [spendsPermit, decide_eq_true_eq] at h
  obtain ⟨hen, hup, ⟨hs, hcool⟩ | ⟨hs, hprobe⟩⟩ := h
  · simp [consult, hup, canExecute_of_opened hen hs, hcool, enterHalfOpen,
      Breaker.routingView, hs]
  · simp [consult, hup, canExecute_of_halfOpen hen hs, hprobe, takePermit,
      Breaker.routingView]

end SpendsPermit

namespace Gateway

/-- A poll at this time would spend no permit. -/
def pollIsFree (cfg : Config) (now : Int) (g : Gateway) : Bool :=
  g.pool.ids.all (fun id =>
    match g.cell id with
    | none => true
    | some c => c.spendsPermit cfg now = false)

/-- A poll at this time leaves what the routing reads, and what it will choose
from, as it was. -/
structure PollKeepsRouting (cfg : Config) (now : Int) (g : Gateway) : Prop where
  breakers : ∀ b, ((g.step cfg ⟨now, .status⟩).breakers b).map Breaker.routingView =
    (g.breakers b).map Breaker.routingView
  flags : ∀ b, ((g.step cfg ⟨now, .status⟩).pool.find b).map Backend.routingView =
    (g.pool.find b).map Backend.routingView
  choices : ∀ (later : Int) (failedBackends : List String),
    excludeFailed failedBackends ((g.step cfg ⟨now, .status⟩).getHealthyBackends cfg later).1 =
      excludeFailed failedBackends (g.getHealthyBackends cfg later).1

section StatusPoll

variable {cfg : Config} {now : Int} {g : Gateway} {id : String} {c : Cell}

theorem not_spends_of_pollIsFree (h : g.pollIsFree cfg now = true) (hc : g.cell id = some c) :
    c.spendsPermit cfg now = false := by
  have hid := List.all_eq_true.mp h id (mem_ids_of_cell hc)
  simpa [hc] using hid

/-- A breaker that spends no permit answers without a write. -/
theorem canExecute_of_not_spends (hc : g.cell id = some c) (hup : c.backend.healthy = true)
    (h : c.spendsPermit cfg now = false) :
    (g.canExecute cfg now id).2 = g := by
  cases hen : cfg.enabled with
  | false => simp [canExecute, hen]
  | true =>
      simp only [Cell.spendsPermit, hen, hup, true_and, decide_eq_false_iff_not, not_or,
        not_and] at h
      simp only [canExecute, hen, getBreaker_of_cell hc]
      cases hs : c.breaker.state with
      | closed => rfl
      | opened => simp [h.1 hs]
      | halfOpen => simp [h.2 hs]

theorem consult_of_not_spends (hc : g.cell id = some c)
    (h : c.spendsPermit cfg now = false) :
    (g.consult cfg now id).2 = g := by
  have hfind := (cell_eq_some_iff.mp hc).1
  cases hup : c.backend.healthy with
  | true => simpa [consult, hfind, hup] using canExecute_of_not_spends hc hup h
  | false => simp [consult, hfind, hup]

theorem consultAll_of_free {ids : List String}
    (h : ∀ id ∈ ids, ∃ c, g.cell id = some c ∧ c.spendsPermit cfg now = false) :
    (consultAll cfg now ids g).2 = g := by
  induction ids with
  | nil => rfl
  | cons id ids ih =>
      obtain ⟨c, hc, hfree⟩ := h id (by simp)
      have hrest := ih (fun id' hid' => h id' (by simp [hid']))
      simp only [consultAll, consult_of_not_spends hc hfree]
      exact hrest

/-- A free poll is no step at all. -/
theorem status_of_pollIsFree (hg : g.Complete) (h : g.pollIsFree cfg now = true) :
    g.step cfg ⟨now, .status⟩ = g := by
  refine consultAll_of_free (fun id hid => ?_)
  obtain ⟨c, hc⟩ := Option.isSome_iff_exists.mp (hg id hid)
  exact ⟨c, hc, not_spends_of_pollIsFree h hc⟩

theorem pollKeepsRouting_iff (hg : g.Complete) :
    g.PollKeepsRouting cfg now ↔ g.pollIsFree cfg now = true := by
  constructor
  · intro hkeep
    refine List.all_eq_true.mpr (fun id _ => ?_)
    cases hc : g.cell id with
    | none => rfl
    | some c =>
        have hafter := cell_step cfg ⟨now, .status⟩ hg hc
        have hview := hkeep.breakers id
        rw [(cell_eq_some_iff.mp hafter).2.1, (cell_eq_some_iff.mp hc).2.1] at hview
        have hsame : (c.consult cfg now).2.breaker.routingView = c.breaker.routingView :=
          Option.some.inj hview
        simp only [decide_eq_true_eq]
        by_contra hspend
        exact Cell.routingView_consult_of_spends (eq_true_of_ne_false hspend) hsame
  · intro hfree
    have hstep := status_of_pollIsFree hg hfree
    exact ⟨fun b => by rw [hstep], fun b => by rw [hstep], fun later failed => by rw [hstep]⟩

/-- In every reachable state a poll keeps the routing exactly when it is free,
and from there on every run whose polls are free ends where it ends without
them. -/
theorem poll_keeps_routing_iff (h : Reachable cfg g) :
    (∀ now, g.PollKeepsRouting cfg now ↔ g.pollIsFree cfg now = true) ∧
      ∀ es : List Event,
        EachStep (step cfg) (fun g e => e.op = .status → g.pollIsFree cfg e.now = true) g es →
        run (step cfg) g (es.filter (fun e => e.op ≠ .status)) = run (step cfg) g es := by
  refine ⟨fun now => pollKeepsRouting_iff h.complete, fun es hes => run_filter_of_stutter ?_⟩
  refine eachStep_of_invariant (fun g e hg _ => complete_step e hg) ?_
    h.complete hes
  intro g e hg hfree hstatus
  obtain ⟨now, op⟩ := e
  obtain rfl : op = .status := by simpa using hstatus
  exact status_of_pollIsFree hg (hfree rfl)

/-- Five failed checks open a breaker and take its backend out of the rotation,
so the poll after the cooldown does not ask that breaker. -/
def polledOutage : List Event :=
  List.replicate 5 ⟨1, .healthCheck "backend-1" (.badStatus 503 4)⟩ ++
    [⟨20000, .status⟩, ⟨20001, .resetAllBreakers⟩]

theorem poll_keeps_routing_sample :
    sampleGateway.PollKeepsRouting (Config.default (fun _ => 0)) 0 ∧
      run (step (Config.default (fun _ => 0))) sampleGateway
          (polledOutage.filter (fun e => e.op ≠ .status)) =
        run (step (Config.default (fun _ => 0))) sampleGateway polledOutage :=
  ⟨((poll_keeps_routing_iff reachable_sampleGateway).1 0).mpr (by decide),
    (poll_keeps_routing_iff reachable_sampleGateway).2 _ (by decide)⟩

/-- Five live failures open the breaker of a backend, and a failed check puts it
back into the rotation; the first poll after the cooldown takes it out again. -/
theorem poll_keeps_routing_violated :
    ¬ ∀ (cfg : Config) (g : Gateway) (now : Int), Reachable cfg g →
      g.PollKeepsRouting cfg now := by
  intro hclaim
  have hpoll := hclaim (Config.default (fun _ => 0)) _ 20000
    (reachable_sampleGateway.run_step
      (answeredRequests 13 1 500 ++ [⟨2, .healthCheck "backend-1" (.badStatus 503 4)⟩]))
  have hchoices := hpoll.choices 20000 []
  exact absurd hchoices (by decide +kernel)

end StatusPoll

end Gateway

end SentinelADC
