import SentinelADC.CellOps

/-!
# The gateway as a step function

Everything that can happen to the shared state is an `Op`: a health check
result, an administrative request, a status poll, a drain timer, or a callback
of a proxied request.  An `Event` is an operation at a time; `Gateway.step`
runs its handler.  Requests that the gateway refuses leave the state alone.

`effects` lists what an event does to each backend, and `exchangeAfter` what it
does to each proxied request.  `performs_step` and `exchanges_step` say that
these are all the changes.
-/

namespace SentinelADC

open Runs

/-- What may happen next. -/
inductive Op where
  /-- A result of `checkBackend` for one backend. -/
  | healthCheck (id : String) (outcome : CheckOutcome)
  /-- `POST /api/health/:id/override`. -/
  | healthOverride (id : String) (healthy : Option Bool)
  /-- `PUT /api/admin/backends/:id/weight`; `none` is a weight that does not parse. -/
  | setWeight (id : String) (weight : Option Int)
  /-- `PUT /api/admin/algorithm`. -/
  | setAlgorithm (algorithm : String)
  /-- `POST /api/admin/backends/:id/drain`. -/
  | drain (id : String) (timeoutSec : Int)
  /-- `POST /api/admin/backends/:id/undrain`. -/
  | undrain (id : String)
  /-- `POST /api/resilience/circuit-breakers/reset`. -/
  | resetBreaker (backendId : Option String)
  /-- `POST /api/resilience/circuit-breakers/reset-all`. -/
  | resetAllBreakers
  /-- `GET /api/status`. -/
  | status
  /-- A deadline timer of the drain manager. -/
  | drainTimer (handle : Nat)
  | request (rid : Nat) (req : ClientRequest)
  | route (rid : Nat)
  | proxyRes (rid : Nat) (status : Nat) (latency : Rat)
  | pipeBody (rid : Nat)
  | proxyError (rid : Nat) (err : ProxyError) (latency random : Rat)
  | resumeRetry (rid : Nat)
  | finish (rid : Nat)
  | close (rid : Nat)
deriving DecidableEq, Repr

/-- An operation and the time at which its handler runs. -/
structure Event where
  now : Int
  op : Op
deriving DecidableEq, Repr

namespace Gateway

/-- `PUT /api/admin/backends/:id/weight`. -/
def setWeight (id : String) (weight : Option Int) (g : Gateway) : Except String Gateway :=
  match weight with
  | none => .error "Weight must be a non-negative integer"
  | some weight =>
      if weight < 0 then .error "Weight must be a non-negative integer"
      else
        match g.pool.find id with
        | none => .error s!"Backend with ID \"{id}\" not found"
        | some _ =>
            .ok (g.modifyBackend id (fun b => { b with weight := weight.toNat }) (fun _ => rfl))

/-- `POST /api/admin/backends/:id/drain` and `/undrain` answer with a message. -/
def dropMessage (reply : Except String (String × Gateway)) : Except String Gateway :=
  reply.map Prod.snd

/-- A health monitor result for a pool member. -/
def healthCheck (cfg : Config) (now : Int) (id : String) (outcome : CheckOutcome)
    (g : Gateway) : Gateway :=
  match g.pool.find id with
  | none => g
  | some _ => g.checkBackend cfg now id outcome

/-- `POST /api/resilience/circuit-breakers/reset`. -/
def resetRoute (now : Int) (backendId : Option String) (g : Gateway) : Except String Gateway :=
  match truthy backendId with
  | none => .error "Missing required parameter \"backendId\""
  | some id => .ok (g.resetBreaker now id)

/-- `POST /api/resilience/circuit-breakers/reset-all`.  Breakers of ids outside
the pool only arise from a reset, and a second reset does not change them. -/
def resetAllBreakers (now : Int) (g : Gateway) : Gateway :=
  g.pool.ids.foldl (fun g id => g.resetBreaker now id) g

/-- The state after a request: a refused request changes nothing. -/
def settle (g : Gateway) : Except String Gateway → Gateway
  | .error _ => g
  | .ok g' => g'

/-- Run the handler of an event. -/
def step (cfg : Config) (g : Gateway) (e : Event) : Gateway :=
  match e.op with
  | .healthCheck id outcome => g.healthCheck cfg e.now id outcome
  | .healthOverride id healthy => g.settle (g.healthOverride id healthy)
  | .setWeight id weight => g.settle (g.setWeight id weight)
  | .setAlgorithm algorithm => g.settle (g.setAlgorithm algorithm)
  | .drain id timeoutSec => g.settle (dropMessage (g.drainBackend e.now id timeoutSec))
  | .undrain id => g.settle (dropMessage (g.undrainBackend id))
  | .resetBreaker backendId => g.settle (g.resetRoute e.now backendId)
  | .resetAllBreakers => g.resetAllBreakers e.now
  | .status => (g.getHealthyBackends cfg e.now).2
  | .drainTimer handle => g.fireDrainTimer e.now handle
  | .request rid req => g.request rid req
  | .route rid => g.router cfg e.now rid
  | .proxyRes rid status latency => g.proxyRes cfg e.now rid status latency
  | .pipeBody rid => g.pipeBody rid
  | .proxyError rid err latency random => g.handleProxyError cfg e.now rid err latency random
  | .resumeRetry rid => g.resumeRetry rid
  | .finish rid => g.responseFinish rid
  | .close rid => g.responseClose rid

/-- The singletons as they are constructed, with the given strategy installed. -/
def initial (cfg : Config) (now : Int) (strategy : Strategy) : Gateway :=
  let pool := createBackendPool cfg.backends
  { pool := pool
    breakers := fun id => if id ∈ pool.ids then some (Breaker.fresh now) else none
    stats := fun id => if id ∈ pool.ids then some HealthStats.fresh else none
    drainTimers := fun _ => none
    pendingTimers := []
    nextTimer := 0
    algorithm := cfg.algorithm
    strategy := strategy
    memory :=
      { history := fun id => if id ∈ pool.ids then some [] else none
        roundRobinIndex := 0
        wrr := ⟨-1, 0⟩ }
    exchanges := [] }

/-- The state after start-up; an unknown algorithm makes the start-up fail. -/
def boot (cfg : Config) (now : Int) : Except String Gateway :=
  (Strategy.getStrategy cfg.algorithm).map (initial cfg now)

/-- States after start-up. -/
def Booted (cfg : Config) (g : Gateway) : Prop :=
  ∃ now, boot cfg now = .ok g

/-- States after start-up and any events. -/
def Reachable (cfg : Config) : Gateway → Prop :=
  Runs.Reachable (Booted cfg) (step cfg) (fun _ _ => True)

/-- The gateway with default settings, right after start-up at time 0. -/
def sampleGateway : Gateway :=
  initial (Config.default (fun _ => 0)) 0 .roundRobin

theorem reachable_sampleGateway :
    Reachable (Config.default (fun _ => 0)) sampleGateway :=
  .start ⟨0, rfl⟩

/-- `n` proxied requests, one after the other, each answered with a status. -/
def answeredRequests (n : Nat) (now : Int) (status : Nat) : List Event :=
  (List.range n).flatMap (fun rid =>
    [⟨now, .request rid ⟨"GET", "/", none, none, none, none⟩⟩, ⟨now, .route rid⟩,
      ⟨now, .proxyRes rid status 1⟩])

/-- Cell operations of one health check result. -/
def checkOps (now : Int) : CheckOutcome → List CellOp
  | .passed elapsed => [.recordResult now true elapsed, .recordSuccess now]
  | .badStatus status elapsed =>
      [.recordResult now false elapsed, .recordFailure now ("HTTP " ++ toString status)]
  | .fetchError isTimeout message elapsed =>
      [.recordResult now false elapsed,
        .recordFailure now (if isTimeout then "Request timeout" else message)]

/-- What an event does to the cell of each backend. -/
def effects (cfg : Config) (g : Gateway) (e : Event) : String → List CellOp :=
  match e.op with
  | .healthCheck id outcome => opsAt id (checkOps e.now outcome)
  | .healthOverride id (some healthy) => opsAt id [.override healthy]
  | .setWeight id (some weight) =>
      if weight < 0 then fun _ => [] else opsAt id [.setWeight weight.toNat]
  | .drain id _ => opsAt id [.drain e.now]
  | .undrain id => opsAt id [.undrain]
  | .resetBreaker backendId =>
      match truthy backendId with
      | none => fun _ => []
      | some id => opsAt id [.resetBreaker e.now]
  | .resetAllBreakers => fun _ => [.resetBreaker e.now]
  | .status => fun _ => [.consult e.now]
  | .drainTimer handle =>
      match g.dueTimer e.now handle with
      | none => fun _ => []
      | some timer => opsAt timer.backendId [.drainDeadline]
  | .route rid => g.routerOps cfg e.now rid
  | .proxyRes rid status _ =>
      match g.exchange rid with
      | none => fun _ => []
      | some x =>
          if x.phase = .upstream then statusOps e.now x.backendId status else fun _ => []
  | .proxyError rid err _ _ =>
      match g.exchange rid with
      | none => fun _ => []
      | some x => if x.awaitsError then errorOps e.now x.backendId err else fun _ => []
  | .finish rid =>
      match g.exchange rid with
      | none => fun _ => []
      | some x =>
          if x.finished = true ∨ x.headersSent = false then fun _ => []
          else fun id => List.replicate (pendingDecrements id x.selections) .disconnect
  | .close rid =>
      match g.exchange rid with
      | none => fun _ => []
      | some x =>
          if x.closed then fun _ => []
          else fun id => List.replicate (pendingDecrements id x.selections) .disconnect
  | _ => fun _ => []

/-- The attempt of this request at backend `b` awaits its response. -/
def awaitsResponse (b : String) (rid : Nat) (g : Gateway) : Bool :=
  match g.exchange rid with
  | none => false
  | some x => x.phase = .upstream ∧ truthy x.backendId = some b

/-- The attempt of this request at backend `b` may still end in an error. -/
def awaitsError (b : String) (rid : Nat) (g : Gateway) : Bool :=
  match g.exchange rid with
  | none => false
  | some x => x.awaitsError ∧ truthy x.backendId = some b

/-- The event that makes the gateway perform an operation on the cell of `b`. -/
def Causes (g : Gateway) (b : String) (e : Event) : CellOp → Prop
  | .consult now => now = e.now ∧ (e.op = .status ∨ ∃ rid, e.op = .route rid)
  | .recordSuccess now =>
      now = e.now ∧
        ((∃ elapsed, e.op = .healthCheck b (.passed elapsed)) ∨
          ∃ rid status latency, e.op = .proxyRes rid status latency ∧
            g.awaitsResponse b rid = true ∧ status < 400)
  | .recordFailure now _ =>
      now = e.now ∧
        ((∃ status elapsed, e.op = .healthCheck b (.badStatus status elapsed)) ∨
          (∃ isTimeout message elapsed,
            e.op = .healthCheck b (.fetchError isTimeout message elapsed)) ∨
          (∃ rid status latency, e.op = .proxyRes rid status latency ∧
            g.awaitsResponse b rid = true ∧ 500 ≤ status) ∨
          ∃ rid err latency random, e.op = .proxyError rid err latency random ∧
            g.awaitsError b rid = true)
  | .resetBreaker now =>
      now = e.now ∧
        (e.op = .resetAllBreakers ∨
          ∃ backendId, e.op = .resetBreaker backendId ∧ truthy backendId = some b)
  | .recordResult now _ _ => now = e.now ∧ ∃ outcome, e.op = .healthCheck b outcome
  | .override healthy => e.op = .healthOverride b (some healthy)
  | .setWeight _ => ∃ weight, e.op = .setWeight b weight
  | .drain now => now = e.now ∧ ∃ timeoutSec, e.op = .drain b timeoutSec
  | .drainDeadline => ∃ handle, e.op = .drainTimer handle
  | .undrain => e.op = .undrain b
  | .connect => ∃ rid, e.op = .route rid
  | .disconnect => ∃ rid, e.op = .finish rid ∨ e.op = .close rid

theorem eq_and_mem_of_mem_opsAt {b id : String} {op : CellOp} {ops : List CellOp}
    (h : op ∈ opsAt id ops b) :
    b = id ∧ op ∈ ops := by
  by_cases hid : b = id
  · subst hid
    exact ⟨rfl, by simpa using h⟩
  · simp [opsAt_ne hid] at h

theorem eq_of_mem_opsAt_singleton {b id : String} {op op' : CellOp} (h : op ∈ opsAt id [op'] b) :
    b = id ∧ op = op' :=
  (eq_and_mem_of_mem_opsAt h).imp_right List.mem_singleton.mp

section Causes

variable {cfg : Config} {g : Gateway} {b : String} {now : Int} {op : CellOp}

theorem causes_of_healthCheck {id : String} {outcome : CheckOutcome}
    (h : op ∈ effects cfg g ⟨now, .healthCheck id outcome⟩ b) :
    Causes g b ⟨now, .healthCheck id outcome⟩ op := by
  obtain ⟨rfl, hmem⟩ := eq_and_mem_of_mem_opsAt h
  cases outcome <;> simp only [checkOps, List.mem_cons, List.not_mem_nil, or_false] at hmem <;>
    rcases hmem with rfl | rfl <;> simp [Causes]

theorem causes_of_healthOverride {id : String} {healthy : Option Bool}
    (h : op ∈ effects cfg g ⟨now, .healthOverride id healthy⟩ b) :
    Causes g b ⟨now, .healthOverride id healthy⟩ op := by
  cases healthy with
  | none => simp [effects] at h
  | some healthy =>
      obtain ⟨rfl, rfl⟩ := eq_of_mem_opsAt_singleton h
      rfl

theorem causes_of_setWeight {id : String} {weight : Option Int}
    (h : op ∈ effects cfg g ⟨now, .setWeight id weight⟩ b) :
    Causes g b ⟨now, .setWeight id weight⟩ op := by
  cases weight with
  | none => simp [effects] at h
  | some weight =>
      by_cases hneg : weight < 0
      · simp [effects, hneg] at h
      · simp only [effects, hneg, if_false] at h
        obtain ⟨rfl, rfl⟩ := eq_of_mem_opsAt_singleton h
        exact ⟨_, rfl⟩

theorem causes_of_resetBreaker {backendId : Option String}
    (h : op ∈ effects cfg g ⟨now, .resetBreaker backendId⟩ b) :
    Causes g b ⟨now, .resetBreaker backendId⟩ op := by
  cases hb : truthy backendId with
  | none => simp [effects, hb] at h
  | some id =>
      simp only [effects, hb] at h
      obtain ⟨rfl, rfl⟩ := eq_of_mem_opsAt_singleton h
      exact ⟨rfl, Or.inr ⟨_, rfl, hb⟩⟩

theorem causes_of_drainTimer {handle : Nat}
    (h : op ∈ effects cfg g ⟨now, .drainTimer handle⟩ b) :
    Causes g b ⟨now, .drainTimer handle⟩ op := by
  cases htimer : g.dueTimer now handle with
  | none => simp [effects, htimer] at h
  | some timer =>
      simp only [effects, htimer] at h
      obtain ⟨-, rfl⟩ := eq_of_mem_opsAt_singleton h
      exact ⟨_, rfl⟩

theorem causes_of_route {rid : Nat} (h : op ∈ effects cfg g ⟨now, .route rid⟩ b) :
    Causes g b ⟨now, .route rid⟩ op := by
  have hops : op = .consult now ∨ op = .connect := by
    rcases hsel : g.routerSelection cfg now rid with - | - | id | - | - <;>
      simp only [effects, routerOps, hsel, List.mem_cons, List.not_mem_nil, or_false] at h
    · exact Or.inl h
    · exact h.imp_right (fun h => (eq_of_mem_opsAt_singleton h).2)
    · exact Or.inl h
    · exact Or.inl h
  rcases hops with rfl | rfl
  · exact ⟨rfl, Or.inr ⟨_, rfl⟩⟩
  · exact ⟨_, rfl⟩

theorem causes_of_proxyRes {rid status : Nat} {latency : Rat}
    (h : op ∈ effects cfg g ⟨now, .proxyRes rid status latency⟩ b) :
    Causes g b ⟨now, .proxyRes rid status latency⟩ op := by
  cases hx : g.exchange rid with
  | none => simp [effects, hx] at h
  | some x =>
      simp only [effects, hx] at h
      split_ifs at h with hphase
      · cases hb : truthy x.backendId with
        | none => simp [statusOps, hb] at h
        | some id =>
            simp only [statusOps, hb] at h
            split_ifs at h with h500 h400
            · obtain ⟨rfl, rfl⟩ := eq_of_mem_opsAt_singleton h
              simp [Causes, awaitsResponse, hx, hphase, hb, h500]
            · obtain ⟨rfl, rfl⟩ := eq_of_mem_opsAt_singleton h
              simp [Causes, awaitsResponse, hx, hphase, hb, h400]
            · simp at h
      · simp at h

theorem causes_of_proxyError {rid : Nat} {err : ProxyError} {latency random : Rat}
    (h : op ∈ effects cfg g ⟨now, .proxyError rid err latency random⟩ b) :
    Causes g b ⟨now, .proxyError rid err latency random⟩ op := by
  cases hx : g.exchange rid with
  | none => simp [effects, hx] at h
  | some x =>
      simp only [effects, hx] at h
      split_ifs at h with hawait
      · cases hb : truthy x.backendId with
        | none => simp [errorOps, hb] at h
        | some id =>
            simp only [errorOps, hb] at h
            obtain ⟨rfl, rfl⟩ := eq_of_mem_opsAt_singleton h
            simp [Causes, awaitsError, hx, hawait, hb]
      · simp at h

theorem causes_of_finish {rid : Nat} (h : op ∈ effects cfg g ⟨now, .finish rid⟩ b) :
    Causes g b ⟨now, .finish rid⟩ op := by
  cases hx : g.exchange rid with
  | none => simp [effects, hx] at h
  | some x =>
      simp only [effects, hx] at h
      split_ifs at h
      · simp at h
      · obtain rfl := (List.mem_replicate.mp h).2
        exact ⟨_, Or.inl rfl⟩

theorem causes_of_close {rid : Nat} (h : op ∈ effects cfg g ⟨now, .close rid⟩ b) :
    Causes g b ⟨now, .close rid⟩ op := by
  cases hx : g.exchange rid with
  | none => simp [effects, hx] at h
  | some x =>
      simp only [effects, hx] at h
      split_ifs at h
      · simp at h
      · obtain rfl := (List.mem_replicate.mp h).2
        exact ⟨_, Or.inr rfl⟩

/-- Every operation on a cell has one of the listed causes. -/
theorem causes_of_mem_effects {e : Event} (h : op ∈ effects cfg g e b) :
    Causes g b e op := by
  obtain ⟨now, eop⟩ := e
  cases eop with
  | healthCheck id outcome => exact causes_of_healthCheck h
  | healthOverride id healthy => exact causes_of_healthOverride h
  | setWeight id weight => exact causes_of_setWeight h
  | drain id timeoutSec =>
      obtain ⟨rfl, rfl⟩ := eq_of_mem_opsAt_singleton h
      exact ⟨rfl, _, rfl⟩
  | undrain id =>
      obtain ⟨rfl, rfl⟩ := eq_of_mem_opsAt_singleton h
      rfl
  | resetBreaker backendId => exact causes_of_resetBreaker h
  | resetAllBreakers =>
      obtain rfl := List.mem_singleton.mp h
      exact ⟨rfl, Or.inl rfl⟩
  | status =>
      obtain rfl := List.mem_singleton.mp h
      exact ⟨rfl, Or.inl rfl⟩
  | drainTimer handle => exact causes_of_drainTimer h
  | route rid => exact causes_of_route h
  | proxyRes rid status latency => exact causes_of_proxyRes h
  | proxyError rid err latency random => exact causes_of_proxyError h
  | finish rid => exact causes_of_finish h
  | close rid => exact causes_of_close h
  | _ => simp [effects] at h

end Causes

section PerformsStep

variable {cfg : Config} {g : Gateway} {id : String} {now : Int}

/-- Operations listed for an id outside the pool do not matter. -/
theorem Performs.of_missing (cfg : Config) (hfind : g.pool.find id = none)
    (ops : List CellOp) :
    Performs cfg g g (opsAt id ops) := by
  refine (Moves.refl g).congr ?_
  intro id' c hc
  have hne : id' ≠ id := by
    rintro rfl
    rw [cell_eq_none_of_find hfind] at hc
    simp at hc
  simp [opsAt_ne hne]

theorem performs_healthCheck (outcome : CheckOutcome) (hg : g.Complete) :
    Performs cfg g (g.healthCheck cfg now id outcome) (opsAt id (checkOps now outcome)) := by
  cases hfind : g.pool.find id with
  | none =>
      simp only [healthCheck, hfind]
      exact Performs.of_missing cfg hfind _
  | some b =>
      -- a result is a store update followed by a breaker update
      have htwo : ∀ (success : Bool) (elapsed : Rat) (op : CellOp) (g' : Gateway),
          ((g.recordResult now id success elapsed).Complete →
            Performs cfg (g.recordResult now id success elapsed) g' (opsAt id [op])) →
          Performs cfg g g' (opsAt id [.recordResult now success elapsed, op]) := by
        intro success elapsed op g' hbreaker
        have hstore : Performs cfg g (g.recordResult now id success elapsed)
            (opsAt id [.recordResult now success elapsed]) :=
          Performs.of_onlyAt (moves_recordResult success elapsed hg) (fun _ => rfl)
        refine (hstore.trans (hbreaker (hstore.complete hg))).congr (fun id' => ?_)
        by_cases hid : id' = id
        · subst hid
          simp
        · simp [opsAt_ne hid]
      simp only [healthCheck, hfind]
      cases outcome with
      | passed elapsed =>
          exact htwo _ _ _ _
            (fun h => Performs.of_onlyAt (moves_recordSuccess h) (fun _ => rfl))
      | badStatus status elapsed =>
          exact htwo _ _ _ _
            (fun h => Performs.of_onlyAt (moves_recordFailure _ h) (fun _ => rfl))
      | fetchError isTimeout message elapsed =>
          exact htwo _ _ _ _
            (fun h => Performs.of_onlyAt (moves_recordFailure _ h) (fun _ => rfl))

theorem performs_healthOverride (healthy : Bool) (hg : g.Complete) :
    Performs cfg g (g.settle (g.healthOverride id (some healthy)))
      (opsAt id [.override healthy]) := by
  cases hok : g.healthOverride id (some healthy) with
  | ok g' =>
      obtain ⟨h, heq, hmove⟩ := moves_healthOverride hg hok
      obtain rfl := Option.some.inj heq
      exact Performs.of_onlyAt hmove (fun _ => rfl)
  | error message =>
      have hfind : g.pool.find id = none := by
        by_contra hne
        obtain ⟨b, hb⟩ := Option.ne_none_iff_exists'.mp hne
        simp only [healthOverride, hb] at hok
        split at hok <;> simp at hok
      exact Performs.of_missing cfg hfind _

theorem performs_setWeight (weight : Int) (hg : g.Complete) :
    Performs cfg g (g.settle (g.setWeight id (some weight)))
      (if weight < 0 then fun _ => [] else opsAt id [.setWeight weight.toNat]) := by
  by_cases hneg : weight < 0
  · simp only [setWeight, hneg, if_true, settle]
    exact Performs.refl cfg g
  · cases hfind : g.pool.find id with
    | none =>
        simp only [setWeight, hneg, hfind, if_false, settle]
        exact Performs.of_missing cfg hfind _
    | some b =>
        have hmove :
            Moves g
              (g.modifyBackend id (fun b => { b with weight := weight.toNat }) (fun _ => rfl))
              (onlyAt id (Cell.setWeight weight.toNat)) := by
          apply Moves.of_self hg
          · simp
          · intro c hc
            exact cell_modifyBackend_self _ hc
          · intro id' hne
            simp [hne]
        simp only [setWeight, hneg, hfind, if_false, settle]
        exact Performs.of_onlyAt hmove (fun _ => rfl)

theorem performs_drain (timeoutSec : Int) (hg : g.Complete) :
    Performs cfg g (g.settle (dropMessage (g.drainBackend now id timeoutSec)))
      (opsAt id [.drain now]) := by
  cases hok : g.drainBackend now id timeoutSec with
  | ok reply =>
      obtain ⟨message, g'⟩ := reply
      exact Performs.of_onlyAt (moves_drainBackend hg hok) (fun _ => rfl)
  | error message =>
      have hfind : g.pool.find id = none := by
        by_contra hne
        obtain ⟨b, hb⟩ := Option.ne_none_iff_exists'.mp hne
        simp only [drainBackend, hb] at hok
        split_ifs at hok
      exact Performs.of_missing cfg hfind _

theorem performs_undrain (hg : g.Complete) :
    Performs cfg g (g.settle (dropMessage (g.undrainBackend id))) (opsAt id [.undrain]) := by
  cases hok : g.undrainBackend id with
  | ok reply =>
      obtain ⟨message, g'⟩ := reply
      exact Performs.of_onlyAt (moves_undrainBackend hg hok) (fun _ => rfl)
  | error message =>
      have hfind : g.pool.find id = none := by
        by_contra hne
        obtain ⟨b, hb⟩ := Option.ne_none_iff_exists'.mp hne
        simp [undrainBackend, hb] at hok
      exact Performs.of_missing cfg hfind _

theorem performs_resetAll (cfg : Config) {ids : List String} (hnd : ids.Nodup)
    (hg : g.Complete) :
    Performs cfg g (ids.foldl (fun g id => g.resetBreaker now id) g)
      (fun id => if id ∈ ids then [.resetBreaker now] else []) := by
  induction ids generalizing g with
  | nil => exact (Performs.refl cfg g).congr (fun id => by simp)
  | cons id ids ih =>
      rw [List.nodup_cons] at hnd
      have hfirst : Performs cfg g (g.resetBreaker now id) (opsAt id [.resetBreaker now]) :=
        Performs.of_onlyAt (moves_resetBreaker hg) (fun _ => rfl)
      refine (hfirst.trans (ih hnd.2 (hfirst.complete hg))).congr (fun id' => ?_)
      by_cases hid : id' = id
      · subst hid
        simp [hnd.1]
      · simp [opsAt_ne hid, hid]

theorem performs_resetAllBreakers (hg : g.Complete) :
    Performs cfg g (g.resetAllBreakers now) (fun _ => [.resetBreaker now]) := by
  refine Moves.congr (performs_resetAll cfg g.pool.ids_nodup hg) ?_
  intro id c hc
  simp [mem_ids_of_cell hc]

theorem performs_fireDrainTimer (handle : Nat) (hg : g.Complete) :
    Performs cfg g (g.fireDrainTimer now handle)
      (match g.dueTimer now handle with
        | none => fun _ => []
        | some timer => opsAt timer.backendId [.drainDeadline]) := by
  have hmove := moves_fireDrainTimer now handle hg
  cases htimer : g.dueTimer now handle with
  | none =>
      rw [htimer] at hmove
      exact hmove
  | some timer =>
      rw [htimer] at hmove
      exact Performs.of_onlyAt hmove (fun _ => rfl)

theorem performs_proxyRes (rid status : Nat) (latency : Rat) (hg : g.Complete) :
    Performs cfg g (g.proxyRes cfg now rid status latency)
      (effects cfg g ⟨now, .proxyRes rid status latency⟩) := by
  cases hx : g.exchange rid with
  | none =>
      simp only [proxyRes, effects, hx]
      exact Performs.refl cfg g
  | some x =>
      by_cases hphase : x.phase = .upstream
      · simp only [proxyRes, effects, hx, hphase, ne_eq, not_true_eq_false, if_false, if_true]
        have hcollect := performs_collect cfg g now x.backendId
          latency (decide (500 ≤ status))
        exact (hcollect.trans
          (performs_reportStatus _ status (hcollect.complete hg))).modifyExchange rid _
      · simp only [proxyRes, effects, hx, hphase, ne_eq, not_false_eq_true, if_false, if_true]
        exact Performs.refl cfg g

theorem performs_handleProxyError (rid : Nat) (err : ProxyError) (latency random : Rat)
    (hg : g.Complete) :
    Performs cfg g (g.handleProxyError cfg now rid err latency random)
      (effects cfg g ⟨now, .proxyError rid err latency random⟩) := by
  cases hx : g.exchange rid with
  | none =>
      simp only [handleProxyError, effects, hx]
      exact Performs.refl cfg g
  | some x =>
      cases hawait : x.awaitsError with
      | true =>
          simp only [handleProxyError, effects, hx, hawait, Bool.not_true, Bool.false_eq_true,
            if_false, if_true]
          have hcollect := performs_collect cfg g now x.backendId
            latency true
          exact (hcollect.trans
            (performs_reportError _ err (hcollect.complete hg))).modifyExchange rid _
      | false =>
          simp only [handleProxyError, effects, hx, hawait, Bool.not_false, if_true,
            Bool.false_eq_true, if_false]
          exact Performs.refl cfg g

theorem performs_responseFinish (rid : Nat) (hg : g.Complete) :
    Performs cfg g (g.responseFinish rid) (effects cfg g ⟨now, .finish rid⟩) := by
  cases hx : g.exchange rid with
  | none =>
      simp only [responseFinish, effects, hx]
      exact Performs.refl cfg g
  | some x =>
      by_cases hdone : x.finished = true ∨ x.headersSent = false
      · simp only [responseFinish, effects, hx, if_pos hdone]
        exact Performs.refl cfg g
      · simp only [responseFinish, effects, hx, if_neg hdone]
        exact (performs_runDecrements cfg x.selections hg).modifyExchange rid _

theorem performs_responseClose (rid : Nat) (hg : g.Complete) :
    Performs cfg g (g.responseClose rid) (effects cfg g ⟨now, .close rid⟩) := by
  cases hx : g.exchange rid with
  | none =>
      simp only [responseClose, effects, hx]
      exact Performs.refl cfg g
  | some x =>
      cases hclosed : x.closed with
      | true =>
          simp only [responseClose, effects, hx, hclosed, if_true]
          exact Performs.refl cfg g
      | false =>
          simp only [responseClose, effects, hx, hclosed, Bool.false_eq_true, if_false]
          exact (performs_runDecrements cfg x.selections hg).modifyExchange rid _

/-- What an event does to the cells is what `effects` lists. -/
theorem performs_step (cfg : Config) (e : Event) (hg : g.Complete) :
    Performs cfg g (g.step cfg e) (effects cfg g e) := by
  obtain ⟨now, op⟩ := e
  cases op with
  | healthCheck id outcome => exact performs_healthCheck outcome hg
  | healthOverride id healthy =>
      cases healthy with
      | none => exact Performs.refl cfg g
      | some healthy => exact performs_healthOverride healthy hg
  | setWeight id weight =>
      cases weight with
      | none => exact Performs.refl cfg g
      | some weight => exact performs_setWeight weight hg
  | setAlgorithm algorithm =>
      simp only [step, effects, setAlgorithm]
      cases Strategy.getStrategy algorithm with
      | error message => exact Performs.refl cfg g
      | ok strategy => exact Performs.of_eq rfl rfl rfl
  | drain id timeoutSec => exact performs_drain timeoutSec hg
  | undrain id => exact performs_undrain hg
  | resetBreaker backendId =>
      simp only [step, effects, resetRoute]
      cases truthy backendId with
      | none => exact Performs.refl cfg g
      | some id => exact Performs.of_onlyAt (moves_resetBreaker hg) (fun _ => rfl)
  | resetAllBreakers => exact performs_resetAllBreakers hg
  | status => exact moves_getHealthyBackends hg
  | drainTimer handle => exact performs_fireDrainTimer handle hg
  | request rid req =>
      simp only [step, effects, request]
      cases g.exchange rid with
      | none => exact Performs.of_eq rfl rfl rfl
      | some x => exact Performs.refl cfg g
  | route rid => exact performs_router rid hg
  | proxyRes rid status latency => exact performs_proxyRes rid status latency hg
  | pipeBody rid =>
      simp only [step, effects]
      rcases pipeBody_cases rid g with h | ⟨f, h⟩ <;> rw [h]
      · exact Performs.refl cfg g
      · exact (Performs.refl cfg g).modifyExchange rid f
  | proxyError rid err latency random =>
      exact performs_handleProxyError rid err latency random hg
  | resumeRetry rid =>
      simp only [step, effects]
      rcases resumeRetry_cases rid g with h | ⟨f, h⟩ <;> rw [h]
      · exact Performs.refl cfg g
      · exact (Performs.refl cfg g).modifyExchange rid f
  | finish rid => exact performs_responseFinish rid hg
  | close rid => exact performs_responseClose rid hg

theorem complete_step (e : Event) (hg : g.Complete) :
    (g.step cfg e).Complete :=
  (performs_step _ e hg).complete hg

theorem ids_step (cfg : Config) (e : Event) (hg : g.Complete) :
    (g.step cfg e).pool.ids = g.pool.ids :=
  (performs_step cfg e hg).ids

/-- A backend that does not exist does not come into being. -/
theorem find_step_eq_none (cfg : Config) (e : Event) (hg : g.Complete)
    (hc : g.cell id = none) :
    (g.step cfg e).pool.find id = none := by
  rw [← Option.not_isSome_iff_eq_none, BackendPool.find_isSome_iff, ids_step cfg e hg,
    ← BackendPool.find_isSome_iff, hg.find_eq_none hc]
  simp

/-- The cell after an event. -/
theorem cell_step (cfg : Config) {c : Cell} (e : Event) (hg : g.Complete)
    (hc : g.cell id = some c) :
    (g.step cfg e).cell id = some (run (Cell.step cfg) c (effects cfg g e id)) :=
  (performs_step _ e hg).cell_some hc

end PerformsStep

section Boot

variable {cfg : Config} {g : Gateway}

theorem Booted.eq_initial (h : Booted cfg g) :
    ∃ now strategy, g = initial cfg now strategy := by
  obtain ⟨now, hboot⟩ := h
  simp only [boot] at hboot
  cases hs : Strategy.getStrategy cfg.algorithm with
  | error message => simp [hs, Except.map] at hboot
  | ok strategy =>
      rw [hs] at hboot
      exact ⟨now, strategy, (Except.ok.inj hboot).symm⟩

/-- A backend after start-up: closed breaker, fresh health record, in rotation. -/
theorem Booted.cell_eq (h : Booted cfg g) {id : String} {c : Cell}
    (hc : g.cell id = some c) :
    c.breaker.state = .closed ∧ c.breaker.consecutiveFailures = 0 ∧
      c.stats = HealthStats.fresh ∧ c.backend.healthy = true ∧
      c.backend.status = .healthy ∧ c.backend.activeConnections = 0 ∧
      c.backend.adminDisabled = false := by
  obtain ⟨now, strategy, rfl⟩ := h.eq_initial
  obtain ⟨hb, hbr, hst⟩ := cell_eq_some_iff.mp hc
  obtain ⟨hhealthy, hstatus, hac, hadmin, -⟩ :=
    fresh_of_mem_createBackendPool (BackendPool.mem_of_find hb)
  have hmem : id ∈ (createBackendPool cfg.backends).ids := mem_ids_of_cell hc
  simp only [initial, hmem, if_true, Option.some.injEq] at hbr hst
  rw [← hbr, ← hst]
  exact ⟨rfl, rfl, rfl, hhealthy, hstatus, hac, hadmin⟩

theorem Booted.complete (h : Booted cfg g) :
    g.Complete := by
  obtain ⟨now, strategy, rfl⟩ := h.eq_initial
  intro id hid
  obtain ⟨b, hb⟩ := Option.isSome_iff_exists.mp (BackendPool.find_isSome_iff.mpr hid)
  have hpool : (createBackendPool cfg.backends).find id = some b := hb
  have hmem : id ∈ (createBackendPool cfg.backends).ids := hid
  simp [cell, initial, hpool, hmem]

theorem Booted.exchanges (h : Booted cfg g) :
    g.exchanges = [] := by
  obtain ⟨now, strategy, rfl⟩ := h.eq_initial
  rfl

theorem Reachable.complete (h : Reachable cfg g) :
    g.Complete :=
  Runs.Reachable.invariant (fun _ hs => hs.complete) (fun _ e hs _ => complete_step e hs) h

theorem Reachable.run_step (h : Reachable cfg g) (es : List Event) :
    Reachable cfg (run (step cfg) g es) :=
  Runs.Reachable.run h (eachStep_of_forall (fun _ _ => trivial))

/-- Pool ids are not empty, so the truthiness tests on them always succeed. -/
theorem Reachable.id_ne_empty (h : Reachable cfg g) {id : String} (hid : id ∈ g.pool.ids) :
    id ≠ "" := by
  have hinv : g.Complete ∧ ∀ id ∈ g.pool.ids, id ≠ "" := by
    refine Runs.Reachable.invariant (P := fun g => g.Complete ∧ ∀ id ∈ g.pool.ids, id ≠ "")
      ?_ ?_ h
    · intro g hboot
      refine ⟨hboot.complete, ?_⟩
      obtain ⟨now, strategy, rfl⟩ := hboot.eq_initial
      exact fun id hid => ne_empty_of_mem_createBackendPool hid
    · rintro g e ⟨hg, hne⟩ -
      refine ⟨complete_step e hg, ?_⟩
      rw [ids_step _ e hg]
      exact hne
  exact hinv.2 id hid

/-- What start-up establishes and every cell operation keeps holds of every
backend in every reachable state. -/
theorem Reachable.cell_invariant {P : Cell → Prop} (h : Reachable cfg g)
    (hboot : ∀ g, Booted cfg g → ∀ id c, g.cell id = some c → P c)
    (hstep : ∀ c op, P c → P (c.step cfg op))
    {id : String} {c : Cell} (hc : g.cell id = some c) :
    P c := by
  have hrun : ∀ ops c, P c → P (run (Cell.step cfg) c ops) := by
    intro ops
    induction ops with
    | nil => exact fun c hP => hP
    | cons op ops ih => exact fun c hP => ih _ (hstep c op hP)
  have hinv : g.Complete ∧ ∀ id c, g.cell id = some c → P c := by
    refine Runs.Reachable.invariant (P := fun g => g.Complete ∧ ∀ id c, g.cell id = some c → P c)
      (fun g hb => ⟨hb.complete, hboot g hb⟩) ?_ h
    rintro g e ⟨hg, hP⟩ -
    refine ⟨complete_step e hg, fun id c hc => ?_⟩
    rw [(performs_step cfg e hg).cell id] at hc
    obtain ⟨c₀, hc₀, rfl⟩ := Option.map_eq_some_iff.mp hc
    exact hrun _ _ (hP id c₀ hc₀)
  exact hinv.2 id c hc

end Boot

end Gateway

end SentinelADC
