import SentinelADC.GatewayStep

/-!
# Proxied requests under a step

An event changes at most one proxied request, by a function of that request
alone, except that the outcome of a router call also depends on the backends.
`exchangeAfter` is that function and `exchanges_step` the resulting list.
-/

namespace SentinelADC

open Runs KeyedList

/-- The request an event is about, unless it is a new one. -/
def Op.rid? : Op → Option Nat
  | .route rid => some rid
  | .proxyRes rid _ _ => some rid
  | .pipeBody rid => some rid
  | .proxyError rid _ _ _ => some rid
  | .resumeRetry rid => some rid
  | .finish rid => some rid
  | .close rid => some rid
  | _ => none

namespace Exchange

/-- A router call with the given outcome of the selection. -/
def onRoute (selection : Option SelectResult) (probe : String → Bool) (x : Exchange) :
    Exchange :=
  if x.phase = .routing then
    match x.targetBackend, selection with
    | some _, _ => { x with phase := .upstream }
    | none, some (.selected id) => x.attach id (probe id)
    | none, some .noneHealthy => { x with phase := .unrouted }
    | none, some .typeError => x.routingFailed
    | none, some .endless => x
    | none, none => x
  else x

def onProxyRes (x : Exchange) : Exchange :=
  if x.phase = .upstream then { x with phase := .streaming } else x

def onPipeBody (x : Exchange) : Exchange :=
  if x.phase = .streaming then { x with headersSent := true } else x

def onProxyError (random : Rat) (x : Exchange) : Exchange :=
  if x.awaitsError then x.afterError random else x

def onResumeRetry (x : Exchange) : Exchange :=
  if x.phase = .backoff then { x with phase := .routing } else x

def onFinish (x : Exchange) : Exchange :=
  if x.finished = true ∨ x.headersSent = false then x
  else { x.runSelections with finished := true }

def onClose (x : Exchange) : Exchange :=
  if x.closed then x else { x.runSelections with closed := true }

@[simp] theorem rid_onRoute (selection : Option SelectResult) (probe : String → Bool)
    (x : Exchange) :
    (x.onRoute selection probe).rid = x.rid := by
  simp only [onRoute]
  split_ifs
  · split <;> rfl
  · rfl

@[simp] theorem rid_afterError (random : Rat) (x : Exchange) :
    (x.afterError random).rid = x.rid := by
  unfold afterError
  dsimp only
  split_ifs <;> rfl

@[simp] theorem rid_onProxyError (random : Rat) (x : Exchange) :
    (x.onProxyError random).rid = x.rid := by
  simp only [onProxyError]
  split_ifs <;> simp

end Exchange

namespace Gateway

/-- The breaker of a backend is `HALF_OPEN` once the filter has asked it. -/
def probeAfter (cfg : Config) (now : Int) (g : Gateway) (id : String) : Bool :=
  match g.cell id with
  | none => false
  | some c => (c.consult cfg now).2.breaker.state = .halfOpen

/-- What an event does to the request it is about. -/
def exchangeAfter (cfg : Config) (g : Gateway) (e : Event) : Exchange → Exchange :=
  match e.op with
  | .route rid =>
      Exchange.onRoute (g.routerSelection cfg e.now rid) (g.probeAfter cfg e.now)
  | .proxyRes _ _ _ => Exchange.onProxyRes
  | .pipeBody _ => Exchange.onPipeBody
  | .proxyError _ _ _ random => Exchange.onProxyError random
  | .resumeRetry _ => Exchange.onResumeRetry
  | .finish _ => Exchange.onFinish
  | .close _ => Exchange.onClose
  | _ => fun x => x

@[simp] theorem rid_exchangeAfter (cfg : Config) (g : Gateway) (e : Event) (x : Exchange) :
    (g.exchangeAfter cfg e x).rid = x.rid := by
  obtain ⟨now, op⟩ := e
  cases op <;> simp only [exchangeAfter, Exchange.rid_onRoute, Exchange.rid_onProxyError]
  all_goals
    simp only [Exchange.onProxyRes, Exchange.onPipeBody, Exchange.onResumeRetry,
      Exchange.onFinish, Exchange.onClose]
    split_ifs <;> rfl

/-- Every backend has its records, and requests are numbered apart. -/
structure WellFormed (g : Gateway) : Prop where
  complete : g.Complete
  nodup_rids : (g.exchanges.map Exchange.rid).Nodup

/-- The requests after an event. -/
def exchangesAfter (cfg : Config) (g : Gateway) (e : Event) : List Exchange :=
  match e.op with
  | .request rid req =>
      match g.exchange rid with
      | some _ => g.exchanges
      | none => g.exchanges ++ [Exchange.start rid req]
  | op =>
      match op.rid? with
      | none => g.exchanges
      | some rid => updateKey Exchange.rid rid (g.exchangeAfter cfg e) g.exchanges

/-- Records of backends and their timers may differ, and nothing else does. -/
structure RecordsFrame (g g' : Gateway) : Prop where
  algorithm : g'.algorithm = g.algorithm
  strategy : g'.strategy = g.strategy
  memory : g'.memory = g.memory
  exchanges : g'.exchanges = g.exchanges

section Frame

variable {cfg : Config} {g g' g'' : Gateway} {id : String} {now : Int}

theorem RecordsFrame.refl (g : Gateway) :
    RecordsFrame g g :=
  ⟨rfl, rfl, rfl, rfl⟩

theorem RecordsFrame.trans (h : RecordsFrame g g') (h' : RecordsFrame g' g'') :
    RecordsFrame g g'' :=
  ⟨h'.algorithm.trans h.algorithm, h'.strategy.trans h.strategy, h'.memory.trans h.memory,
    h'.exchanges.trans h.exchanges⟩

theorem BreakerFrame.records (h : BreakerFrame g g') :
    RecordsFrame g g' :=
  ⟨by rw [h], h.strategy, h.memory, h.exchanges⟩

theorem records_recordResult (success : Bool) (latency : Rat) :
    RecordsFrame g (g.recordResult now id success latency) := by
  simp only [recordResult]
  split <;> exact ⟨rfl, rfl, rfl, rfl⟩

theorem records_healthCheck (outcome : CheckOutcome) :
    RecordsFrame g (g.healthCheck cfg now id outcome) := by
  simp only [healthCheck, checkBackend]
  split
  · exact RecordsFrame.refl g
  · cases outcome with
    | passed elapsed =>
        exact (records_recordResult _ _).trans breakerFrame_recordSuccess.records
    | badStatus status elapsed =>
        exact (records_recordResult _ _).trans (breakerFrame_recordFailure _).records
    | fetchError isTimeout message elapsed =>
        exact (records_recordResult _ _).trans (breakerFrame_recordFailure _).records

theorem records_healthOverride (healthy : Option Bool) :
    RecordsFrame g (g.settle (g.healthOverride id healthy)) := by
  simp only [healthOverride]
  cases healthy with
  | none => exact RecordsFrame.refl g
  | some healthy =>
      cases g.pool.find id with
      | none => exact RecordsFrame.refl g
      | some b =>
          dsimp only
          split <;> exact ⟨rfl, rfl, rfl, rfl⟩

theorem records_setWeight (weight : Option Int) :
    RecordsFrame g (g.settle (g.setWeight id weight)) := by
  simp only [setWeight]
  split
  · exact RecordsFrame.refl g
  · split_ifs
    · exact RecordsFrame.refl g
    · split <;> exact ⟨rfl, rfl, rfl, rfl⟩

theorem records_clearStoredTimer :
    RecordsFrame g (g.clearStoredTimer id) := by
  simp only [clearStoredTimer]
  split <;> exact ⟨rfl, rfl, rfl, rfl⟩

theorem records_modifyBackend (f : Backend → Backend) (hf : ∀ b, (f b).id = b.id) :
    RecordsFrame g (g.modifyBackend id f hf) :=
  ⟨rfl, rfl, rfl, rfl⟩

theorem records_dropStoredTimer :
    RecordsFrame g (g.dropStoredTimer id) := by
  have h : RecordsFrame g (g.clearStoredTimer id) := records_clearStoredTimer
  exact ⟨h.algorithm, h.strategy, h.memory, h.exchanges⟩

theorem records_completeDrain :
    RecordsFrame g (g.completeDrain id) :=
  records_dropStoredTimer.trans (records_modifyBackend _ _)

theorem records_drainBackend (timeoutSec : Int) :
    RecordsFrame g (g.settle (dropMessage (g.drainBackend now id timeoutSec))) := by
  unfold drainBackend
  split
  · exact RecordsFrame.refl g
  · dsimp only
    split_ifs
    · exact ⟨rfl, rfl, rfl, rfl⟩
    · exact (records_modifyBackend _ _).trans records_completeDrain
    · have htimer : RecordsFrame g
          (clearStoredTimer id (g.modifyBackend id (Backend.startDrain now)
            (Backend.id_startDrain now))) :=
        (records_modifyBackend _ _).trans records_clearStoredTimer
      exact ⟨htimer.algorithm, htimer.strategy, htimer.memory, htimer.exchanges⟩

theorem records_undrainBackend :
    RecordsFrame g (g.settle (dropMessage (g.undrainBackend id))) := by
  simp only [undrainBackend]
  split
  · exact RecordsFrame.refl g
  · exact records_dropStoredTimer.trans (records_modifyBackend _ _)

theorem records_fireDrainTimer (handle : Nat) :
    RecordsFrame g (g.fireDrainTimer now handle) := by
  unfold fireDrainTimer
  split
  · exact RecordsFrame.refl g
  · next timer _ =>
      have hfired : RecordsFrame g
          { g with pendingTimers := g.pendingTimers.filter (fun t => t.handle ≠ handle) } :=
        ⟨rfl, rfl, rfl, rfl⟩
      dsimp only
      split
      · exact hfired
      · split_ifs
        · exact hfired.trans records_completeDrain
        · exact hfired

theorem records_resetAllBreakers :
    RecordsFrame g (g.resetAllBreakers now) := by
  suffices h : ∀ (ids : List String) (g : Gateway),
      RecordsFrame g (ids.foldl (fun g id => g.resetBreaker now id) g) from h _ g
  intro ids
  induction ids with
  | nil => exact RecordsFrame.refl
  | cons id ids ih => exact fun g => breakerFrame_resetBreaker.records.trans (ih _)

theorem records_decrement :
    RecordsFrame g (g.decrement id) := by
  have hdisconnect :
      RecordsFrame g (g.modifyBackend id Backend.disconnect Backend.id_disconnect) :=
    records_modifyBackend _ _
  unfold decrement onDrainComplete
  dsimp only
  split
  · exact hdisconnect
  · split_ifs
    · split
      · exact hdisconnect
      · split_ifs
        · exact hdisconnect.trans records_completeDrain
        · exact hdisconnect
    · exact hdisconnect

theorem records_runDecrements (selections : List Selection) (g : Gateway) :
    RecordsFrame g (runDecrements selections g) := by
  induction selections generalizing g with
  | nil => exact RecordsFrame.refl g
  | cons s rest ih =>
      rw [runDecrements]
      split_ifs
      · exact ih g
      · exact records_decrement.trans (ih _)

theorem records_reportStatus (backendId : Option String) (status : Nat) :
    RecordsFrame g (g.reportStatus cfg now backendId status) := by
  simp only [reportStatus]
  split
  · exact RecordsFrame.refl g
  · split_ifs
    · exact (breakerFrame_recordFailure _).records
    · exact breakerFrame_recordSuccess.records
    · exact RecordsFrame.refl g

theorem records_reportError (backendId : Option String) (err : ProxyError) :
    RecordsFrame g (g.reportError cfg now backendId err) := by
  simp only [reportError]
  split
  · exact RecordsFrame.refl g
  · exact (breakerFrame_recordFailure _).records

@[simp] theorem exchanges_collect (backendId : Option String) (latency : Rat) (error : Bool) :
    (g.collect now backendId latency error).exchanges = g.exchanges := by
  simp only [collect]
  split <;> rfl

theorem exchanges_selectBackend (g : Gateway) (cfg : Config) (now : Int) (req : ClientRequest)
    (failedBackends : List String) :
    (g.selectBackend cfg now req failedBackends).2.exchanges = g.exchanges := by
  obtain ⟨memory, hsnd⟩ := selectBackend_snd g cfg now req
    failedBackends
  rw [hsnd]
  exact (breakerFrame_getHealthyBackends g cfg now).exchanges

end Frame

section OneExchange

variable {cfg : Config} {g : Gateway} {rid : Nat} {x : Exchange}

/-- Editing one request by two functions that agree on it. -/
theorem updateKey_exchange (hg : g.WellFormed) (hx : g.exchange rid = some x)
    {f f' : Exchange → Exchange} (h : f x = f' x) :
    updateKey Exchange.rid rid f g.exchanges = updateKey Exchange.rid rid f' g.exchanges := by
  apply updateKey_congr
  intro y hy hrid
  rw [eq_of_findKey hg.nodup_rids hx hy hrid, h]

theorem updateKey_exchange_self (hg : g.WellFormed) (hx : g.exchange rid = some x)
    {f : Exchange → Exchange} (h : f x = x) :
    updateKey Exchange.rid rid f g.exchanges = g.exchanges := by
  apply updateKey_eq_self
  intro y hy hrid
  rw [eq_of_findKey hg.nodup_rids hx hy hrid, h]

theorem updateKey_exchange_none (hx : g.exchange rid = none) (f : Exchange → Exchange) :
    updateKey Exchange.rid rid f g.exchanges = g.exchanges := by
  apply updateKey_eq_self
  intro y hy hrid
  have hsome : (findKey Exchange.rid rid g.exchanges).isSome :=
    findKey_isSome_iff.mpr (hrid ▸ List.mem_map_of_mem hy)
  have hnone : findKey Exchange.rid rid g.exchanges = none := hx
  simp [hnone] at hsome

/-- After the filter, a backend is half-open when its cell says so. -/
theorem isHalfOpen_selectBackend (cfg : Config) (now : Int) (id : String) (hg : g.Complete)
    (req : ClientRequest)
    (failedBackends : List String)
    (hsel : (g.selectBackend cfg now req failedBackends).1 = .selected id) :
    (g.selectBackend cfg now req failedBackends).2.isHalfOpen id =
      g.probeAfter cfg now id := by
  have hmem := mem_candidates_of_selected hg hsel
  obtain ⟨c, hc, -⟩ := healthy_of_admits (List.of_mem_filter hmem)
  have hafter := (moves_selectBackend cfg now hg req
    failedBackends).cell_some hc
  obtain ⟨-, hbr, -⟩ := cell_eq_some_iff.mp hafter
  simp [isHalfOpen, probeAfter, hbr, hc]

theorem exchanges_router (hg : g.WellFormed) (now : Int) :
    (g.router cfg now rid).exchanges =
      updateKey Exchange.rid rid
        (Exchange.onRoute (g.routerSelection cfg now rid) (g.probeAfter cfg now))
        g.exchanges := by
  cases hx : g.exchange rid with
  | none =>
      rw [updateKey_exchange_none hx]
      simp only [router, hx]
  | some x =>
      by_cases hphase : x.phase = .routing
      · cases htarget : x.targetBackend with
        | some target =>
            simp only [router, hx, hphase, htarget, ne_eq, not_true_eq_false, if_false]
            exact updateKey_exchange hg hx (by simp [Exchange.onRoute, hphase, htarget])
        | none =>
            have hsame := exchanges_selectBackend g cfg now x.request
              x.failedBackends
            have hprobe := fun id =>
              isHalfOpen_selectBackend cfg now id hg.complete x.request x.failedBackends
            simp only [router, routerSelection, hx, hphase, htarget, ne_eq,
              not_true_eq_false, if_false, and_self, if_true]
            rcases hs : g.selectBackend cfg now x.request x.failedBackends with ⟨result, g'⟩
            rw [hs] at hsame hprobe
            dsimp only at hsame hprobe
            cases result with
            | noneHealthy =>
                simp only [modifyExchange, hsame]
                exact updateKey_exchange hg hx (by simp [Exchange.onRoute, hphase, htarget])
            | typeError =>
                simp only [modifyExchange, hsame]
                exact updateKey_exchange hg hx (by simp [Exchange.onRoute, hphase, htarget])
            | endless =>
                dsimp only
                rw [hsame]
                exact (updateKey_exchange_self hg hx
                  (by simp [Exchange.onRoute, hphase, htarget])).symm
            | selected id =>
                simp only [modifyExchange, modifyBackend, hsame, hprobe id rfl]
                exact updateKey_exchange hg hx (by simp [Exchange.onRoute, hphase, htarget])
      · rw [updateKey_exchange_self hg hx (by simp [Exchange.onRoute, hphase])]
        simp only [router, hx, hphase, ne_eq, not_false_eq_true, if_true]

/-- A handler that looks up its request and edits it when a guard holds. -/
theorem exchanges_guarded (hg : g.WellFormed) {f : Exchange → Exchange}
    {g' : Gateway}
    (hnone : g.exchange rid = none → g'.exchanges = g.exchanges)
    (hsome : ∀ x, g.exchange rid = some x →
      (f x = x ∧ g'.exchanges = g.exchanges) ∨
      (∃ h, f x = h x ∧ g'.exchanges = updateKey Exchange.rid rid h g.exchanges)) :
    g'.exchanges = updateKey Exchange.rid rid f g.exchanges := by
  cases hx : g.exchange rid with
  | none => rw [updateKey_exchange_none hx, hnone hx]
  | some x =>
      rcases hsome x hx with ⟨hfix, hsame⟩ | ⟨h, hfx, hupdate⟩
      · rw [updateKey_exchange_self hg hx hfix, hsame]
      · rw [hupdate, updateKey_exchange hg hx hfx]

theorem exchanges_proxyRes (hg : g.WellFormed) (status : Nat) (latency : Rat) :
    (g.proxyRes cfg now rid status latency).exchanges =
      updateKey Exchange.rid rid Exchange.onProxyRes g.exchanges := by
  refine exchanges_guarded hg ?_ ?_
  · intro hx
    simp [proxyRes, hx]
  · intro x hx
    by_cases hphase : x.phase = .upstream
    · refine Or.inr ⟨fun x => { x with phase := .streaming }, ?_, ?_⟩
      · simp [Exchange.onProxyRes, hphase]
      · simp [proxyRes, hx, hphase, modifyExchange, (records_reportStatus _ _).exchanges]
    · refine Or.inl ⟨?_, ?_⟩
      · simp [Exchange.onProxyRes, hphase]
      · simp [proxyRes, hx, hphase]

theorem exchanges_pipeBody (hg : g.WellFormed) :
    (g.pipeBody rid).exchanges = updateKey Exchange.rid rid Exchange.onPipeBody g.exchanges := by
  refine exchanges_guarded hg ?_ ?_
  · intro hx
    simp [pipeBody, hx]
  · intro x hx
    by_cases hphase : x.phase = .streaming
    · refine Or.inr ⟨fun x => { x with headersSent := true }, ?_, ?_⟩
      · simp [Exchange.onPipeBody, hphase]
      · simp [pipeBody, hx, hphase, modifyExchange]
    · refine Or.inl ⟨?_, ?_⟩
      · simp [Exchange.onPipeBody, hphase]
      · simp [pipeBody, hx, hphase]

theorem exchanges_handleProxyError (hg : g.WellFormed) (err : ProxyError) (latency random : Rat) :
    (g.handleProxyError cfg now rid err latency random).exchanges =
      updateKey Exchange.rid rid (Exchange.onProxyError random) g.exchanges := by
  refine exchanges_guarded hg ?_ ?_
  · intro hx
    simp [handleProxyError, hx]
  · intro x hx
    by_cases hawait : x.awaitsError = true
    · refine Or.inr ⟨Exchange.afterError random, ?_, ?_⟩
      · simp [Exchange.onProxyError, hawait]
      · simp [handleProxyError, hx, hawait, modifyExchange, (records_reportError _ _).exchanges]
    · refine Or.inl ⟨?_, ?_⟩
      · simp [Exchange.onProxyError, hawait]
      · simp [handleProxyError, hx, hawait]

theorem exchanges_resumeRetry (hg : g.WellFormed) :
    (g.resumeRetry rid).exchanges =
      updateKey Exchange.rid rid Exchange.onResumeRetry g.exchanges := by
  refine exchanges_guarded hg ?_ ?_
  · intro hx
    simp [resumeRetry, hx]
  · intro x hx
    by_cases hphase : x.phase = .backoff
    · refine Or.inr ⟨fun x => { x with phase := .routing }, ?_, ?_⟩
      · simp [Exchange.onResumeRetry, hphase]
      · simp [resumeRetry, hx, hphase, modifyExchange]
    · refine Or.inl ⟨?_, ?_⟩
      · simp [Exchange.onResumeRetry, hphase]
      · simp [resumeRetry, hx, hphase]

theorem exchanges_responseFinish (hg : g.WellFormed) :
    (g.responseFinish rid).exchanges =
      updateKey Exchange.rid rid Exchange.onFinish g.exchanges := by
  refine exchanges_guarded hg ?_ ?_
  · intro hx
    simp [responseFinish, hx]
  · intro x hx
    by_cases hdone : x.finished = true ∨ x.headersSent = false
    · refine Or.inl ⟨?_, ?_⟩
      · simp only [Exchange.onFinish, if_pos hdone]
      · simp only [responseFinish, hx, if_pos hdone]
    · refine Or.inr ⟨fun x => { x.runSelections with finished := true }, ?_, ?_⟩
      · simp only [Exchange.onFinish, if_neg hdone]
      · simp only [responseFinish, hx, if_neg hdone, modifyExchange,
          (records_runDecrements _ _).exchanges]

theorem exchanges_responseClose (hg : g.WellFormed) :
    (g.responseClose rid).exchanges = updateKey Exchange.rid rid Exchange.onClose g.exchanges := by
  refine exchanges_guarded hg ?_ ?_
  · intro hx
    simp [responseClose, hx]
  · intro x hx
    cases hclosed : x.closed with
    | true =>
        refine Or.inl ⟨?_, ?_⟩
        · simp [Exchange.onClose, hclosed]
        · simp [responseClose, hx, hclosed]
    | false =>
        refine Or.inr ⟨fun x => { x.runSelections with closed := true }, ?_, ?_⟩
        · simp [Exchange.onClose, hclosed]
        · simp [responseClose, hx, hclosed, modifyExchange,
            (records_runDecrements _ _).exchanges]

/-- The list of requests after an event is the one `exchangesAfter` gives. -/
theorem exchanges_step (e : Event) (hg : g.WellFormed) :
    (g.step cfg e).exchanges = exchangesAfter cfg g e := by
  obtain ⟨now, op⟩ := e
  cases op with
  | healthCheck id outcome => exact (records_healthCheck outcome).exchanges
  | healthOverride id healthy => exact (records_healthOverride healthy).exchanges
  | setWeight id weight => exact (records_setWeight weight).exchanges
  | setAlgorithm algorithm =>
      simp only [step, exchangesAfter, Op.rid?, setAlgorithm]
      cases Strategy.getStrategy algorithm <;> rfl
  | drain id timeoutSec => exact (records_drainBackend timeoutSec).exchanges
  | undrain id => exact records_undrainBackend.exchanges
  | resetBreaker backendId =>
      simp only [step, exchangesAfter, Op.rid?, resetRoute]
      cases truthy backendId with
      | none => rfl
      | some id => exact breakerFrame_resetBreaker.exchanges
  | resetAllBreakers => exact records_resetAllBreakers.exchanges
  | status => exact (breakerFrame_getHealthyBackends _ _ _).exchanges
  | drainTimer handle => exact (records_fireDrainTimer handle).exchanges
  | request rid req =>
      simp only [step, exchangesAfter, request]
      cases g.exchange rid <;> rfl
  | route rid => exact exchanges_router hg now
  | proxyRes rid status latency => exact exchanges_proxyRes hg status latency
  | pipeBody rid => exact exchanges_pipeBody hg
  | proxyError rid err latency random => exact exchanges_handleProxyError hg err latency random
  | resumeRetry rid => exact exchanges_resumeRetry hg
  | finish rid => exact exchanges_responseFinish hg
  | close rid => exact exchanges_responseClose hg

end OneExchange

section Membership

variable {cfg : Config} {g : Gateway}

/-- A request after an event: edited if the event is about it. -/
def exchangeNext (cfg : Config) (g : Gateway) (e : Event) (x : Exchange) : Exchange :=
  if e.op.rid? = some x.rid then g.exchangeAfter cfg e x else x

/-- The request an event adds. -/
def newExchanges (g : Gateway) (e : Event) : List Exchange :=
  match e.op with
  | .request rid req => if (g.exchange rid).isSome then [] else [Exchange.start rid req]
  | _ => []

theorem exchangeNext_of_ne {e : Event} {x : Exchange} (h : e.op.rid? ≠ some x.rid) :
    g.exchangeNext cfg e x = x :=
  if_neg h

/-- An event edits the requests one by one and may add one at the end. -/
theorem exchanges_step_eq_map (e : Event) (hg : g.WellFormed) :
    (g.step cfg e).exchanges =
      g.exchanges.map (g.exchangeNext cfg e) ++ g.newExchanges e := by
  have hkeep : e.op.rid? = none →
      g.exchanges.map (g.exchangeNext cfg e) = g.exchanges := by
    intro hrid
    conv_rhs => rw [← List.map_id g.exchanges]
    exact List.map_congr_left (fun x _ => exchangeNext_of_ne (by simp [hrid]))
  have hedit : ∀ rid, e.op.rid? = some rid →
      g.exchanges.map (g.exchangeNext cfg e) =
        updateKey Exchange.rid rid (g.exchangeAfter cfg e) g.exchanges := by
    intro rid hrid
    refine List.map_congr_left (fun x _ => ?_)
    simp only [exchangeNext, hrid, Option.some.injEq, eq_comm]
  rw [exchanges_step e hg]
  obtain ⟨now, op⟩ := e
  cases op with
  | request rid req =>
      rw [hkeep rfl]
      simp only [exchangesAfter, newExchanges]
      cases g.exchange rid <;> simp
  | _ =>
      first
        | rw [hkeep rfl]; simp [exchangesAfter, newExchanges, Op.rid?]
        | rw [hedit _ rfl]; simp [exchangesAfter, newExchanges, Op.rid?]

/-- Every request survives an event in its edited form. -/
theorem exchangeNext_mem (cfg : Config) {x : Exchange} (e : Event) (hg : g.WellFormed)
    (hx : x ∈ g.exchanges) :
    g.exchangeNext cfg e x ∈ (g.step cfg e).exchanges := by
  rw [exchanges_step_eq_map e hg]
  exact List.mem_append_left _ (List.mem_map_of_mem hx)

/-- Every request after an event was there before it or is a new one. -/
theorem exchange_origin {x' : Exchange} (e : Event) (hg : g.WellFormed)
    (hx' : x' ∈ (g.step cfg e).exchanges) :
    (∃ x ∈ g.exchanges, x' = g.exchangeNext cfg e x) ∨
      ∃ rid req, e.op = .request rid req ∧ x' = Exchange.start rid req := by
  rw [exchanges_step_eq_map e hg] at hx'
  rcases List.mem_append.mp hx' with hold | hnew
  · obtain ⟨x, hx, rfl⟩ := List.mem_map.mp hold
    exact Or.inl ⟨x, hx, rfl⟩
  · refine Or.inr ?_
    simp only [newExchanges] at hnew
    split at hnew
    · next rid req hop =>
        split_ifs at hnew
        · simp at hnew
        · exact ⟨rid, req, hop, List.mem_singleton.mp hnew⟩
    · simp at hnew

end Membership

section WellFormedSteps

variable {cfg : Config} {g : Gateway}

theorem nodup_rids_exchangesAfter (e : Event) (hg : g.WellFormed) :
    ((exchangesAfter cfg g e).map Exchange.rid).Nodup := by
  have hedit : ∀ rid,
      ((updateKey Exchange.rid rid (g.exchangeAfter cfg e) g.exchanges).map
        Exchange.rid).Nodup := by
    intro rid
    rw [map_key_updateKey (rid_exchangeAfter cfg g e)]
    exact hg.nodup_rids
  simp only [exchangesAfter]
  split
  · next rid req _ =>
      split
      · exact hg.nodup_rids
      · next hx =>
          have hfresh : rid ∉ g.exchanges.map Exchange.rid := by
            rw [← findKey_isSome_iff]
            simp [show findKey Exchange.rid rid g.exchanges = none from hx]
          rw [List.map_append, List.nodup_append]
          refine ⟨hg.nodup_rids, by simp, ?_⟩
          intro a ha b hb heq
          have hbrid : b = rid := by
            simpa [Exchange.start] using hb
          exact hfresh (hbrid ▸ heq ▸ ha)
  · split
    · exact hg.nodup_rids
    · exact hedit _

theorem wellFormed_step (e : Event) (hg : g.WellFormed) :
    (g.step cfg e).WellFormed := by
  refine ⟨complete_step e hg.complete, ?_⟩
  rw [exchanges_step e hg]
  exact nodup_rids_exchangesAfter e hg

theorem Booted.wellFormed (h : Booted cfg g) :
    g.WellFormed :=
  ⟨h.complete, by simp [h.exchanges]⟩

theorem Reachable.wellFormed (h : Reachable cfg g) :
    g.WellFormed :=
  Runs.Reachable.invariant (fun _ hs => hs.wellFormed) (fun _ e hs _ => wellFormed_step e hs) h

/-- What new requests have and every edit keeps holds of every request in every
reachable state. -/
theorem Reachable.exchange_invariant {P : Exchange → Prop} (h : Reachable cfg g)
    (hstart : ∀ rid req, P (Exchange.start rid req))
    (hedit : ∀ (g : Gateway) e x, P x → P (g.exchangeAfter cfg e x))
    {x : Exchange} (hx : x ∈ g.exchanges) :
    P x := by
  have hinv : g.WellFormed ∧ ∀ x ∈ g.exchanges, P x := by
    refine Runs.Reachable.invariant (P := fun g => g.WellFormed ∧ ∀ x ∈ g.exchanges, P x)
      ?_ ?_ h
    · intro g hboot
      exact ⟨hboot.wellFormed, by simp [hboot.exchanges]⟩
    · rintro g e ⟨hg, hP⟩ -
      refine ⟨wellFormed_step e hg, fun x' hx' => ?_⟩
      rcases exchange_origin e hg hx' with ⟨x, hx, rfl⟩ | ⟨rid, req, -, rfl⟩
      · simp only [exchangeNext]
        split_ifs
        · exact hedit g e x (hP x hx)
        · exact hP x hx
      · exact hstart rid req
  exact hinv.2 x hx

end WellFormedSteps

end Gateway

end SentinelADC
