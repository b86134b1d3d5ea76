import SentinelADC.ExchangeStep
import SentinelADC.Lib.TimerTable

/-!
# Drains that are under way

A drain waits for the last connection or for its deadline.  Other modules may
overwrite the status of the backend meanwhile and leave the callback and the
timer behind, and the next drain finds them.  Still, whenever the status is
`draining`, there is a connection to wait for, the callback is attached, and
the one timer that is pending is the one of the drain that set this status.
-/

namespace SentinelADC

open Runs TimerTable

/-- The operation counts connections. -/
def CellOp.counts : CellOp → Bool
  | .connect => true
  | .disconnect => true
  | _ => false

namespace Cell

variable {cfg : Config} {c : Cell} {op : CellOp}

/-- A backend that is draining has a connection to wait for and the callback
attached. -/
def Armed (c : Cell) : Prop :=
  c.backend.status = .draining →
    0 < c.backend.activeConnections ∧ c.backend.onDrainComplete = true

theorem not_draining_syncBreaker (s : CircuitState) (b : Backend) :
    (b.syncBreaker s).status ≠ .draining := by
  cases s <;> simp [Backend.syncBreaker]

theorem not_draining_updateBackendHealthState (stats : HealthStats) (b : Backend) :
    (updateBackendHealthState stats b).status ≠ .draining := by
  simp only [updateBackendHealthState]
  split_ifs <;> simp

theorem backend_transitionTo_of_draining {now : Int} {s : CircuitState}
    (h : (c.transitionTo now s).backend.status = .draining) :
    (c.transitionTo now s).backend = c.backend := by
  simp only [transitionTo] at h ⊢
  split_ifs at h ⊢ with hs
  · rfl
  · exact absurd h (not_draining_syncBreaker s c.backend)

/-- Only a drain sets the status `draining`, and what leaves it in force leaves
the backend alone, apart from its weight and the counting. -/
theorem backend_of_draining (hop : ∀ now, op ≠ .drain now)
    (h : (c.step cfg op).backend.status = .draining) :
    c.backend.status = .draining ∧
      (c.step cfg op).backend.onDrainComplete = c.backend.onDrainComplete ∧
      (op.counts = false →
        (c.step cfg op).backend.activeConnections = c.backend.activeConnections) := by
  suffices hcases : (c.step cfg op).backend = c.backend ∨
      (∃ weight, op = .setWeight weight) ∨ op.counts = true by
    rcases hcases with hsame | ⟨weight, rfl⟩ | hcounts
    · rw [hsame] at h ⊢
      exact ⟨h, rfl, fun _ => rfl⟩
    · exact ⟨h, rfl, fun _ => rfl⟩
    · cases op with
      | connect => exact ⟨h, rfl, fun hcounts => by cases hcounts⟩
      | disconnect =>
          simp only [step, disconnect] at h ⊢
          split_ifs at h ⊢ with hlast
          · cases h
          · exact ⟨h, rfl, fun hcounts => by cases hcounts⟩
      | _ => cases hcounts
  cases op with
  | consult now =>
      rcases consult_cases cfg now c with hc | ⟨-, -, hc⟩ | ⟨-, -, hc⟩ <;> rw [step, hc] at h ⊢
      · exact Or.inl rfl
      · exact absurd h (not_draining_syncBreaker .halfOpen c.backend)
      · exact Or.inl rfl
  | recordSuccess now =>
      simp only [step, recordSuccess] at h ⊢
      split_ifs at h ⊢
      · exact Or.inl rfl
      · exact Or.inl (backend_transitionTo_of_draining h)
  | recordFailure now error =>
      simp only [step, recordFailure] at h ⊢
      split_ifs at h ⊢
      · exact Or.inl rfl
      · exact Or.inl (backend_transitionTo_of_draining h)
      · exact Or.inl rfl
  | resetBreaker now => exact Or.inl (backend_transitionTo_of_draining h)
  | recordResult now success latency =>
      exact absurd h (not_draining_updateBackendHealthState _ _)
  | override healthy => cases healthy <;> cases h
  | setWeight weight => exact Or.inr (Or.inl ⟨weight, rfl⟩)
  | drain now => exact absurd rfl (hop now)
  | drainDeadline =>
      simp only [step, drainDeadline] at h ⊢
      split_ifs at h ⊢
      · cases h
      · exact Or.inl rfl
  | undrain => cases h
  | connect => exact Or.inr (Or.inr rfl)
  | disconnect => exact Or.inr (Or.inr rfl)

theorem armed_step (op : CellOp) (h : c.Armed) :
    (c.step cfg op).Armed := by
  intro hdraining
  cases op with
  | drain now =>
      simp only [step, drain] at hdraining ⊢
      split_ifs at hdraining ⊢ with hbefore hidle
      · exact h hbefore
      · cases hdraining
      · exact ⟨not_le.mp hidle, rfl⟩
  | connect =>
      obtain ⟨hactive, hcallback⟩ := h hdraining
      refine ⟨?_, hcallback⟩
      simp only [step, connect, Backend.connect]
      split_ifs <;> omega
  | disconnect =>
      obtain ⟨hbefore, hcallback, -⟩ := backend_of_draining (by simp) hdraining
      have hattached := (h hbefore).2
      rw [hcallback]
      refine ⟨?_, hattached⟩
      simp only [step, disconnect] at hdraining ⊢
      split_ifs at hdraining ⊢ with hlast
      · cases hdraining
      · -- the count is not zero, or the callback would have run
        have hnonzero : c.backend.disconnect.activeConnections ≠ 0 :=
          fun hzero => hlast ⟨hattached, hzero, hbefore⟩
        have hnonneg : 0 ≤ c.backend.disconnect.activeConnections := le_max_left _ _
        exact lt_of_le_of_ne hnonneg (Ne.symm hnonzero)
  | _ =>
      obtain ⟨hbefore, hcallback, hcount⟩ := backend_of_draining (by simp) hdraining
      rw [hcallback, hcount rfl]
      exact h hbefore

theorem draining_of_run {ops : List CellOp} (hops : ∀ now, .drain now ∉ ops)
    (h : (run (Cell.step cfg) c ops).backend.status = .draining) :
    c.backend.status = .draining := by
  induction ops generalizing c with
  | nil => exact h
  | cons op ops ih =>
      have hnext : (c.step cfg op).backend.status = .draining :=
        ih (fun now hmem => hops now (List.mem_cons_of_mem op hmem)) h
      exact (backend_of_draining (fun now hop => hops now (by simp [hop])) hnext).1

/-- The callback of the last connection completes the drain. -/
theorem offline_or_armed_disconnect (h : c.backend.status = .offline ∨
      c.backend.status = .draining ∧ c.Armed) :
    (c.step cfg .disconnect).backend.status = .offline ∨
      (c.step cfg .disconnect).backend.status = .draining ∧ (c.step cfg .disconnect).Armed := by
  rcases h with hoffline | ⟨hdraining, harmed⟩
  · left
    simp only [step, disconnect]
    split_ifs
    · rfl
    · exact hoffline
  · by_cases hstays : (c.step cfg .disconnect).backend.status = .draining
    · exact Or.inr ⟨hstays, armed_step _ harmed⟩
    · left
      simp only [step, disconnect] at hstays ⊢
      split_ifs at hstays ⊢
      · rfl
      · exact absurd hdraining hstays

theorem offline_or_armed_run {ops : List CellOp} (hops : ∀ op ∈ ops, op = .disconnect)
    (h : c.backend.status = .offline ∨ c.backend.status = .draining ∧ c.Armed) :
    (run (Cell.step cfg) c ops).backend.status = .offline ∨
      (run (Cell.step cfg) c ops).backend.status = .draining ∧
        (run (Cell.step cfg) c ops).Armed := by
  induction ops generalizing c with
  | nil => exact h
  | cons op ops ih =>
      obtain rfl := hops op List.mem_cons_self
      exact ih (fun op hop => hops op (List.mem_cons_of_mem _ hop)) (offline_or_armed_disconnect h)

theorem activeConnections_pos_step (hop : op ≠ .disconnect)
    (h : 0 < c.backend.activeConnections) :
    0 < (c.step cfg op).backend.activeConnections := by
  cases op with
  | connect =>
      simp only [step, connect, Backend.connect]
      split_ifs <;> omega
  | disconnect => exact absurd rfl hop
  | override healthy => exact h
  | setWeight weight => exact h
  | _ =>
      rw [field_step Backend.activeConnections (fun _ _ _ _ _ => rfl) rfl]
      exact h

theorem activeConnections_pos_run {ops : List CellOp} (hops : .disconnect ∉ ops)
    (h : 0 < c.backend.activeConnections) :
    0 < (run (Cell.step cfg) c ops).backend.activeConnections := by
  refine run_preserves (P := fun c : Cell => 0 < c.backend.activeConnections) h ?_
  intro op hop c hc
  exact activeConnections_pos_step (fun heq => hops (heq ▸ hop)) hc

end Cell

namespace Gateway

/-- The deadline timers and the handles the drain manager has stored. -/
def timers (g : Gateway) : TimerTable String DrainTimer where
  stored := g.drainTimers
  pending := g.pendingTimers
  next := g.nextTimer

/-- A pending deadline timer is the last one stored for its backend. -/
def TimersConsistent (g : Gateway) : Prop :=
  g.timers.Consistent DrainTimer.handle DrainTimer.backendId

/-- The status of `b` is `draining`. -/
def DrainingAt (b : String) (g : Gateway) : Prop :=
  (g.pool.find b).map Backend.status = some .draining

section Timers

variable {cfg : Config} {g g' g'' : Gateway} {b id : String} {now : Int}

theorem BreakerFrame.timers (h : BreakerFrame g g') :
    g'.timers = g.timers := by
  rw [h]
  rfl

theorem timers_clearStoredTimer :
    (g.clearStoredTimer id).timers = g.timers.cancel DrainTimer.handle id := by
  simp only [clearStoredTimer, TimerTable.cancel]
  have hstored : g.timers.stored id = g.drainTimers id := rfl
  rw [hstored]
  cases g.drainTimers id <;> rfl

theorem timers_dropStoredTimer :
    (g.dropStoredTimer id).timers = g.timers.drop DrainTimer.handle id := by
  have hclear : (g.clearStoredTimer id).timers = _ := timers_clearStoredTimer
  rw [TimerTable.drop, ← hclear]
  rfl

theorem timers_recordResult (success : Bool) (latency : Rat) :
    (g.recordResult now id success latency).timers = g.timers := by
  simp only [recordResult]
  split <;> rfl

theorem timers_healthCheck (outcome : CheckOutcome) :
    (g.healthCheck cfg now id outcome).timers = g.timers := by
  simp only [healthCheck]
  split
  · rfl
  · cases outcome with
    | passed elapsed =>
        exact breakerFrame_recordSuccess.timers.trans (timers_recordResult _ _)
    | badStatus status elapsed =>
        exact (breakerFrame_recordFailure _).timers.trans (timers_recordResult _ _)
    | fetchError isTimeout message elapsed =>
        exact (breakerFrame_recordFailure _).timers.trans (timers_recordResult _ _)

theorem timers_healthOverride (healthy : Option Bool) :
    (g.settle (g.healthOverride id healthy)).timers = g.timers := by
  simp only [healthOverride]
  cases healthy with
  | none => rfl
  | some healthy =>
      cases g.pool.find id with
      | none => rfl
      | some b =>
          dsimp only
          split <;> rfl

theorem timers_setWeight (weight : Option Int) :
    (g.settle (g.setWeight id weight)).timers = g.timers := by
  simp only [setWeight]
  split
  · rfl
  · split_ifs
    · rfl
    · split <;> rfl

theorem timers_resetAllBreakers :
    (g.resetAllBreakers now).timers = g.timers := by
  suffices h : ∀ (ids : List String) (g : Gateway),
      (ids.foldl (fun g id => g.resetBreaker now id) g).timers = g.timers from h _ g
  intro ids
  induction ids with
  | nil => exact fun g => rfl
  | cons id ids ih => exact fun g => (ih _).trans breakerFrame_resetBreaker.timers

theorem timers_selectBackend (req : ClientRequest) (failedBackends : List String) :
    (g.selectBackend cfg now req failedBackends).2.timers = g.timers := by
  obtain ⟨memory, hsnd⟩ := selectBackend_snd g cfg now req failedBackends
  rw [hsnd]
  exact (breakerFrame_getHealthyBackends g cfg now).timers

theorem timers_router (rid : Nat) :
    (g.router cfg now rid).timers = g.timers := by
  simp only [router]
  split
  · rfl
  · next x _ =>
      split_ifs
      · rfl
      · split
        · rfl
        · have hselect : (g.selectBackend cfg now x.request x.failedBackends).2.timers =
              g.timers := timers_selectBackend x.request x.failedBackends
          split <;> next heq => rw [heq] at hselect; exact hselect

theorem timers_collect (backendId : Option String) (latency : Rat) (error : Bool) :
    (g.collect now backendId latency error).timers = g.timers := by
  simp only [collect]
  split <;> rfl

theorem timers_reportStatus (backendId : Option String) (status : Nat) :
    (g.reportStatus cfg now backendId status).timers = g.timers := by
  simp only [reportStatus]
  split
  · rfl
  · split_ifs
    · exact (breakerFrame_recordFailure _).timers
    · exact breakerFrame_recordSuccess.timers
    · rfl

theorem timers_reportError (backendId : Option String) (err : ProxyError) :
    (g.reportError cfg now backendId err).timers = g.timers := by
  simp only [reportError]
  split
  · rfl
  · exact (breakerFrame_recordFailure _).timers

theorem timers_proxyRes (rid status : Nat) (latency : Rat) :
    (g.proxyRes cfg now rid status latency).timers = g.timers := by
  simp only [proxyRes]
  split
  · rfl
  · split_ifs
    · rfl
    · exact (timers_reportStatus _ _).trans (timers_collect _ _ _)

theorem timers_handleProxyError (rid : Nat) (err : ProxyError) (latency random : Rat) :
    (g.handleProxyError cfg now rid err latency random).timers = g.timers := by
  simp only [handleProxyError]
  split
  · rfl
  · split_ifs
    · rfl
    · exact (timers_reportError _ _).trans (timers_collect _ _ _)

/-- What a change that does not start a drain of `b` may do: the timers stay
consistent, and while `b` is draining, its timer is left alone. -/
structure KeepsDrain (b : String) (g g' : Gateway) : Prop where
  consistent : g.TimersConsistent → g'.TimersConsistent
  next_le : g.timers.next ≤ g'.timers.next
  keeps : g.TimersConsistent → g'.DrainingAt b →
    g.DrainingAt b ∧
      g'.timers.pendingOf DrainTimer.backendId b = g.timers.pendingOf DrainTimer.backendId b

theorem KeepsDrain.refl (b : String) (g : Gateway) :
    KeepsDrain b g g :=
  ⟨id, le_refl _, fun _ h => ⟨h, rfl⟩⟩

theorem KeepsDrain.trans (h : KeepsDrain b g g') (h' : KeepsDrain b g' g'') :
    KeepsDrain b g g'' := by
  refine ⟨h'.consistent ∘ h.consistent, h.next_le.trans h'.next_le, ?_⟩
  intro hg hdraining
  obtain ⟨hdraining', hsame'⟩ := h'.keeps (h.consistent hg) hdraining
  obtain ⟨hdraining, hsame⟩ := h.keeps hg hdraining'
  exact ⟨hdraining, hsame'.trans hsame⟩

theorem KeepsDrain.of_timers (htimers : g'.timers = g.timers)
    (hdraining : g'.DrainingAt b → g.DrainingAt b) :
    KeepsDrain b g g' := by
  refine ⟨fun hg => ?_, by rw [htimers], fun _ h => ⟨hdraining h, by rw [htimers]⟩⟩
  rw [TimersConsistent, htimers]
  exact hg

theorem drainingAt_modifyBackend_ne {f : Backend → Backend} (hf : ∀ b, (f b).id = b.id)
    (hne : b ≠ id) :
    (g.modifyBackend id f hf).DrainingAt b ↔ g.DrainingAt b := by
  simp only [DrainingAt, modifyBackend, BackendPool.find_modify_ne hf hne]

theorem drainingAt_modifyBackend_self {f : Backend → Backend} (hf : ∀ b, (f b).id = b.id) :
    (g.modifyBackend b f hf).DrainingAt b ↔
      ∃ backend, g.pool.find b = some backend ∧ (f backend).status = .draining := by
  simp [DrainingAt, modifyBackend]

theorem pool_clearStoredTimer :
    (g.clearStoredTimer id).pool = g.pool := by
  simp only [clearStoredTimer]
  split <;> rfl

/-- The end of a drain forgets the timer of the backend it ends for, and only
that one. -/
theorem KeepsDrain.drop (f : Backend → Backend) (hf : ∀ b, (f b).id = b.id)
    (hstatus : ∀ b, (f b).status ≠ .draining) :
    KeepsDrain b g ((g.dropStoredTimer id).modifyBackend id f hf) := by
  have htimers : ((g.dropStoredTimer id).modifyBackend id f hf).timers =
      g.timers.drop DrainTimer.handle id := timers_dropStoredTimer
  have hpool : (g.dropStoredTimer id).pool = g.pool := pool_clearStoredTimer
  refine ⟨?_, by rw [htimers, next_drop], ?_⟩
  · intro hg
    rw [TimersConsistent, htimers]
    exact hg.drop id
  · intro hg hdraining
    by_cases hid : b = id
    · subst hid
      obtain ⟨backend, -, hend⟩ := (drainingAt_modifyBackend_self hf).mp hdraining
      exact absurd hend (hstatus backend)
    · have hbefore := (drainingAt_modifyBackend_ne hf hid).mp hdraining
      rw [DrainingAt, hpool] at hbefore
      rw [htimers]
      exact ⟨hbefore, hg.pendingOf_drop_ne hid⟩

theorem keepsDrain_completeDrain (b id : String) (g : Gateway) :
    KeepsDrain b g (g.completeDrain id) :=
  KeepsDrain.drop _ _ (fun _ => by simp [Backend.finishDrain])

theorem keepsDrain_undrainBackend :
    KeepsDrain b g (g.settle (dropMessage (g.undrainBackend id))) := by
  simp only [undrainBackend]
  split
  · exact KeepsDrain.refl b g
  · exact KeepsDrain.drop _ _ (fun _ => by simp [Backend.undrain])

theorem keepsDrain_decrement :
    KeepsDrain b g (g.decrement id) := by
  have hdisconnect : KeepsDrain b g
      (g.modifyBackend id Backend.disconnect Backend.id_disconnect) := by
    refine KeepsDrain.of_timers rfl ?_
    by_cases hid : b = id
    · subst hid
      rw [drainingAt_modifyBackend_self]
      rintro ⟨backend, hfind, hstatus⟩
      rw [DrainingAt, hfind, Option.map_some]
      exact congrArg some hstatus
    · exact (drainingAt_modifyBackend_ne _ hid).mp
  unfold decrement onDrainComplete
  dsimp only
  split
  · exact hdisconnect
  · split_ifs
    · split
      · exact hdisconnect
      · split_ifs
        · exact hdisconnect.trans (keepsDrain_completeDrain b id _)
        · exact hdisconnect
    · exact hdisconnect

theorem keepsDrain_runDecrements (selections : List Selection) (g : Gateway) :
    KeepsDrain b g (runDecrements selections g) := by
  induction selections generalizing g with
  | nil => exact KeepsDrain.refl b g
  | cons s rest ih =>
      rw [runDecrements]
      split_ifs
      · exact ih g
      · exact keepsDrain_decrement.trans (ih _)

theorem keepsDrain_modifyExchange (rid : Nat) (f : Exchange → Exchange) :
    KeepsDrain b g (g.modifyExchange rid f) :=
  KeepsDrain.of_timers rfl (fun h => h)

theorem not_drainingAt_completeDrain :
    ¬ (g.completeDrain b).DrainingAt b := by
  intro hdraining
  obtain ⟨backend, -, hend⟩ := (drainingAt_modifyBackend_self _).mp hdraining
  cases hend

/-- The timer that runs is the one of its backend, and it ends the drain. -/
theorem keepsDrain_fireDrainTimer (handle : Nat) :
    KeepsDrain b g (g.fireDrainTimer now handle) := by
  unfold fireDrainTimer
  split
  · exact KeepsDrain.refl b g
  · next timer hdue =>
      have hmem : timer ∈ g.timers.pending := List.mem_of_find?_eq_some hdue
      have hhandle : timer.handle = handle := by
        have hfound := List.find?_some hdue
        simp only [decide_eq_true_eq] at hfound
        exact hfound.1
      have htimers : timers
          { g with pendingTimers := g.pendingTimers.filter (fun t => t.handle ≠ handle) } =
          g.timers.discard DrainTimer.handle handle := rfl
      have hconsistent : g.TimersConsistent → TimersConsistent
          { g with pendingTimers := g.pendingTimers.filter (fun t => t.handle ≠ handle) } :=
        fun hg => hg.discard handle
      dsimp only
      by_cases hid : b = timer.backendId
      · rw [← hid]
        cases hfind : g.pool.find b with
        | none =>
            refine ⟨hconsistent, le_refl _, fun _ hdraining => ?_⟩
            simp [DrainingAt, hfind] at hdraining
        | some backend =>
            dsimp only
            split_ifs with hstatus
            · have hend := keepsDrain_completeDrain b b
                { g with pendingTimers := g.pendingTimers.filter (fun t => t.handle ≠ handle) }
              exact ⟨hend.consistent ∘ hconsistent, hend.next_le,
                fun _ hdraining => absurd hdraining not_drainingAt_completeDrain⟩
            · refine ⟨hconsistent, le_refl _, fun _ hdraining => ?_⟩
              simp [DrainingAt, hfind, hstatus] at hdraining
      · have hfired : KeepsDrain b g
            { g with pendingTimers := g.pendingTimers.filter (fun t => t.handle ≠ handle) } := by
          refine ⟨hconsistent, le_refl _, fun hg hdraining => ⟨hdraining, ?_⟩⟩
          have hstored := hg.stored_of_mem timer hmem
          rw [hhandle] at hstored
          rw [htimers]
          exact hg.pendingOf_discard_ne hstored hid
        split
        · exact hfired
        · split_ifs
          · exact hfired.trans (keepsDrain_completeDrain b _ _)
          · exact hfired

/-- The event starts a drain of `b` that has to wait. -/
def startsDrain (b : String) (g : Gateway) (e : Event) : Bool :=
  match e.op with
  | .drain id _ =>
      id = b ∧ ∃ backend ∈ g.pool.find b,
        backend.status ≠ .draining ∧ 0 < backend.activeConnections
  | _ => false

/-- The deadline timer that a drain request sets. -/
def deadlineTimer (b : String) (g : Gateway) (e : Event) (timeoutSec : Int) : DrainTimer where
  handle := g.timers.next
  backendId := b
  timeoutSec := timeoutSec
  fireAt := e.now + timerDelay (timeoutSec * 1000)

theorem timers_drainBackend (now timeoutSec : Int) {backend : Backend}
    (hfind : g.pool.find id = some backend) (hstatus : backend.status ≠ .draining)
    (hactive : 0 < backend.activeConnections) :
    (g.settle (dropMessage (g.drainBackend now id timeoutSec))).timers =
      (g.timers.cancel DrainTimer.handle id).start id
        (g.deadlineTimer id ⟨now, .drain id timeoutSec⟩ timeoutSec) := by
  have hclear : ((g.modifyBackend id (Backend.startDrain now)
      (Backend.id_startDrain now)).clearStoredTimer id).timers =
        g.timers.cancel DrainTimer.handle id := timers_clearStoredTimer
  have hnext : ((g.modifyBackend id (Backend.startDrain now)
      (Backend.id_startDrain now)).clearStoredTimer id).nextTimer = g.timers.next :=
    (congrArg TimerTable.next hclear).trans next_cancel
  have hstart : ∀ g' : Gateway, (g'.startDrainTimer now id timeoutSec).timers =
      g'.timers.start id ⟨g'.nextTimer, id, timeoutSec, now + timerDelay (timeoutSec * 1000)⟩ :=
    fun _ => rfl
  simp only [drainBackend, hfind, hstatus, if_false, not_le.mpr hactive]
  refine (hstart _).trans ?_
  rw [hclear, hnext]
  rfl

/-- Any other drain request keeps what is under way. -/
theorem keepsDrain_drainBackend {timeoutSec : Int}
    (hstart : g.startsDrain b ⟨now, .drain id timeoutSec⟩ = false) :
    KeepsDrain b g (g.settle (dropMessage (g.drainBackend now id timeoutSec))) := by
  cases hfind : g.pool.find id with
  | none =>
      simp only [drainBackend, hfind]
      exact KeepsDrain.refl b g
  | some backend =>
      by_cases hstatus : backend.status = .draining
      · simp only [drainBackend, hfind, hstatus, if_true]
        exact KeepsDrain.refl b g
      · by_cases hidle : backend.activeConnections ≤ 0
        · simp only [drainBackend, hfind, hstatus, if_false, hidle, if_true]
          have hend := keepsDrain_completeDrain b id (g.modifyBackend id (Backend.startDrain now)
            (Backend.id_startDrain now))
          by_cases hid : b = id
          · subst hid
            exact ⟨hend.consistent, hend.next_le,
              fun _ hdraining => absurd hdraining not_drainingAt_completeDrain⟩
          · have hbegin : KeepsDrain b g (g.modifyBackend id (Backend.startDrain now)
                (Backend.id_startDrain now)) :=
              KeepsDrain.of_timers rfl (drainingAt_modifyBackend_ne _ hid).mp
            exact hbegin.trans hend
        · have hne : b ≠ id := by
            rintro rfl
            simp [startsDrain, hfind, hstatus, not_le.mp hidle] at hstart
          have htimers := timers_drainBackend now timeoutSec hfind hstatus (not_le.mp hidle)
          refine ⟨fun hg => ?_, ?_, fun hg hdraining => ?_⟩
          · rw [TimersConsistent, htimers]
            exact (hg.cancel id).start (hg.pendingOf_cancel_self id) rfl (by simp [deadlineTimer])
          · rw [htimers, next_start, next_cancel]
            exact Nat.le_succ _
          · constructor
            · simp only [drainBackend, hfind, hstatus, if_false, hidle] at hdraining
              have hattached := (drainingAt_modifyBackend_ne _ hne).mp hdraining
              have hpool : (startDrainTimer now id timeoutSec (clearStoredTimer id
                  (g.modifyBackend id (Backend.startDrain now)
                    (Backend.id_startDrain now)))).pool = _ := pool_clearStoredTimer
              rw [DrainingAt, hpool] at hattached
              exact (drainingAt_modifyBackend_ne _ hne).mp hattached
            · rw [htimers]
              exact (pendingOf_start_ne rfl hne).trans (hg.pendingOf_cancel_ne hne)

theorem drainingAt_iff {c : Cell} (hc : g.cell b = some c) :
    g.DrainingAt b ↔ c.backend.status = .draining := by
  rw [DrainingAt, (cell_eq_some_iff.mp hc).1, Option.map_some, Option.some.injEq]

theorem DrainingAt.exists_cell (h : g.DrainingAt b) (hg : g.Complete) :
    ∃ c, g.cell b = some c := by
  obtain ⟨backend, hfind, -⟩ := Option.map_eq_some_iff.mp h
  obtain ⟨c, hc, -⟩ := hg.exists_cell hfind
  exact ⟨c, hc⟩

/-- Only a drain request sets the status. -/
theorem drainingAt_of_step {e : Event} (hg : g.Complete)
    (hop : ∀ timeoutSec, e.op ≠ .drain b timeoutSec) (h : (g.step cfg e).DrainingAt b) :
    g.DrainingAt b := by
  obtain ⟨c', hc'⟩ := h.exists_cell (complete_step e hg)
  have hmem : b ∈ g.pool.ids := ids_step cfg e hg ▸ mem_ids_of_cell hc'
  obtain ⟨c, hc⟩ := Option.isSome_iff_exists.mp (hg b hmem)
  have hafter := cell_step cfg e hg hc
  rw [drainingAt_iff hafter] at h
  rw [drainingAt_iff hc]
  refine Cell.draining_of_run (fun now hmem => ?_) h
  obtain ⟨-, timeoutSec, hdrain⟩ := causes_of_mem_effects hmem
  exact hop timeoutSec hdrain

/-- An event that does not start a drain of `b` keeps the one under way. -/
theorem keepsDrain_step (cfg : Config) {e : Event} (hg : g.Complete)
    (hstart : g.startsDrain b e = false) :
    KeepsDrain b g (g.step cfg e) := by
  have hdraining : (∀ timeoutSec, e.op ≠ .drain b timeoutSec) →
      (g.step cfg e).DrainingAt b → g.DrainingAt b := drainingAt_of_step hg
  obtain ⟨now, op⟩ := e
  cases op with
  | healthCheck id outcome =>
      exact KeepsDrain.of_timers (timers_healthCheck outcome) (hdraining (by simp))
  | healthOverride id healthy =>
      exact KeepsDrain.of_timers (timers_healthOverride healthy) (hdraining (by simp))
  | setWeight id weight =>
      exact KeepsDrain.of_timers (timers_setWeight weight) (hdraining (by simp))
  | setAlgorithm algorithm =>
      refine KeepsDrain.of_timers ?_ (hdraining (by simp))
      simp only [step, setAlgorithm]
      cases Strategy.getStrategy algorithm <;> rfl
  | drain id timeoutSec => exact keepsDrain_drainBackend hstart
  | undrain id => exact keepsDrain_undrainBackend
  | resetBreaker backendId =>
      refine KeepsDrain.of_timers ?_ (hdraining (by simp))
      simp only [step, resetRoute]
      cases truthy backendId with
      | none => rfl
      | some id => exact breakerFrame_resetBreaker.timers
  | resetAllBreakers => exact KeepsDrain.of_timers timers_resetAllBreakers (hdraining (by simp))
  | status =>
      exact KeepsDrain.of_timers (breakerFrame_getHealthyBackends _ _ _).timers
        (hdraining (by simp))
  | drainTimer handle => exact keepsDrain_fireDrainTimer handle
  | request rid req =>
      refine KeepsDrain.of_timers ?_ (hdraining (by simp))
      simp only [step, request]
      cases g.exchange rid <;> rfl
  | route rid => exact KeepsDrain.of_timers (timers_router rid) (hdraining (by simp))
  | proxyRes rid status latency =>
      exact KeepsDrain.of_timers (timers_proxyRes rid status latency) (hdraining (by simp))
  | pipeBody rid =>
      refine KeepsDrain.of_timers ?_ (hdraining (by simp))
      rcases pipeBody_cases rid g with heq | ⟨f, heq⟩
      · exact congrArg timers heq
      · simp only [step, heq]
        rfl
  | proxyError rid err latency random =>
      exact KeepsDrain.of_timers (timers_handleProxyError rid err latency random)
        (hdraining (by simp))
  | resumeRetry rid =>
      refine KeepsDrain.of_timers ?_ (hdraining (by simp))
      rcases resumeRetry_cases rid g with heq | ⟨f, heq⟩
      · exact congrArg timers heq
      · simp only [step, heq]
        rfl
  | finish rid =>
      rcases responseFinish_cases rid g with heq | ⟨selections, f, heq⟩ <;> simp only [step, heq]
      · exact KeepsDrain.refl b g
      · exact (keepsDrain_runDecrements _ g).trans (keepsDrain_modifyExchange _ _)
  | close rid =>
      rcases responseClose_cases rid g with heq | ⟨selections, f, heq⟩ <;> simp only [step, heq]
      · exact KeepsDrain.refl b g
      · exact (keepsDrain_runDecrements _ g).trans (keepsDrain_modifyExchange _ _)

/-- An event that starts a drain of `b` sets the one timer that is pending for it. -/
theorem timers_step_of_startsDrain (cfg : Config) {e : Event} (hg : g.TimersConsistent)
    (hstart : g.startsDrain b e = true) :
    (g.step cfg e).TimersConsistent ∧ g.timers.next ≤ (g.step cfg e).timers.next ∧
      ¬ g.DrainingAt b ∧ ∃ timeoutSec, e.op = .drain b timeoutSec ∧
        (g.step cfg e).timers.pendingOf DrainTimer.backendId b =
          [g.deadlineTimer b e timeoutSec] := by
  obtain ⟨now, op⟩ := e
  cases op with
  | drain id timeoutSec =>
      simp only [startsDrain, decide_eq_true_eq] at hstart
      obtain ⟨rfl, backend, hfind, hstatus, hactive⟩ := hstart
      have htimers : (g.step cfg ⟨now, .drain id timeoutSec⟩).timers = _ :=
        timers_drainBackend now timeoutSec hfind hstatus hactive
      have hnone := hg.pendingOf_cancel_self id
      refine ⟨?_, ?_, ?_, timeoutSec, rfl, ?_⟩
      · rw [TimersConsistent, htimers]
        exact (hg.cancel id).start hnone rfl (by simp [deadlineTimer])
      · rw [htimers, next_start, next_cancel]
        exact Nat.le_succ _
      · have hfind' : g.pool.find id = some backend := hfind
        simp [DrainingAt, hfind', hstatus]
      · rw [htimers]
        exact pendingOf_start_self hnone rfl
  | _ => cases hstart

theorem timersConsistent_step (cfg : Config) (e : Event) (hg : g.Complete)
    (htimers : g.TimersConsistent) :
    (g.step cfg e).TimersConsistent ∧ g.timers.next ≤ (g.step cfg e).timers.next := by
  by_cases hstart : ∃ b, g.startsDrain b e = true
  · obtain ⟨b, hstart⟩ := hstart
    obtain ⟨hafter, hnext, -⟩ := timers_step_of_startsDrain cfg htimers hstart
    exact ⟨hafter, hnext⟩
  · have hkeeps := keepsDrain_step (b := "") cfg hg
      (Bool.eq_false_iff.mpr (fun h => hstart ⟨_, h⟩))
    exact ⟨hkeeps.consistent htimers, hkeeps.next_le⟩

theorem Reachable.timersConsistent (h : Reachable cfg g) :
    g.TimersConsistent := by
  have hinv : g.Complete ∧ g.TimersConsistent := by
    refine Runs.Reachable.invariant (P := fun g : Gateway => g.Complete ∧ g.TimersConsistent)
      ?_ ?_ h
    · intro g hboot
      refine ⟨hboot.complete, ?_⟩
      obtain ⟨now, strategy, rfl⟩ := hboot.eq_initial
      exact consistent_empty 0
    · rintro g e ⟨hg, htimers⟩ -
      exact ⟨complete_step e hg, (timersConsistent_step cfg e hg htimers).1⟩
  exact hinv.2

/-- Handles are handed out in increasing order. -/
theorem Reachable.next_le_run (h : Reachable cfg g) (es : List Event) :
    g.timers.next ≤ (run (step cfg) g es).timers.next := by
  induction es generalizing g with
  | nil => exact le_refl _
  | cons e es ih =>
      have hstep := (timersConsistent_step cfg e h.complete h.timersConsistent).2
      exact hstep.trans (ih (h.run_step [e]))

theorem Reachable.armed {c : Cell} (h : Reachable cfg g) (hc : g.cell b = some c) :
    c.Armed := by
  refine h.cell_invariant ?_ (fun c op hP => Cell.armed_step op hP) hc
  intro g hboot id c hc hdraining
  obtain ⟨-, -, -, -, hstatus, -⟩ := hboot.cell_eq hc
  rw [hstatus] at hdraining
  cases hdraining

/-- Only the end of a response counts connections off, and it does nothing
else to a backend. -/
theorem effects_disconnect (cfg : Config) (g : Gateway) (e : Event) (b : String) :
    .disconnect ∉ effects cfg g e b ∨ ∀ op ∈ effects cfg g e b, op = .disconnect := by
  by_cases hmem : .disconnect ∈ effects cfg g e b
  · right
    obtain ⟨rid, hop⟩ := causes_of_mem_effects hmem
    intro op hop'
    cases hx : g.exchange rid with
    | none => rcases hop with hop | hop <;> simp [effects, hop, hx] at hop'
    | some x =>
        rcases hop with hop | hop <;>
          simp only [effects, hop, hx] at hop' <;>
          split_ifs at hop'
        · cases hop'
        · exact List.eq_of_mem_replicate hop'
        · cases hop'
        · exact List.eq_of_mem_replicate hop'
  · exact Or.inl hmem

/-- The event that takes the last connection sets a draining backend offline. -/
theorem offline_of_step {e : Event} {c c' : Cell} (hg : Reachable cfg g) (hc : g.cell b = some c)
    (hdraining : c.backend.status = .draining) (hc' : (g.step cfg e).cell b = some c')
    (hlast : c'.backend.activeConnections ≤ 0) :
    c'.backend.status = .offline := by
  have hafter := cell_step cfg e hg.complete hc
  obtain rfl : run (Cell.step cfg) c (effects cfg g e b) = c' :=
    Option.some.inj (hafter.symm.trans hc')
  have harmed := hg.armed hc
  rcases effects_disconnect cfg g e b with hnone | honly
  · have hpos : 0 < (run (Cell.step cfg) c (effects cfg g e b)).backend.activeConnections :=
      Cell.activeConnections_pos_run hnone (harmed hdraining).1
    omega
  · have hend : (run (Cell.step cfg) c (effects cfg g e b)).backend.status = .offline ∨ _ :=
      Cell.offline_or_armed_run honly (Or.inr ⟨hdraining, harmed⟩)
    rcases hend with hoffline | ⟨hdraining', harmed'⟩
    · exact hoffline
    · have := (harmed' hdraining').1
      omega

end Timers

section Runs

variable {cfg : Config} {g₀ : Gateway} {es : List Event} {b : String}

/-- `timer` was set by the drain request that put `b` in its present status, and
no timer that was pending before that has its handle. -/
def SetByDrain (cfg : Config) (g₀ : Gateway) (es : List Event) (b : String)
    (timer : DrainTimer) : Prop :=
  ∃ pre e post timeoutSec, es = pre ++ e :: post ∧ e.op = .drain b timeoutSec ∧
    timer = (run (step cfg) g₀ pre).deadlineTimer b e timeoutSec ∧
    ¬ (run (step cfg) g₀ pre).DrainingAt b ∧
    (∀ later, later <+: post → (run (step cfg) g₀ (pre ++ e :: later)).DrainingAt b) ∧
    ∀ earlier, earlier <+: pre →
      ∀ t ∈ (run (step cfg) g₀ earlier).pendingTimers, t.handle ≠ timer.handle

/-- A drain that goes on is still the same. -/
theorem SetByDrain.concat {timer : DrainTimer} (h : SetByDrain cfg g₀ es b timer) {e : Event}
    (hdraining : (run (step cfg) g₀ (es ++ [e])).DrainingAt b) :
    SetByDrain cfg g₀ (es ++ [e]) b timer := by
  obtain ⟨pre, e₀, post, timeoutSec, rfl, hop, htimer, hbefore, hsince, hothers⟩ := h
  refine ⟨pre, e₀, post ++ [e], timeoutSec, by simp, hop, htimer, hbefore, ?_, hothers⟩
  intro later hlater
  rcases List.prefix_concat_iff.mp hlater with rfl | hlater
  · simpa using hdraining
  · exact hsince later hlater

/-- Whenever `b` is draining, the timer of the drain that set the status is the
only one that is pending for it. -/
theorem drainingAt_timer (hboot : Booted cfg g₀)
    (hdraining : (run (step cfg) g₀ es).DrainingAt b) :
    ∃ timer, (run (step cfg) g₀ es).timers.pendingOf DrainTimer.backendId b = [timer] ∧
      SetByDrain cfg g₀ es b timer := by
  have hstart : Reachable cfg g₀ := .start hboot
  have hreach : ∀ es, Reachable cfg (run (step cfg) g₀ es) := hstart.run_step
  induction es using List.reverseRecOn with
  | nil =>
      obtain ⟨c, hc⟩ := hdraining.exists_cell hboot.complete
      obtain ⟨-, -, -, -, hstatus, -⟩ := hboot.cell_eq hc
      have hnow := (drainingAt_iff hc).mp hdraining
      rw [hstatus] at hnow
      cases hnow
  | append_singleton es e ih =>
      have hrun : run (step cfg) g₀ (es ++ [e]) = (run (step cfg) g₀ es).step cfg e := by
        rw [run_append, run_cons, run_nil]
      cases hstart : (run (step cfg) g₀ es).startsDrain b e with
      | false =>
          have hkeeps := keepsDrain_step cfg (hreach es).complete hstart
          rw [← hrun] at hkeeps
          obtain ⟨hbefore, hsame⟩ := hkeeps.keeps (hreach es).timersConsistent hdraining
          obtain ⟨timer, hpending, hset⟩ := ih hbefore
          exact ⟨timer, hsame.trans hpending, hset.concat hdraining⟩
      | true =>
          obtain ⟨-, -, hbefore, timeoutSec, hop, hpending⟩ :=
            timers_step_of_startsDrain cfg (hreach es).timersConsistent hstart
          rw [← hrun] at hpending
          refine ⟨_, hpending, es, e, [], timeoutSec, rfl, hop, rfl, hbefore, ?_, ?_⟩
          · intro later hlater
            rw [List.prefix_nil.mp hlater]
            exact hdraining
          · intro earlier hearlier t ht
            obtain ⟨rest, rfl⟩ := hearlier
            have hlt := (hreach earlier).timersConsistent.handle_lt ht
            have hle := (hreach earlier).next_le_run rest
            rw [← run_append] at hle
            exact Nat.ne_of_lt (hlt.trans_le hle)

/--
A draining backend can always complete: it has a connection to wait for and the
callback attached, and the one timer that is pending for it is the one of the
drain that set its status.  The decrement that takes its last connection sets it
offline, and no other timer touches it, in particular none that was set before.
-/
theorem draining_completes {backend : Backend} (hboot : Booted cfg g₀)
    (hfind : (run (step cfg) g₀ es).pool.find b = some backend)
    (hstatus : backend.status = .draining) :
    0 < backend.activeConnections ∧ backend.onDrainComplete = true ∧
      (∃ timer, (run (step cfg) g₀ es).pendingTimers.filter (fun t => t.backendId = b) = [timer] ∧
        SetByDrain cfg g₀ es b timer ∧
        ∀ now handle, handle ≠ timer.handle →
          ((run (step cfg) g₀ es).fireDrainTimer now handle).pool.find b = some backend) ∧
      (backend.activeConnections = 1 →
        (((run (step cfg) g₀ es).decrement b).pool.find b).map Backend.status = some .offline) ∧
      ∀ e backend', ((run (step cfg) g₀ es).step cfg e).pool.find b = some backend' →
        backend'.activeConnections ≤ 0 → backend'.status = .offline := by
  have hstart : Reachable cfg g₀ := .start hboot
  have hreach := hstart.run_step es
  have hdraining : (run (step cfg) g₀ es).DrainingAt b := by
    rw [DrainingAt, hfind, Option.map_some, hstatus]
  obtain ⟨c, hc⟩ := hdraining.exists_cell hreach.complete
  obtain rfl : backend = c.backend := Option.some.inj (hfind.symm.trans (cell_eq_some_iff.mp hc).1)
  obtain ⟨hactive, hcallback⟩ := hreach.armed hc hstatus
  refine ⟨hactive, hcallback, ?_, ?_, ?_⟩
  · obtain ⟨timer, hpending, hset⟩ := drainingAt_timer hboot hdraining
    refine ⟨timer, hpending, hset, ?_⟩
    intro now handle hother
    have hmoves := moves_fireDrainTimer now handle hreach.complete
    have hcell : ((run (step cfg) g₀ es).fireDrainTimer now handle).cell b = some c := by
      rw [hmoves.cell_some hc]
      cases hdue : (run (step cfg) g₀ es).dueTimer now handle with
      | none => rfl
      | some t =>
          -- a timer of `b` would be the one with the other handle
          have hne : b ≠ t.backendId := by
            intro hid
            have hmem : t ∈ (run (step cfg) g₀ es).timers.pendingOf DrainTimer.backendId b :=
              List.mem_filter.mpr ⟨List.mem_of_find?_eq_some hdue, by simp [hid]⟩
            rw [hpending, List.mem_singleton] at hmem
            have hhandle := List.find?_some hdue
            simp only [decide_eq_true_eq] at hhandle
            exact hother (hmem ▸ hhandle.1.symm)
          exact congrArg some (onlyAt_ne hne _ _)
    exact (cell_eq_some_iff.mp hcell).1
  · intro hone
    have hdecrement : Moves _ _ (onlyAt b Cell.disconnect) := moves_decrement hreach.complete
    have hmoves := hdecrement.cell_some hc
    rw [onlyAt_self] at hmoves
    have hzero : c.backend.disconnect.activeConnections = 0 := by
      simp [Backend.disconnect, hone]
    have hlast : c.disconnect = { c with backend := c.backend.disconnect.finishDrain } :=
      if_pos ⟨hcallback, hzero, hstatus⟩
    rw [hlast] at hmoves
    rw [(cell_eq_some_iff.mp hmoves).1]
    rfl
  · intro e backend' hfind' hlast
    have hcomplete : ((run (step cfg) g₀ es).step cfg e).Complete :=
      complete_step e hreach.complete
    obtain ⟨c', hc', rfl⟩ := hcomplete.exists_cell hfind'
    exact offline_of_step hreach hc hstatus hc' hlast

/-- The first backend is drained while it serves a request. -/
def drainingRun : List Event :=
  [⟨0, .request 0 ⟨"GET", "/", none, none, none, none⟩⟩, ⟨0, .route 0⟩,
    ⟨5, .drain "backend-1" 30⟩]

def drainingSample : Backend :=
  { createBackend 0 "http://localhost:4001" with
    healthy := false
    status := .draining
    activeConnections := 1
    drainStartTime := some 5
    onDrainComplete := true }

theorem draining_completes_sample :
    ∃ timer, (run (step (Config.default (fun _ => 0))) sampleGateway
        drainingRun).pendingTimers.filter (fun t => t.backendId = "backend-1") = [timer] ∧
      SetByDrain (Config.default (fun _ => 0)) sampleGateway drainingRun "backend-1" timer ∧
      ∀ now handle, handle ≠ timer.handle →
        ((run (step (Config.default (fun _ => 0))) sampleGateway
          drainingRun).fireDrainTimer now handle).pool.find "backend-1" = some drainingSample := by
  have hboot : Booted (Config.default (fun _ => 0)) sampleGateway := ⟨0, rfl⟩
  have hfind : (run (step (Config.default (fun _ => 0))) sampleGateway
      drainingRun).pool.find "backend-1" = some drainingSample := by decide
  exact (draining_completes hboot hfind rfl).2.2.1

end Runs

end Gateway

end SentinelADC
