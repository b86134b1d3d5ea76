import SentinelADC.ProxyMiddleware
import SentinelADC.Lib.Runs

/-!
# Operations on one cell

Whatever the gateway does to a backend is a sequence of the operations listed
in `CellOp`.  The theorems below say which operations the callbacks of the
proxy middleware amount to; the operations of the other modules were treated
there.
-/

namespace SentinelADC

open Runs

/-- The operations that write the cell of a backend. -/
inductive CellOp where
  | consult (now : Int)
  | recordSuccess (now : Int)
  | recordFailure (now : Int) (error : String)
  | resetBreaker (now : Int)
  | recordResult (now : Int) (success : Bool) (latency : Rat)
  | override (healthy : Bool)
  | setWeight (weight : Nat)
  | drain (now : Int)
  | drainDeadline
  | undrain
  | connect
  | disconnect
deriving DecidableEq, Repr

/-- The operation asks or tells the breaker something. -/
def CellOp.usesBreaker : CellOp → Bool
  | .consult _ => true
  | .recordSuccess _ => true
  | .recordFailure _ _ => true
  | .resetBreaker _ => true
  | _ => false

/-- The operation writes the operator's mark, the weight or the count. -/
def CellOp.writesRecord : CellOp → Bool
  | .override _ => true
  | .setWeight _ => true
  | .connect => true
  | .disconnect => true
  | _ => false

namespace Cell

/-- `backend.weight = weight`. -/
def setWeight (weight : Nat) (c : Cell) : Cell :=
  { c with backend := { c.backend with weight := weight } }

/-- One operation. -/
def step (cfg : Config) (c : Cell) : CellOp → Cell
  | .consult now => (c.consult cfg now).2
  | .recordSuccess now => c.recordSuccess cfg now
  | .recordFailure now error => c.recordFailure cfg now error
  | .resetBreaker now => c.resetBreaker now
  | .recordResult now success latency => c.recordResult now success latency
  | .override healthy => c.override healthy
  | .setWeight weight => c.setWeight weight
  | .drain now => c.drain now
  | .drainDeadline => c.drainDeadline
  | .undrain => c.undrain
  | .connect => c.connect
  | .disconnect => c.disconnect

/-- What the filter can do to a cell. -/
theorem consult_cases (cfg : Config) (now : Int) (c : Cell) :
    (c.consult cfg now).2 = c ∨
      (cfg.enabled = true ∧ c.breaker.state = .opened ∧
        (c.consult cfg now).2 = c.enterHalfOpen now) ∨
      (cfg.enabled = true ∧ c.breaker.state = .halfOpen ∧
        (c.consult cfg now).2 = c.takePermit) := by
  simp only [consult]
  split_ifs
  · rcases canExecute_cases cfg now c with hc | ⟨hen, hs, -, hc⟩ | ⟨hen, hs, -, hc⟩
    · exact Or.inl hc
    · exact Or.inr (Or.inl ⟨hen, hs, hc⟩)
    · exact Or.inr (Or.inr ⟨hen, hs, hc⟩)
  · exact Or.inl rfl

/-- Only the filter and the breaker's own operations write the breaker. -/
theorem breaker_step {cfg : Config} {c : Cell} {op : CellOp} (hop : op.usesBreaker = false) :
    (c.step cfg op).breaker = c.breaker := by
  cases op with
  | consult now => simp [CellOp.usesBreaker] at hop
  | recordSuccess now => simp [CellOp.usesBreaker] at hop
  | recordFailure now error => simp [CellOp.usesBreaker] at hop
  | resetBreaker now => simp [CellOp.usesBreaker] at hop
  | drain now =>
      simp only [step, drain]
      split_ifs <;> rfl
  | drainDeadline =>
      simp only [step, drainDeadline]
      split_ifs <;> rfl
  | disconnect =>
      simp only [step, disconnect]
      split_ifs <;> rfl
  | _ => rfl

/-- Apart from the override, the weight and the counting of connections, the
operations write only health, status and the marks of draining. -/
theorem field_step {α : Type*} (field : Backend → α)
    (hfield : ∀ b healthy status drainStartTime onDrainComplete,
      field { b with healthy, status, drainStartTime, onDrainComplete } = field b)
    {cfg : Config} {c : Cell} {op : CellOp} (hop : op.writesRecord = false) :
    field (c.step cfg op).backend = field c.backend := by
  have hsync : ∀ s, field (c.backend.syncBreaker s) = field c.backend := by
    intro s
    cases s <;> exact hfield c.backend _ _ _ _
  cases op with
  | consult now =>
      rcases consult_cases cfg now c with hc | ⟨-, -, hc⟩ | ⟨-, -, hc⟩ <;> rw [step, hc]
      · exact hsync .halfOpen
      · rfl
  | recordSuccess now =>
      simp only [step, recordSuccess, transitionTo]
      split_ifs
      · rfl
      · rfl
      · exact hsync .closed
  | recordFailure now error =>
      simp only [step, recordFailure, transitionTo]
      split_ifs
      · rfl
      · rfl
      · exact hsync .opened
      · rfl
  | resetBreaker now =>
      simp only [step, resetBreaker, transitionTo]
      split_ifs
      · rfl
      · exact hsync .closed
  | recordResult now success latency =>
      simp only [step, recordResult, updateBackendHealthState]
      split_ifs <;> exact hfield c.backend _ _ _ _
  | override healthy => cases hop
  | setWeight weight => cases hop
  | drain now =>
      simp only [step, drain]
      split_ifs
      · rfl
      · exact hfield c.backend _ _ _ _
      · exact hfield c.backend _ _ _ _
  | drainDeadline =>
      simp only [step, drainDeadline]
      split_ifs
      · exact hfield c.backend _ _ _ _
      · rfl
  | undrain => exact hfield c.backend _ _ _ _
  | connect => cases hop
  | disconnect => cases hop

end Cell

/-- The operations performed on one id only. -/
def opsAt (id : String) (ops : List CellOp) : String → List CellOp :=
  fun id' => if id' = id then ops else []

@[simp] theorem opsAt_self (id : String) (ops : List CellOp) :
    opsAt id ops id = ops := by
  simp [opsAt]

theorem opsAt_ne {id id' : String} (hne : id' ≠ id) (ops : List CellOp) :
    opsAt id ops id' = [] := by
  simp [opsAt, hne]

/-- Closures for a backend that have not run yet. -/
def pendingDecrements (id : String) (selections : List Selection) : Nat :=
  selections.countP (fun s => s.backendId = id ∧ s.decremented = false)

@[simp] theorem pendingDecrements_nil (id : String) :
    pendingDecrements id [] = 0 := by
  rfl

namespace Gateway

/-- `Moves`, with the effect on each cell given by a list of operations. -/
def Performs (cfg : Config) (g g' : Gateway) (ops : String → List CellOp) : Prop :=
  Moves g g' (fun id c => run (Cell.step cfg) c (ops id))

section Performs

variable {cfg : Config} {g g' g'' : Gateway} {ops ops' : String → List CellOp}

theorem Performs.refl (cfg : Config) (g : Gateway) :
    Performs cfg g g (fun _ => []) :=
  Moves.refl g

theorem Performs.trans (h : Performs cfg g g' ops) (h' : Performs cfg g' g'' ops') :
    Performs cfg g g'' (fun id => ops id ++ ops' id) := by
  refine (Moves.trans h h').congr ?_
  intro id c _
  rw [run_append]

theorem Performs.congr (h : Performs cfg g g' ops) (heq : ∀ id, ops id = ops' id) :
    Performs cfg g g' ops' := by
  obtain rfl : ops = ops' := funext heq
  exact h

/-- An operation on a single id, as the modules of the managers state it. -/
theorem Performs.of_onlyAt {id : String} {f : Cell → Cell} {op : CellOp}
    (h : Moves g g' (onlyAt id f)) (hop : ∀ c, f c = c.step cfg op) :
    Performs cfg g g' (opsAt id [op]) := by
  refine h.congr ?_
  intro id' c _
  by_cases hid : id' = id
  · subst hid
    simp [hop]
  · simp [onlyAt_ne hid, opsAt_ne hid]

/-- Writes outside the cells perform nothing. -/
theorem Performs.of_eq (hpool : g'.pool = g.pool) (hbreakers : g'.breakers = g.breakers)
    (hstats : g'.stats = g.stats) :
    Performs cfg g g' (fun _ => []) :=
  Moves.of_eq hpool hbreakers hstats

theorem Performs.complete (h : Performs cfg g g' ops) (hg : g.Complete) :
    g'.Complete :=
  Moves.complete h hg

theorem Performs.cell_some (h : Performs cfg g g' ops) {id : String} {c : Cell}
    (hc : g.cell id = some c) :
    g'.cell id = some (run (Cell.step cfg) c (ops id)) :=
  Moves.cell_some h hc

/-- A write to one exchange performs nothing more. -/
theorem Performs.modifyExchange (h : Performs cfg g g' ops) (rid : Nat)
    (f : Exchange → Exchange) :
    Performs cfg g (g'.modifyExchange rid f) ops := by
  have hlast : Performs cfg g' (g'.modifyExchange rid f) (fun _ => []) :=
    Performs.of_eq rfl rfl rfl
  exact (h.trans hlast).congr (fun id => List.append_nil _)

end Performs

section ProxyOps

variable {cfg : Config} {g : Gateway} {id : String} {now : Int}

theorem moves_connect (hg : g.Complete) :
    Moves g (g.modifyBackend id Backend.connect Backend.id_connect)
      (onlyAt id Cell.connect) := by
  apply Moves.of_self hg
  · simp
  · intro c hc
    exact cell_modifyBackend_self _ hc
  · intro id' hne
    simp [hne]

theorem moves_decrement (hg : g.Complete) :
    Moves g (g.decrement id) (onlyAt id Cell.disconnect) := by
  apply Moves.of_self hg
  · unfold decrement onDrainComplete
    dsimp only
    split
    · simp
    · split_ifs
      · split
        · simp
        · split_ifs <;> simp
      · simp
  · intro c hc
    have hcell := cell_modifyBackend_self Backend.id_disconnect hc
    have hfind := (cell_eq_some_iff.mp hcell).1
    simp only [decrement, hfind, Cell.disconnect]
    by_cases hcallback :
        c.backend.disconnect.onDrainComplete = true ∧
          c.backend.disconnect.activeConnections = 0
    · rw [if_pos hcallback]
      simp only [onDrainComplete, hfind, hcallback, le_refl, and_true, true_and]
      split_ifs with hdraining
      · exact cell_completeDrain_self hcell
      · exact hcell
    · rw [if_neg hcallback, if_neg (fun h => hcallback ⟨h.1, h.2.1⟩)]
      exact hcell
  · intro id' hne
    unfold decrement onDrainComplete
    dsimp only
    split
    · simp [hne]
    · split_ifs
      · split
        · simp [hne]
        · split_ifs <;> simp [hne]
      · simp [hne]

theorem performs_runDecrements (cfg : Config) (selections : List Selection) (hg : g.Complete) :
    Performs cfg g (runDecrements selections g)
      (fun id => List.replicate (pendingDecrements id selections) .disconnect) := by
  induction selections generalizing g with
  | nil => exact Performs.refl cfg g
  | cons s rest ih =>
      cases hdone : s.decremented with
      | true =>
          simp only [runDecrements, hdone, if_true]
          refine (ih hg).congr (fun id => ?_)
          simp [pendingDecrements, hdone]
      | false =>
          have hfirst : Performs cfg g (g.decrement s.backendId)
              (opsAt s.backendId [.disconnect]) :=
            Performs.of_onlyAt (moves_decrement hg) (fun _ => rfl)
          simp only [runDecrements, hdone, Bool.false_eq_true, if_false]
          refine (hfirst.trans (ih (hfirst.complete hg))).congr (fun id => ?_)
          by_cases hid : id = s.backendId
          · subst hid
            simp [pendingDecrements, hdone, List.replicate_succ]
          · have hne : s.backendId ≠ id := fun h => hid h.symm
            simp [pendingDecrements, opsAt_ne hid, hne]

theorem performs_collect (cfg : Config) (g : Gateway) (now : Int) (backendId : Option String)
    (latency : Rat) (error : Bool) :
    Performs cfg g (g.collect now backendId latency error) (fun _ => []) := by
  simp only [collect]
  split
  · exact Performs.refl cfg g
  · exact Performs.of_eq rfl rfl rfl

/-- The breaker call of the `proxyRes` hook. -/
def statusOps (now : Int) (backendId : Option String) (status : Nat) : String → List CellOp :=
  match truthy backendId with
  | none => fun _ => []
  | some id =>
      if 500 ≤ status then opsAt id [.recordFailure now ("HTTP " ++ toString status)]
      else if status < 400 then opsAt id [.recordSuccess now]
      else fun _ => []

theorem performs_reportStatus (backendId : Option String) (status : Nat) (hg : g.Complete) :
    Performs cfg g (g.reportStatus cfg now backendId status)
      (statusOps now backendId status) := by
  cases hid : truthy backendId with
  | none =>
      simp only [reportStatus, statusOps, hid]
      exact Performs.refl cfg g
  | some id =>
      simp only [reportStatus, statusOps, hid]
      split_ifs
      · exact Performs.of_onlyAt (moves_recordFailure _ hg) (fun _ => rfl)
      · exact Performs.of_onlyAt (moves_recordSuccess hg) (fun _ => rfl)
      · exact Performs.refl cfg g

/-- The breaker call of the error hook. -/
def errorOps (now : Int) (backendId : Option String) (err : ProxyError) :
    String → List CellOp :=
  match truthy backendId with
  | none => fun _ => []
  | some id => opsAt id [.recordFailure now err.text]

theorem performs_reportError (backendId : Option String) (err : ProxyError)
    (hg : g.Complete) :
    Performs cfg g (g.reportError cfg now backendId err) (errorOps now backendId err) := by
  cases hid : truthy backendId with
  | none =>
      simp only [reportError, errorOps, hid]
      exact Performs.refl cfg g
  | some id =>
      simp only [reportError, errorOps, hid]
      exact Performs.of_onlyAt (moves_recordFailure _ hg) (fun _ => rfl)

/-- The selection a router call performs, if it performs one. -/
def routerSelection (cfg : Config) (now : Int) (rid : Nat) (g : Gateway) :
    Option SelectResult :=
  match g.exchange rid with
  | none => none
  | some x =>
      if x.phase = .routing ∧ x.targetBackend = none then
        some (g.selectBackend cfg now x.request x.failedBackends).1
      else none

/-- A router call asks every pool member for admission and connects to the
selected one. -/
def routerOps (cfg : Config) (now : Int) (rid : Nat) (g : Gateway) : String → List CellOp :=
  match g.routerSelection cfg now rid with
  | none => fun _ => []
  | some (.selected id) => fun id' => .consult now :: opsAt id [.connect] id'
  | some _ => fun _ => [.consult now]

theorem performs_selectBackend (cfg : Config) (now : Int) (hg : g.Complete) (req : ClientRequest)
    (failedBackends : List String) :
    Performs cfg g (g.selectBackend cfg now req failedBackends).2 (fun _ => [.consult now]) :=
  moves_selectBackend _ _ hg req failedBackends

theorem performs_router (rid : Nat) (hg : g.Complete) :
    Performs cfg g (g.router cfg now rid) (g.routerOps cfg now rid) := by
  simp only [routerOps, routerSelection]
  cases hx : g.exchange rid with
  | none =>
      simp only [router, hx]
      exact Performs.refl cfg g
  | some x =>
      by_cases hphase : x.phase = .routing
      · cases htarget : x.targetBackend with
        | some target =>
            simp only [router, hx, hphase, htarget, ne_eq, not_true_eq_false, if_false,
              reduceCtorEq, and_false]
            exact (Performs.refl cfg g).modifyExchange rid _
        | none =>
            have hselect :=
              performs_selectBackend cfg now hg x.request x.failedBackends
            simp only [router, hx, hphase, htarget, ne_eq, not_true_eq_false, if_false,
              and_self, if_true]
            rcases hs : g.selectBackend cfg now x.request x.failedBackends with ⟨result, g'⟩
            rw [hs] at hselect
            cases result with
            | noneHealthy => exact hselect.modifyExchange rid _
            | typeError => exact hselect.modifyExchange rid _
            | endless => exact hselect
            | selected id =>
                have hconnect : Performs cfg g'
                    (g'.modifyBackend id Backend.connect Backend.id_connect)
                    (opsAt id [.connect]) :=
                  Performs.of_onlyAt (moves_connect (hselect.complete hg)) (fun _ => rfl)
                exact (hselect.trans hconnect).modifyExchange rid _
      · simp only [router, hx, hphase, ne_eq, not_false_eq_true, if_true, false_and, if_false]
        exact Performs.refl cfg g

end ProxyOps

end Gateway

end SentinelADC
