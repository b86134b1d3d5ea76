import SentinelADC.BackendCell

/-!
# Connection drain manager

`admin/connectionDrainManager.js`.  A drain takes a backend out of rotation,
waits for its in-flight connections and then marks it offline; a deadline timer
forces the last step.  The state of a drain is spread over three places: the
fields of the pool object, the manager's `drainTimers` map and the timers that
the event loop still holds.
-/

namespace SentinelADC

namespace Backend

/-- The fields a new drain writes first. -/
def startDrain (now : Int) (b : Backend) : Backend :=
  { b with healthy := false, status := .draining, drainStartTime := some now }

/-- Attach the completion callback. -/
def attachDrainCallback (b : Backend) : Backend :=
  { b with onDrainComplete := true }

/-- The fields written by `completeDrain`. -/
def finishDrain (b : Backend) : Backend :=
  { b with status := .offline, healthy := false, onDrainComplete := false }

/-- The fields written by `undrainBackend`. -/
def undrain (b : Backend) : Backend :=
  { b with
    onDrainComplete := false
    drainStartTime := none
    status := .healthy
    healthy := true }

@[simp] theorem id_startDrain (now : Int) (b : Backend) :
    (b.startDrain now).id = b.id := by
  rfl

@[simp] theorem id_attachDrainCallback (b : Backend) :
    b.attachDrainCallback.id = b.id := by
  rfl

@[simp] theorem id_finishDrain (b : Backend) :
    b.finishDrain.id = b.id := by
  rfl

@[simp] theorem id_undrain (b : Backend) :
    b.undrain.id = b.id := by
  rfl

end Backend

/-- The delay `setTimeout` really uses: values outside the 32-bit range and
values below one are replaced by one millisecond. -/
def timerDelay (ms : Int) : Int :=
  if 2147483647 < ms ∨ ms < 1 then 1 else ms

namespace Gateway

/-- `clearTimeout` on the handle stored for a backend. -/
def clearStoredTimer (id : String) (g : Gateway) : Gateway :=
  match g.drainTimers id with
  | none => g
  | some handle =>
      { g with pendingTimers := g.pendingTimers.filter (fun t => t.handle ≠ handle) }

/-- `clearTimeout` and removal from `drainTimers`. -/
def dropStoredTimer (id : String) (g : Gateway) : Gateway :=
  { g.clearStoredTimer id with drainTimers := Function.update g.drainTimers id none }

/-- `setTimeout` of the deadline, with its handle stored in `drainTimers`. -/
def startDrainTimer (now : Int) (id : String) (timeoutSec : Int) (g : Gateway) :
    Gateway :=
  { g with
    pendingTimers := g.pendingTimers ++
      [{ handle := g.nextTimer
         backendId := id
         timeoutSec := timeoutSec
         fireAt := now + timerDelay (timeoutSec * 1000) }]
    nextTimer := g.nextTimer + 1
    drainTimers := Function.update g.drainTimers id (some g.nextTimer) }

/-- Complete a drain and set the backend offline. -/
def completeDrain (id : String) (g : Gateway) : Gateway :=
  (g.dropStoredTimer id).modifyBackend id Backend.finishDrain Backend.id_finishDrain

/-- Start draining a backend.  The result carries the message of the reply. -/
def drainBackend (now : Int) (id : String) (timeoutSec : Int) (g : Gateway) :
    Except String (String × Gateway) :=
  match g.pool.find id with
  | none => .error s!"Backend with ID \"{id}\" not found"
  | some backend =>
      if backend.status = .draining then
        .ok (s!"Backend {id} is already draining", g)
      else
        let g := g.modifyBackend id (Backend.startDrain now) (Backend.id_startDrain now)
        if backend.activeConnections ≤ 0 then
          .ok (s!"Backend {id} had 0 active connections; transitioned directly to OFFLINE",
            g.completeDrain id)
        else
          let connections := backend.activeConnections
          .ok (s!"Connection drain initiated for {id}. Waiting for {connections} active " ++
              s!"connections to finish (timeout: {timeoutSec}s)",
            ((g.clearStoredTimer id).startDrainTimer now id timeoutSec).modifyBackend id
              Backend.attachDrainCallback Backend.id_attachDrainCallback)

/-- Cancel a drain and restore the backend. -/
def undrainBackend (id : String) (g : Gateway) : Except String (String × Gateway) :=
  match g.pool.find id with
  | none => .error s!"Backend with ID \"{id}\" not found"
  | some _ =>
      .ok (s!"Backend {id} undrained successfully and restored to HEALTHY status in " ++
          "load balancer pool",
        (g.dropStoredTimer id).modifyBackend id Backend.undrain Backend.id_undrain)

/-- The pending timer with the given handle, when it is due. -/
def dueTimer (now : Int) (handle : Nat) (g : Gateway) : Option DrainTimer :=
  g.pendingTimers.find? (fun t => t.handle = handle ∧ t.fireAt ≤ now)

/-- The event loop runs the callback of a deadline timer that is due. -/
def fireDrainTimer (now : Int) (handle : Nat) (g : Gateway) : Gateway :=
  match g.dueTimer now handle with
  | none => g
  | some timer =>
      let g := { g with pendingTimers := g.pendingTimers.filter (fun t => t.handle ≠ handle) }
      match g.pool.find timer.backendId with
      | none => g
      | some backend =>
          if backend.status = .draining then g.completeDrain timer.backendId else g

/-- The callback `backend.onDrainComplete`. -/
def onDrainComplete (id : String) (g : Gateway) : Gateway :=
  match g.pool.find id with
  | none => g
  | some backend =>
      if backend.status = .draining ∧ backend.activeConnections ≤ 0 then
        g.completeDrain id
      else g

end Gateway

namespace Cell

/-- `drainBackend` on one cell. -/
def drain (now : Int) (c : Cell) : Cell :=
  if c.backend.status = .draining then c
  else if c.backend.activeConnections ≤ 0 then
    { c with backend := (c.backend.startDrain now).finishDrain }
  else
    { c with backend := (c.backend.startDrain now).attachDrainCallback }

/-- A deadline callback on one cell. -/
def drainDeadline (c : Cell) : Cell :=
  if c.backend.status = .draining then { c with backend := c.backend.finishDrain } else c

/-- `undrainBackend` on one cell. -/
def undrain (c : Cell) : Cell :=
  { c with backend := c.backend.undrain }

end Cell

namespace Gateway

section DrainMoves

variable {g : Gateway} {id : String} {c : Cell} {now : Int}

@[simp] theorem cell_clearStoredTimer (id' : String) :
    (g.clearStoredTimer id).cell id' = g.cell id' := by
  simp only [clearStoredTimer]
  split <;> rfl

@[simp] theorem ids_clearStoredTimer :
    (g.clearStoredTimer id).pool.ids = g.pool.ids := by
  simp only [clearStoredTimer]
  split <;> rfl

@[simp] theorem cell_dropStoredTimer (id' : String) :
    (g.dropStoredTimer id).cell id' = g.cell id' := by
  exact cell_clearStoredTimer id'

@[simp] theorem ids_dropStoredTimer :
    (g.dropStoredTimer id).pool.ids = g.pool.ids := by
  exact ids_clearStoredTimer

@[simp] theorem cell_startDrainTimer (timeoutSec : Int) (id' : String) :
    (g.startDrainTimer now id timeoutSec).cell id' = g.cell id' := by
  rfl

@[simp] theorem ids_startDrainTimer (timeoutSec : Int) :
    (g.startDrainTimer now id timeoutSec).pool.ids = g.pool.ids := by
  rfl

theorem cell_completeDrain_self (hc : g.cell id = some c) :
    (g.completeDrain id).cell id = some { c with backend := c.backend.finishDrain } :=
  cell_modifyBackend_self _ (by simpa using hc)

@[simp] theorem cell_completeDrain_ne {id' : String} (hne : id' ≠ id) :
    (g.completeDrain id).cell id' = g.cell id' := by
  simp [completeDrain, hne]

@[simp] theorem ids_completeDrain :
    (g.completeDrain id).pool.ids = g.pool.ids := by
  simp [completeDrain]

/-- A successful drain request writes one cell. -/
theorem moves_drainBackend {timeoutSec : Int} {message : String} {g' : Gateway}
    (hg : g.Complete) (hok : g.drainBackend now id timeoutSec = .ok (message, g')) :
    Moves g g' (onlyAt id (Cell.drain now)) := by
  cases hfind : g.pool.find id with
  | none => simp [drainBackend, hfind] at hok
  | some b =>
      simp only [drainBackend, hfind] at hok
      split_ifs at hok with hdraining hidle
      · obtain ⟨-, rfl⟩ := Prod.mk.inj (Except.ok.inj hok)
        apply Moves.of_self hg rfl
        · intro c hc
          obtain rfl : b = c.backend :=
            Option.some.inj (hfind.symm.trans (cell_eq_some_iff.mp hc).1)
          simp [Cell.drain, hdraining, hc]
        · intro id' _
          rfl
      · obtain ⟨-, rfl⟩ := Prod.mk.inj (Except.ok.inj hok)
        apply Moves.of_self hg
        · simp
        · intro c hc
          obtain rfl : b = c.backend :=
            Option.some.inj (hfind.symm.trans (cell_eq_some_iff.mp hc).1)
          rw [cell_completeDrain_self (cell_modifyBackend_self _ hc)]
          simp [Cell.drain, hdraining, hidle]
        · intro id' hne
          simp [hne]
      · obtain ⟨-, rfl⟩ := Prod.mk.inj (Except.ok.inj hok)
        apply Moves.of_self hg
        · simp
        · intro c hc
          obtain rfl : b = c.backend :=
            Option.some.inj (hfind.symm.trans (cell_eq_some_iff.mp hc).1)
          have hstart := cell_modifyBackend_self (Backend.id_startDrain now) hc
          rw [cell_modifyBackend_self Backend.id_attachDrainCallback
            (by simpa using hstart)]
          simp [Cell.drain, hdraining, hidle]
        · intro id' hne
          simp [hne]

/-- A successful undrain request writes one cell. -/
theorem moves_undrainBackend {message : String} {g' : Gateway}
    (hg : g.Complete) (hok : g.undrainBackend id = .ok (message, g')) :
    Moves g g' (onlyAt id Cell.undrain) := by
  cases hfind : g.pool.find id with
  | none => simp [undrainBackend, hfind] at hok
  | some b =>
      simp only [undrainBackend, hfind] at hok
      obtain ⟨-, rfl⟩ := Prod.mk.inj (Except.ok.inj hok)
      apply Moves.of_self hg
      · simp
      · intro c hc
        exact cell_modifyBackend_self _ (by simpa using hc)
      · intro id' hne
        simp [hne]

/-- A deadline callback acts on the backend its timer was created for. -/
theorem moves_fireDrainTimer (now : Int) (handle : Nat) (hg : g.Complete) :
    Moves g (g.fireDrainTimer now handle)
      (match g.dueTimer now handle with
        | none => fun _ c => c
        | some timer => onlyAt timer.backendId Cell.drainDeadline) := by
  cases htimer : g.dueTimer now handle with
  | none =>
      simp only [fireDrainTimer, htimer]
      exact Moves.refl g
  | some timer =>
      apply Moves.of_self hg
      · simp only [fireDrainTimer, htimer]
        split
        · rfl
        · split_ifs
          · simp
          · rfl
      · intro c hc
        have hfind := (cell_eq_some_iff.mp hc).1
        simp only [fireDrainTimer, htimer, hfind, Cell.drainDeadline]
        split_ifs with hdraining
        · exact cell_completeDrain_self hc
        · exact hc
      · intro id' hne
        simp only [fireDrainTimer, htimer]
        split
        · rfl
        · split_ifs
          · rw [cell_completeDrain_ne hne]
            rfl
          · rfl

end DrainMoves

end Gateway

end SentinelADC
