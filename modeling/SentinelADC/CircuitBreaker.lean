import SentinelADC.BackendCell

/-!
# Circuit breaker manager

`resilience/circuitBreakerManager.js`.  Each backend has a breaker record with
the states `CLOSED`, `OPEN` and `HALF_OPEN`; `transitionTo` also rewrites the
shared `healthy` and `status` fields of the pool object.

The first part translates the manager.  The second part states the same
operations on one cell and proves that the manager's calls act on exactly that
cell.
-/

namespace SentinelADC

/-- The record `getBreaker` and `initBreakers` create. -/
def Breaker.fresh (now : Int) : Breaker where
  state := .closed
  consecutiveFailures := 0
  lastStateChange := now
  probeCount := 0
  lastError := none

/-- What `transitionTo` writes to the pool object on entering a state. -/
def Backend.syncBreaker : CircuitState → Backend → Backend
  | .opened, b => { b with healthy := false, status := .unhealthy }
  | .halfOpen, b => { b with healthy := false, status := .degraded }
  | .closed, b => { b with healthy := true, status := .healthy }

@[simp] theorem Backend.id_syncBreaker (s : CircuitState) (b : Backend) :
    (b.syncBreaker s).id = b.id := by
  cases s <;> rfl

namespace Gateway

/-- The breaker record of a backend, created on first use. -/
def getBreaker (now : Int) (id : String) (g : Gateway) : Breaker × Gateway :=
  match g.breakers id with
  | some breaker => (breaker, g)
  | none => (Breaker.fresh now, g.setBreaker id (Breaker.fresh now))

/-- State transition handler. -/
def transitionTo (now : Int) (id : String) (newState : CircuitState) (g : Gateway) :
    Gateway :=
  match g.breakers id with
  | none => g
  | some breaker =>
      if breaker.state = newState then g
      else
        (g.setBreaker id
            { breaker with state := newState, lastStateChange := now }).modifyBackend
          id (Backend.syncBreaker newState) (Backend.id_syncBreaker newState)

/-- Whether a backend can accept a request.  The answer `true` for a breaker
that is not `CLOSED` consumes a probe permit. -/
def canExecute (cfg : Config) (now : Int) (id : String) (g : Gateway) :
    Bool × Gateway :=
  if !cfg.enabled then (true, g)
  else
    let (breaker, g) := g.getBreaker now id
    match breaker.state with
    | .closed => (true, g)
    | .opened =>
        if cfg.cooldownMs ≤ now - breaker.lastStateChange then
          let g := g.transitionTo now id .halfOpen
          (true, g.setBreaker id { (g.getBreaker now id).1 with probeCount := 1 })
        else (false, g)
    | .halfOpen =>
        if (breaker.probeCount : Int) < cfg.halfOpenMaxProbes then
          (true, g.setBreaker id { breaker with probeCount := breaker.probeCount + 1 })
        else (false, g)

/-- Record a successful request or health check. -/
def recordSuccess (cfg : Config) (now : Int) (id : String) (g : Gateway) : Gateway :=
  if !cfg.enabled then g
  else
    let (breaker, g) := g.getBreaker now id
    let g := g.setBreaker id { breaker with consecutiveFailures := 0 }
    if breaker.state = .halfOpen ∨ breaker.state = .opened then
      g.transitionTo now id .closed
    else g

/-- Record a request failure (5xx status or socket error). -/
def recordFailure (cfg : Config) (now : Int) (id : String) (errorOrStatus : String)
    (g : Gateway) : Gateway :=
  if !cfg.enabled then g
  else
    let (breaker, g) := g.getBreaker now id
    let breaker :=
      { breaker with
        consecutiveFailures := breaker.consecutiveFailures + 1
        lastError := some errorOrStatus }
    let g := g.setBreaker id breaker
    if breaker.state = .halfOpen then
      g.transitionTo now id .opened
    else if breaker.state = .closed ∧
        cfg.failureThreshold ≤ (breaker.consecutiveFailures : Int) then
      g.transitionTo now id .opened
    else g

/-- Reset a breaker by hand.  Unlike the other operations it runs whether or
not circuit breaking is enabled. -/
def resetBreaker (now : Int) (id : String) (g : Gateway) : Gateway :=
  let (_, g) := g.getBreaker now id
  let g := g.transitionTo now id .closed
  g.setBreaker id
    { (g.getBreaker now id).1 with consecutiveFailures := 0, lastError := none }

end Gateway

namespace Cell

/-- `transitionTo` on one cell. -/
def transitionTo (now : Int) (newState : CircuitState) (c : Cell) : Cell :=
  if c.breaker.state = newState then c
  else
    { c with
      breaker := { c.breaker with state := newState, lastStateChange := now }
      backend := c.backend.syncBreaker newState }

/-- `canExecute` on one cell. -/
def canExecute (cfg : Config) (now : Int) (c : Cell) : Bool × Cell :=
  if !cfg.enabled then (true, c)
  else
    match c.breaker.state with
    | .closed => (true, c)
    | .opened =>
        if cfg.cooldownMs ≤ now - c.breaker.lastStateChange then
          (true,
            { c with
              breaker :=
                { c.breaker with state := .halfOpen, lastStateChange := now, probeCount := 1 }
              backend := c.backend.syncBreaker .halfOpen })
        else (false, c)
    | .halfOpen =>
        if (c.breaker.probeCount : Int) < cfg.halfOpenMaxProbes then
          (true,
            { c with breaker := { c.breaker with probeCount := c.breaker.probeCount + 1 } })
        else (false, c)

/-- `recordSuccess` on one cell. -/
def recordSuccess (cfg : Config) (now : Int) (c : Cell) : Cell :=
  if !cfg.enabled then c
  else
    transitionTo now .closed
      { c with breaker := { c.breaker with consecutiveFailures := 0 } }

/-- `recordFailure` on one cell. -/
def recordFailure (cfg : Config) (now : Int) (errorOrStatus : String) (c : Cell) : Cell :=
  if !cfg.enabled then c
  else
    let c :=
      { c with
        breaker :=
          { c.breaker with
            consecutiveFailures := c.breaker.consecutiveFailures + 1
            lastError := some errorOrStatus } }
    if c.breaker.state = .halfOpen ∨
        (c.breaker.state = .closed ∧
          cfg.failureThreshold ≤ (c.breaker.consecutiveFailures : Int)) then
      c.transitionTo now .opened
    else c

/-- `reset` on one cell. -/
def resetBreaker (now : Int) (c : Cell) : Cell :=
  let c := c.transitionTo now .closed
  { c with breaker := { c.breaker with consecutiveFailures := 0, lastError := none } }

end Cell

/-- A failure recorded now moves the breaker to `OPEN`. -/
def Breaker.trips (cfg : Config) (breaker : Breaker) : Bool :=
  cfg.enabled ∧
    (breaker.state = .halfOpen ∨
      (breaker.state = .closed ∧
        cfg.failureThreshold ≤ ((breaker.consecutiveFailures + 1 : Nat) : Int)))

namespace Cell

section BreakerCases

variable {cfg : Config} {now : Int} {c : Cell}

/-- Entering the half-open phase with the first permit. -/
def enterHalfOpen (now : Int) (c : Cell) : Cell :=
  { c with
    breaker := { c.breaker with state := .halfOpen, lastStateChange := now, probeCount := 1 }
    backend := c.backend.syncBreaker .halfOpen }

/-- Handing out one more permit. -/
def takePermit (c : Cell) : Cell :=
  { c with breaker := { c.breaker with probeCount := c.breaker.probeCount + 1 } }

/-- A failure counted without a transition. -/
def countFailure (error : String) (c : Cell) : Cell :=
  { c with
    breaker :=
      { c.breaker with
        consecutiveFailures := c.breaker.consecutiveFailures + 1
        lastError := some error } }

theorem canExecute_of_disabled (hen : cfg.enabled = false) :
    c.canExecute cfg now = (true, c) := by
  simp [canExecute, hen]

theorem canExecute_of_closed (hs : c.breaker.state = .closed) :
    c.canExecute cfg now = (true, c) := by
  simp [canExecute, hs]

theorem canExecute_of_opened (hen : cfg.enabled = true) (hs : c.breaker.state = .opened) :
    c.canExecute cfg now =
      if cfg.cooldownMs ≤ now - c.breaker.lastStateChange then (true, c.enterHalfOpen now)
      else (false, c) := by
  simp [canExecute, hen, hs, enterHalfOpen]

theorem canExecute_of_halfOpen (hen : cfg.enabled = true)
    (hs : c.breaker.state = .halfOpen) :
    c.canExecute cfg now =
      if (c.breaker.probeCount : Int) < cfg.halfOpenMaxProbes then (true, c.takePermit)
      else (false, c) := by
  simp [canExecute, hen, hs, takePermit]

/-- What asking for admission can do to a cell. -/
theorem canExecute_cases (cfg : Config) (now : Int) (c : Cell) :
    (c.canExecute cfg now).2 = c ∨
      (cfg.enabled = true ∧ c.breaker.state = .opened ∧
        cfg.cooldownMs ≤ now - c.breaker.lastStateChange ∧
        (c.canExecute cfg now).2 = c.enterHalfOpen now) ∨
      (cfg.enabled = true ∧ c.breaker.state = .halfOpen ∧
        (c.breaker.probeCount : Int) < cfg.halfOpenMaxProbes ∧
        (c.canExecute cfg now).2 = c.takePermit) := by
  cases hen : cfg.enabled with
  | false => exact Or.inl (by rw [canExecute_of_disabled hen])
  | true =>
      cases hs : c.breaker.state with
      | closed => exact Or.inl (by rw [canExecute_of_closed hs])
      | opened =>
          rw [canExecute_of_opened hen hs]
          split_ifs with hcool
          · exact Or.inr (Or.inl ⟨rfl, rfl, hcool, rfl⟩)
          · exact Or.inl rfl
      | halfOpen =>
          rw [canExecute_of_halfOpen hen hs]
          split_ifs with hprobe
          · exact Or.inr (Or.inr ⟨rfl, rfl, hprobe, rfl⟩)
          · exact Or.inl rfl

theorem recordSuccess_of_disabled (hen : cfg.enabled = false) :
    c.recordSuccess cfg now = c := by
  simp [recordSuccess, hen]

theorem recordSuccess_of_enabled (hen : cfg.enabled = true) :
    c.recordSuccess cfg now =
      transitionTo now .closed
        { c with breaker := { c.breaker with consecutiveFailures := 0 } } := by
  simp [recordSuccess, hen]

theorem recordFailure_of_disabled (hen : cfg.enabled = false) (error : String) :
    c.recordFailure cfg now error = c := by
  simp [recordFailure, hen]

theorem trips_eq_true_iff :
    c.breaker.trips cfg = true ↔
      cfg.enabled = true ∧
        (c.breaker.state = .halfOpen ∨
          (c.breaker.state = .closed ∧
            cfg.failureThreshold ≤ ((c.breaker.consecutiveFailures + 1 : Nat) : Int))) := by
  simp [Breaker.trips]

theorem recordFailure_of_trips (h : c.breaker.trips cfg = true) (error : String) :
    c.recordFailure cfg now error = (c.countFailure error).transitionTo now .opened := by
  obtain ⟨hen, htrip⟩ := trips_eq_true_iff.mp h
  simp only [recordFailure, hen, countFailure, Bool.not_true, Bool.false_eq_true, if_false]
  rw [if_pos htrip]

theorem recordFailure_of_not_trips (hen : cfg.enabled = true)
    (h : c.breaker.trips cfg = false) (error : String) :
    c.recordFailure cfg now error = c.countFailure error := by
  have hstay : ¬(c.breaker.state = .halfOpen ∨ (c.breaker.state = .closed ∧
      cfg.failureThreshold ≤ ((c.breaker.consecutiveFailures + 1 : Nat) : Int))) := by
    intro htrip
    rw [trips_eq_true_iff.mpr ⟨hen, htrip⟩] at h
    simp at h
  simp only [recordFailure, hen, countFailure, Bool.not_true, Bool.false_eq_true, if_false]
  rw [if_neg hstay]

end BreakerCases

end Cell

namespace Gateway

section BreakerMoves

variable {g : Gateway} {id : String} {c : Cell} {cfg : Config} {now : Int}

theorem getBreaker_of_cell (h : g.cell id = some c) :
    g.getBreaker now id = (c.breaker, g) := by
  obtain ⟨-, hbr, -⟩ := cell_eq_some_iff.mp h
  simp [getBreaker, hbr]

/-- Creating a missing breaker record moves no cell. -/
theorem cell_getBreaker_ne {id' : String} (hne : id' ≠ id) :
    (g.getBreaker now id).2.cell id' = g.cell id' := by
  simp only [getBreaker]
  split
  · rfl
  · exact cell_setBreaker_ne _ hne

@[simp] theorem ids_getBreaker :
    (g.getBreaker now id).2.pool.ids = g.pool.ids := by
  simp only [getBreaker]
  split <;> rfl

theorem cell_transitionTo_self (now : Int) (s : CircuitState) (h : g.cell id = some c) :
    (g.transitionTo now id s).cell id = some (c.transitionTo now s) := by
  obtain ⟨-, hbr, -⟩ := cell_eq_some_iff.mp h
  by_cases hs : c.breaker.state = s
  · simp [transitionTo, Cell.transitionTo, hbr, hs, h]
  · simp only [transitionTo, hbr, hs, if_false, Cell.transitionTo]
    exact cell_modifyBackend_self (Backend.id_syncBreaker s) (cell_setBreaker_self _ h)

@[simp] theorem cell_transitionTo_ne (s : CircuitState) {id' : String} (hne : id' ≠ id) :
    (g.transitionTo now id s).cell id' = g.cell id' := by
  simp only [transitionTo]
  split
  · rfl
  · split
    · rfl
    · simp [hne]

@[simp] theorem ids_transitionTo (s : CircuitState) :
    (g.transitionTo now id s).pool.ids = g.pool.ids := by
  simp only [transitionTo]
  split
  · rfl
  · split
    · rfl
    · simp

theorem moves_recordSuccess (hg : g.Complete) :
    Moves g (g.recordSuccess cfg now id) (onlyAt id (Cell.recordSuccess cfg now)) := by
  apply Moves.of_self hg
  · unfold recordSuccess
    split_ifs
    · rfl
    · dsimp only
      split_ifs <;> simp
  · intro c hc
    unfold recordSuccess Cell.recordSuccess
    split_ifs with hen
    · exact hc
    · simp only [getBreaker_of_cell hc]
      have hset :=
        cell_setBreaker_self { c.breaker with consecutiveFailures := 0 } hc
      split_ifs with hst
      · exact cell_transitionTo_self _ .closed hset
      · have hclosed : c.breaker.state = .closed := by
          cases hs : c.breaker.state <;> simp_all
        simpa [Cell.transitionTo, hclosed] using hset
  · intro id' hne
    unfold recordSuccess
    split_ifs
    · rfl
    · dsimp only
      split_ifs <;> simp [hne, cell_getBreaker_ne hne]

theorem moves_recordFailure (error : String) (hg : g.Complete) :
    Moves g (g.recordFailure cfg now id error)
      (onlyAt id (Cell.recordFailure cfg now error)) := by
  apply Moves.of_self hg
  · unfold recordFailure
    split_ifs
    · rfl
    · dsimp only
      split_ifs <;> simp
  · intro c hc
    unfold recordFailure Cell.recordFailure
    split_ifs with hen
    · exact hc
    · simp only [getBreaker_of_cell hc]
      have hset :=
        cell_setBreaker_self
          { c.breaker with
            consecutiveFailures := c.breaker.consecutiveFailures + 1
            lastError := some error } hc
      have hopen := cell_transitionTo_self now .opened hset
      by_cases hhalf : c.breaker.state = .halfOpen
      · simpa [hhalf] using hopen
      · by_cases htrip :
            c.breaker.state = .closed ∧
              cfg.failureThreshold ≤ ((c.breaker.consecutiveFailures + 1 : Nat) : Int)
        · rw [if_neg hhalf, if_pos htrip, if_pos (Or.inr htrip)]
          exact hopen
        · rw [if_neg hhalf, if_neg htrip, if_neg (not_or.mpr ⟨hhalf, htrip⟩)]
          exact hset
  · intro id' hne
    unfold recordFailure
    split_ifs
    · rfl
    · dsimp only
      split_ifs <;> simp [hne, cell_getBreaker_ne hne]

theorem moves_resetBreaker (hg : g.Complete) :
    Moves g (g.resetBreaker now id) (onlyAt id (Cell.resetBreaker now)) := by
  apply Moves.of_self hg
  · simp [resetBreaker]
  · intro c hc
    have htr := cell_transitionTo_self now .closed hc
    simp only [resetBreaker, Cell.resetBreaker, getBreaker_of_cell hc,
      getBreaker_of_cell htr]
    exact cell_setBreaker_self _ htr
  · intro id' hne
    simp [resetBreaker, hne, cell_getBreaker_ne hne]

/-- The admission answer is read off the cell. -/
theorem canExecute_fst (hc : g.cell id = some c) :
    (g.canExecute cfg now id).1 = (c.canExecute cfg now).1 := by
  cases hen : cfg.enabled with
  | false => simp [canExecute, Cell.canExecute, hen]
  | true =>
      simp only [canExecute, Cell.canExecute, hen, getBreaker_of_cell hc]
      cases hs : c.breaker.state with
      | closed => rfl
      | opened => dsimp only; split_ifs <;> rfl
      | halfOpen => dsimp only; split_ifs <;> rfl

theorem cell_canExecute_self (hc : g.cell id = some c) :
    (g.canExecute cfg now id).2.cell id = some (c.canExecute cfg now).2 := by
  cases hen : cfg.enabled with
  | false => simpa [canExecute, Cell.canExecute, hen] using hc
  | true =>
      simp only [canExecute, Cell.canExecute, hen, getBreaker_of_cell hc]
      cases hs : c.breaker.state with
      | closed => exact hc
      | opened =>
          have htr := cell_transitionTo_self now .halfOpen hc
          have hset :=
            cell_setBreaker_self
              { (c.transitionTo now .halfOpen).breaker with probeCount := 1 } htr
          by_cases hcool : cfg.cooldownMs ≤ now - c.breaker.lastStateChange
          · simpa [hcool, getBreaker_of_cell htr, Cell.transitionTo, hs] using hset
          · simpa [hcool] using hc
      | halfOpen =>
          have hset :=
            cell_setBreaker_self
              { c.breaker with probeCount := c.breaker.probeCount + 1 } hc
          by_cases hprobe : (c.breaker.probeCount : Int) < cfg.halfOpenMaxProbes
          · simpa [hprobe, hs] using hset
          · simpa [hprobe] using hc

theorem moves_canExecute (hg : g.Complete) :
    Moves g (g.canExecute cfg now id).2
      (onlyAt id (fun c => (c.canExecute cfg now).2)) := by
  apply Moves.of_self hg
  · cases hen : cfg.enabled with
    | false => simp [canExecute, hen]
    | true =>
        cases hs : (g.getBreaker now id).1.state <;>
          simp only [canExecute, hen, hs] <;> split_ifs <;> simp
  · intro c hc
    exact cell_canExecute_self hc
  · intro id' hne
    cases hen : cfg.enabled with
    | false => simp [canExecute, hen]
    | true =>
        cases hs : (g.getBreaker now id).1.state <;>
          simp only [canExecute, hen, hs] <;> split_ifs <;>
          simp [hne, cell_getBreaker_ne hne]

end BreakerMoves

/-- The breaker manager writes the pool and its own map, and nothing else. -/
def BreakerFrame (g g' : Gateway) : Prop :=
  g' = { g with pool := g'.pool, breakers := g'.breakers }

section BreakerFrame

variable {g g' g'' : Gateway} {id : String} {cfg : Config} {now : Int}

theorem BreakerFrame.refl (g : Gateway) :
    BreakerFrame g g := by
  rfl

theorem BreakerFrame.trans (h : BreakerFrame g g') (h' : BreakerFrame g' g'') :
    BreakerFrame g g'' := by
  unfold BreakerFrame at h h' ⊢
  rw [h', h]

theorem BreakerFrame.strategy (h : BreakerFrame g g') :
    g'.strategy = g.strategy := by
  rw [h]

theorem BreakerFrame.exchanges (h : BreakerFrame g g') :
    g'.exchanges = g.exchanges := by
  rw [h]

theorem BreakerFrame.memory (h : BreakerFrame g g') :
    g'.memory = g.memory := by
  rw [h]

theorem breakerFrame_setBreaker (breaker : Breaker) :
    BreakerFrame g (g.setBreaker id breaker) := by
  rfl

theorem breakerFrame_getBreaker (g : Gateway) (now : Int) (id : String) :
    BreakerFrame g (g.getBreaker now id).2 := by
  simp only [getBreaker]
  split <;> rfl

theorem breakerFrame_transitionTo (s : CircuitState) :
    BreakerFrame g (g.transitionTo now id s) := by
  simp only [transitionTo]
  split
  · rfl
  · split_ifs <;> rfl

theorem breakerFrame_canExecute :
    BreakerFrame g (g.canExecute cfg now id).2 := by
  have hget := breakerFrame_getBreaker g now id
  cases hen : cfg.enabled with
  | false =>
      simp only [canExecute, hen]
      exact BreakerFrame.refl g
  | true =>
      cases hs : (g.getBreaker now id).1.state with
      | closed =>
          simp only [canExecute, hen, hs]
          exact hget
      | opened =>
          by_cases hcool : cfg.cooldownMs ≤ now - (g.getBreaker now id).1.lastStateChange
          · simp only [canExecute, hen, hs, hcool, if_true]
            exact hget.trans
              ((breakerFrame_transitionTo .halfOpen).trans (breakerFrame_setBreaker _))
          · simp only [canExecute, hen, hs, hcool, if_false]
            exact hget
      | halfOpen =>
          by_cases hprobe :
              ((g.getBreaker now id).1.probeCount : Int) < cfg.halfOpenMaxProbes
          · simp only [canExecute, hen, hs, hprobe, if_true]
            exact hget.trans (breakerFrame_setBreaker _)
          · simp only [canExecute, hen, hs, hprobe, if_false]
            exact hget

theorem breakerFrame_recordSuccess :
    BreakerFrame g (g.recordSuccess cfg now id) := by
  have hget := breakerFrame_getBreaker g now id
  unfold recordSuccess
  split_ifs
  · exact BreakerFrame.refl g
  · dsimp only
    split_ifs
    · exact hget.trans
        ((breakerFrame_setBreaker _).trans (breakerFrame_transitionTo .closed))
    · exact hget.trans (breakerFrame_setBreaker _)

theorem breakerFrame_recordFailure (error : String) :
    BreakerFrame g (g.recordFailure cfg now id error) := by
  have hget := breakerFrame_getBreaker g now id
  have hopen : ∀ breaker, BreakerFrame g
      (((g.getBreaker now id).2.setBreaker id breaker).transitionTo now id .opened) :=
    fun breaker => hget.trans
      ((breakerFrame_setBreaker breaker).trans (breakerFrame_transitionTo .opened))
  unfold recordFailure
  split_ifs
  · exact BreakerFrame.refl g
  · dsimp only
    split_ifs
    · exact hopen _
    · exact hopen _
    · exact hget.trans (breakerFrame_setBreaker _)

theorem breakerFrame_resetBreaker :
    BreakerFrame g (g.resetBreaker now id) :=
  (breakerFrame_getBreaker _ _ _).trans
    ((breakerFrame_transitionTo .closed).trans (breakerFrame_setBreaker _))

end BreakerFrame

end Gateway

end SentinelADC
