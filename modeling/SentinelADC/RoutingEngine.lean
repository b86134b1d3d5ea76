import SentinelADC.Strategies
import SentinelADC.CircuitBreaker

/-!
# Routing engine

`routing/routingEngine.js`.  The candidate list is a filter over the whole
pool whose test has side effects: asking the breaker of a healthy backend for
admission may open its half-open phase and consumes a probe permit, whether or
not the strategy then picks that backend.

`candidates` is the effect-free description of the same list, read off the
cells before the call.
-/

namespace SentinelADC

/-- Result of `selectBackend`. -/
inductive SelectResult where
  /-- `null`: no healthy backend. -/
  | noneHealthy
  | selected (id : String)
  /-- The strategy threw or returned `undefined`. -/
  | typeError
  /-- The strategy does not return. -/
  | endless
deriving DecidableEq, Repr

/-- The test of the filter on one cell: `b.healthy && canExecute(b.id)`. -/
def Cell.consult (cfg : Config) (now : Int) (c : Cell) : Bool × Cell :=
  if c.backend.healthy then c.canExecute cfg now else (false, c)

/-- Drop backends that already failed for this request, unless that leaves
nothing. -/
def excludeFailed (failedBackends healthy : List String) : List String :=
  let candidates := healthy.filter (fun id => id ∉ failedBackends)
  if candidates = [] then healthy else candidates

namespace Gateway

/-- The test of the filter on one pool member. -/
def consult (cfg : Config) (now : Int) (id : String) (g : Gateway) : Bool × Gateway :=
  match g.pool.find id with
  | none => (false, g)
  | some b => if b.healthy then g.canExecute cfg now id else (false, g)

/-- The filter over a list of ids, threading the state. -/
def consultAll (cfg : Config) (now : Int) : List String → Gateway → List String × Gateway
  | [], g => ([], g)
  | id :: ids, g =>
      let (admitted, g) := g.consult cfg now id
      let (rest, g) := consultAll cfg now ids g
      (if admitted then id :: rest else rest, g)

/-- `getHealthyBackends`: the admitted ids in pool order. -/
def getHealthyBackends (cfg : Config) (now : Int) (g : Gateway) : List String × Gateway :=
  consultAll cfg now g.pool.ids g

/-- `selectBackend` for a request and its set of failed backends. -/
def selectBackend (cfg : Config) (now : Int) (req : ClientRequest)
    (failedBackends : List String) (g : Gateway) : SelectResult × Gateway :=
  let (healthy, g) := g.getHealthyBackends cfg now
  let healthy := excludeFailed failedBackends healthy
  if healthy = [] then (.noneHealthy, g)
  else
    let (backend, memory) :=
      g.strategy.select cfg now g.pool req (healthy.filterMap g.pool.find) g.memory
    let g := { g with memory := memory }
    match backend with
    | .failed => (.typeError, g)
    | .endless => (.endless, g)
    | .backend b => (.selected b.id, g)

/-- `setAlgorithm`: the lookup may throw, and then nothing is written. -/
def setAlgorithm (algorithm : String) (g : Gateway) : Except String Gateway :=
  match Strategy.getStrategy algorithm with
  | .error message => .error message
  | .ok strategy => .ok { g with strategy := strategy, algorithm := algorithm }

/-- The filter would consult this backend. -/
def admits (cfg : Config) (now : Int) (g : Gateway) (id : String) : Bool :=
  match g.cell id with
  | none => false
  | some c => (c.consult cfg now).1

/-- The candidate list, read off the state before the call. -/
def candidates (cfg : Config) (now : Int) (g : Gateway) : List String :=
  g.pool.ids.filter (g.admits cfg now)

section Filter

variable {g : Gateway} {cfg : Config} {now : Int}

theorem healthy_of_admits {id : String} (h : g.admits cfg now id = true) :
    ∃ c, g.cell id = some c ∧ c.backend.healthy = true := by
  simp only [admits] at h
  split at h
  · simp at h
  · next c hc =>
      refine ⟨c, hc, ?_⟩
      by_contra hunhealthy
      simp [Cell.consult, hunhealthy] at h

theorem consult_spec (cfg : Config) (now : Int) {id : String} {c : Cell} (hg : g.Complete)
    (hc : g.cell id = some c) :
    (g.consult cfg now id).1 = (c.consult cfg now).1 ∧
      Moves g (g.consult cfg now id).2 (onlyAt id (fun c => (c.consult cfg now).2)) := by
  have hfind := (cell_eq_some_iff.mp hc).1
  simp only [consult, Cell.consult]
  simp only [hfind]
  by_cases hh : c.backend.healthy = true
  · simp only [hh, if_true]
    refine ⟨canExecute_fst hc, (moves_canExecute hg).congr ?_⟩
    intro id' c' hc'
    by_cases hid : id' = id
    · subst hid
      obtain rfl : c = c' := Option.some.inj (hc.symm.trans hc')
      simp [hh]
    · simp [onlyAt_ne hid]
  · simp only [hh, Bool.false_eq_true, if_false, true_and]
    refine (Moves.refl g).congr ?_
    intro id' c' hc'
    by_cases hid : id' = id
    · subst hid
      obtain rfl : c = c' := Option.some.inj (hc.symm.trans hc')
      simp [hh]
    · simp [onlyAt_ne hid]

/-- What the filter does: every listed cell takes the admission step once, and
the result lists the ids that were admitted, in order. -/
theorem consultAll_spec {ids : List String} (hnd : ids.Nodup) (hg : g.Complete)
    (hsub : ∀ id ∈ ids, id ∈ g.pool.ids) :
    (consultAll cfg now ids g).1 = ids.filter (g.admits cfg now) ∧
      Moves g (consultAll cfg now ids g).2
        (fun id c => if id ∈ ids then (c.consult cfg now).2 else c) := by
  induction ids generalizing g with
  | nil =>
      refine ⟨rfl, (Moves.refl g).congr ?_⟩
      intro id c _
      simp
  | cons id ids ih =>
      rw [List.nodup_cons] at hnd
      obtain ⟨c, hc⟩ := Option.isSome_iff_exists.mp (hg id (hsub id (by simp)))
      obtain ⟨hfst, hmove⟩ := consult_spec cfg now hg hc
      have hg₁ := hmove.complete hg
      obtain ⟨hrest, hmoves⟩ := ih hnd.2 hg₁ (by
        intro id' hid'
        rw [hmove.ids]
        exact hsub id' (by simp [hid']))
      -- the first step does not touch the cells still to be asked
      have hagree : ∀ id' ∈ ids,
          (g.consult cfg now id).2.admits cfg now id' = g.admits cfg now id' := by
        intro id' hid'
        have hne : id' ≠ id := fun heq => hnd.1 (heq ▸ hid')
        simp only [admits]
        rw [hmove.cell id']
        cases g.cell id' with
        | none => rfl
        | some c' => simp [onlyAt_ne hne]
      have hhead : g.admits cfg now id = (c.consult cfg now).1 := by
        simp [admits, hc]
      refine ⟨?_, (hmove.trans hmoves).congr ?_⟩
      · simp only [consultAll, hrest, hfst, List.filter_cons, hhead,
          List.filter_congr hagree]
      · intro id' c' hc'
        by_cases hid : id' = id
        · subst hid
          simp [hnd.1]
        · simp [onlyAt_ne hid, hid]

theorem getHealthyBackends_fst (hg : g.Complete) :
    (g.getHealthyBackends cfg now).1 = g.candidates cfg now :=
  (consultAll_spec g.pool.ids_nodup hg (fun _ h => h)).1

theorem moves_getHealthyBackends (hg : g.Complete) :
    Moves g (g.getHealthyBackends cfg now).2 (fun _ c => (c.consult cfg now).2) := by
  refine (consultAll_spec g.pool.ids_nodup hg (fun _ h => h)).2.congr ?_
  intro id c hc
  simp [mem_ids_of_cell hc]

end Filter

section Frame

variable {g : Gateway} {cfg : Config} {now : Int}

theorem breakerFrame_consultAll (ids : List String) (g : Gateway) :
    BreakerFrame g (consultAll cfg now ids g).2 := by
  induction ids generalizing g with
  | nil => exact BreakerFrame.refl g
  | cons id ids ih =>
      have hconsult : BreakerFrame g (g.consult cfg now id).2 := by
        simp only [consult]
        split
        · exact BreakerFrame.refl g
        · split_ifs
          · exact breakerFrame_canExecute
          · exact BreakerFrame.refl g
      exact hconsult.trans (ih _)

theorem breakerFrame_getHealthyBackends (g : Gateway) (cfg : Config) (now : Int) :
    BreakerFrame g (g.getHealthyBackends cfg now).2 :=
  breakerFrame_consultAll _ g

/-- A selection changes the state as the filter does, and possibly the memory
of the strategies. -/
theorem selectBackend_snd (g : Gateway) (cfg : Config) (now : Int) (req : ClientRequest)
    (failedBackends : List String) :
    ∃ memory,
      (g.selectBackend cfg now req failedBackends).2 =
        { (g.getHealthyBackends cfg now).2 with memory := memory } := by
  unfold selectBackend
  dsimp only
  split_ifs
  · exact ⟨_, rfl⟩
  · split <;> exact ⟨_, rfl⟩

theorem moves_selectBackend (cfg : Config) (now : Int) (hg : g.Complete) (req : ClientRequest)
    (failedBackends : List String) :
    Moves g (g.selectBackend cfg now req failedBackends).2
      (fun _ c => (c.consult cfg now).2) := by
  obtain ⟨memory, hsnd⟩ := selectBackend_snd g cfg now req failedBackends
  have hmemory :
      Moves (g.getHealthyBackends cfg now).2
        { (g.getHealthyBackends cfg now).2 with memory := memory } (fun _ c => c) :=
    Moves.of_eq rfl rfl rfl
  rw [hsnd]
  exact (moves_getHealthyBackends hg).trans hmemory

end Frame

section Selection

variable {g : Gateway} {cfg : Config} {now : Int} {req : ClientRequest}
  {failedBackends : List String}

theorem excludeFailed_subset (failedBackends : List String) {healthy : List String} {id : String}
    (h : id ∈ excludeFailed failedBackends healthy) :
    id ∈ healthy := by
  unfold excludeFailed at h
  dsimp only at h
  split_ifs at h
  · exact h
  · exact List.mem_of_mem_filter h

theorem excludeFailed_eq_nil_iff (failedBackends : List String) {healthy : List String} :
    excludeFailed failedBackends healthy = [] ↔ healthy = [] := by
  unfold excludeFailed
  dsimp only
  split_ifs with hnil
  · exact Iff.rfl
  · constructor
    · intro h
      exact absurd h hnil
    · rintro rfl
      exact absurd rfl hnil

/-- No backend is found exactly when the candidate list is empty. -/
theorem selectBackend_noneHealthy_iff (hg : g.Complete) :
    (g.selectBackend cfg now req failedBackends).1 = .noneHealthy ↔
      g.candidates cfg now = [] := by
  rw [← getHealthyBackends_fst hg,
    ← excludeFailed_eq_nil_iff failedBackends]
  unfold selectBackend
  dsimp only
  split_ifs with hnil
  · simp [hnil]
  · split <;> simp [hnil]

/-- The looked-up candidates are pool members and keep the candidate ids. -/
theorem id_mem_of_mem_filterMap_find {pool : BackendPool} {ids : List String} {b : Backend}
    (h : b ∈ ids.filterMap pool.find) :
    b.id ∈ ids := by
  obtain ⟨id, hid, hfind⟩ := List.mem_filterMap.mp h
  rw [BackendPool.id_of_find hfind]
  exact hid

/-- Every id on the candidate list is found in the pool after the filter. -/
theorem filterMap_find_ne_nil (hg : g.Complete)
    (hne : excludeFailed failedBackends (g.getHealthyBackends cfg now).1 ≠ []) :
    (excludeFailed failedBackends (g.getHealthyBackends cfg now).1).filterMap
      (g.getHealthyBackends cfg now).2.pool.find ≠ [] := by
  obtain ⟨id, rest, hcons⟩ := List.exists_cons_of_ne_nil hne
  have hmem : id ∈ (g.getHealthyBackends cfg now).1 :=
    excludeFailed_subset failedBackends (by rw [hcons]; simp)
  rw [getHealthyBackends_fst hg] at hmem
  have hpool : id ∈ (g.getHealthyBackends cfg now).2.pool.ids := by
    rw [(moves_getHealthyBackends hg).ids]
    exact List.mem_of_mem_filter hmem
  rw [← BackendPool.find_isSome_iff] at hpool
  obtain ⟨b, hb⟩ := Option.isSome_iff_exists.mp hpool
  rw [hcons]
  simp [hb]

/-- With one of the five strategies installed and a candidate present, a
selection succeeds, if the threshold carried over is at most `2 ^ 53 + 2`. -/
theorem selectBackend_selects (req : ClientRequest) (failedBackends : List String) (hg : g.Complete)
    (hgenuine : g.strategy.genuine = true) (hw : g.memory.wrr.currentWeight ≤ 2 ^ 53 + 2)
    (hne : g.candidates cfg now ≠ []) :
    ∃ id ∈ g.candidates cfg now,
      (g.selectBackend cfg now req failedBackends).1 = .selected id := by
  have hhealthy : excludeFailed failedBackends (g.getHealthyBackends cfg now).1 ≠ [] := by
    rw [Ne, excludeFailed_eq_nil_iff _, getHealthyBackends_fst hg]
    exact hne
  have hstrategy : (g.getHealthyBackends cfg now).2.strategy = g.strategy :=
    (breakerFrame_getHealthyBackends _ _ _).strategy
  have hmemory : (g.getHealthyBackends cfg now).2.memory = g.memory :=
    (breakerFrame_getHealthyBackends _ _ _).memory
  obtain ⟨b, hb, hsel⟩ :=
    Strategy.select_mem cfg now (g.getHealthyBackends cfg now).2.pool req
      (filterMap_find_ne_nil hg hhealthy) (hmemory ▸ hw) (hstrategy ▸ hgenuine)
  refine ⟨b.id, ?_, ?_⟩
  · rw [← getHealthyBackends_fst hg]
    exact excludeFailed_subset _ (id_mem_of_mem_filterMap_find hb)
  · simp [selectBackend, hhealthy, hsel]

/-- Whatever the strategy, a selected backend is on the list that was left
after the exclusion. -/
theorem mem_excludeFailed_of_selected (hg : g.Complete) {id : String}
    (h : (g.selectBackend cfg now req failedBackends).1 = .selected id) :
    id ∈ excludeFailed failedBackends (g.getHealthyBackends cfg now).1 := by
  simp only [selectBackend] at h
  split_ifs at h with hhealthy
  split at h
  · simp at h
  · simp at h
  · next b hpick =>
      obtain rfl := SelectResult.selected.inj h
      exact id_mem_of_mem_filterMap_find
        (Strategy.mem_of_select (filterMap_find_ne_nil hg hhealthy) hpick)

/-- Whatever the strategy, a selected backend was admitted, hence healthy. -/
theorem mem_candidates_of_selected (hg : g.Complete) {id : String}
    (h : (g.selectBackend cfg now req failedBackends).1 = .selected id) :
    id ∈ g.candidates cfg now := by
  rw [← getHealthyBackends_fst hg]
  exact excludeFailed_subset failedBackends (mem_excludeFailed_of_selected hg h)

/-- An unhealthy backend is never selected. -/
theorem not_selected_of_unhealthy (hg : g.Complete) {id : String} {c : Cell}
    (hc : g.cell id = some c) (hunhealthy : c.backend.healthy = false) :
    (g.selectBackend cfg now req failedBackends).1 ≠ .selected id := by
  intro hsel
  have hmem := mem_candidates_of_selected hg hsel
  obtain ⟨c', hc', hhealthy⟩ := healthy_of_admits (List.of_mem_filter hmem)
  obtain rfl : c = c' := Option.some.inj (hc.symm.trans hc')
  rw [hunhealthy] at hhealthy
  simp at hhealthy

end Selection

end Gateway

end SentinelADC
