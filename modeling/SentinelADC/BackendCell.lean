import SentinelADC.GatewayState

/-!
# The cell of one backend

Everything the gateway keeps under one backend id (the pool object, its
breaker record and its health record) is a `Cell`.  Operations of the gateway
write several maps at once, but always under the same id; `Moves` says what an
operation does to every cell, and the module of each operation proves one such
statement for it.  Facts about a single backend are then proved on cells.
-/

namespace SentinelADC

/-- Pool object, breaker record and health record of one backend. -/
structure Cell where
  backend : Backend
  breaker : Breaker
  stats : HealthStats
deriving DecidableEq, Repr

namespace Gateway

/-- The cell of a backend, if all three records exist. -/
def cell (g : Gateway) (id : String) : Option Cell :=
  match g.pool.find id, g.breakers id, g.stats id with
  | some backend, some breaker, some stats => some ⟨backend, breaker, stats⟩
  | _, _, _ => none

/-- Every pool member has a breaker record and a health record. -/
def Complete (g : Gateway) : Prop :=
  ∀ id ∈ g.pool.ids, (g.cell id).isSome

theorem cell_eq_some_iff {g : Gateway} {id : String} {c : Cell} :
    g.cell id = some c ↔
      g.pool.find id = some c.backend ∧
      g.breakers id = some c.breaker ∧
      g.stats id = some c.stats := by
  simp only [cell]
  constructor
  · intro h
    split at h
    · next backend breaker stats hb hbr hst =>
        obtain rfl := Option.some.inj h
        exact ⟨hb, hbr, hst⟩
    · simp at h
  · rintro ⟨hb, hbr, hst⟩
    simp [hb, hbr, hst]

theorem cell_eq_none_of_find {g : Gateway} {id : String}
    (h : g.pool.find id = none) :
    g.cell id = none := by
  simp [cell, h]

theorem mem_ids_of_cell {g : Gateway} {id : String} {c : Cell}
    (h : g.cell id = some c) :
    id ∈ g.pool.ids := by
  rw [← BackendPool.find_isSome_iff, (cell_eq_some_iff.mp h).1]
  rfl

/-- Every backend of the pool is the one in its cell. -/
theorem Complete.exists_cell {g : Gateway} (hg : g.Complete) {id : String} {b : Backend}
    (h : g.pool.find id = some b) :
    ∃ c, g.cell id = some c ∧ c.backend = b := by
  have hmem : id ∈ g.pool.ids := by
    rw [← BackendPool.find_isSome_iff, h]
    rfl
  obtain ⟨c, hc⟩ := Option.isSome_iff_exists.mp (hg id hmem)
  exact ⟨c, hc, Option.some.inj ((cell_eq_some_iff.mp hc).1.symm.trans h)⟩

/-- Outside the pool there are no cells, whatever the other maps hold. -/
theorem Complete.find_eq_none {g : Gateway} (hg : g.Complete) {id : String}
    (h : g.cell id = none) :
    g.pool.find id = none := by
  cases hfind : g.pool.find id with
  | none => rfl
  | some b =>
      obtain ⟨c, hc, -⟩ := hg.exists_cell hfind
      simp [h] at hc

section Writes

variable {g : Gateway} {id id' : String} {c : Cell}

theorem cell_setBreaker_self (breaker : Breaker) (h : g.cell id = some c) :
    (g.setBreaker id breaker).cell id = some { c with breaker := breaker } := by
  obtain ⟨hb, -, hst⟩ := cell_eq_some_iff.mp h
  simp [cell_eq_some_iff, setBreaker, hb, hst]

@[simp] theorem cell_setBreaker_ne (breaker : Breaker) (hne : id' ≠ id) :
    (g.setBreaker id breaker).cell id' = g.cell id' := by
  simp [cell, setBreaker, hne]

theorem cell_setStats_self (stats : HealthStats) (h : g.cell id = some c) :
    (g.setStats id stats).cell id = some { c with stats := stats } := by
  obtain ⟨hb, hbr, -⟩ := cell_eq_some_iff.mp h
  simp [cell_eq_some_iff, setStats, hb, hbr]

@[simp] theorem cell_setStats_ne (stats : HealthStats) (hne : id' ≠ id) :
    (g.setStats id stats).cell id' = g.cell id' := by
  simp [cell, setStats, hne]

theorem cell_modifyBackend_self {f : Backend → Backend}
    (hf : ∀ b, (f b).id = b.id) (h : g.cell id = some c) :
    (g.modifyBackend id f hf).cell id = some { c with backend := f c.backend } := by
  obtain ⟨hb, hbr, hst⟩ := cell_eq_some_iff.mp h
  simp [cell_eq_some_iff, modifyBackend, hb, hbr, hst]

@[simp] theorem cell_modifyBackend_ne {f : Backend → Backend}
    (hf : ∀ b, (f b).id = b.id) (hne : id' ≠ id) :
    (g.modifyBackend id f hf).cell id' = g.cell id' := by
  simp [cell, modifyBackend, BackendPool.find_modify_ne hf hne]

@[simp] theorem ids_setBreaker (breaker : Breaker) :
    (g.setBreaker id breaker).pool.ids = g.pool.ids := by
  rfl

@[simp] theorem ids_setStats (stats : HealthStats) :
    (g.setStats id stats).pool.ids = g.pool.ids := by
  rfl

@[simp] theorem ids_modifyBackend {f : Backend → Backend}
    (hf : ∀ b, (f b).id = b.id) :
    (g.modifyBackend id f hf).pool.ids = g.pool.ids :=
  BackendPool.ids_modify hf

end Writes

/--
`Moves g g' φ`: going from `g` to `g'` keeps the pool order and applies `φ id`
to the cell of every id.
-/
structure Moves (g g' : Gateway) (φ : String → Cell → Cell) : Prop where
  ids : g'.pool.ids = g.pool.ids
  cell : ∀ id, g'.cell id = (g.cell id).map (φ id)

/-- The cell function that acts on one backend only. -/
def onlyAt (id : String) (f : Cell → Cell) : String → Cell → Cell :=
  fun id' c => if id' = id then f c else c

@[simp] theorem onlyAt_self (id : String) (f : Cell → Cell) (c : Cell) :
    onlyAt id f id c = f c := by
  simp [onlyAt]

theorem onlyAt_ne {id id' : String} (hne : id' ≠ id) (f : Cell → Cell) (c : Cell) :
    onlyAt id f id' c = c := by
  simp [onlyAt, hne]

namespace Moves

variable {g g' g'' : Gateway} {φ ψ : String → Cell → Cell}

theorem refl (g : Gateway) : Moves g g (fun _ c => c) :=
  ⟨rfl, fun id => by simp⟩

theorem trans (h : Moves g g' φ) (h' : Moves g' g'' ψ) :
    Moves g g'' (fun id c => ψ id (φ id c)) := by
  refine ⟨h'.ids.trans h.ids, fun id => ?_⟩
  rw [h'.cell id, h.cell id, Option.map_map]
  rfl

theorem congr (h : Moves g g' φ)
    (hφ : ∀ id c, g.cell id = some c → φ id c = ψ id c) :
    Moves g g' ψ := by
  refine ⟨h.ids, fun id => ?_⟩
  rw [h.cell id]
  cases hc : g.cell id with
  | none => rfl
  | some c => simp [hφ id c hc]

/-- Writes outside pool, breakers and health records move no cell. -/
theorem of_eq (hpool : g'.pool = g.pool) (hbreakers : g'.breakers = g.breakers)
    (hstats : g'.stats = g.stats) :
    Moves g g' (fun _ c => c) := by
  refine ⟨by rw [hpool], fun id => ?_⟩
  simp [Gateway.cell, hpool, hbreakers, hstats]

theorem complete (h : Moves g g' φ) (hg : g.Complete) :
    g'.Complete := by
  intro id hid
  rw [h.ids] at hid
  simpa [h.cell id] using hg id hid

theorem cell_some (h : Moves g g' φ) {id : String} {c : Cell}
    (hc : g.cell id = some c) :
    g'.cell id = some (φ id c) := by
  simp [h.cell id, hc]

/-- An operation on one id, given by what it does to that id's cell. -/
theorem of_self (hg : g.Complete) {id : String} {f : Cell → Cell}
    (hids : g'.pool.ids = g.pool.ids)
    (hself : ∀ c, g.cell id = some c → g'.cell id = some (f c))
    (hother : ∀ id', id' ≠ id → g'.cell id' = g.cell id') :
    Moves g g' (onlyAt id f) := by
  refine ⟨hids, fun id' => ?_⟩
  by_cases hne : id' = id
  · subst hne
    cases hc : g.cell id' with
    | some c => simp [hself c hc]
    | none =>
        have hmem : id' ∉ g'.pool.ids := by
          rw [hids, ← BackendPool.find_isSome_iff, hg.find_eq_none hc]
          simp
        have hfind : g'.pool.find id' = none := by
          rw [← BackendPool.find_isSome_iff] at hmem
          simpa using hmem
        simp [cell_eq_none_of_find hfind]
  · rw [hother id' hne]
    cases g.cell id' with
    | none => rfl
    | some c => simp [onlyAt_ne hne]

end Moves

end Gateway

end SentinelADC
