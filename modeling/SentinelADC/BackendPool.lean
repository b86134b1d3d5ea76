import SentinelADC.Lib.KeyedList
import Std.Data.String.ToNat

/-!
# The backend pool

`config/backends.js` builds one array of mutable backend objects.  Every other
module (health store, circuit breaker, drain manager, override route, router)
reads and writes the fields of these shared objects.

The pool is a list of records with pairwise distinct ids; distinctness is a
field of the structure, so it never has to be proved again.  Object identity is
the id: `find` returns the current contents of the object and `modify` writes
it in place.
-/

namespace SentinelADC

/-- Values of `backend.status`. -/
inductive BackendStatus where
  | healthy
  | degraded
  | unhealthy
  | draining
  | offline
deriving DecidableEq, Repr

/-- One pool member. -/
structure Backend where
  id : String
  url : String
  weight : Nat
  healthy : Bool
  status : BackendStatus
  activeConnections : Int
  /-- Absent on a fresh backend, which reads as `false`. -/
  adminDisabled : Bool
  /-- Set by `drainBackend`, deleted by `undrainBackend`. -/
  drainStartTime : Option Int
  /-- Whether the drain completion callback is attached to the object. -/
  onDrainComplete : Bool
deriving DecidableEq, Repr

structure BackendPool where
  backends : List Backend
  nodup_ids : (backends.map Backend.id).Nodup

namespace BackendPool

/-- Ids in pool order. -/
def ids (pool : BackendPool) : List String :=
  pool.backends.map Backend.id

/-- `backendPool.find(b => b.id === id)`. -/
def find (pool : BackendPool) (id : String) : Option Backend :=
  KeyedList.findKey Backend.id id pool.backends

/-- Write the fields of the backend object with the given id. -/
def modify (pool : BackendPool) (id : String) (f : Backend → Backend)
    (hf : ∀ b, (f b).id = b.id) : BackendPool where
  backends := KeyedList.updateKey Backend.id id f pool.backends
  nodup_ids := by
    rw [KeyedList.map_key_updateKey hf]
    exact pool.nodup_ids

theorem ids_nodup (pool : BackendPool) :
    pool.ids.Nodup :=
  pool.nodup_ids

section Lookup

variable {pool : BackendPool} {id id' : String} {f : Backend → Backend}

theorem id_of_find {b : Backend} (h : pool.find id = some b) :
    b.id = id :=
  KeyedList.key_of_findKey h

theorem mem_of_find {b : Backend} (h : pool.find id = some b) :
    b ∈ pool.backends :=
  KeyedList.mem_of_findKey h

theorem find_of_mem {b : Backend} (h : b ∈ pool.backends) :
    pool.find b.id = some b :=
  KeyedList.findKey_of_mem pool.nodup_ids h

theorem find_isSome_iff :
    (pool.find id).isSome ↔ id ∈ pool.ids :=
  KeyedList.findKey_isSome_iff

@[simp] theorem ids_modify (hf : ∀ b, (f b).id = b.id) :
    (pool.modify id f hf).ids = pool.ids :=
  KeyedList.map_key_updateKey hf id pool.backends

@[simp] theorem find_modify_self (hf : ∀ b, (f b).id = b.id) :
    (pool.modify id f hf).find id = (pool.find id).map f :=
  KeyedList.findKey_updateKey_self hf id pool.backends

theorem find_modify_ne (hf : ∀ b, (f b).id = b.id) (hne : id' ≠ id) :
    (pool.modify id f hf).find id' = pool.find id' :=
  KeyedList.findKey_updateKey_ne hf hne pool.backends

end Lookup

end BackendPool

/-- Id of the backend built from the URL at position `index`. -/
def backendId (index : Nat) : String :=
  "backend-" ++ toString (index + 1)

theorem backendId_injective : Function.Injective backendId := by
  intro i j h
  have hrepr : Nat.repr (i + 1) = Nat.repr (j + 1) :=
    (String.append_right_inj "backend-").mp h
  exact Nat.succ.inj (Nat.repr_inj.mp hrepr)

/-- `url.replace(/\/+$/, '')`. -/
def stripTrailingSlashes (url : String) : String :=
  String.ofList (url.toList.reverse.dropWhile (fun c => c = '/')).reverse

/-- The backend object built from the URL at position `index`. -/
def createBackend (index : Nat) (url : String) : Backend where
  id := backendId index
  url := stripTrailingSlashes url
  weight := if index = 0 then 3 else if index = 1 then 2 else 1
  healthy := true
  status := .healthy
  activeConnections := 0
  adminDisabled := false
  drainStartTime := none
  onDrainComplete := false

/-- `createBackendPool`: one object for each configured URL. -/
def createBackendPool (urls : List String) : BackendPool where
  backends := urls.mapIdx createBackend
  nodup_ids := by
    have hids :
        (urls.mapIdx createBackend).map Backend.id =
          (List.range urls.length).map backendId := by
      apply List.ext_getElem
      · simp
      · intro i h₁ h₂
        simp [createBackend]
    rw [hids]
    exact List.nodup_range.map backendId_injective

/-- Every object of a fresh pool is healthy, idle and free of overrides. -/
theorem fresh_of_mem_createBackendPool
    {urls : List String} {b : Backend}
    (hb : b ∈ (createBackendPool urls).backends) :
    b.healthy = true ∧ b.status = .healthy ∧ b.activeConnections = 0 ∧
      b.adminDisabled = false ∧ b.onDrainComplete = false := by
  obtain ⟨i, hi, rfl⟩ := List.mem_mapIdx.mp hb
  exact ⟨rfl, rfl, rfl, rfl, rfl⟩

theorem weight_le_of_mem_createBackendPool {urls : List String} {b : Backend}
    (hb : b ∈ (createBackendPool urls).backends) :
    b.weight ≤ 3 := by
  obtain ⟨i, hi, rfl⟩ := List.mem_mapIdx.mp hb
  simp only [createBackend]
  split_ifs <;> decide

theorem ne_empty_of_mem_createBackendPool {urls : List String} {id : String}
    (h : id ∈ (createBackendPool urls).ids) :
    id ≠ "" := by
  obtain ⟨b, hb, rfl⟩ := List.mem_map.mp h
  obtain ⟨i, hi, rfl⟩ := List.mem_mapIdx.mp hb
  intro hempty
  have hlength := congrArg String.length hempty
  simp [createBackend, backendId] at hlength

end SentinelADC
