import SentinelADC.Helpers

/-!
# Cache service

`cache/cacheService.js`.  Responses are kept in Redis or, while Redis is out
of reach, in a map in memory.  The Redis client sends its commands over one
connection and the server answers them in order, so the commands on their way
form a queue.  The service is generic in what it stores.
-/

namespace SentinelADC

universe u

/-- A stored value with its expiry time. -/
structure CacheRecord (V : Type u) where
  key : String
  value : V
  expiresAt : Int

/-- `cacheService.stats`. -/
structure CacheStats where
  hits : Nat
  misses : Nat
  totalHitLatency : Rat
  totalMissLatency : Rat
  totalBypasses : Nat

/-- A Redis command that the server has not answered yet. -/
inductive RedisCommand (V : Type u) where
  /-- `GET`; the reply goes to the request `rid`. -/
  | get (rid : Nat) (key : String)
  | set (key : String) (value : V) (ttl : Int)
  | del (keys : List String)
  /-- `KEYS` with a pattern, given by the keys that it matches. -/
  | keys (pattern : String → Bool)
  | flushdb

/-- The cache service together with the key space of the Redis server. -/
structure CacheService (V : Type u) where
  enabled : Bool
  /-- `config.cache.ttl`, in seconds. -/
  ttl : Int
  /-- `client.status`, if there is a client. -/
  client : Option String
  useMemoryFallback : Bool
  memoryCache : List (CacheRecord V)
  redis : List (CacheRecord V)
  /-- Commands sent to Redis, oldest first. -/
  queue : List (RedisCommand V)
  stats : CacheStats

namespace CacheRecord

variable {V : Type u}

/-- `Map.prototype.set` on the records. -/
def insert (record : CacheRecord V) (records : List (CacheRecord V)) : List (CacheRecord V) :=
  if ∃ r ∈ records, r.key = record.key then
    records.map (fun r => if r.key = record.key then record else r)
  else records ++ [record]

/-- The record under a key that has not expired. -/
def lookup (now : Int) (key : String) (records : List (CacheRecord V)) :
    Option (CacheRecord V) :=
  records.find? (fun r => r.key = key ∧ now ≤ r.expiresAt)

/-- A record is stored by `insert` or was there before. -/
theorem mem_insert {record r : CacheRecord V} {records : List (CacheRecord V)}
    (h : r ∈ insert record records) :
    r = record ∨ r ∈ records := by
  simp only [insert] at h
  split_ifs at h
  · obtain ⟨r', hr', rfl⟩ := List.mem_map.mp h
    split_ifs
    · exact Or.inl rfl
    · exact Or.inr hr'
  · simpa [or_comm] using h

end CacheRecord

namespace CacheService

variable {V : Type u}

/-- `isActive`. -/
def isActive (cache : CacheService V) : Bool :=
  cache.enabled && (cache.useMemoryFallback || cache.client = some "ready")

/-- `get` in memory; a record that has expired is deleted. -/
def getMemory (now : Int) (key : String) (cache : CacheService V) :
    Option V × CacheService V :=
  match cache.memoryCache.find? (fun r => r.key = key) with
  | none => (none, cache)
  | some record =>
      if record.expiresAt < now then
        (none, { cache with memoryCache := cache.memoryCache.filter (fun r => r.key ≠ key) })
      else (some record.value, cache)

/-- `get`, called for the request `rid`: an answer, or a command on its way. -/
def get (now : Int) (rid : Nat) (key : String) (cache : CacheService V) :
    Option (Option V) × CacheService V :=
  if cache.isActive = false then (some none, cache)
  else if cache.useMemoryFallback then
    let (value, cache) := cache.getMemory now key
    (some value, cache)
  else (none, { cache with queue := cache.queue ++ [.get rid key] })

/-- `set` with the configured lifetime. -/
def set (now : Int) (key : String) (value : V) (cache : CacheService V) : CacheService V :=
  if cache.isActive = false then cache
  else if cache.useMemoryFallback then
    { cache with
      memoryCache := CacheRecord.insert ⟨key, value, now + cache.ttl * 1000⟩ cache.memoryCache }
  else { cache with queue := cache.queue ++ [.set key value cache.ttl] }

/-- `delete`. -/
def delete (key : String) (cache : CacheService V) : CacheService V :=
  if cache.isActive = false then cache
  else if cache.useMemoryFallback then
    { cache with memoryCache := cache.memoryCache.filter (fun r => r.key ≠ key) }
  else { cache with queue := cache.queue ++ [.del [key]] }

/-- `invalidatePattern`, for a pattern given by the keys that it matches. -/
def invalidatePattern (pattern : String → Bool) (cache : CacheService V) : CacheService V :=
  if cache.isActive = false then cache
  else if cache.useMemoryFallback then
    { cache with memoryCache := cache.memoryCache.filter (fun r => !pattern r.key) }
  else { cache with queue := cache.queue ++ [.keys pattern] }

/-- `flushAll`. -/
def flushAll (cache : CacheService V) : CacheService V :=
  if cache.isActive = false then cache
  else if cache.useMemoryFallback then { cache with memoryCache := [] }
  else { cache with queue := cache.queue ++ [.flushdb] }

/-- `recordHit`. -/
def recordHit (latency : Rat) (cache : CacheService V) : CacheService V :=
  { cache with
    stats :=
      { cache.stats with
        hits := cache.stats.hits + 1
        totalHitLatency := cache.stats.totalHitLatency + latency } }

/-- `recordMiss`. -/
def recordMiss (latency : Rat) (cache : CacheService V) : CacheService V :=
  { cache with
    stats :=
      { cache.stats with
        misses := cache.stats.misses + 1
        totalMissLatency := cache.stats.totalMissLatency + latency } }

/-- `recordBypass`. -/
def recordBypass (cache : CacheService V) : CacheService V :=
  { cache with stats := { cache.stats with totalBypasses := cache.stats.totalBypasses + 1 } }

/-- The client socket is connected. -/
def onConnect (cache : CacheService V) : CacheService V :=
  { cache with useMemoryFallback := false }

/-- The client socket fails, or the retry strategy gives up. -/
def onError (cache : CacheService V) : CacheService V :=
  { cache with useMemoryFallback := true }

/-- The client moves to another status. -/
def onStatus (status : String) (cache : CacheService V) : CacheService V :=
  { cache with client := cache.client.map (fun _ => status) }

/-- The server runs a command; what `KEYS` finds is deleted by a new command. -/
def execute (now : Int) (command : RedisCommand V) (cache : CacheService V) : CacheService V :=
  match command with
  | .get _ _ => cache
  | .set key value ttl =>
      { cache with redis := CacheRecord.insert ⟨key, value, now + ttl * 1000⟩ cache.redis }
  | .del keys => { cache with redis := cache.redis.filter (fun r => r.key ∉ keys) }
  | .keys pattern =>
      let found := (cache.redis.map CacheRecord.key).filter pattern
      if found = [] then cache else { cache with queue := cache.queue ++ [.del found] }
  | .flushdb => { cache with redis := [] }

/-- The oldest command is answered, or fails without effect.  The answer to a
`GET` comes with the request it is for; a failed one reads as `null`. -/
def answer (now : Int) (ok : Bool) (cache : CacheService V) :
    Option (Nat × Option V) × CacheService V :=
  match cache.queue with
  | [] => (none, cache)
  | .get rid key :: queue =>
      (some (rid, if ok then (CacheRecord.lookup now key cache.redis).map CacheRecord.value
        else none), { cache with queue := queue })
  | command :: queue =>
      let cache := { cache with queue := queue }
      (none, if ok then cache.execute now command else cache)

/-- Every value that is stored, or on its way to Redis, has the property. -/
structure Holds (P : V → Prop) (cache : CacheService V) : Prop where
  memory : ∀ r ∈ cache.memoryCache, P r.value
  redis : ∀ r ∈ cache.redis, P r.value
  queue : ∀ key value ttl, .set key value ttl ∈ cache.queue → P value

/-- The same for a property of a value under its key. -/
structure HoldsAt (P : String → V → Prop) (cache : CacheService V) : Prop where
  memory : ∀ r ∈ cache.memoryCache, P r.key r.value
  redis : ∀ r ∈ cache.redis, P r.key r.value
  queue : ∀ key value ttl, .set key value ttl ∈ cache.queue → P key value

section HoldsAt

variable {P : String → V → Prop} {now : Int} {rid : Nat} {key : String} {cache : CacheService V}

theorem HoldsAt.mono {P' : String → V → Prop} (h : cache.HoldsAt P)
    (hP : ∀ key value, P key value → P' key value) :
    cache.HoldsAt P' :=
  ⟨fun r hr => hP _ _ (h.memory r hr), fun r hr => hP _ _ (h.redis r hr),
    fun key value ttl hmem => hP _ _ (h.queue key value ttl hmem)⟩

/-- A command that stores nothing may join the queue. -/
theorem HoldsAt.push {command : RedisCommand V} (h : cache.HoldsAt P)
    (hcommand : ∀ key value ttl, command = .set key value ttl → P key value) :
    ({ cache with queue := cache.queue ++ [command] } : CacheService V).HoldsAt P := by
  refine ⟨h.memory, h.redis, ?_⟩
  intro key value ttl hmem
  rcases List.mem_append.mp hmem with hmem | hmem
  · exact h.queue key value ttl hmem
  · exact hcommand key value ttl (List.mem_singleton.mp hmem).symm

theorem HoldsAt.filterMemory (h : cache.HoldsAt P) (keep : CacheRecord V → Bool) :
    ({ cache with memoryCache := cache.memoryCache.filter keep } : CacheService V).HoldsAt P :=
  ⟨fun r hr => h.memory r (List.mem_of_mem_filter hr), h.redis, h.queue⟩

theorem HoldsAt.getMemory (h : cache.HoldsAt P) :
    (cache.getMemory now key).2.HoldsAt P := by
  simp only [CacheService.getMemory]
  split
  · exact h
  · split_ifs
    · exact h.filterMemory _
    · exact h

theorem HoldsAt.of_getMemory {value : V} (h : cache.HoldsAt P)
    (hget : (cache.getMemory now key).1 = some value) :
    P key value := by
  simp only [CacheService.getMemory] at hget
  split at hget
  · simp at hget
  · next record hfind =>
      split_ifs at hget
      obtain rfl := Option.some.inj hget
      obtain rfl : record.key = key := by simpa using List.find?_some hfind
      exact h.memory record (List.mem_of_find?_eq_some hfind)

theorem HoldsAt.get (h : cache.HoldsAt P) :
    (cache.get now rid key).2.HoldsAt P := by
  simp only [CacheService.get]
  split_ifs
  · exact h
  · exact h.getMemory
  · exact h.push (by simp)

/-- What a lookup answers at once was stored. -/
theorem HoldsAt.of_get {value : V} (h : cache.HoldsAt P)
    (hget : (cache.get now rid key).1 = some (some value)) :
    P key value := by
  simp only [CacheService.get] at hget
  split_ifs at hget
  · simp at hget
  · exact h.of_getMemory (Option.some.inj hget)

theorem HoldsAt.insertMemory {record : CacheRecord V} (h : cache.HoldsAt P)
    (hP : P record.key record.value) :
    ({ cache with
      memoryCache := CacheRecord.insert record cache.memoryCache } : CacheService V).HoldsAt P := by
  refine ⟨fun r hr => ?_, h.redis, h.queue⟩
  rcases CacheRecord.mem_insert hr with rfl | hr
  · exact hP
  · exact h.memory r hr

theorem HoldsAt.set {value : V} (h : cache.HoldsAt P) (hP : P key value) :
    (cache.set now key value).HoldsAt P := by
  simp only [CacheService.set]
  split_ifs
  · exact h
  · exact h.insertMemory hP
  · refine h.push ?_
    intro key' value' ttl heq
    obtain ⟨rfl, rfl, rfl⟩ := RedisCommand.set.inj heq
    exact hP

theorem HoldsAt.delete (h : cache.HoldsAt P) :
    (cache.delete key).HoldsAt P := by
  simp only [CacheService.delete]
  split_ifs
  · exact h
  · exact h.filterMemory _
  · exact h.push (by simp)

theorem HoldsAt.invalidatePattern (h : cache.HoldsAt P) (pattern : String → Bool) :
    (cache.invalidatePattern pattern).HoldsAt P := by
  simp only [CacheService.invalidatePattern]
  split_ifs
  · exact h
  · exact h.filterMemory _
  · exact h.push (by simp)

theorem HoldsAt.flushAll (h : cache.HoldsAt P) :
    cache.flushAll.HoldsAt P := by
  simp only [CacheService.flushAll]
  split_ifs
  · exact h
  · exact ⟨by simp, h.redis, h.queue⟩
  · exact h.push (by simp)

theorem HoldsAt.execute {command : RedisCommand V} (h : cache.HoldsAt P)
    (hcommand : ∀ key value ttl, command = .set key value ttl → P key value) :
    (cache.execute now command).HoldsAt P := by
  cases command with
  | get rid key => exact h
  | set key value ttl =>
      refine ⟨h.memory, fun r hr => ?_, h.queue⟩
      rcases CacheRecord.mem_insert hr with rfl | hr
      · exact hcommand key value ttl rfl
      · exact h.redis r hr
  | del keys => exact ⟨h.memory, fun r hr => h.redis r (List.mem_of_mem_filter hr), h.queue⟩
  | keys pattern =>
      simp only [CacheService.execute]
      split_ifs
      · exact h
      · exact h.push (by simp)
  | flushdb => exact ⟨h.memory, by simp [CacheService.execute], h.queue⟩

/-- The queue may lose its oldest command. -/
theorem HoldsAt.pop {command : RedisCommand V} {queue : List (RedisCommand V)}
    (h : cache.HoldsAt P) (hqueue : cache.queue = command :: queue) :
    ({ cache with queue := queue } : CacheService V).HoldsAt P := by
  refine ⟨h.memory, h.redis, fun key value ttl hmem => h.queue key value ttl ?_⟩
  rw [hqueue]
  exact List.mem_cons_of_mem _ hmem

theorem HoldsAt.answer {ok : Bool} (h : cache.HoldsAt P) :
    (cache.answer now ok).2.HoldsAt P := by
  simp only [CacheService.answer]
  split
  · exact h
  · next hqueue => exact h.pop hqueue
  · next command queue _ hqueue =>
      dsimp only
      split_ifs
      · refine (h.pop hqueue).execute ?_
        rintro key value ttl rfl
        exact h.queue key value ttl (by rw [hqueue]; exact List.mem_cons_self)
      · exact h.pop hqueue

/-- What Redis answers to a `GET` was stored under its key. -/
theorem HoldsAt.of_answer {ok : Bool} {value : V} (h : cache.HoldsAt P)
    (hanswer : (cache.answer now ok).1 = some (rid, some value)) :
    ∃ key, .get rid key ∈ cache.queue ∧ P key value := by
  simp only [CacheService.answer] at hanswer
  split at hanswer
  · simp at hanswer
  · next rid' key queue hqueue =>
      simp only [Option.some.injEq, Prod.mk.injEq] at hanswer
      obtain ⟨rfl, hvalue⟩ := hanswer
      split_ifs at hvalue
      obtain ⟨record, hlookup, rfl⟩ := Option.map_eq_some_iff.mp hvalue
      have hkey : record.key = key ∧ now ≤ record.expiresAt := by
        simpa using List.find?_some hlookup
      refine ⟨key, by rw [hqueue]; exact List.mem_cons_self, ?_⟩
      exact hkey.1 ▸ h.redis record (List.mem_of_find?_eq_some hlookup)
  · simp at hanswer

/-- Counters, connection status and mode hold no values. -/
theorem HoldsAt.congr {cache' : CacheService V} (h : cache.HoldsAt P)
    (hmemory : cache'.memoryCache = cache.memoryCache) (hredis : cache'.redis = cache.redis)
    (hqueue : cache'.queue = cache.queue) :
    cache'.HoldsAt P :=
  ⟨hmemory ▸ h.memory, hredis ▸ h.redis, hqueue ▸ h.queue⟩

end HoldsAt

section Lookups

variable {now : Int} {rid rid' : Nat} {key key' : String} {cache : CacheService V}

/-- Only `get` sends a `GET`. -/
theorem mem_queue_push {command : RedisCommand V} (hcommand : command ≠ .get rid key)
    (h : .get rid key ∈ cache.queue ++ [command]) :
    .get rid key ∈ cache.queue := by
  rcases List.mem_append.mp h with h | h
  · exact h
  · exact absurd (List.mem_singleton.mp h).symm hcommand

theorem mem_queue_get (h : .get rid key ∈ (cache.get now rid' key').2.queue) :
    .get rid key ∈ cache.queue ∨ rid = rid' ∧ key = key' := by
  simp only [CacheService.get] at h
  split_ifs at h
  · exact Or.inl h
  · simp only [getMemory] at h
    split at h
    · exact Or.inl h
    · split_ifs at h <;> exact Or.inl h
  · rcases List.mem_append.mp h with h | h
    · exact Or.inl h
    · simpa using Or.inr (List.mem_singleton.mp h)

theorem mem_queue_set {value : V} (h : .get rid key ∈ (cache.set now key' value).queue) :
    .get rid key ∈ cache.queue := by
  simp only [CacheService.set] at h
  split_ifs at h
  · exact h
  · exact h
  · exact mem_queue_push (by simp) h

theorem mem_queue_delete (h : .get rid key ∈ (cache.delete key').queue) :
    .get rid key ∈ cache.queue := by
  simp only [CacheService.delete] at h
  split_ifs at h
  · exact h
  · exact h
  · exact mem_queue_push (by simp) h

theorem mem_queue_invalidatePattern {pattern : String → Bool}
    (h : .get rid key ∈ (cache.invalidatePattern pattern).queue) :
    .get rid key ∈ cache.queue := by
  simp only [CacheService.invalidatePattern] at h
  split_ifs at h
  · exact h
  · exact h
  · exact mem_queue_push (by simp) h

theorem mem_queue_flushAll (h : .get rid key ∈ cache.flushAll.queue) :
    .get rid key ∈ cache.queue := by
  simp only [CacheService.flushAll] at h
  split_ifs at h
  · exact h
  · exact h
  · exact mem_queue_push (by simp) h

theorem mem_queue_execute {command : RedisCommand V}
    (h : .get rid key ∈ (cache.execute now command).queue) :
    .get rid key ∈ cache.queue := by
  cases command with
  | keys pattern =>
      simp only [CacheService.execute] at h
      split_ifs at h
      · exact h
      · exact mem_queue_push (by simp) h
  | _ => exact h

theorem mem_queue_answer {ok : Bool} (h : .get rid key ∈ (cache.answer now ok).2.queue) :
    .get rid key ∈ cache.queue := by
  simp only [CacheService.answer] at h
  split at h
  · exact h
  · next hqueue =>
      rw [hqueue]
      exact List.mem_cons_of_mem _ h
  · next command queue _ hqueue =>
      rw [hqueue]
      refine List.mem_cons_of_mem _ ?_
      dsimp only at h
      split_ifs at h
      · exact mem_queue_execute h
      · exact h

end Lookups

section Holds

variable {P : V → Prop} {now : Int} {rid : Nat} {key : String} {cache : CacheService V}

theorem holds_iff_holdsAt :
    cache.Holds P ↔ cache.HoldsAt (fun _ => P) :=
  ⟨fun h => ⟨h.memory, h.redis, h.queue⟩, fun h => ⟨h.memory, h.redis, h.queue⟩⟩

theorem Holds.get (h : cache.Holds P) :
    (cache.get now rid key).2.Holds P :=
  holds_iff_holdsAt.mpr (holds_iff_holdsAt.mp h).get

theorem Holds.of_get {value : V} (h : cache.Holds P)
    (hget : (cache.get now rid key).1 = some (some value)) :
    P value :=
  (holds_iff_holdsAt.mp h).of_get hget

theorem Holds.set {value : V} (h : cache.Holds P) (hP : P value) :
    (cache.set now key value).Holds P :=
  holds_iff_holdsAt.mpr ((holds_iff_holdsAt.mp h).set hP)

theorem Holds.delete (h : cache.Holds P) :
    (cache.delete key).Holds P :=
  holds_iff_holdsAt.mpr (holds_iff_holdsAt.mp h).delete

theorem Holds.invalidatePattern (h : cache.Holds P) (pattern : String → Bool) :
    (cache.invalidatePattern pattern).Holds P :=
  holds_iff_holdsAt.mpr ((holds_iff_holdsAt.mp h).invalidatePattern pattern)

theorem Holds.flushAll (h : cache.Holds P) :
    cache.flushAll.Holds P :=
  holds_iff_holdsAt.mpr (holds_iff_holdsAt.mp h).flushAll

theorem Holds.answer {ok : Bool} (h : cache.Holds P) :
    (cache.answer now ok).2.Holds P :=
  holds_iff_holdsAt.mpr (holds_iff_holdsAt.mp h).answer

theorem Holds.of_answer {ok : Bool} {value : V} (h : cache.Holds P)
    (hanswer : (cache.answer now ok).1 = some (rid, some value)) :
    P value := by
  obtain ⟨_, _, hvalue⟩ := (holds_iff_holdsAt.mp h).of_answer hanswer
  exact hvalue

theorem Holds.recordHit (h : cache.Holds P) (latency : Rat) :
    (cache.recordHit latency).Holds P :=
  ⟨h.memory, h.redis, h.queue⟩

theorem Holds.recordMiss (h : cache.Holds P) (latency : Rat) :
    (cache.recordMiss latency).Holds P :=
  ⟨h.memory, h.redis, h.queue⟩

theorem Holds.recordBypass (h : cache.Holds P) :
    cache.recordBypass.Holds P :=
  ⟨h.memory, h.redis, h.queue⟩

theorem Holds.onConnect (h : cache.Holds P) :
    cache.onConnect.Holds P :=
  ⟨h.memory, h.redis, h.queue⟩

theorem Holds.onError (h : cache.Holds P) :
    cache.onError.Holds P :=
  ⟨h.memory, h.redis, h.queue⟩

theorem Holds.onStatus (h : cache.Holds P) (status : String) :
    (cache.onStatus status).Holds P :=
  ⟨h.memory, h.redis, h.queue⟩

end Holds

end CacheService

end SentinelADC
