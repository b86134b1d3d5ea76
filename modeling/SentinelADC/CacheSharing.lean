import SentinelADC.CacheBodies

/-!
# Who shares cached responses

The key of a cached response is the URL of its request and nothing else, so
whoever asks for a URL gets what the first client was answered, with whatever
host name, token or cookie that client asked.  What clients of one URL receive
does not depend on the requests for other URLs.

A `Visit` is a request that is served before the next one arrives, from either
store.  `serve` says what a visit does to the cache and what its client
receives; it reads and writes only the records under its own key.
-/

namespace SentinelADC

open Runs

universe u

/-- What the backend, or whoever else answers, sends. -/
structure Reply where
  status : Nat
  headers : Headers
  body : List UInt8

/-- A request with what the gateway and Redis do about it. -/
structure Visit where
  rid : Nat
  now : Int
  request : HttpRequest
  /-- Response headers set by the middlewares in front of the cache. -/
  headers : Headers
  /-- Redis answers the lookup. -/
  lookupOk : Bool
  /-- Redis stores the response. -/
  storeOk : Bool
  latency : Rat
  fault : Option Nat

namespace CacheRecord

variable {V : Type u} {now : Int} {key : String} {record : CacheRecord V}

/-- The records under a key. -/
def under (key : String) (records : List (CacheRecord V)) : List (CacheRecord V) :=
  records.filter (fun r => r.key = key)

@[simp] theorem under_under (records : List (CacheRecord V)) :
    under key (under key records) = under key records := by
  simp [under]

theorem find?_under (records : List (CacheRecord V)) (test : CacheRecord V → Bool) :
    (under key records).find? (fun r => r.key = key && test r) =
      records.find? (fun r => r.key = key && test r) := by
  rw [under, List.find?_filter]
  congr 1
  funext r
  cases decide (r.key = key) <;> simp

theorem lookup_under (records : List (CacheRecord V)) :
    lookup now key (under key records) = lookup now key records := by
  simpa [lookup] using find?_under records (fun r => decide (now ≤ r.expiresAt))

theorem under_filter_ne (records : List (CacheRecord V)) :
    under key (records.filter (fun r => r.key ≠ key)) = [] := by
  simp [under]

theorem under_filter_other {key' : String} (hne : key' ≠ key) (records : List (CacheRecord V)) :
    under key (records.filter (fun r => r.key ≠ key')) = under key records := by
  simp only [under, List.filter_filter]
  apply List.filter_congr
  intro r _
  by_cases hr : r.key = key
  · simp [hr, hne.symm]
  · simp [hr]

theorem under_map_insert (records : List (CacheRecord V)) :
    under key (records.map (fun r => if r.key = record.key then record else r)) =
      (under key records).map (fun r => if r.key = record.key then record else r) := by
  induction records with
  | nil => rfl
  | cons r records ih =>
      have hkey : (if r.key = record.key then record else r).key = r.key := by
        split_ifs with h
        · exact h.symm
        · rfl
      simp only [under, List.map_cons, List.filter_cons, hkey] at ih ⊢
      by_cases hr : r.key = key
      · simp [hr, ih]
      · simp [hr, ih]

/-- Storing under the key is storing among its records. -/
theorem under_insert_self (hkey : record.key = key) (records : List (CacheRecord V)) :
    under key (insert record records) = insert record (under key records) := by
  have hmem : (∃ r ∈ under key records, r.key = record.key) ↔
      ∃ r ∈ records, r.key = record.key := by
    simp only [under, List.mem_filter, decide_eq_true_eq, hkey]
    exact ⟨fun ⟨r, hr, heq⟩ => ⟨r, hr.1, heq⟩, fun ⟨r, hr, heq⟩ => ⟨r, ⟨hr, heq⟩, heq⟩⟩
  simp only [insert, hmem]
  split_ifs
  · exact under_map_insert records
  · simp [under, hkey]

theorem under_insert_other (hkey : record.key ≠ key) (records : List (CacheRecord V)) :
    under key (insert record records) = under key records := by
  simp only [insert]
  split_ifs
  · rw [under_map_insert]
    conv_rhs => rw [← List.map_id (under key records)]
    apply List.map_congr_left
    intro r hr
    have hne : r.key ≠ record.key := by
      rw [show r.key = key by simpa using List.of_mem_filter hr]
      exact hkey.symm
    simp [hne]
  · simp [under, hkey]

end CacheRecord

namespace CacheService

variable {V : Type u}

/-- The part of the service that answers for one key. -/
def forKey (key : String) (cache : CacheService V) : CacheService V :=
  { cache with
    memoryCache := CacheRecord.under key cache.memoryCache
    redis := CacheRecord.under key cache.redis
    stats := ⟨0, 0, 0, 0, 0⟩ }

/-- `get` with the answer of Redis. -/
def fetch (now : Int) (key : String) (ok : Bool) (cache : CacheService V) :
    Option V × CacheService V :=
  if cache.useMemoryFallback then cache.getMemory now key
  else (if ok then (CacheRecord.lookup now key cache.redis).map CacheRecord.value else none, cache)

/-- `set` with the effect that it has in Redis. -/
def store (now : Int) (key : String) (value : V) (ok : Bool) (cache : CacheService V) :
    CacheService V :=
  if cache.isActive = false then cache
  else if cache.useMemoryFallback then cache.set now key value
  else if ok then cache.execute now (.set key value cache.ttl)
  else cache

section ForKey

variable {now : Int} {rid : Nat} {key key' : String} {ok : Bool} {value : V}
  {cache : CacheService V}

@[simp] theorem isActive_forKey :
    (cache.forKey key).isActive = cache.isActive := by
  rfl

@[simp] theorem forKey_forKey :
    (cache.forKey key).forKey key = cache.forKey key := by
  simp [forKey]

/-- Counters belong to no key. -/
@[simp] theorem forKey_recordMiss (latency : Rat) :
    (cache.recordMiss latency).forKey key = cache.forKey key := by
  rfl

@[simp] theorem forKey_recordBypass :
    cache.recordBypass.forKey key = cache.forKey key := by
  rfl

theorem queue_getMemory :
    (cache.getMemory now key).2.queue = cache.queue := by
  simp only [getMemory]
  split
  · rfl
  · split_ifs <;> rfl

theorem getMemory_forKey :
    ((cache.forKey key).getMemory now key).1 = (cache.getMemory now key).1 ∧
      ((cache.forKey key).getMemory now key).2.forKey key =
        (cache.getMemory now key).2.forKey key := by
  have hfind : (CacheRecord.under key cache.memoryCache).find? (fun r => r.key = key) =
      cache.memoryCache.find? (fun r => r.key = key) := by
    simpa using CacheRecord.find?_under cache.memoryCache (fun _ => true)
  simp only [getMemory, forKey, hfind]
  cases cache.memoryCache.find? (fun r => r.key = key) with
  | none => simp
  | some record =>
      dsimp only
      split_ifs
      · simp only [CacheRecord.under_filter_ne, CacheRecord.under_under, and_self]
      · simp

theorem getMemory_other (hne : key' ≠ key) :
    (cache.getMemory now key').2.forKey key = cache.forKey key := by
  simp only [getMemory]
  split
  · rfl
  · split_ifs
    · simp only [forKey, CacheRecord.under_filter_other hne]
    · rfl

/-- A lookup reads and writes the records under its key only. -/
theorem fetch_forKey (now : Int) (key : String) (ok : Bool) (cache : CacheService V) :
    ((cache.forKey key).fetch now key ok).1 = (cache.fetch now key ok).1 ∧
      ((cache.forKey key).fetch now key ok).2.forKey key =
        (cache.fetch now key ok).2.forKey key := by
  have hmode : (cache.forKey key).useMemoryFallback = cache.useMemoryFallback := rfl
  simp only [fetch, hmode]
  split_ifs
  · exact getMemory_forKey
  · exact ⟨by simp only [forKey, CacheRecord.lookup_under], forKey_forKey⟩
  · exact ⟨rfl, forKey_forKey⟩

theorem fetch_other (hne : key' ≠ key) :
    (cache.fetch now key' ok).2.forKey key = cache.forKey key := by
  simp only [fetch]
  split
  · exact getMemory_other hne
  · rfl

/-- A store writes under its key only. -/
theorem store_forKey :
    ((cache.forKey key).store now key value ok).forKey key =
      (cache.store now key value ok).forKey key := by
  have hmode : (cache.forKey key).useMemoryFallback = cache.useMemoryFallback := rfl
  simp only [store, set, isActive_forKey, hmode]
  split_ifs
  · exact forKey_forKey
  · simp only [forKey, CacheRecord.under_insert_self, CacheRecord.under_under]
  · simp only [execute, forKey, CacheRecord.under_insert_self, CacheRecord.under_under]
  · exact forKey_forKey

theorem store_other (hne : key' ≠ key) :
    (cache.store now key' value ok).forKey key = cache.forKey key := by
  have hinsert : ∀ expiresAt (records : List (CacheRecord V)),
      CacheRecord.under key (CacheRecord.insert ⟨key', value, expiresAt⟩ records) =
        CacheRecord.under key records :=
    fun expiresAt => CacheRecord.under_insert_other hne
  simp only [store, set]
  split_ifs
  · rfl
  · simp only [forKey, hinsert]
  · simp only [execute, forKey, hinsert]
  · rfl

theorem queue_fetch :
    (cache.fetch now key ok).2.queue = cache.queue := by
  simp only [fetch]
  split
  · exact queue_getMemory
  · rfl

theorem queue_store :
    (cache.store now key value ok).queue = cache.queue := by
  simp only [store, set]
  split_ifs <;> rfl

/-- A lookup in memory has its result at once, one in Redis by the next answer. -/
theorem get_cases (now : Int) (rid : Nat) (key : String) (ok : Bool) (hqueue : cache.queue = [])
    (hactive : cache.isActive = true) :
    cache.get now rid key = (some (cache.fetch now key ok).1, (cache.fetch now key ok).2) ∨
      ∃ sent, cache.get now rid key = (none, sent) ∧
        sent.answer now ok =
          (some (rid, (cache.fetch now key ok).1), (cache.fetch now key ok).2) := by
  cases hmode : cache.useMemoryFallback with
  | true => exact Or.inl (by simp [get, fetch, hactive, hmode])
  | false =>
      have hget : cache.get now rid key =
          (none, { cache with queue := cache.queue ++ [.get rid key] }) := by
        simp [get, hactive, hmode]
      refine Or.inr ⟨_, hget, ?_⟩
      have hfetch : cache.fetch now key ok =
          (if ok then (CacheRecord.lookup now key cache.redis).map CacheRecord.value else none,
            cache) := by
        simp [fetch, hmode]
      rw [hfetch]
      simp only [answer, hqueue, List.nil_append]
      rw [← hqueue]

/-- With nothing on its way, a store has its effect by the next answer. -/
theorem answer_set (latency : Rat) (hqueue : cache.queue = []) :
    ((cache.set now key value).recordMiss latency).answer now ok =
      (none, (cache.store now key value ok).recordMiss latency) := by
  simp only [store, set]
  split_ifs with hactive hmode hok
  · simp only [recordMiss, answer, hqueue]
  · simp only [recordMiss, answer, hqueue]
  · simp only [recordMiss, answer, hqueue, List.nil_append, hok, if_true]
    rw [← hqueue]
    rfl
  · simp only [recordMiss, answer, hqueue, List.nil_append, hok]
    rw [← hqueue]
    rfl

end ForKey

end CacheService

namespace Visit

/-- Everything that happens for a visit.  After a hit nobody answers any more,
and without Redis no command is on its way; these events then change nothing. -/
def events (backend : HttpRequest → Reply) (v : Visit) : List Pipeline.Event :=
  [⟨v.now, .arrive v.rid v.request v.headers⟩, ⟨v.now, .redisAnswer v.lookupOk⟩,
    ⟨v.now, .resume v.rid v.latency v.fault⟩] ++
  ((backend v.request).headers.map (fun entry => ⟨v.now, .setHeader v.rid entry.1 entry.2⟩) ++
    [⟨v.now, .endResponse v.rid (backend v.request).status (backend v.request).body v.latency⟩,
      ⟨v.now, .redisAnswer v.storeOk⟩])

/-- A visit up to the point where the cache has replayed a response or handed
the request on. -/
def lookUp (libs : Libraries) (v : Visit) (cache : CacheService Traced) :
    CacheService Traced × Cycle :=
  if cacheable cache v.request then
    let (found, cache) := cache.fetch v.now (cacheKey v.request) v.lookupOk
    let c := Cycle.start v.rid v.request v.headers (.found found)
    match found, v.fault with
    | none, _ => (cache, c.intercept libs)
    | some cached, none => (cache.recordHit v.latency, c.replay libs cached v.latency)
    | some cached, some n =>
        ((cache.recordHit v.latency).recordBypass, c.replayFails libs cached n)
  else
    (cache.recordBypass, (Cycle.start v.rid v.request v.headers .looking).bypass libs)

/-- What the end of the response stores. -/
def keep (libs : Libraries) (reply : Reply) (v : Visit) (c : Cycle)
    (cache : CacheService Traced) : CacheService Traced :=
  match c.stage with
  | .answering target true =>
      let status := target.status?.getD reply.status
      (if status = 200 then
        cache.store v.now (cacheKey c.request) (c.snapshot libs target status reply.body) v.storeOk
      else cache).recordMiss v.latency
  | _ => cache

/-- The whole visit: the cache after it, and the request with what its client
has received. -/
def serve (libs : Libraries) (backend : HttpRequest → Reply) (v : Visit)
    (cache : CacheService Traced) : CacheService Traced × Cycle :=
  let (cache, c) := v.lookUp libs cache
  let reply := backend v.request
  let c := reply.headers.foldl (fun c entry => c.onSetHeader entry.1 entry.2) c
  (v.keep libs reply c cache, c.onEnd reply.status reply.body)

end Visit

namespace Pipeline

/-- The state in which a request has just been added. -/
def withLast (cache : CacheService Traced) (c : Cycle) (p : Pipeline) : Pipeline :=
  { cache := cache, cycles := p.cycles ++ [c] }

section Visits

variable {libs : Libraries} {p : Pipeline} {cache : CacheService Traced} {c : Cycle} {now : Int}
  {rid : Nat}

theorem cycle_withLast (hnew : p.cycle rid = none) (hrid : c.rid = rid) :
    (p.withLast cache c).cycle rid = some c := by
  subst hrid
  exact KeyedList.findKey_concat hnew

theorem modifyCycle_withLast (hnew : p.cycle rid = none) (hrid : c.rid = rid)
    (f : Cycle → Cycle) :
    (p.withLast cache c).modifyCycle rid f = p.withLast cache (f c) := by
  subst hrid
  simp only [modifyCycle, withLast]
  rw [KeyedList.updateKey_concat f hnew]

theorem redisAnswer_of_empty {ok : Bool} (hqueue : p.cache.queue = []) :
    p.redisAnswer now ok = p := by
  simp only [redisAnswer, CacheService.answer, hqueue]

/-- A lookup, answered by memory or by Redis. -/
theorem redisAnswer_arrive {req : HttpRequest} {headers : Headers} {ok : Bool}
    (hnew : p.cycle rid = none) (hqueue : p.cache.queue = [])
    (hcacheable : cacheable p.cache req = true) :
    (p.arrive libs now rid req headers).redisAnswer now ok =
      p.withLast (p.cache.fetch now (cacheKey req) ok).2
        (Cycle.start rid req headers (.found (p.cache.fetch now (cacheKey req) ok).1)) := by
  have hactive : p.cache.isActive = true := by
    simp only [cacheable, Bool.and_eq_true] at hcacheable
    exact hcacheable.1.1.1
  simp only [arrive, hnew, hcacheable, if_true]
  rcases CacheService.get_cases now rid (cacheKey req) ok hqueue hactive with
    hget | ⟨sent, hget, hanswer⟩
  · rw [hget]
    exact redisAnswer_of_empty (CacheService.queue_fetch.trans hqueue)
  · rw [hget]
    simp only [redisAnswer, hanswer]
    exact modifyCycle_withLast (c := Cycle.start rid req headers .looking) hnew rfl _

theorem resume_miss {latency : Rat} {fault : Option Nat} (hnew : p.cycle rid = none)
    (hrid : c.rid = rid) (hstage : c.stage = .found none) :
    (p.withLast cache c).resume libs rid latency fault =
      p.withLast cache (c.intercept libs) := by
  simp only [resume, cycle_withLast hnew hrid, hstage]
  exact modifyCycle_withLast hnew hrid _

theorem resume_hit {latency : Rat} {fault : Option Nat} {cached : Traced}
    (hnew : p.cycle rid = none) (hrid : c.rid = rid) (hstage : c.stage = .found (some cached)) :
    (p.withLast cache c).resume libs rid latency fault =
      match fault with
      | none => p.withLast (cache.recordHit latency) (c.replay libs cached latency)
      | some n =>
          p.withLast ((cache.recordHit latency).recordBypass) (c.replayFails libs cached n) := by
  simp only [resume, cycle_withLast hnew hrid, hstage]
  cases fault with
  | none => exact modifyCycle_withLast hnew hrid _
  | some n => exact modifyCycle_withLast hnew hrid _

/-- A request that has been handed on is not resumed. -/
theorem resume_answering {latency : Rat} {fault : Option Nat} {target : Target}
    {intercepted : Bool} (hnew : p.cycle rid = none) (hrid : c.rid = rid)
    (hstage : c.stage = .answering target intercepted) :
    (p.withLast cache c).resume libs rid latency fault = p.withLast cache c := by
  simp only [resume, cycle_withLast hnew hrid, hstage]

/-- The first part of a visit. -/
theorem run_lookUp (v : Visit) (hnew : p.cycle v.rid = none) (hqueue : p.cache.queue = []) :
    run (step libs) p [⟨v.now, .arrive v.rid v.request v.headers⟩,
        ⟨v.now, .redisAnswer v.lookupOk⟩, ⟨v.now, .resume v.rid v.latency v.fault⟩] =
      p.withLast (v.lookUp libs p.cache).1 (v.lookUp libs p.cache).2 := by
  simp only [run_cons, run_nil, step, Visit.lookUp]
  split_ifs with hcacheable
  · rw [redisAnswer_arrive hnew hqueue hcacheable]
    obtain ⟨found, cache⟩ := p.cache.fetch v.now (cacheKey v.request) v.lookupOk
    cases found with
    | none => exact resume_miss hnew rfl rfl
    | some cached =>
        dsimp only
        rw [resume_hit hnew rfl rfl]
        cases v.fault <;> rfl
  · have hbypass : p.arrive libs v.now v.rid v.request v.headers =
        p.withLast p.cache.recordBypass
          ((Cycle.start v.rid v.request v.headers .looking).bypass libs) := by
      simp only [arrive, hnew, hcacheable]
      rfl
    have hempty : (p.withLast p.cache.recordBypass
        ((Cycle.start v.rid v.request v.headers .looking).bypass libs)).cache.queue = [] :=
      hqueue
    rw [hbypass, redisAnswer_of_empty hempty]
    exact resume_answering hnew rfl rfl

/-- The headers of the reply. -/
theorem run_setHeaders (writes : Headers) (hnew : p.cycle rid = none) (hrid : c.rid = rid) :
    run (step libs) (p.withLast cache c)
        (writes.map (fun entry => ⟨now, .setHeader rid entry.1 entry.2⟩)) =
      p.withLast cache
        (writes.foldl (fun c entry => c.onSetHeader entry.1 entry.2) c) := by
  induction writes generalizing c with
  | nil => rfl
  | cons entry writes ih =>
      rw [List.map_cons, run_cons, List.foldl_cons]
      simp only [step]
      rw [modifyCycle_withLast hnew hrid]
      exact ih ((Cycle.rid_onSetHeader c).trans hrid)

theorem rid_setHeaders (writes : Headers) (c : Cycle) :
    (writes.foldl (fun c entry => c.onSetHeader entry.1 entry.2) c).rid = c.rid := by
  induction writes generalizing c with
  | nil => rfl
  | cons entry writes ih => exact (ih _).trans (Cycle.rid_onSetHeader c)

/-- The end of the reply, and what Redis does about it. -/
theorem redisAnswer_endResponse (v : Visit) (reply : Reply) (hnew : p.cycle v.rid = none)
    (hrid : c.rid = v.rid) (hqueue : cache.queue = []) :
    ((p.withLast cache c).endResponse libs v.now v.rid reply.status reply.body
        v.latency).redisAnswer v.now v.storeOk =
      p.withLast (v.keep libs reply c cache) (c.onEnd reply.status reply.body) := by
  have hfinish : ∀ {cache cache' : CacheService Traced} (status : Nat),
      cache.answer v.now v.storeOk = (none, cache') →
      ((p.withLast cache c).modifyCycle v.rid (Cycle.onEnd status reply.body)).redisAnswer
        v.now v.storeOk = p.withLast cache' (c.onEnd status reply.body) := by
    intro cache cache' status hanswer
    rw [modifyCycle_withLast hnew hrid]
    simp only [redisAnswer, withLast, hanswer]
  have hempty : ∀ cache : CacheService Traced, cache.queue = [] →
      cache.answer v.now v.storeOk = (none, cache) := by
    intro cache hqueue
    simp only [CacheService.answer, hqueue]
  simp only [endResponse, cycle_withLast hnew hrid, Visit.keep]
  cases hstage : c.stage with
  | answering target intercepted =>
      cases intercepted with
      | true =>
          have hend : c.onEnd (target.status?.getD reply.status) reply.body =
              c.onEnd reply.status reply.body := by
            simp only [Cycle.onEnd, hstage]
            cases target.status? <;> rfl
          dsimp only
          rw [← hend]
          split_ifs
          · exact hfinish _ (CacheService.answer_set v.latency hqueue)
          · exact hfinish _ (hempty _ hqueue)
      | false => exact hfinish _ (hempty _ hqueue)
  | _ => exact hfinish _ (hempty _ hqueue)

theorem queue_lookUp (libs : Libraries) (v : Visit) (cache : CacheService Traced) :
    (v.lookUp libs cache).1.queue = cache.queue := by
  have hfetch : (cache.fetch v.now (cacheKey v.request) v.lookupOk).2.queue = cache.queue :=
    CacheService.queue_fetch
  simp only [Visit.lookUp]
  split_ifs
  · split <;> exact hfetch
  · rfl

theorem rid_lookUp (libs : Libraries) (v : Visit) (cache : CacheService Traced) :
    (v.lookUp libs cache).2.rid = v.rid ∧ (v.lookUp libs cache).2.request = v.request := by
  simp only [Visit.lookUp]
  split_ifs
  · split <;> exact ⟨rfl, rfl⟩
  · exact ⟨rfl, rfl⟩

/-- The events of a visit do what `serve` says. -/
theorem run_events (libs : Libraries) (backend : HttpRequest → Reply) (v : Visit)
    (hnew : p.cycle v.rid = none) (hqueue : p.cache.queue = []) :
    run (step libs) p (v.events backend) =
      p.withLast (v.serve libs backend p.cache).1 (v.serve libs backend p.cache).2 := by
  have hrid := (rid_lookUp libs v p.cache).1
  rw [Visit.events, run_append, run_append, run_lookUp v hnew hqueue,
    run_setHeaders _ hnew hrid]
  exact redisAnswer_endResponse v _ hnew ((rid_setHeaders _ _).trans hrid)
    ((queue_lookUp libs v p.cache).trans hqueue)

end Visits

end Pipeline

namespace Visit

section Locality

variable {libs : Libraries} {backend : HttpRequest → Reply} {v : Visit}
  {cache cache' : CacheService Traced} {key : String} {c : Cycle} {reply : Reply}

theorem queue_keep :
    (v.keep libs reply c cache).queue = cache.queue := by
  simp only [keep]
  split
  · split_ifs
    · exact CacheService.queue_store
    · rfl
  · rfl

theorem queue_serve :
    (v.serve libs backend cache).1.queue = cache.queue :=
  queue_keep.trans (Pipeline.queue_lookUp libs v cache)

theorem request_setHeaders (writes : Headers) (c : Cycle) :
    (writes.foldl (fun c entry => c.onSetHeader entry.1 entry.2) c).request = c.request := by
  induction writes generalizing c with
  | nil => rfl
  | cons entry writes ih => exact (ih _).trans Cycle.request_onSetHeader

theorem request_serve :
    (v.serve libs backend cache).2.request = v.request :=
  Cycle.request_onEnd.trans
    ((request_setHeaders _ _).trans (Pipeline.rid_lookUp libs v cache).2)

theorem rid_serve :
    (v.serve libs backend cache).2.rid = v.rid :=
  (Cycle.rid_onEnd _).trans
    ((Pipeline.rid_setHeaders _ _).trans (Pipeline.rid_lookUp libs v cache).1)

/-- What a lookup gives depends on the records under the key of the visit. -/
theorem lookUp_forKey (libs : Libraries) (cache : CacheService Traced)
    (hkey : cacheKey v.request = key) :
    (v.lookUp libs (cache.forKey key)).2 = (v.lookUp libs cache).2 ∧
      (v.lookUp libs (cache.forKey key)).1.forKey key = (v.lookUp libs cache).1.forKey key := by
  have hcacheable : cacheable (cache.forKey key) v.request = cacheable cache v.request := rfl
  obtain ⟨hfound, hcache⟩ := CacheService.fetch_forKey v.now key v.lookupOk cache
  simp only [lookUp, hcacheable, hkey, hfound]
  split_ifs
  · split
    · exact ⟨rfl, hcache⟩
    · exact ⟨rfl, hcache⟩
    · exact ⟨rfl, hcache⟩
  · simp

theorem lookUp_other (hne : cacheKey v.request ≠ key) :
    (v.lookUp libs cache).1.forKey key = cache.forKey key := by
  have hcache : (cache.fetch v.now (cacheKey v.request) v.lookupOk).2.forKey key =
      cache.forKey key := CacheService.fetch_other hne
  simp only [lookUp]
  split_ifs
  · split <;> exact hcache
  · rfl

theorem keep_forKey (hkey : cacheKey c.request = key) :
    (v.keep libs reply c (cache.forKey key)).forKey key =
      (v.keep libs reply c cache).forKey key := by
  simp only [keep, hkey]
  split
  · split_ifs
    · exact CacheService.store_forKey
    · simp
  · simp

theorem keep_other (hne : cacheKey c.request ≠ key) :
    (v.keep libs reply c cache).forKey key = cache.forKey key := by
  simp only [keep]
  split
  · split_ifs
    · exact CacheService.store_other hne
    · rfl
  · rfl

/-- A visit depends on the records under its key and determines them. -/
theorem serve_congr (libs : Libraries) (backend : HttpRequest → Reply)
    (hkey : cacheKey v.request = key)
    (hcache : cache.forKey key = cache'.forKey key) :
    (v.serve libs backend cache).2 = (v.serve libs backend cache').2 ∧
      (v.serve libs backend cache).1.forKey key =
        (v.serve libs backend cache').1.forKey key := by
  have hproject : ∀ cache : CacheService Traced,
      (v.serve libs backend (cache.forKey key)).2 = (v.serve libs backend cache).2 ∧
        (v.serve libs backend (cache.forKey key)).1.forKey key =
          (v.serve libs backend cache).1.forKey key := by
    intro cache
    obtain ⟨hcycle, hlookUp⟩ := lookUp_forKey libs cache hkey
    have hrequest : cacheKey ((backend v.request).headers.foldl
        (fun c entry => c.onSetHeader entry.1 entry.2) (v.lookUp libs cache).2).request = key := by
      rw [request_setHeaders, (Pipeline.rid_lookUp libs v cache).2, hkey]
    simp only [serve, hcycle]
    refine ⟨trivial, ?_⟩
    rw [← keep_forKey hrequest, hlookUp, keep_forKey hrequest]
  obtain ⟨hcycle, hafter⟩ := hproject cache
  obtain ⟨hcycle', hafter'⟩ := hproject cache'
  rw [hcache] at hcycle hafter
  exact ⟨hcycle.symm.trans hcycle', hafter.symm.trans hafter'⟩

/-- A visit leaves the records under other keys alone. -/
theorem serve_other (hne : cacheKey v.request ≠ key) :
    (v.serve libs backend cache).1.forKey key = cache.forKey key := by
  have hrequest : cacheKey ((backend v.request).headers.foldl
      (fun c entry => c.onSetHeader entry.1 entry.2) (v.lookUp libs cache).2).request ≠ key := by
    rw [request_setHeaders, (Pipeline.rid_lookUp libs v cache).2]
    exact hne
  exact (keep_other hrequest).trans (lookUp_other hne)

end Locality

/-- What the clients of successive visits receive. -/
def history (libs : Libraries) (backend : HttpRequest → Reply) :
    List Visit → CacheService Traced → List Cycle
  | [], _ => []
  | v :: vs, cache =>
      (v.serve libs backend cache).2 :: history libs backend vs (v.serve libs backend cache).1

/-- The clients of a URL receive what they would receive without the visits to
other URLs. -/
theorem history_filter {libs : Libraries} {backend : HttpRequest → Reply} (key : String)
    (vs : List Visit) {cache cache' : CacheService Traced}
    (hcache : cache.forKey key = cache'.forKey key) :
    (history libs backend vs cache).filter (fun c => cacheKey c.request = key) =
      history libs backend (vs.filter (fun v => cacheKey v.request = key)) cache' := by
  induction vs generalizing cache cache' with
  | nil => rfl
  | cons v vs ih =>
      rw [history]
      by_cases hkey : cacheKey v.request = key
      · obtain ⟨hcycle, hafter⟩ := serve_congr libs backend hkey hcache
        rw [List.filter_cons_of_pos (by simp [request_serve, hkey]),
          List.filter_cons_of_pos (by simp [hkey]), history, hcycle, ih hafter]
      · rw [List.filter_cons_of_neg (by simp [request_serve, hkey]),
          List.filter_cons_of_neg (by simp [hkey])]
        exact ih ((serve_other hkey).trans hcache)

end Visit

/-- The requests differ at most in headers with these names. -/
def HttpRequest.SameExcept (names : List String) (req req' : HttpRequest) : Prop :=
  req'.method = req.method ∧ req'.originalUrl = req.originalUrl ∧
    req'.bodyError = req.bodyError ∧ ∀ name ∉ names, req'.headers name = req.headers name

/-- Visits that differ at most in these headers of their requests. -/
def Visit.SameExcept (names : List String) (v v' : Visit) : Prop :=
  v' = { v with request := v'.request } ∧ v.request.SameExcept names v'.request

theorem cacheKey_eq_iff {req : HttpRequest} {url : String} :
    cacheKey req = "sentinel:cache:" ++ url ↔ req.originalUrl = url := by
  constructor
  · intro h
    have heq : cacheKey req = cacheKey { req with originalUrl := url } := h
    exact originalUrl_of_cacheKey heq
  · rintro rfl
    rfl

namespace Pipeline

/-- The state after successive visits. -/
def visited (libs : Libraries) (backend : HttpRequest → Reply) (vs : List Visit)
    (p : Pipeline) : Pipeline :=
  run (step libs) p (vs.flatMap (Visit.events backend))

/-- What the clients that asked for a URL have received. -/
def clientsOf (url : String) (p : Pipeline) : List Cycle :=
  p.cycles.filter (fun c => c.request.originalUrl = url)

section Histories

variable {libs : Libraries} {backend : HttpRequest → Reply} {p : Pipeline}

theorem cycle_withLast_ne {cache : CacheService Traced} {c : Cycle} {rid : Nat}
    (hne : c.rid ≠ rid) :
    (p.withLast cache c).cycle rid = p.cycle rid := by
  simp [cycle, withLast, KeyedList.findKey, List.find?_append, hne]

theorem cycles_visited (vs : List Visit) (hqueue : p.cache.queue = [])
    (hnew : ∀ v ∈ vs, p.cycle v.rid = none) (hrids : (vs.map Visit.rid).Nodup) :
    (p.visited libs backend vs).cycles = p.cycles ++ Visit.history libs backend vs p.cache := by
  induction vs generalizing p with
  | nil => exact (List.append_nil _).symm
  | cons v vs ih =>
      rw [List.map_cons, List.nodup_cons] at hrids
      have hfirst := run_events libs backend v (hnew v (by simp)) hqueue
      have hlater : ∀ w ∈ vs, (run (step libs) p (v.events backend)).cycle w.rid = none := by
        intro w hw
        have hne : v.rid ≠ w.rid := fun heq => hrids.1 (heq ▸ List.mem_map_of_mem hw)
        rw [hfirst, cycle_withLast_ne (Visit.rid_serve.trans_ne hne)]
        exact hnew w (by simp [hw])
      have hrest := ih (by rw [hfirst]; exact Visit.queue_serve.trans hqueue) hlater hrids.2
      rw [visited, List.flatMap_cons, run_append]
      rw [visited] at hrest
      rw [hrest, hfirst]
      simp [withLast, Visit.history]

/-- What the clients of a URL receive is decided by the visits to it. -/
theorem clientsOf_visited {url : String} {vs ws : List Visit} (hboot : p.Booted)
    (hvs : (vs.map Visit.rid).Nodup) (hws : (ws.map Visit.rid).Nodup)
    (hsame : vs.filter (fun v => v.request.originalUrl = url) =
      ws.filter (fun v => v.request.originalUrl = url)) :
    (p.visited libs backend vs).clientsOf url = (p.visited libs backend ws).clientsOf url := by
  have hnew : ∀ rid, p.cycle rid = none := by
    intro rid
    simp [cycle, hboot.cycles, KeyedList.findKey]
  have hclients : ∀ us : List Visit, (us.map Visit.rid).Nodup →
      (p.visited libs backend us).clientsOf url =
        Visit.history libs backend (us.filter (fun v => v.request.originalUrl = url))
          p.cache := by
    intro us hus
    rw [clientsOf, cycles_visited us hboot.queue (fun v _ => hnew v.rid) hus, hboot.cycles,
      List.nil_append]
    simpa only [cacheKey_eq_iff] using
      Visit.history_filter ("sentinel:cache:" ++ url) us rfl
  rw [hclients vs hvs, hclients ws hws, hsame]

/-- In every run from start-up, a hit replays the complete response of a miss
with status 200 for the same URL; and the clients of a URL receive the same in
any two histories of visits that agree on the visits to this URL, whatever the
other clients ask for and whatever the backend makes of their headers. -/
theorem cache_shared_by_url (libs : Libraries) (hboot : p.Booted) :
    (∀ (es : List Event), ∀ hit ∈ (run (step libs) p es).cycles, ∀ cached,
        hit.stage = .found (some cached) →
        ∃ miss ∈ (run (step libs) p es).cycles,
          miss.request.originalUrl = hit.request.originalUrl ∧ miss.Stored libs cached) ∧
      ∀ (backend : HttpRequest → Reply) (url : String) (vs ws : List Visit),
        (vs.map Visit.rid).Nodup → (ws.map Visit.rid).Nodup →
        vs.filter (fun v => v.request.originalUrl = url) =
          ws.filter (fun v => v.request.originalUrl = url) →
        (p.visited libs backend vs).clientsOf url = (p.visited libs backend ws).clientsOf url := by
  constructor
  · intro es hit hmem cached hfound
    exact exists_miss hboot es hmem hfound
  · intro backend url vs ws hvs hws hsame
    exact clientsOf_visited hboot hvs hws hsame

/-- A client asks for a page with a cookie. -/
def cookieVisit (rid : Nat) (url : String) (cookie : Option String) : Visit where
  rid := rid
  now := rid
  request := ⟨"GET", url, fun name => if name = "cookie" then cookie else none, none⟩
  headers := []
  lookupOk := true
  storeOk := true
  latency := 0
  fault := none

/-- A backend with a page for each of two users. -/
def greeting (req : HttpRequest) : Reply where
  status := 200
  headers := []
  body := if req.headers "cookie" = some "user=alice" then [65] else [66]

theorem cache_shared_by_url_sample :
    (∃ hit ∈ (run (step sampleLibraries) samplePipeline (fetchedTwice [65])).cycles,
      ∃ miss ∈ (run (step sampleLibraries) samplePipeline (fetchedTwice [65])).cycles,
        miss.request.originalUrl = hit.request.originalUrl ∧
        miss.Stored sampleLibraries ⟨⟨200, [], "A"⟩, .backend⟩) ∧
      (samplePipeline.visited sampleLibraries greeting
          [cookieVisit 0 "/other" (some "user=alice"), cookieVisit 1 "/account" none]).clientsOf
          "/account" =
        (samplePipeline.visited sampleLibraries greeting
          [cookieVisit 0 "/other" (some "user=bob"), cookieVisit 1 "/account" none]).clientsOf
          "/account" := by
  have hshared := cache_shared_by_url sampleLibraries booted_samplePipeline
  constructor
  · obtain ⟨hit, hmem, hfound⟩ : ∃ hit ∈ (run (step sampleLibraries) samplePipeline
        (fetchedTwice [65])).cycles,
        hit.stage = .found (some ⟨⟨200, [], "A"⟩, .backend⟩) := by
      decide
    exact ⟨hit, hmem, hshared.1 _ hit hmem _ hfound⟩
  · refine hshared.2 greeting "/account" _ _ (by decide) (by decide) ?_
    simp [cookieVisit]

/-- Without a cookie, a client receives the page of whoever asked first. -/
theorem cache_shared_across_clients :
    ¬ ∀ (libs : Libraries) (p : Pipeline) (backend : HttpRequest → Reply) (vs ws : List Visit)
      (v : Visit), p.Booted → ((vs ++ [v]).map Visit.rid).Nodup →
      (∀ w ∈ vs ++ [v], w.request.method = "GET") →
      List.Forall₂ (Visit.SameExcept ["host", "authorization", "cookie"]) vs ws →
      ((p.visited libs backend (vs ++ [v])).cycle v.rid).map Cycle.bytes =
        ((p.visited libs backend (ws ++ [v])).cycle v.rid).map Cycle.bytes := by
  intro hclaim
  have hsame : Visit.SameExcept ["host", "authorization", "cookie"]
      (cookieVisit 0 "/account" (some "user=alice"))
      (cookieVisit 0 "/account" (some "user=bob")) := by
    refine ⟨rfl, rfl, rfl, rfl, fun name hname => ?_⟩
    have hcookie : name ≠ "cookie" := by
      rintro rfl
      simp at hname
    simp [cookieVisit, hcookie]
  have hbytes := hclaim sampleLibraries samplePipeline greeting
    [cookieVisit 0 "/account" (some "user=alice")] [cookieVisit 0 "/account" (some "user=bob")]
    (cookieVisit 1 "/account" none) booted_samplePipeline (by decide) (by decide)
    (.cons hsame .nil)
  exact absurd hbytes (by decide)

end Histories

end Pipeline

end SentinelADC
