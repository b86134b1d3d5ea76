import SentinelADC.CacheSupply

/-!
# Purges

`flushAll` and `invalidatePattern` remove what the store in use holds at that
moment.  The other store, commands that Redis has still to answer, lookups that
already have a result and misses whose response is under way are not touched.
When none of these has anything under a key, and no response that was produced
before the purge is stored after it, every later hit under the key is newer
than the purge.

When Redis is in use, `invalidatePattern` ends with a `DEL`, which does not say
what pattern it is for; a list of tags beside the queue does.
-/

namespace SentinelADC

open Runs

/-- For each command in the queue, the pattern that it deletes for. -/
abbrev Tags := List (Option (String → Bool))

/-- The pipeline with the tags of its queue. -/
structure Watched where
  pipeline : Pipeline
  tags : Tags

namespace Watched

/-- The tags after an event. -/
def tagsAfter (libs : Libraries) (w : Watched) (e : Pipeline.Event) : Tags :=
  let queue' := (w.pipeline.step libs e).cache.queue
  match e.op, w.pipeline.cache.queue with
  | .redisAnswer _, .keys pattern :: queue =>
      w.tags.tail ++ List.replicate (queue'.length - queue.length) (some pattern)
  | .redisAnswer _, _ => w.tags.tail
  | _, queue => w.tags ++ List.replicate (queue'.length - queue.length) none

/-- One event. -/
def step (libs : Libraries) (w : Watched) (e : Pipeline.Event) : Watched where
  pipeline := w.pipeline.step libs e
  tags := w.tagsAfter libs e

/-- A purge that is to remove the key completes with the event. -/
def Completes (w : Watched) (e : Pipeline.Event) (key : String) : Prop :=
  let cache := w.pipeline.cache
  match e.op with
  | .flushAll => cache.isActive = false ∨ cache.useMemoryFallback = true
  | .invalidatePattern pattern =>
      pattern key = true ∧ (cache.isActive = false ∨ cache.useMemoryFallback = true)
  | .redisAnswer ok =>
      match cache.queue with
      | .flushdb :: _ => True
      | .keys pattern :: _ =>
          pattern key = true ∧ (ok = false ∨ (cache.redis.map CacheRecord.key).filter pattern = [])
      | .del _ :: _ => ∃ pattern, w.tags.head? = some (some pattern) ∧ pattern key = true
      | _ => False
  | _ => False

theorem pipeline_run (libs : Libraries) (w : Watched) (es : List Pipeline.Event) :
    (run (step libs) w es).pipeline = run (Pipeline.step libs) w.pipeline es := by
  induction es generalizing w with
  | nil => rfl
  | cons e es ih => exact ih (w.step libs e)

end Watched

namespace Pipeline

/-- Nothing under a key is held anywhere. -/
structure Clean (p : Pipeline) (key : String) : Prop where
  memory : ∀ r ∈ p.cache.memoryCache, r.key ≠ key
  redis : ∀ r ∈ p.cache.redis, r.key ≠ key
  queue : ∀ value ttl, .set key value ttl ∉ p.cache.queue
  lookups : ∀ c ∈ p.cycles, cacheKey c.request = key → ∀ cached, c.stage ≠ .found (some cached)

/-- The purge that completes with the event takes effect, and nothing under the
key is where it does not reach. -/
structure Reached (p : Pipeline) (e : Event) (key : String) : Prop where
  store :
    match e.op with
    | .redisAnswer ok =>
        ok = true ∧ (∀ r ∈ p.cache.memoryCache, r.key ≠ key) ∧
          ∀ keys queue, p.cache.queue = .del keys :: queue →
            key ∈ keys ∨ ∀ r ∈ p.cache.redis, r.key ≠ key
    | _ => p.cache.isActive = true ∧ ∀ r ∈ p.cache.redis, r.key ≠ key
  queue : ∀ value ttl, .set key value ttl ∉ p.cache.queue
  lookups : ∀ c ∈ p.cycles, cacheKey c.request = key → ∀ cached, c.stage ≠ .found (some cached)

/-- The requests whose response a backend has produced by now.  Of these the
gateway knows the ones that have begun to arrive. -/
structure Produced (p : Pipeline) where
  rids : Nat → Bool
  begun : ∀ c ∈ p.cycles, c.received ≠ [] → rids c.rid = true

/-- The event stores, under the key, a response that was produced before. -/
def storesProduced (libs : Libraries) (produced : Nat → Bool) (key : String)
    (p : Pipeline) (e : Event) : Bool :=
  match e.op with
  | .endResponse rid _ _ _ =>
      produced rid && (p.stores libs e).any (fun stored => stored.1 = key)
  | _ => false

/-- Every response that a lookup under the key has found was stored by a miss
and produced later. -/
def FindsNew (libs : Libraries) (produced : Nat → Bool) (key : String)
    (p : Pipeline) : Prop :=
  ∀ c ∈ p.cycles, cacheKey c.request = key → ∀ cached, c.stage = .found (some cached) →
    ∃ miss ∈ p.cycles, cacheKey miss.request = key ∧ miss.Stored libs cached ∧
      produced miss.rid = false

section Purges

variable {libs : Libraries} {p : Pipeline} {e : Event} {key : String}

/-- A purge in Redis. -/
theorem Reached.clean_redis {redis : List (CacheRecord Traced)}
    {queue : List (RedisCommand Traced)} {command : RedisCommand Traced} (h : p.Reached e key)
    (hqueue : p.cache.queue = command :: queue) (hmemory : ∀ r ∈ p.cache.memoryCache, r.key ≠ key)
    (hredis : ∀ r ∈ redis, r.key ≠ key) :
    ({ p with cache := { p.cache with redis := redis, queue := queue } } : Pipeline).Clean key := by
  refine ⟨hmemory, hredis, fun value ttl hmem => h.queue value ttl ?_, h.lookups⟩
  rw [hqueue]
  exact List.mem_cons_of_mem _ hmem

/-- A purge that completes and reaches everything leaves nothing. -/
theorem clean_of_completes (libs : Libraries) {w : Watched} (hcompletes : w.Completes e key)
    (h : w.pipeline.Reached e key) :
    (w.pipeline.step libs e).Clean key := by
  have hstore := h.store
  obtain ⟨now, op⟩ := e
  cases op with
  | flushAll =>
      obtain ⟨hactive, hredis⟩ := hstore
      have hmemory : w.pipeline.cache.useMemoryFallback = true := by
        simpa [Watched.Completes, hactive] using hcompletes
      simp only [step, CacheService.flushAll, hactive, hmemory, Bool.true_eq_false, if_false,
        if_true]
      exact ⟨by simp, hredis, h.queue, h.lookups⟩
  | invalidatePattern pattern =>
      obtain ⟨hactive, hredis⟩ := hstore
      obtain ⟨hpattern, hmemory⟩ : pattern key = true ∧
          w.pipeline.cache.useMemoryFallback = true := by
        simpa [Watched.Completes, hactive] using hcompletes
      simp only [step, CacheService.invalidatePattern, hactive, hmemory, Bool.true_eq_false,
        if_false, if_true]
      refine ⟨fun r hr heq => ?_, hredis, h.queue, h.lookups⟩
      have hkept := List.of_mem_filter hr
      simp [heq, hpattern] at hkept
  | redisAnswer ok =>
      obtain ⟨rfl, hmemory, hdel⟩ := hstore
      simp only [Watched.Completes] at hcompletes
      split at hcompletes
      · next hqueue =>
          simp only [step, redisAnswer, CacheService.answer, hqueue, CacheService.execute]
          exact h.clean_redis hqueue hmemory (by simp)
      · next pattern queue hqueue =>
          obtain ⟨hpattern, hnone⟩ := hcompletes
          have hempty : (w.pipeline.cache.redis.map CacheRecord.key).filter pattern = [] := by
            simpa using hnone
          have hredis : ∀ r ∈ w.pipeline.cache.redis, r.key ≠ key := by
            rintro r hr rfl
            have hmem : r.key ∈ (w.pipeline.cache.redis.map CacheRecord.key).filter pattern :=
              List.mem_filter.mpr ⟨List.mem_map_of_mem hr, hpattern⟩
            simp [hempty] at hmem
          simp only [step, redisAnswer, CacheService.answer, hqueue, CacheService.execute, hempty]
          exact h.clean_redis hqueue hmemory hredis
      · next keys queue hqueue =>
          simp only [step, redisAnswer, CacheService.answer, hqueue, CacheService.execute]
          refine h.clean_redis hqueue hmemory (fun r hr => ?_)
          rcases hdel keys queue hqueue with hmem | hnone
          · rintro rfl
            simp [hmem] at hr
          · exact hnone r (List.mem_of_mem_filter hr)
      · exact hcompletes.elim
  | _ => exact hcompletes.elim

/-- What holds of the values under all keys after a purge of one of them. -/
def StoredLater (libs : Libraries) (produced : Nat → Bool) (key : String)
    (p : Pipeline) (key' : String) (cached : Traced) : Prop :=
  ∃ miss ∈ p.cycles, cacheKey miss.request = key' ∧ miss.Stored libs cached ∧
    (key' = key → produced miss.rid = false)

theorem storedLater_step {produced : Nat → Bool} (hrids : (p.cycles.map Cycle.rid).Nodup)
    {key' : String} {cached : Traced} (h : p.StoredLater libs produced key key' cached) :
    (p.step libs e).StoredLater libs produced key key' cached := by
  obtain ⟨miss, hmiss, hkey, hstored, hlater⟩ := h
  exact ⟨miss, ended_step hrids hmiss hstored.ended, hkey, hstored, hlater⟩

/-- Right after the purge. -/
theorem Clean.supplied {produced : Nat → Bool} (h : p.Clean key) (hfilled : p.Filled libs) :
    p.Supplied (p.StoredLater libs produced key) := by
  have hother : ∀ key' cached, key' ≠ key → p.StoredUnder libs key' cached →
      p.StoredLater libs produced key key' cached := by
    rintro key' cached hne ⟨miss, hmiss, hkey, hstored⟩
    exact ⟨miss, hmiss, hkey, hstored, fun heq => absurd heq hne⟩
  obtain ⟨⟨hmemory, hredis, hqueue⟩, hfound, hgets, hrids⟩ := hfilled.supplied
  refine ⟨⟨fun r hr => hother _ _ (h.memory r hr) (hmemory r hr),
    fun r hr => hother _ _ (h.redis r hr) (hredis r hr), ?_⟩, ?_, hgets, hrids⟩
  · intro key' value ttl hmem
    refine hother _ _ ?_ (hqueue key' value ttl hmem)
    rintro rfl
    exact h.queue value ttl hmem
  · intro c hc cached hstage
    exact hother _ _ (fun heq => h.lookups c hc heq cached hstage) (hfound c hc cached hstage)

/-- What an event stores under the key is new unless it was produced before. -/
theorem storedLater_of_stores {produced : Nat → Bool} (hfilled : p.Filled libs)
    (hlate : p.storesProduced libs produced key e = false) {key' : String} {cached : Traced}
    (hstore : p.stores libs e = some (key', cached)) :
    (p.step libs e).StoredLater libs produced key key' cached := by
  obtain ⟨rid, status, chunk, latency, c, hop, hfind, hkey, hmem, hstored⟩ :=
    exists_of_stores hfilled.buffered hstore
  refine ⟨c.onEnd 200 chunk, hmem, ?_, hstored, ?_⟩
  · rw [Cycle.request_onEnd]
    exact hkey
  · rintro rfl
    have hrid : c.rid = rid := KeyedList.key_of_findKey hfind
    rw [Cycle.rid_onEnd, hrid]
    simpa [storesProduced, hop, hstore] using hlate

/-- From a state without anything under the key on, lookups under the key find
new responses as long as no other ones are stored. -/
theorem findsNew_of_clean {produced : Nat → Bool} {es : List Event} (h : p.Clean key)
    (hfilled : p.Filled libs)
    (hlate : EachStep (step libs) (fun p e => p.storesProduced libs produced key e = false) p es) :
    Always (step libs) (FindsNew libs produced key) p es := by
  have hinv : Always (step libs)
      (fun p => p.Filled libs ∧ p.Supplied (p.StoredLater libs produced key)) p es := by
    refine always_of_step ?_ ⟨hfilled, h.supplied hfilled⟩ hlate
    rintro p e ⟨hfilled, hsupplied⟩ hlate
    refine ⟨hfilled.step e, Supplied.step
      (hsupplied.mono (fun _ _ => storedLater_step hsupplied.rids)) ?_⟩
    exact fun key' cached hstore => storedLater_of_stores hfilled hlate hstore
  refine hinv.mono ?_
  rintro p ⟨_, hsupplied⟩ c hc rfl cached hstage
  obtain ⟨miss, hmiss, hkey, hstored, hnew⟩ := hsupplied.found c hc cached hstage
  exact ⟨miss, hmiss, hkey, hstored, hnew rfl⟩

/-- In every run from start-up: when a purge completes, has reached everything
under the key, and no response produced before it is stored after it, then all
later hits under the key are responses that were produced after the purge. -/
theorem purge_final (hboot : p.Booted) {pre post : List Event}
    (hcompletes : (run (Watched.step libs) ⟨p, []⟩ pre).Completes e key)
    (hreached : (run (step libs) p pre).Reached e key)
    (produced : Produced (run (step libs) p (pre ++ [e])))
    (hlate : EachStep (step libs) (fun p e => p.storesProduced libs produced.rids key e = false)
      (run (step libs) p (pre ++ [e])) post) :
    Always (step libs) (FindsNew libs produced.rids key) (run (step libs) p (pre ++ [e])) post := by
  refine findsNew_of_clean ?_ (filled_run hboot _) hlate
  rw [run_append]
  rw [← Watched.pipeline_run libs ⟨p, []⟩ pre] at hreached
  have hclean := clean_of_completes libs hcompletes hreached
  rwa [Watched.pipeline_run] at hclean

end Purges

section Runs

/-- A request for the page. -/
def askPage (rid : Nat) (now : Int) : List Event :=
  [⟨now, .arrive rid ⟨"GET", "/page", fun _ => none, none⟩ []⟩, ⟨now, .resume rid 0 none⟩]

/-- The page is cached and the cache flushed. -/
theorem purge_final_sample :
    Always (step sampleLibraries) (FindsNew sampleLibraries (fun rid => rid = 0)
        "sentinel:cache:/page")
      (run (step sampleLibraries) samplePipeline
        (askPage 0 1 ++ [⟨2, .endResponse 0 200 [49] 1⟩] ++ [⟨3, .flushAll⟩]))
      (askPage 1 4 ++ [⟨5, .endResponse 1 200 [50] 1⟩] ++ askPage 2 6) := by
  have hended : ∀ c ∈ (run (step sampleLibraries) samplePipeline
      (askPage 0 1 ++ [⟨2, .endResponse 0 200 [49] 1⟩])).cycles, c.stage = .ended := by
    decide
  refine purge_final booted_samplePipeline ?_ ⟨?_, ?_, ?_⟩ ⟨fun rid => rid = 0, ?_⟩ ?_
  · rw [Watched.Completes, Watched.pipeline_run]
    exact Or.inr (by decide)
  · exact ⟨by decide, by decide⟩
  · have hqueue : (run (step sampleLibraries) samplePipeline
        (askPage 0 1 ++ [⟨2, .endResponse 0 200 [49] 1⟩])).cache.queue.length = 0 := by
      decide
    intro value ttl
    rw [List.length_eq_zero_iff.mp hqueue]
    simp
  · intro c hc _ cached
    rw [hended c hc]
    simp
  · decide
  · decide

/-- A response of which the first part had arrived before the flush is stored
after it. -/
theorem purge_outlived :
    ¬ ∀ (libs : Libraries) (p : Pipeline) (pre : List Event) (e : Event) (post : List Event)
      (key : String) (produced : Produced (run (step libs) p (pre ++ [e]))), p.Booted →
      (run (Watched.step libs) ⟨p, []⟩ pre).Completes e key →
      Always (step libs) (FindsNew libs produced.rids key) (run (step libs) p (pre ++ [e]))
        post := by
  intro hclaim
  have hnew := (hclaim sampleLibraries samplePipeline (askPage 0 1 ++ [⟨2, .write 0 [49]⟩])
    ⟨3, .flushAll⟩ (⟨4, .endResponse 0 200 [] 1⟩ :: (askPage 1 5).take 1)
    "sentinel:cache:/page" ⟨fun rid => rid = 0, by decide⟩ booted_samplePipeline
    (by rw [Watched.Completes, Watched.pipeline_run]; exact Or.inr (by decide))).last
  rw [← run_append] at hnew
  obtain ⟨c, hc, hkey, hfound, hold⟩ : ∃ c ∈ (run (step sampleLibraries) samplePipeline
      (askPage 0 1 ++ [⟨2, .write 0 [49]⟩] ++ [⟨3, .flushAll⟩] ++
        (⟨4, .endResponse 0 200 [] 1⟩ :: (askPage 1 5).take 1))).cycles,
      cacheKey c.request = "sentinel:cache:/page" ∧
        c.stage = .found (some ⟨⟨200, [], "1"⟩, .backend⟩) ∧
        ∀ c' ∈ (run (step sampleLibraries) samplePipeline
          (askPage 0 1 ++ [⟨2, .write 0 [49]⟩] ++ [⟨3, .flushAll⟩] ++
            (⟨4, .endResponse 0 200 [] 1⟩ :: (askPage 1 5).take 1))).cycles,
          c'.stage = .ended → c'.rid = 0 := by
    decide
  obtain ⟨miss, hmiss, _, hstored, hlater⟩ := hnew c hc hkey _ hfound
  simp [hold miss hmiss hstored.ended] at hlater

end Runs

end Pipeline

end SentinelADC
