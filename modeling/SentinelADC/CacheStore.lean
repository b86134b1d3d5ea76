import SentinelADC.CacheService
import SentinelADC.Lib.ExpiringMap
import SentinelADC.Lib.Runs

/-!
# The cache as an expiring map

`cache/cacheService.js` keeps responses in a map in memory or in Redis.  The
two stores are written quite differently: the map drops a record when a lookup
finds it expired, Redis hides it; a pattern is deleted from the map key by key,
and in Redis by a `KEYS` and a `DEL`.  For callers that wait for each call both
are one expiring map.
-/

namespace SentinelADC

open Runs ExpiringMap

universe u

/-- A call of the cache service. -/
inductive CacheCall (V : Type u) where
  | get (key : String)
  | set (key : String) (value : V)
  | delete (key : String)
  /-- The pattern is given by the keys that it matches. -/
  | invalidatePattern (pattern : String → Bool)
  | flushAll

/-- A call and the time at which it is made. -/
structure CacheEvent (V : Type u) where
  now : Int
  call : CacheCall V

namespace CacheEvent

variable {V : Type u}

/-- The call stores something under the key or deletes what it holds. -/
def touches (key : String) (e : CacheEvent V) : Bool :=
  match e.call with
  | .get _ => false
  | .set key' _ => key' = key
  | .delete key' => key = key'
  | .invalidatePattern pattern => pattern key
  | .flushAll => true

/-- What the call writes to an expiring map, for a lifetime in seconds. -/
def write (ttl : Int) (e : CacheEvent V) : Write String V Int :=
  match e.call with
  | .get _ => .skip
  | .set key value => .put key value (e.now + ttl * 1000)
  | .delete key => .remove (fun key' => key' = key)
  | .invalidatePattern pattern => .remove pattern
  | .flushAll => .remove (fun _ => true)

@[simp] theorem touches_write (ttl : Int) (key : String) (e : CacheEvent V) :
    (e.write ttl).touches key = e.touches key := by
  obtain ⟨now, call⟩ := e
  cases call <;> rfl

/-- Only a `set` puts a value under a key. -/
theorem write_eq_put_iff {ttl deadline : Int} {key : String} {value : V} {e : CacheEvent V} :
    e.write ttl = .put key value deadline ↔
      e = ⟨e.now, .set key value⟩ ∧ deadline = e.now + ttl * 1000 := by
  obtain ⟨now, call⟩ := e
  cases call <;> simp [write, eq_comm, and_assoc]

end CacheEvent

namespace CacheRecord

variable {V : Type u} {records : List (CacheRecord V)}

/-- What the records hold under each key. -/
def view (records : List (CacheRecord V)) : Contents String V Int :=
  fun key => (records.find? (fun r => r.key = key)).map (fun r => (r.value, r.expiresAt))

/-- Only the record under the key of the new one changes. -/
theorem view_insert (record : CacheRecord V) (records : List (CacheRecord V)) :
    view (insert record records) =
      apply (view records) (.put record.key record.value record.expiresAt) := by
  funext key
  by_cases hkey : key = record.key
  · subst hkey
    have hfound : (insert record records).find? (fun r => r.key = record.key) = some record := by
      simp only [insert]
      split_ifs with hmem
      · obtain ⟨r, hr, hrkey⟩ := hmem
        rw [List.find?_map]
        have hsome : (records.find? ((fun r => decide (r.key = record.key)) ∘
            fun r => if r.key = record.key then record else r)).isSome := by
          rw [List.find?_isSome]
          exact ⟨r, hr, by simp [hrkey]⟩
        obtain ⟨r', hr'⟩ := Option.isSome_iff_exists.mp hsome
        have hkey' := List.find?_some hr'
        by_cases hsame : r'.key = record.key
        · rw [hr']
          exact congrArg some (if_pos hsame)
        · simp [hsame] at hkey'
      · have hnone : records.find? (fun r => decide (r.key = record.key)) = none := by
          rw [List.find?_eq_none]
          intro r hr
          simpa using fun h => hmem ⟨r, hr, h⟩
        simp [List.find?_append, hnone]
    simp [apply, view, hfound]
  · have hfound : (insert record records).find? (fun r => r.key = key) =
        records.find? (fun r => r.key = key) := by
      simp only [insert]
      split_ifs with hmem
      · have hsame : ∀ r ∈ records.find? (fun r => decide (r.key = key)),
            (if r.key = record.key then record else r) = r := by
          intro r hr
          have hrkey : r.key = key := by simpa using List.find?_some hr
          rw [if_neg (by rw [hrkey]; exact hkey)]
        have hpred : ((fun r : CacheRecord V => decide (r.key = key)) ∘
            fun r => if r.key = record.key then record else r) =
            fun r => decide (r.key = key) := by
          funext r
          by_cases hr : r.key = record.key
          · simp [hr]
          · simp [hr]
        rw [List.find?_map, hpred]
        cases hr : records.find? (fun r => decide (r.key = key)) with
        | none => rfl
        | some r => exact congrArg some (hsame r hr)
      · rw [List.find?_append]
        simp [Ne.symm hkey]
    simp [apply, view, hfound, Function.update_of_ne hkey]

theorem view_filter (matching : String → Bool) (records : List (CacheRecord V)) :
    view (records.filter (fun r => !matching r.key)) = apply (view records) (.remove matching) := by
  funext key
  simp only [view, apply, List.find?_filter]
  cases hmatch : matching key with
  | true =>
      have hnone : records.find? (fun r => !matching r.key && decide (r.key = key)) = none := by
        rw [List.find?_eq_none]
        intro r _
        by_cases hr : r.key = key
        · simp [hr, hmatch]
        · simp [hr]
      simp [hnone]
  | false =>
      have hpred : (fun r : CacheRecord V => !matching r.key && decide (r.key = key)) =
          fun r => decide (r.key = key) := by
        funext r
        by_cases hr : r.key = key
        · simp [hr, hmatch]
        · simp [hr]
      simp [hpred]

/-- Redis hides a record that has expired. -/
theorem lookup_eq_readAt (now : Int) (key : String)
    (hnodup : (records.map CacheRecord.key).Nodup) :
    (lookup now key records).map CacheRecord.value = readAt now key (view records) := by
  induction records with
  | nil => rfl
  | cons r records ih =>
      rw [List.map_cons, List.nodup_cons] at hnodup
      by_cases hkey : r.key = key
      · by_cases hlive : now ≤ r.expiresAt
        · simp [lookup, readAt, view, hkey, hlive]
        · have hnone : lookup now key records = none := by
            rw [lookup, List.find?_eq_none]
            intro r' hr'
            have hne : r'.key ≠ key := by
              rintro rfl
              exact hnodup.1 (hkey ▸ List.mem_map_of_mem hr')
            simp [hne]
          have hlookup : lookup now key (r :: records) = lookup now key records := by
            simp [lookup, hlive]
          rw [hlookup, hnone]
          simp [readAt, view, hkey, hlive]
      · have hlookup : lookup now key (r :: records) = lookup now key records := by
          simp [lookup, hkey]
        have hview : view (r :: records) key = view records key := by
          simp [view, hkey]
        rw [hlookup, ih hnodup.2, readAt, readAt, hview]

/-- The keys of the records stay apart. -/
theorem nodup_insert (record : CacheRecord V) (hnodup : (records.map CacheRecord.key).Nodup) :
    ((insert record records).map CacheRecord.key).Nodup := by
  simp only [insert]
  split_ifs with hmem
  · have hkeys : (records.map (fun r => if r.key = record.key then record else r)).map
        CacheRecord.key = records.map CacheRecord.key := by
      rw [List.map_map]
      refine List.map_congr_left (fun r _ => ?_)
      by_cases hr : r.key = record.key
      · simp [hr]
      · simp [hr]
    rwa [hkeys]
  · rw [List.map_append, List.nodup_append]
    refine ⟨hnodup, by simp, ?_⟩
    intro key hkey key' hkey' heq
    obtain ⟨r, hr, rfl⟩ := List.mem_map.mp hkey
    have hrecord : key' = record.key := by simpa using hkey'
    exact hmem ⟨r, hr, heq.trans hrecord⟩

theorem nodup_filter (keep : CacheRecord V → Bool)
    (hnodup : (records.map CacheRecord.key).Nodup) :
    ((records.filter keep).map CacheRecord.key).Nodup :=
  hnodup.sublist (List.filter_sublist.map _)

end CacheRecord

namespace CacheService

variable {V : Type u}

/-- The store that is in use. -/
def stored (cache : CacheService V) : List (CacheRecord V) :=
  if cache.useMemoryFallback then cache.memoryCache else cache.redis

/-- What the call does at once: its result, or a command on its way. -/
def invoke (e : CacheEvent V) (cache : CacheService V) : Option (Option V) × CacheService V :=
  match e.call with
  | .get key => cache.get e.now 0 key
  | .set key value => (some none, cache.set e.now key value)
  | .delete key => (some none, cache.delete key)
  | .invalidatePattern pattern => (some none, cache.invalidatePattern pattern)
  | .flushAll => (some none, cache.flushAll)

/-- The call with its `await`: Redis answers what is on its way, and what
follows a `KEYS`. -/
def await (e : CacheEvent V) (cache : CacheService V) : Option V × CacheService V :=
  let (direct, cache) := cache.invoke e
  let (reply, cache) := cache.answer e.now true
  let (_, cache) := cache.answer e.now true
  (direct.getD (reply.bind Prod.snd), cache)

/-- The service after a call. -/
def afterCall (cache : CacheService V) (e : CacheEvent V) : CacheService V :=
  (cache.await e).2

/-- The service is in use and idle; every key has one record. -/
structure Ready (cache : CacheService V) : Prop where
  active : cache.isActive = true
  queue : cache.queue = []
  nodup : (cache.stored.map CacheRecord.key).Nodup

/-- What a call is to give and to leave behind. -/
structure Meets (e : CacheEvent V) (cache : CacheService V) (result : Option V)
    (cache' : CacheService V) : Prop where
  ready : cache'.Ready
  ttl : cache'.ttl = cache.ttl
  contents : Agree e.now (CacheRecord.view cache'.stored)
    (apply (CacheRecord.view cache.stored) (e.write cache.ttl))
  result : ∀ key, e.call = .get key →
    result = readAt e.now key (CacheRecord.view cache.stored)

section Calls

variable {cache : CacheService V} {e : CacheEvent V} {now : Int} {key : String}

/-- With nothing on its way, the two answers do nothing. -/
theorem await_of_queue_nil {direct : Option (Option V)} {cache' : CacheService V}
    (hinvoke : cache.invoke e = (direct, cache')) (hqueue : cache'.queue = []) :
    cache.await e = (direct.getD none, cache') := by
  simp [await, hinvoke, answer, hqueue]

/-- The record that a lookup in memory finds has expired, or it does not. -/
theorem getMemory_cases (now : Int) (key : String) (cache : CacheService V) :
    (cache.getMemory now key = (readAt now key (CacheRecord.view cache.memoryCache), cache)) ∨
      (readAt now key (CacheRecord.view cache.memoryCache) = none ∧
        cache.getMemory now key = (none,
          { cache with memoryCache := cache.memoryCache.filter (fun r => r.key ≠ key) })) := by
  simp only [getMemory, readAt, CacheRecord.view]
  cases cache.memoryCache.find? (fun r => decide (r.key = key)) with
  | none => exact Or.inl rfl
  | some record =>
      by_cases hexpired : record.expiresAt < now
      · refine Or.inr ⟨?_, ?_⟩
        · simp [hexpired]
        · simp [hexpired]
      · refine Or.inl ?_
        simp [hexpired, Int.not_lt.mp hexpired]

/-- A write to the map in memory, when that is the store in use. -/
theorem meets_memory {records : List (CacheRecord V)} {result : Option V} (h : cache.Ready)
    (hmode : cache.useMemoryFallback = true) (hnodup : (records.map CacheRecord.key).Nodup)
    (hcontents : Agree e.now (CacheRecord.view records)
      (apply (CacheRecord.view cache.memoryCache) (e.write cache.ttl)))
    (hresult : ∀ key, e.call = .get key →
      result = readAt e.now key (CacheRecord.view cache.memoryCache)) :
    Meets e cache result { cache with memoryCache := records } := by
  have hstored : ({ cache with memoryCache := records } : CacheService V).stored = records :=
    if_pos hmode
  have hold : cache.stored = cache.memoryCache := if_pos hmode
  refine ⟨⟨h.active, h.queue, by rwa [hstored]⟩, rfl, ?_, ?_⟩
  · rwa [hstored, hold]
  · rwa [hold]

/-- The same for Redis. -/
theorem meets_redis {records : List (CacheRecord V)} {result : Option V} (h : cache.Ready)
    (hmode : cache.useMemoryFallback = false) (hnodup : (records.map CacheRecord.key).Nodup)
    (hcontents : Agree e.now (CacheRecord.view records)
      (apply (CacheRecord.view cache.redis) (e.write cache.ttl)))
    (hresult : ∀ key, e.call = .get key →
      result = readAt e.now key (CacheRecord.view cache.redis)) :
    Meets e cache result { cache with redis := records } := by
  have hstored : ({ cache with redis := records } : CacheService V).stored = records := by
    simp [stored, hmode]
  have hold : cache.stored = cache.redis := by
    simp [stored, hmode]
  refine ⟨⟨h.active, h.queue, by rwa [hstored]⟩, rfl, ?_, ?_⟩
  · rwa [hstored, hold]
  · rwa [hold]

/-- A call in memory. -/
theorem await_memory (e : CacheEvent V) (h : cache.Ready)
    (hmode : cache.useMemoryFallback = true) :
    Meets e cache (cache.await e).1 (cache.await e).2 := by
  have hnodup : (cache.memoryCache.map CacheRecord.key).Nodup := by
    simpa [stored, hmode] using h.nodup
  obtain ⟨now, call⟩ := e
  cases call with
  | get key =>
      have hget : cache.invoke ⟨now, .get key⟩ =
          (some (cache.getMemory now key).1, (cache.getMemory now key).2) := by
        simp [invoke, get, h.active, hmode]
      rcases getMemory_cases now key cache with hmem | ⟨hnone, hmem⟩
      · rw [hmem] at hget
        rw [await_of_queue_nil hget h.queue]
        refine meets_memory h hmode hnodup (Agree.refl _ _) ?_
        rintro key' heq
        obtain rfl : key = key' := CacheCall.get.inj heq
        rfl
      · rw [hmem] at hget
        rw [await_of_queue_nil hget h.queue]
        refine meets_memory h hmode (CacheRecord.nodup_filter _ hnodup) ?_ ?_
        · -- the record is dropped, and no later lookup misses it
          have hview := CacheRecord.view_filter (fun key' => decide (key' = key)) cache.memoryCache
          simp only [ne_eq, decide_not] at hview ⊢
          rw [hview]
          exact agree_remove_expired hnone
        · rintro key' heq
          obtain rfl : key = key' := CacheCall.get.inj heq
          exact hnone.symm
  | set key value =>
      have hset : cache.invoke ⟨now, .set key value⟩ =
          (some none, { cache with
            memoryCache :=
              CacheRecord.insert ⟨key, value, now + cache.ttl * 1000⟩ cache.memoryCache }) := by
        simp [invoke, set, h.active, hmode]
      rw [await_of_queue_nil hset h.queue]
      refine meets_memory h hmode (CacheRecord.nodup_insert _ hnodup) ?_ (by simp)
      rw [CacheRecord.view_insert]
      exact Agree.refl _ _
  | delete key =>
      have hdelete : cache.invoke ⟨now, .delete key⟩ =
          (some none, { cache with
            memoryCache := cache.memoryCache.filter (fun r => r.key ≠ key) }) := by
        simp [invoke, delete, h.active, hmode]
      rw [await_of_queue_nil hdelete h.queue]
      refine meets_memory h hmode (CacheRecord.nodup_filter _ hnodup) ?_ (by simp)
      have hview := CacheRecord.view_filter (fun key' => decide (key' = key)) cache.memoryCache
      simp only [ne_eq, decide_not] at hview ⊢
      rw [hview]
      exact Agree.refl _ _
  | invalidatePattern pattern =>
      have hpurge : cache.invoke ⟨now, .invalidatePattern pattern⟩ =
          (some none, { cache with
            memoryCache := cache.memoryCache.filter (fun r => !pattern r.key) }) := by
        simp [invoke, invalidatePattern, h.active, hmode]
      rw [await_of_queue_nil hpurge h.queue]
      refine meets_memory h hmode (CacheRecord.nodup_filter _ hnodup) ?_ (by simp)
      rw [CacheRecord.view_filter]
      exact Agree.refl _ _
  | flushAll =>
      have hflush : cache.invoke ⟨now, .flushAll⟩ =
          (some none, { cache with memoryCache := [] }) := by
        simp [invoke, flushAll, h.active, hmode]
      rw [await_of_queue_nil hflush h.queue]
      refine meets_memory h hmode (by simp) ?_ (by simp)
      exact Agree.refl _ _

theorem with_queue_nil (hqueue : cache.queue = []) :
    ({ cache with queue := [] } : CacheService V) = cache := by
  rw [← hqueue]

/-- A call in Redis. -/
theorem await_redis (e : CacheEvent V) (h : cache.Ready)
    (hmode : cache.useMemoryFallback = false) :
    Meets e cache (cache.await e).1 (cache.await e).2 := by
  have hnodup : (cache.redis.map CacheRecord.key).Nodup := by
    simpa [stored, hmode] using h.nodup
  obtain ⟨now, call⟩ := e
  cases call with
  | get key =>
      have hawait : cache.await ⟨now, .get key⟩ =
          ((CacheRecord.lookup now key cache.redis).map CacheRecord.value,
            { cache with queue := [] }) := by
        simp [await, invoke, get, answer, h.active, hmode, h.queue]
      rw [hawait, with_queue_nil h.queue]
      refine meets_redis h hmode hnodup (Agree.refl _ _) ?_
      rintro key' heq
      obtain rfl : key = key' := CacheCall.get.inj heq
      exact CacheRecord.lookup_eq_readAt now key hnodup
  | set key value =>
      have hawait : cache.await ⟨now, .set key value⟩ =
          (none, { cache with
            redis := CacheRecord.insert ⟨key, value, now + cache.ttl * 1000⟩ cache.redis }) := by
        simp [await, invoke, set, answer, execute, h.active, hmode, h.queue]
      rw [hawait]
      refine meets_redis h hmode (CacheRecord.nodup_insert _ hnodup) ?_ (by simp)
      rw [CacheRecord.view_insert]
      exact Agree.refl _ _
  | delete key =>
      have hawait : cache.await ⟨now, .delete key⟩ =
          (none, { cache with
            redis := cache.redis.filter (fun r => !decide (r.key = key)) }) := by
        simp [await, invoke, delete, answer, execute, h.active, hmode, h.queue]
      rw [hawait]
      refine meets_redis h hmode (CacheRecord.nodup_filter _ hnodup) ?_ (by simp)
      rw [CacheRecord.view_filter (fun key' => decide (key' = key))]
      exact Agree.refl _ _
  | invalidatePattern pattern =>
      have hawait : cache.await ⟨now, .invalidatePattern pattern⟩ =
          (none, { cache with redis := cache.redis.filter (fun r => !pattern r.key) }) := by
        by_cases hfound : (cache.redis.map CacheRecord.key).filter pattern = []
        · -- nothing matches, and no `DEL` follows
          have hkeep : cache.redis.filter (fun r => !pattern r.key) = cache.redis := by
            rw [List.filter_eq_self]
            intro r hr
            have hout := List.filter_eq_nil_iff.mp hfound r.key (List.mem_map_of_mem hr)
            simpa using hout
          have hidle : cache.await ⟨now, .invalidatePattern pattern⟩ =
              (none, { cache with queue := [] }) := by
            simp [await, invoke, invalidatePattern, answer, execute, h.active, hmode, h.queue,
              hfound]
          rw [hidle, with_queue_nil h.queue, hkeep]
        · have hdelete : cache.redis.filter
              (fun r => r.key ∉ (cache.redis.map CacheRecord.key).filter pattern) =
              cache.redis.filter (fun r => !pattern r.key) := by
            refine List.filter_congr (fun r hr => ?_)
            have hmem := List.mem_map_of_mem (f := CacheRecord.key) hr
            cases hpattern : pattern r.key with
            | true => simp [List.mem_filter, hmem, hpattern]
            | false => simp [List.mem_filter, hpattern]
          rw [← hdelete]
          simp only [await, invoke, invalidatePattern, answer, execute, h.active, hmode, h.queue,
            hfound, Bool.true_eq_false, Bool.false_eq_true, if_false, if_true, List.nil_append,
            Option.getD_some]
      rw [hawait]
      refine meets_redis h hmode (CacheRecord.nodup_filter _ hnodup) ?_ (by simp)
      rw [CacheRecord.view_filter]
      exact Agree.refl _ _
  | flushAll =>
      have hawait : cache.await ⟨now, .flushAll⟩ = (none, { cache with redis := [] }) := by
        simp [await, invoke, flushAll, answer, execute, h.active, hmode, h.queue]
      rw [hawait]
      refine meets_redis h hmode (by simp) ?_ (by simp)
      exact Agree.refl _ _

/-- Every call is one of an expiring map, whichever store is in use. -/
theorem await_meets (e : CacheEvent V) (h : cache.Ready) :
    Meets e cache (cache.await e).1 (cache.await e).2 := by
  cases hmode : cache.useMemoryFallback with
  | true => exact await_memory e h hmode
  | false => exact await_redis e h hmode

end Calls

section Runs

variable {cache : CacheService V}

/-- After a run of calls the store agrees with the history of their writes. -/
theorem run_agrees (hready : cache.Ready) (hempty : cache.stored = []) {es : List (CacheEvent V)}
    (hsorted : (es.map CacheEvent.now).Pairwise (· ≤ ·)) :
    (run afterCall cache es).Ready ∧ (run afterCall cache es).ttl = cache.ttl ∧
      ∀ now, (∀ e ∈ es, e.now ≤ now) →
        Agree now (CacheRecord.view (run afterCall cache es).stored)
          (contents (es.map (CacheEvent.write cache.ttl))) := by
  induction es using List.reverseRecOn with
  | nil =>
      refine ⟨hready, rfl, fun now _ => ?_⟩
      rw [run_nil, hempty]
      exact Agree.refl _ _
  | append_singleton es e ih =>
      rw [List.map_append, List.pairwise_append] at hsorted
      obtain ⟨hready', httl, hagree⟩ := ih hsorted.1
      have hmeets := await_meets e hready'
      rw [run_append, run_cons, run_nil]
      refine ⟨hmeets.ready, hmeets.ttl.trans httl, fun now hlast => ?_⟩
      have hnow : e.now ≤ now := hlast e (by simp)
      have hbefore : ∀ e' ∈ es, e'.now ≤ e.now := by
        intro e' he'
        exact hsorted.2.2 e'.now (List.mem_map_of_mem he') e.now (by simp)
      have hold := (hagree e.now hbefore).apply (e.write cache.ttl)
      rw [List.map_append, List.map_singleton, contents_concat]
      have hnew := hmeets.contents
      rw [httl] at hnew
      exact (hnew.trans hold).mono hnow

/--
Whichever store is in use, and after any calls at times that do not go back, a
lookup finds exactly the value that the last `set` has put under its key, if
nothing has overwritten, deleted or purged it since and its lifetime is not
over.
-/
theorem get_finds_last_set (hready : cache.Ready) (hempty : cache.stored = [])
    {es : List (CacheEvent V)} (hsorted : (es.map CacheEvent.now).Pairwise (· ≤ ·)) {now : Int}
    (hlast : ∀ e ∈ es, e.now ≤ now) (key : String) (value : V) :
    ((run afterCall cache es).await ⟨now, .get key⟩).1 = some value ↔
      ∃ before setAt after, es = before ++ ⟨setAt, .set key value⟩ :: after ∧
        (∀ e ∈ after, e.touches key = false) ∧ now ≤ setAt + cache.ttl * 1000 := by
  obtain ⟨hready', -, hagree⟩ := run_agrees hready hempty hsorted
  have hresult := (await_meets ⟨now, .get key⟩ hready').result key rfl
  rw [hresult, hagree now hlast now (le_refl now) key, readAt_contents_eq_some_iff]
  constructor
  · rintro ⟨before, deadline, after, heq, hafter, hlive⟩
    obtain ⟨before', rest, rfl, rfl, hrest⟩ := List.map_eq_append_iff.mp heq
    obtain ⟨e, after', rfl, hput, rfl⟩ := List.map_eq_cons_iff.mp hrest
    obtain ⟨he, rfl⟩ := CacheEvent.write_eq_put_iff.mp hput
    refine ⟨before', e.now, after', by rw [← he], fun e' he' => ?_, hlive⟩
    have := hafter (e'.write cache.ttl) (List.mem_map_of_mem he')
    rwa [CacheEvent.touches_write] at this
  · rintro ⟨before, setAt, after, rfl, hafter, hlive⟩
    refine ⟨before.map (CacheEvent.write cache.ttl), setAt + cache.ttl * 1000,
      after.map (CacheEvent.write cache.ttl), by simp [CacheEvent.write], ?_, hlive⟩
    intro write hwrite
    obtain ⟨e, he, rfl⟩ := List.mem_map.mp hwrite
    rw [CacheEvent.touches_write]
    exact hafter e he

/-- A service with nothing stored, over Redis or in memory. -/
def emptyCache (useMemoryFallback : Bool) : CacheService String where
  enabled := true
  ttl := 60
  client := some "ready"
  useMemoryFallback := useMemoryFallback
  memoryCache := []
  redis := []
  queue := []
  stats := ⟨0, 0, 0, 0, 0⟩

/-- A key written twice, and another one deleted. -/
def twoSets : List (CacheEvent String) :=
  [⟨0, .set "a" "old"⟩, ⟨5, .set "a" "new"⟩, ⟨9, .delete "b"⟩]

theorem get_finds_last_set_sample :
    ((run afterCall (emptyCache false) twoSets).await ⟨60005, .get "a"⟩).1 = some "new" ↔
      ∃ before setAt after, twoSets = before ++ ⟨setAt, .set "a" "new"⟩ :: after ∧
        (∀ e ∈ after, e.touches "a" = false) ∧ 60005 ≤ setAt + (emptyCache false).ttl * 1000 :=
  get_finds_last_set ⟨by decide, rfl, by simp [stored, emptyCache]⟩ rfl (by simp [twoSets])
    (by simp [twoSets]) "a" "new"

/-- The last millisecond of a lifetime, in either store. -/
example (useMemoryFallback : Bool) :
    ((run afterCall (emptyCache useMemoryFallback) [⟨5, .set "a" "new"⟩]).await
      ⟨60005, .get "a"⟩).1 = some "new" := by
  cases useMemoryFallback <;> decide

end Runs

end CacheService

end SentinelADC
