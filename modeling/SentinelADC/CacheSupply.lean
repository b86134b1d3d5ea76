import SentinelADC.CacheProtection

/-!
# Where cached responses come from

A value is stored only by an intercepted `res.end`, under the URL of its
request, and a hit replays what was stored under the same URL.  The rule for
such properties is `Supplied.step`: what holds of the values in the cache keeps
holding when it holds of the value that the step stores.  It covers both
stores, commands on their way to Redis and lookups whose result is still to be
used.
-/

namespace SentinelADC

open Runs

theorem Stage.of_ofLookup {answer : Option (Option Traced)} {cached : Option Traced}
    (h : Stage.ofLookup answer = .found cached) :
    answer = some cached := by
  cases answer with
  | none => simp [ofLookup] at h
  | some found => rw [Stage.found.inj h]

namespace Cycle

/-- The bytes that the client has received. -/
def bytes (c : Cycle) : List UInt8 :=
  (c.received.map Prod.snd).flatten

/-- The buffer of an intercepted response is what its client has received. -/
def Buffered (c : Cycle) : Prop :=
  match c.stage with
  | .looking => c.chunks = [] ∧ c.received = []
  | .found _ => c.chunks = [] ∧ c.received = []
  | .answering _ intercepted => intercepted = true → c.chunks = c.received.map Prod.snd
  | .ended => True

/-- The cycle was a miss, and this is what it has stored. -/
structure Stored (libs : Libraries) (c : Cycle) (cached : Traced) : Prop where
  ended : c.stage = .ended
  status : c.status = some 200
  response : cached.response =
    ⟨200, c.headers.filter (fun entry => entry.1 ≠ "x-cache"), libs.decode c.bytes⟩

section Cycles

variable {libs : Libraries} {c : Cycle}

theorem request_onAnswer {cached : Option Traced} :
    (c.onAnswer cached).request = c.request := by
  simp only [onAnswer]
  split <;> rfl

theorem request_onSetHeader {name value : String} :
    (c.onSetHeader name value).request = c.request := by
  simp only [onSetHeader]
  split <;> rfl

theorem request_onWrite {chunk : List UInt8} :
    (c.onWrite chunk).request = c.request := by
  simp only [onWrite]
  split <;> rfl

theorem request_onEnd {status : Nat} {chunk : List UInt8} :
    (c.onEnd status chunk).request = c.request := by
  simp only [onEnd]
  split <;> rfl

/-- What a cycle has found is the answer, or was there before. -/
theorem stage_onAnswer {cached cached' : Option Traced}
    (h : (c.onAnswer cached).stage = .found cached') :
    cached = cached' ∨ c.stage = .found cached' := by
  simp only [onAnswer] at h
  split at h
  · exact Or.inl (Stage.found.inj h)
  · exact Or.inr h

theorem stage_onSetHeader {name value : String} {cached : Option Traced}
    (h : (c.onSetHeader name value).stage = .found cached) :
    c.stage = .found cached := by
  simp only [onSetHeader] at h
  split at h <;> exact h

theorem stage_onWrite {chunk : List UInt8} {cached : Option Traced}
    (h : (c.onWrite chunk).stage = .found cached) :
    c.stage = .found cached := by
  simp only [onWrite] at h
  split at h
  · simp_all
  · exact h

theorem stage_onEnd {status : Nat} {chunk : List UInt8} {cached : Option Traced}
    (h : (c.onEnd status chunk).stage = .found cached) :
    c.stage = .found cached := by
  simp only [onEnd] at h
  split at h
  · simp at h
  · exact h

/-- A cycle that has ended does not change any more. -/
theorem onAnswer_ended {cached : Option Traced} (h : c.stage = .ended) :
    c.onAnswer cached = c := by
  simp only [onAnswer, h]

theorem onSetHeader_ended {name value : String} (h : c.stage = .ended) :
    c.onSetHeader name value = c := by
  simp only [onSetHeader, h]

theorem onWrite_ended {chunk : List UInt8} (h : c.stage = .ended) :
    c.onWrite chunk = c := by
  simp only [onWrite, h]

theorem onEnd_ended {status : Nat} {chunk : List UInt8} (h : c.stage = .ended) :
    c.onEnd status chunk = c := by
  simp only [onEnd, h]

theorem Buffered.onAnswer {cached : Option Traced} (h : c.Buffered) :
    (c.onAnswer cached).Buffered := by
  simp only [Cycle.onAnswer]
  split
  · next hstage =>
      simp only [Buffered, hstage] at h
      exact h
  · exact h

/-- Nothing has been sent when interception begins. -/
theorem Buffered.intercept {cached : Option Traced} (h : c.Buffered)
    (hstage : c.stage = .found cached) :
    (c.intercept libs).Buffered := by
  simp only [Buffered, hstage] at h
  intro _
  simp only [Cycle.intercept, h.1, h.2, List.map_nil]

theorem Buffered.onSetHeader {name value : String} (h : c.Buffered) :
    (c.onSetHeader name value).Buffered := by
  simp only [Cycle.onSetHeader]
  split
  · next hstage => simpa only [Buffered, hstage] using h
  · exact h

theorem Buffered.onWrite {chunk : List UInt8} (h : c.Buffered) :
    (c.onWrite chunk).Buffered := by
  simp only [Cycle.onWrite]
  split
  · next target intercepted hstage =>
      simp only [Buffered, hstage] at h ⊢
      intro hint
      rw [if_pos hint, h hint, List.map_append]
      rfl
  · exact h

theorem Buffered.onEnd {status : Nat} {chunk : List UInt8} (h : c.Buffered) :
    (c.onEnd status chunk).Buffered := by
  simp only [Cycle.onEnd]
  split
  · trivial
  · exact h

/-- What the end of an intercepted response with status 200 stores. -/
theorem Buffered.stored {target : Target} {status : Nat} {chunk : List UInt8} (h : c.Buffered)
    (hstage : c.stage = .answering target true) (hstatus : target.status?.getD status = 200) :
    (c.onEnd 200 chunk).Stored libs (c.snapshot libs target 200 chunk) := by
  simp only [Buffered, hstage] at h
  have heq : c.onEnd 200 chunk =
      { c with
        chunks := c.chunks ++ [chunk]
        status := some (target.status?.getD 200)
        stage := .ended
        received := c.received ++ [(target.origin, chunk)] } := by
    simp only [Cycle.onEnd, hstage]
    rfl
  rw [heq]
  refine ⟨rfl, ?_, ?_⟩
  · cases hfixed : target.status? with
    | none => rfl
    | some fixed => simpa [hfixed] using hstatus
  · simp only [snapshot, bytes, List.map_append, h trivial, List.map_cons, List.map_nil]

end Cycles

end Cycle

namespace Pipeline

/-- What an event stores, with its key. -/
def stores (libs : Libraries) (p : Pipeline) (e : Event) : Option (String × Traced) :=
  match e.op with
  | .endResponse rid status chunk _ =>
      match p.cycle rid with
      | none => none
      | some c =>
          match c.stage with
          | .answering target true =>
              if target.status?.getD status = 200 then
                some (cacheKey c.request, c.snapshot libs target 200 chunk)
              else none
          | _ => none
  | _ => none

/-- Every value in the cache, on its way there or found by a lookup has the
property under its key. -/
structure Supplied (P : String → Traced → Prop) (p : Pipeline) : Prop where
  cache : p.cache.HoldsAt P
  found : ∀ c ∈ p.cycles, ∀ cached, c.stage = .found (some cached) →
    P (cacheKey c.request) cached
  gets : ∀ rid key, .get rid key ∈ p.cache.queue →
    ∃ c ∈ p.cycles, c.rid = rid ∧ cacheKey c.request = key
  rids : (p.cycles.map Cycle.rid).Nodup

section Supplied

variable {P : String → Traced → Prop} {libs : Libraries} {p : Pipeline} {rid : Nat} {now : Int}

theorem Supplied.mono {P' : String → Traced → Prop} (h : p.Supplied P)
    (hP : ∀ key cached, P key cached → P' key cached) :
    p.Supplied P' :=
  ⟨h.cache.mono hP, fun c hc cached hstage => hP _ _ (h.found c hc cached hstage), h.gets, h.rids⟩

theorem Booted.supplied (h : p.Booted) :
    p.Supplied P :=
  ⟨⟨by simp [h.memory], by simp [h.redis], by simp [h.queue]⟩, by simp [h.cycles],
    by simp [h.queue], by simp [h.cycles]⟩

/-- The cache may change as long as its values and pending lookups allow it. -/
theorem Supplied.withCache {cache : CacheService Traced} (h : p.Supplied P)
    (hcache : cache.HoldsAt P)
    (hgets : ∀ rid key, .get rid key ∈ cache.queue → .get rid key ∈ p.cache.queue) :
    ({ p with cache := cache } : Pipeline).Supplied P :=
  ⟨hcache, h.found, fun rid key hmem => h.gets rid key (hgets rid key hmem), h.rids⟩

/-- Counters and connection do not matter. -/
theorem Supplied.recount {cache : CacheService Traced} (h : p.Supplied P)
    (hmemory : cache.memoryCache = p.cache.memoryCache) (hredis : cache.redis = p.cache.redis)
    (hqueue : cache.queue = p.cache.queue) :
    ({ p with cache := cache } : Pipeline).Supplied P :=
  h.withCache (h.cache.congr hmemory hredis hqueue) (fun _ _ hmem => hqueue ▸ hmem)

/-- Writing one request keeps the property when what it has found keeps it. -/
theorem Supplied.modifyCycle {f : Cycle → Cycle} (h : p.Supplied P)
    (hrid : ∀ c, (f c).rid = c.rid) (hrequest : ∀ c, (f c).request = c.request)
    (hfound : ∀ c ∈ p.cycles, c.rid = rid → ∀ cached, (f c).stage = .found (some cached) →
      P (cacheKey c.request) cached) :
    (p.modifyCycle rid f).Supplied P := by
  refine ⟨h.cache, ?_, ?_, ?_⟩
  · intro c hc cached hstage
    obtain ⟨c', hc', rfl⟩ := List.mem_map.mp hc
    split_ifs at hstage ⊢ with heq
    · rw [hrequest]
      exact hfound c' hc' heq cached hstage
    · exact h.found c' hc' cached hstage
  · intro rid' key hmem
    obtain ⟨c, hc, hcrid, hkey⟩ := h.gets rid' key hmem
    refine ⟨if c.rid = rid then f c else c, List.mem_map_of_mem hc, ?_, ?_⟩
    · split_ifs
      · rw [hrid, hcrid]
      · exact hcrid
    · split_ifs
      · rw [hrequest]
        exact hkey
      · exact hkey
  · exact (KeyedList.map_key_updateKey hrid rid p.cycles).symm ▸ h.rids

/-- A write that finds nothing new. -/
theorem Supplied.modifyStage {f : Cycle → Cycle} (h : p.Supplied P)
    (hrid : ∀ c, (f c).rid = c.rid) (hrequest : ∀ c, (f c).request = c.request)
    (hstage : ∀ c cached, (f c).stage = .found cached → c.stage = .found cached) :
    (p.modifyCycle rid f).Supplied P :=
  h.modifyCycle hrid hrequest (fun c hc _ cached hf => h.found c hc cached (hstage c _ hf))

theorem Supplied.push {cache : CacheService Traced} {c : Cycle} (h : p.Supplied P)
    (hnew : p.cycle c.rid = none) (hcache : cache.HoldsAt P)
    (hfound : ∀ cached, c.stage = .found (some cached) → P (cacheKey c.request) cached)
    (hgets : ∀ rid key, .get rid key ∈ cache.queue →
      .get rid key ∈ p.cache.queue ∨ rid = c.rid ∧ key = cacheKey c.request) :
    ({ cache := cache, cycles := p.cycles ++ [c] } : Pipeline).Supplied P := by
  refine ⟨hcache, ?_, ?_, ?_⟩
  · intro c' hc' cached hstage
    rcases List.mem_append.mp hc' with hc' | hc'
    · exact h.found c' hc' cached hstage
    · obtain rfl := List.mem_singleton.mp hc'
      exact hfound cached hstage
  · intro rid' key hmem
    rcases hgets rid' key hmem with hmem | ⟨rfl, rfl⟩
    · obtain ⟨c', hc', hrest⟩ := h.gets rid' key hmem
      exact ⟨c', List.mem_append_left _ hc', hrest⟩
    · exact ⟨c, by simp, rfl, rfl⟩
  · have hfresh : c.rid ∉ p.cycles.map Cycle.rid := by
      rw [← KeyedList.findKey_isSome_iff]
      rw [Pipeline.cycle] at hnew
      simp [hnew]
    simpa [List.nodup_append, h.rids] using hfresh

theorem Supplied.arrive {req : HttpRequest} {headers : Headers} (h : p.Supplied P) :
    (p.arrive libs now rid req headers).Supplied P := by
  simp only [Pipeline.arrive]
  split
  · exact h
  · next hnew =>
      split_ifs
      · refine h.push hnew h.cache.get ?_ (fun _ _ hmem => CacheService.mem_queue_get hmem)
        intro cached hstage
        exact h.cache.of_get (Stage.of_ofLookup hstage)
      · exact h.push hnew (h.cache.congr rfl rfl rfl) (by simp [Cycle.bypass])
          (fun _ _ hmem => Or.inl hmem)

theorem Supplied.redisAnswer {ok : Bool} (h : p.Supplied P) :
    (p.redisAnswer now ok).Supplied P := by
  have hcache : ({ p with cache := (p.cache.answer now ok).2 } : Pipeline).Supplied P :=
    h.withCache h.cache.answer (fun _ _ => CacheService.mem_queue_answer)
  simp only [Pipeline.redisAnswer]
  split
  · exact hcache
  · next rid cached hreply =>
      refine hcache.modifyCycle Cycle.rid_onAnswer (fun _ => Cycle.request_onAnswer) ?_
      intro c hc hrid cached' hstage
      rcases Cycle.stage_onAnswer hstage with rfl | hstage
      · obtain ⟨key, hget, hP⟩ := h.cache.of_answer hreply
        obtain ⟨c', hc', hrid', hkey⟩ := h.gets rid key hget
        obtain rfl : c' = c := List.inj_on_of_nodup_map h.rids hc' hc (hrid'.trans hrid.symm)
        exact hkey ▸ hP
      · exact h.found c hc cached' hstage

theorem Supplied.resume {latency : Rat} {fault : Option Nat} (h : p.Supplied P) :
    (p.resume libs rid latency fault).Supplied P := by
  simp only [Pipeline.resume]
  split
  · exact h
  · split
    · exact h.modifyStage (fun _ => rfl) (fun _ => rfl) (by simp [Cycle.intercept])
    · next cached _ =>
        split
        · have hcount : ({ p with cache := p.cache.recordHit latency } : Pipeline).Supplied P :=
            h.recount rfl rfl rfl
          exact hcount.modifyStage (f := Cycle.replay libs cached latency) (fun _ => rfl)
            (fun _ => rfl) (by simp [Cycle.replay])
        · next n =>
            have hcount : ({ p with
                cache := (p.cache.recordHit latency).recordBypass } : Pipeline).Supplied P :=
              h.recount rfl rfl rfl
            exact hcount.modifyStage (f := Cycle.replayFails libs cached n) (fun _ => rfl)
              (fun _ => rfl) (by simp [Cycle.replayFails, Cycle.bypass])
    · exact h

theorem Supplied.onEnd {status : Nat} {chunk : List UInt8} (h : p.Supplied P) :
    (p.modifyCycle rid (Cycle.onEnd status chunk)).Supplied P :=
  h.modifyStage Cycle.rid_onEnd (fun _ => Cycle.request_onEnd) (fun _ _ => Cycle.stage_onEnd)

theorem Supplied.endResponse {status : Nat} {chunk : List UInt8} {latency : Rat}
    (h : p.Supplied P)
    (hstore : ∀ key cached,
      p.stores libs ⟨now, .endResponse rid status chunk latency⟩ = some (key, cached) →
        P key cached) :
    (p.endResponse libs now rid status chunk latency).Supplied P := by
  simp only [Pipeline.endResponse]
  split
  · exact h
  · next c hfind =>
      split
      · next target hstage =>
          split_ifs with hstatus
          · have hP : P (cacheKey c.request) (c.snapshot libs target 200 chunk) :=
              hstore _ _ (by simp [stores, hfind, hstage, hstatus])
            rw [hstatus]
            have hset : (p.cache.set now (cacheKey c.request)
                (c.snapshot libs target 200 chunk)).HoldsAt P := h.cache.set hP
            have hcache := h.withCache hset (fun _ _ => CacheService.mem_queue_set)
            exact Supplied.onEnd (hcache.recount rfl rfl rfl)
          · exact Supplied.onEnd (h.recount rfl rfl rfl)
      · exact h.onEnd

/-- What one event keeps, given what it stores. -/
theorem Supplied.step {e : Event} (h : p.Supplied P)
    (hstore : ∀ key cached, p.stores libs e = some (key, cached) → P key cached) :
    (p.step libs e).Supplied P := by
  obtain ⟨now, op⟩ := e
  cases op with
  | arrive rid req headers => exact h.arrive
  | redisAnswer ok => exact h.redisAnswer
  | resume rid latency fault => exact h.resume
  | setHeader rid name value =>
      exact h.modifyStage Cycle.rid_onSetHeader (fun _ => Cycle.request_onSetHeader)
        (fun _ _ => Cycle.stage_onSetHeader)
  | write rid chunk =>
      exact h.modifyStage Cycle.rid_onWrite (fun _ => Cycle.request_onWrite)
        (fun _ _ => Cycle.stage_onWrite)
  | endResponse rid status chunk latency => exact h.endResponse hstore
  | delete key => exact h.withCache h.cache.delete (fun _ _ => CacheService.mem_queue_delete)
  | invalidatePattern pattern =>
      exact h.withCache (h.cache.invalidatePattern pattern)
        (fun _ _ => CacheService.mem_queue_invalidatePattern)
  | flushAll => exact h.withCache h.cache.flushAll (fun _ _ => CacheService.mem_queue_flushAll)
  | clientConnect => exact h.recount rfl rfl rfl
  | clientError => exact h.recount rfl rfl rfl
  | clientStatus status => exact h.recount rfl rfl rfl

end Supplied

/-- A miss has stored the value under the key. -/
def StoredUnder (libs : Libraries) (p : Pipeline) (key : String) (cached : Traced) : Prop :=
  ∃ c ∈ p.cycles, cacheKey c.request = key ∧ c.Stored libs cached

/-- What the cache holds was stored by misses, and buffers are complete. -/
structure Filled (libs : Libraries) (p : Pipeline) : Prop where
  supplied : p.Supplied (p.StoredUnder libs)
  buffered : ∀ c ∈ p.cycles, c.Buffered

section Filled

variable {libs : Libraries} {p : Pipeline} {rid : Nat} {c : Cycle} {e : Event}

theorem mem_modifyCycle {f : Cycle → Cycle} (hc : c ∈ p.cycles) (hf : c.rid = rid → f c = c) :
    c ∈ (p.modifyCycle rid f).cycles := by
  refine List.mem_map.mpr ⟨c, hc, ?_⟩
  split_ifs with hrid
  · exact hf hrid
  · rfl

/-- The cycle that an operation finds is written. -/
theorem mem_modifyCycle_of_find {f : Cycle → Cycle} (hfind : p.cycle rid = some c) :
    f c ∈ (p.modifyCycle rid f).cycles := by
  refine List.mem_map.mpr ⟨c, KeyedList.mem_of_findKey hfind, ?_⟩
  rw [if_pos (KeyedList.key_of_findKey hfind)]

theorem forall_modifyCycle {Q : Cycle → Prop} {f : Cycle → Cycle} (h : ∀ c ∈ p.cycles, Q c)
    (hf : ∀ c ∈ p.cycles, c.rid = rid → Q (f c)) :
    ∀ c ∈ (p.modifyCycle rid f).cycles, Q c := by
  intro c hc
  obtain ⟨c', hc', rfl⟩ := List.mem_map.mp hc
  split_ifs with hrid
  · exact hf c' hc' hrid
  · exact h c' hc'

/-- Writing a cycle of another stage leaves those that have ended alone. -/
theorem ended_modifyCycle {f : Cycle → Cycle} {c' : Cycle} (hrids : (p.cycles.map Cycle.rid).Nodup)
    (hc : c ∈ p.cycles) (hended : c.stage = .ended) (hfind : p.cycle rid = some c')
    (hstage : c'.stage ≠ .ended) :
    c ∈ (p.modifyCycle rid f).cycles := by
  refine mem_modifyCycle hc (fun hrid => absurd hended ?_)
  rw [KeyedList.eq_of_findKey hrids hfind hc hrid]
  exact hstage

/-- Cycles that have ended stay as they are. -/
theorem ended_step (hrids : (p.cycles.map Cycle.rid).Nodup) (hc : c ∈ p.cycles)
    (hended : c.stage = .ended) :
    c ∈ (p.step libs e).cycles := by
  obtain ⟨now, op⟩ := e
  cases op with
  | arrive rid req headers =>
      simp only [step, arrive]
      split
      · exact hc
      · split_ifs
        · exact List.mem_append_left _ hc
        · exact List.mem_append_left _ hc
  | redisAnswer ok =>
      simp only [step, redisAnswer]
      split
      · exact hc
      · exact mem_modifyCycle hc (fun _ => Cycle.onAnswer_ended hended)
  | resume rid latency fault =>
      simp only [step, resume]
      split
      · exact hc
      · next c' hfind =>
          split
          · next hstage =>
              exact ended_modifyCycle hrids hc hended hfind (by simp [hstage])
          · next hstage =>
              split
              · exact ended_modifyCycle (p := { p with cache := _ }) hrids hc hended hfind
                  (by simp [hstage])
              · exact ended_modifyCycle (p := { p with cache := _ }) hrids hc hended hfind
                  (by simp [hstage])
          · exact hc
  | setHeader rid name value => exact mem_modifyCycle hc (fun _ => Cycle.onSetHeader_ended hended)
  | write rid chunk => exact mem_modifyCycle hc (fun _ => Cycle.onWrite_ended hended)
  | endResponse rid status chunk latency =>
      simp only [step, endResponse]
      split
      · exact hc
      · split
        · exact mem_modifyCycle hc (fun _ => Cycle.onEnd_ended hended)
        · exact mem_modifyCycle hc (fun _ => Cycle.onEnd_ended hended)
  | delete key => exact hc
  | invalidatePattern pattern => exact hc
  | flushAll => exact hc
  | clientConnect => exact hc
  | clientError => exact hc
  | clientStatus status => exact hc

/-- What a miss has stored stays known. -/
theorem storedUnder_step (hrids : (p.cycles.map Cycle.rid).Nodup) {key : String} {cached : Traced}
    (h : p.StoredUnder libs key cached) :
    (p.step libs e).StoredUnder libs key cached := by
  obtain ⟨c, hc, hkey, hstored⟩ := h
  exact ⟨c, ended_step hrids hc hstored.ended, hkey, hstored⟩

/-- What an event stores, it stores for a miss that ends with it. -/
theorem exists_of_stores {key : String} {cached : Traced}
    (hbuffered : ∀ c ∈ p.cycles, c.Buffered) (h : p.stores libs e = some (key, cached)) :
    ∃ rid status chunk latency c, e.op = .endResponse rid status chunk latency ∧
      p.cycle rid = some c ∧ cacheKey c.request = key ∧
      c.onEnd 200 chunk ∈ (p.step libs e).cycles ∧ (c.onEnd 200 chunk).Stored libs cached := by
  obtain ⟨now, op⟩ := e
  cases op with
  | endResponse rid status chunk latency =>
      cases hfind : p.cycle rid with
      | none => simp [stores, hfind] at h
      | some c =>
          simp only [stores, hfind] at h
          split at h
          · next target hstage =>
              split_ifs at h with hstatus
              obtain ⟨rfl, rfl⟩ := Prod.mk.inj (Option.some.inj h)
              refine ⟨rid, status, chunk, latency, c, rfl, hfind, rfl, ?_,
                (hbuffered c (KeyedList.mem_of_findKey hfind)).stored hstage hstatus⟩
              simp only [step, endResponse, hfind, hstage, hstatus]
              exact mem_modifyCycle_of_find (p := { p with cache := _ }) hfind
          · simp at h
  | _ => simp [stores] at h

/-- Buffers stay complete. -/
theorem buffered_step (hrids : (p.cycles.map Cycle.rid).Nodup) (h : ∀ c ∈ p.cycles, c.Buffered) :
    ∀ c ∈ (p.step libs e).cycles, c.Buffered := by
  have hpush : ∀ {cache : CacheService Traced} {c : Cycle}, c.Buffered →
      ∀ c' ∈ ({ cache := cache, cycles := p.cycles ++ [c] } : Pipeline).cycles, c'.Buffered := by
    intro cache c hc c' hc'
    rcases List.mem_append.mp hc' with hc' | hc'
    · exact h c' hc'
    · rw [List.mem_singleton.mp hc']
      exact hc
  obtain ⟨now, op⟩ := e
  cases op with
  | arrive rid req headers =>
      simp only [step, arrive]
      split
      · exact h
      · split_ifs
        · refine hpush ?_
          generalize (p.cache.get now rid (cacheKey req)).1 = answer
          cases answer <;> exact ⟨rfl, rfl⟩
        · exact hpush (fun _ => rfl)
  | redisAnswer ok =>
      simp only [step, redisAnswer]
      split
      · exact h
      · exact forall_modifyCycle (p := { p with cache := _ }) h (fun c hc _ => (h c hc).onAnswer)
  | resume rid latency fault =>
      simp only [step, resume]
      split
      · exact h
      · next c hfind =>
          split
          · next hstage =>
              refine forall_modifyCycle h (fun c' hc' hrid => ?_)
              obtain rfl := KeyedList.eq_of_findKey hrids hfind hc' hrid
              exact (h c' hc').intercept hstage
          · split
            · exact forall_modifyCycle (p := { p with cache := _ }) h (fun _ _ _ => trivial)
            · exact forall_modifyCycle (p := { p with cache := _ }) h
                (fun _ _ _ hint => absurd hint Bool.false_ne_true)
          · exact h
  | setHeader rid name value => exact forall_modifyCycle h (fun c hc _ => (h c hc).onSetHeader)
  | write rid chunk => exact forall_modifyCycle h (fun c hc _ => (h c hc).onWrite)
  | endResponse rid status chunk latency =>
      simp only [step, endResponse]
      split
      · exact h
      · split
        · exact forall_modifyCycle (p := { p with cache := _ }) h (fun c hc _ => (h c hc).onEnd)
        · exact forall_modifyCycle h (fun c hc _ => (h c hc).onEnd)
  | delete key => exact h
  | invalidatePattern pattern => exact h
  | flushAll => exact h
  | clientConnect => exact h
  | clientError => exact h
  | clientStatus status => exact h

theorem Filled.step (h : p.Filled libs) (e : Event) :
    (p.step libs e).Filled libs := by
  refine ⟨?_, buffered_step h.supplied.rids h.buffered⟩
  have hkept := h.supplied.mono (fun _ _ => storedUnder_step (e := e) h.supplied.rids)
  refine hkept.step (fun key cached hstore => ?_)
  obtain ⟨_, _, chunk, _, c, _, _, rfl, hmem, hstored⟩ := exists_of_stores h.buffered hstore
  exact ⟨c.onEnd 200 chunk, hmem, by rw [Cycle.request_onEnd], hstored⟩

/-- In every run from start-up, what the cache holds was stored by misses for
the same URL. -/
theorem filled_run (hboot : p.Booted) (es : List Event) :
    (run (Pipeline.step libs) p es).Filled libs :=
  run_preserves ⟨hboot.supplied, by simp [hboot.cycles]⟩ (fun e _ _ h => h.step e)

end Filled

end Pipeline

end SentinelADC
