import SentinelADC.CacheSupply
import SentinelADC.Figures
import SentinelADC.Lib.Potential

/-!
# Cache statistics

The counters that `cacheMiddleware` keeps and `getStats` shows.  A request is
counted when the cache replays a response for it, when its own response has
been buffered to the end, or when it is handed on without interception; until
then it is under way.  Only a hit whose headers Node refuses counts twice.
-/

namespace SentinelADC

open Runs

/-- `getStats`. -/
structure CacheReport where
  enabled : Bool
  status : String
  hits : Nat
  misses : Nat
  totalRequests : Nat
  bypasses : Nat
  hitRatio : Rat
  averageCacheLatencyMs : Rat
  averageBackendLatencyMs : Rat
deriving DecidableEq, Repr

namespace CacheStats

/-- Requests counted, one way or another. -/
def counted (stats : CacheStats) : Nat :=
  stats.hits + stats.misses + stats.totalBypasses

/-- The latencies behind both averages lie between two bounds. -/
structure Within (low high : Rat) (stats : CacheStats) : Prop where
  hits : SumWithin low high stats.hits stats.totalHitLatency
  misses : SumWithin low high stats.misses stats.totalMissLatency

end CacheStats

namespace CacheService

variable {V : Type*}

/-- `getStats`. -/
def getStats (cache : CacheService V) : CacheReport :=
  let stats := cache.stats
  let totalRequests := stats.hits + stats.misses
  { enabled := cache.enabled
    status := cache.client.getD "disconnected"
    hits := stats.hits
    misses := stats.misses
    totalRequests := totalRequests
    bypasses := stats.totalBypasses
    hitRatio :=
      if 0 < totalRequests then (jsRound ((stats.hits : Rat) / totalRequests * 10000) : Rat) / 100
      else 0
    averageCacheLatencyMs :=
      if 0 < stats.hits then round2 (stats.totalHitLatency / stats.hits) else 0
    averageBackendLatencyMs :=
      if 0 < stats.misses then round2 (stats.totalMissLatency / stats.misses) else 0 }

section Stats

variable {now : Int} {key : String} {cache : CacheService V}

@[simp] theorem stats_get (now : Int) (rid : Nat) (key : String) (cache : CacheService V) :
    (cache.get now rid key).2.stats = cache.stats := by
  simp only [get, getMemory]
  split_ifs
  · rfl
  · split
    · rfl
    · split_ifs <;> rfl
  · rfl

@[simp] theorem stats_set (now : Int) (key : String) (value : V) (cache : CacheService V) :
    (cache.set now key value).stats = cache.stats := by
  simp only [set]
  split_ifs <;> rfl

@[simp] theorem stats_delete (key : String) (cache : CacheService V) :
    (cache.delete key).stats = cache.stats := by
  simp only [delete]
  split_ifs <;> rfl

@[simp] theorem stats_invalidatePattern (pattern : String → Bool) (cache : CacheService V) :
    (cache.invalidatePattern pattern).stats = cache.stats := by
  simp only [invalidatePattern]
  split_ifs <;> rfl

@[simp] theorem stats_flushAll (cache : CacheService V) :
    cache.flushAll.stats = cache.stats := by
  simp only [flushAll]
  split_ifs <;> rfl

theorem stats_execute (now : Int) (command : RedisCommand V) (cache : CacheService V) :
    (cache.execute now command).stats = cache.stats := by
  cases command with
  | keys pattern =>
      simp only [execute]
      split_ifs <;> rfl
  | _ => rfl

@[simp] theorem stats_answer (now : Int) (ok : Bool) (cache : CacheService V) :
    (cache.answer now ok).2.stats = cache.stats := by
  simp only [answer]
  split
  · rfl
  · rfl
  · dsimp only
    split_ifs
    · exact stats_execute now _ _
    · rfl

/-- The hit ratio is a percentage. -/
theorem hitRatio_mem (cache : CacheService V) :
    0 ≤ cache.getStats.hitRatio ∧ cache.getStats.hitRatio ≤ 100 := by
  simp only [getStats]
  split_ifs
  · rw [percentage_eq_round2]
    exact round2_percentage_mem (Nat.le_add_right _ _)
  · norm_num

end Stats

end CacheService

namespace Cycle

/-- One for a request that no counter has seen yet. -/
def underWay (c : Cycle) : Nat :=
  match c.stage with
  | .looking => 1
  | .found _ => 1
  | .answering _ intercepted => intercepted.toNat
  | .ended => 0

/-- One for a cached response of which a header is refused. -/
def refusals (fault : Option Nat) (c : Cycle) : Nat :=
  match c.stage with
  | .found (some _) => fault.isSome.toNat
  | _ => 0

section UnderWay

variable {libs : Libraries} {c : Cycle}

theorem underWay_onAnswer (cached : Option Traced) (c : Cycle) :
    (c.onAnswer cached).underWay = c.underWay := by
  simp only [onAnswer]
  split
  · next hstage => simp [underWay, hstage]
  · rfl

theorem underWay_onSetHeader (name value : String) (c : Cycle) :
    (c.onSetHeader name value).underWay = c.underWay := by
  simp only [onSetHeader]
  split
  · next hstage => simp [underWay, hstage]
  · rfl

theorem underWay_onWrite (chunk : List UInt8) (c : Cycle) :
    (c.onWrite chunk).underWay = c.underWay := by
  simp only [onWrite]
  split
  · next hstage => simp [underWay, hstage]
  · rfl

/-- The end of a response that is not buffered counts nothing. -/
theorem underWay_onEnd {status : Nat} {chunk : List UInt8}
    (hstage : ∀ target, c.stage ≠ .answering target true) :
    (c.onEnd status chunk).underWay = c.underWay := by
  simp only [onEnd]
  split
  · next target intercepted hanswering =>
      cases intercepted with
      | false => simp [underWay, hanswering]
      | true => exact absurd hanswering (hstage target)
  · rfl

end UnderWay

end Cycle

namespace Pipeline

/-- Requests that no counter has seen yet. -/
def underWay (p : Pipeline) : Nat :=
  (p.cycles.map Cycle.underWay).sum

/-- One for a hit whose stored headers Node refuses. -/
def refusedHit (p : Pipeline) (e : Event) : Nat :=
  match e.op with
  | .resume rid _ fault =>
      match p.cycle rid with
      | none => 0
      | some c => c.refusals fault
  | _ => 0

section Counting

variable {libs : Libraries} {p : Pipeline} {rid : Nat} {c : Cycle} {f : Cycle → Cycle}

/-- What is counted now, against the requests that have arrived. -/
def Balance (p p' : Pipeline) (twice : Nat) : Prop :=
  p'.cache.stats.counted + p'.underWay + p.cycles.length =
    p.cache.stats.counted + p.underWay + p'.cycles.length + twice

/-- Whoever leaves a request under way, or not, changes no count. -/
theorem underWay_modifyCycle (hf : ∀ c, (f c).underWay = c.underWay) :
    (p.modifyCycle rid f).underWay = p.underWay := by
  simp only [underWay, modifyCycle, KeyedList.updateKey, List.map_map]
  congr 1
  refine List.map_congr_left (fun c _ => ?_)
  simp only [Function.comp_apply]
  split_ifs
  · exact hf c
  · rfl

theorem length_modifyCycle :
    (p.modifyCycle rid f).cycles.length = p.cycles.length := by
  simp [modifyCycle, KeyedList.updateKey]

/-- Writing a request that has been looked up. -/
theorem underWay_modifyFound (hrids : (p.cycles.map Cycle.rid).Nodup)
    (hfind : p.cycle rid = some c) :
    (p.modifyCycle rid f).underWay + c.underWay = p.underWay + (f c).underWay :=
  KeyedList.sum_updateKey hrids hfind

/-- An event that changes neither counters nor stages. -/
theorem balance_of_eq {p' : Pipeline} (hstats : p'.cache.stats = p.cache.stats)
    (hunderWay : p'.underWay = p.underWay) (hlength : p'.cycles.length = p.cycles.length) :
    Balance p p' 0 := by
  simp only [Balance, hstats, hunderWay, hlength, Nat.add_zero]

theorem balance_arrive (now : Int) (req : HttpRequest) (headers : Headers) :
    Balance p (p.arrive libs now rid req headers) 0 := by
  simp only [arrive]
  split
  · exact balance_of_eq rfl rfl rfl
  · split_ifs
    · have hlookup : (Cycle.start rid req headers
          (.ofLookup (p.cache.get now rid (cacheKey req)).1)).underWay = 1 := by
        cases (p.cache.get now rid (cacheKey req)).1 <;> rfl
      simp only [Balance, underWay, CacheService.stats_get, List.map_append, List.sum_append,
        List.map_singleton, List.sum_singleton, List.length_append, List.length_singleton, hlookup]
      omega
    · have hbypass : ((Cycle.start rid req headers .looking).bypass libs).underWay = 0 := rfl
      simp only [Balance, underWay, CacheStats.counted, CacheService.recordBypass, List.map_append,
        List.sum_append, List.map_singleton, List.sum_singleton, List.length_append,
        List.length_singleton, hbypass]
      omega

/-- An event that writes a request and counts what it takes from those under
way. -/
theorem balance_of_found {cache : CacheService Traced} {twice : Nat}
    (hrids : (p.cycles.map Cycle.rid).Nodup) (hfind : p.cycle rid = some c)
    (hcounts : cache.stats.counted + (f c).underWay =
      p.cache.stats.counted + c.underWay + twice) :
    Balance p (({ p with cache := cache } : Pipeline).modifyCycle rid f) twice := by
  have hsum : (p.modifyCycle rid f).underWay + c.underWay = p.underWay + (f c).underWay :=
    underWay_modifyFound hrids hfind
  have hunderWay : (({ p with cache := cache } : Pipeline).modifyCycle rid f).underWay =
      (p.modifyCycle rid f).underWay := rfl
  have hlength : (({ p with cache := cache } : Pipeline).modifyCycle rid f).cycles.length =
      p.cycles.length := length_modifyCycle
  have hstats : (({ p with cache := cache } : Pipeline).modifyCycle rid f).cache.stats =
      cache.stats := rfl
  rw [Balance, hunderWay, hlength, hstats]
  omega

theorem balance_resume (hrids : (p.cycles.map Cycle.rid).Nodup) (now : Int) (latency : Rat)
    (fault : Option Nat) :
    Balance p (p.resume libs rid latency fault)
      (p.refusedHit ⟨now, .resume rid latency fault⟩) := by
  have hsame : Balance p p 0 := balance_of_eq rfl rfl rfl
  simp only [resume, refusedHit]
  cases hfind : p.cycle rid with
  | none => exact hsame
  | some c =>
      simp only [Cycle.refusals]
      cases hstage : c.stage with
      | looking => exact hsame
      | answering target intercepted => exact hsame
      | ended => exact hsame
      | found cached =>
          have hwaiting : c.underWay = 1 := by
            rw [Cycle.underWay, hstage]
          cases cached with
          | none =>
              refine balance_of_found hrids hfind ?_
              rw [hwaiting]
              rfl
          | some traced =>
              cases fault with
              | none =>
                  refine balance_of_found hrids hfind ?_
                  rw [hwaiting]
                  simp only [CacheStats.counted, CacheService.recordHit, Cycle.replay,
                    Cycle.underWay, Option.isSome_none, Bool.toNat_false]
                  omega
              | some fault =>
                  -- the hit is counted, and then the bypass
                  refine balance_of_found hrids hfind ?_
                  rw [hwaiting]
                  simp only [CacheStats.counted, CacheService.recordHit,
                    CacheService.recordBypass, Cycle.replayFails, Cycle.bypass, Cycle.underWay,
                    Option.isSome_some, Bool.toNat_false, Bool.toNat_true]
                  omega

theorem balance_endResponse (hrids : (p.cycles.map Cycle.rid).Nodup) (now : Int) (status : Nat)
    (chunk : List UInt8) (latency : Rat) :
    Balance p (p.endResponse libs now rid status chunk latency) 0 := by
  have hplain : ∀ c, p.cycle rid = some c → (∀ target, c.stage ≠ .answering target true) →
      Balance p (p.modifyCycle rid (Cycle.onEnd status chunk)) 0 := by
    intro c hfind hstage
    refine balance_of_found hrids hfind ?_
    rw [Cycle.underWay_onEnd hstage, Nat.add_zero]
  simp only [endResponse]
  cases hfind : p.cycle rid with
  | none => exact balance_of_eq rfl rfl rfl
  | some c =>
      dsimp only
      cases hstage : c.stage with
      | looking => exact hplain c hfind (by simp [hstage])
      | found cached => exact hplain c hfind (by simp [hstage])
      | ended => exact hplain c hfind (by simp [hstage])
      | answering target intercepted =>
          cases intercepted with
          | false => exact hplain c hfind (by simp [hstage])
          | true =>
              refine balance_of_found hrids hfind ?_
              have hold : c.underWay = 1 := by
                rw [Cycle.underWay, hstage]
                rfl
              have hnew : ∀ status, (c.onEnd status chunk).underWay = 0 := by
                intro status
                simp only [Cycle.onEnd, hstage, Cycle.underWay]
              rw [hold, hnew]
              simp only [CacheStats.counted, CacheService.recordMiss]
              split_ifs
              · simp only [CacheService.stats_set]
                omega
              · omega

/-- Every event keeps the account. -/
theorem balance_step (hrids : (p.cycles.map Cycle.rid).Nodup) (e : Event) :
    Balance p (p.step libs e) (p.refusedHit e) := by
  obtain ⟨now, op⟩ := e
  cases op with
  | arrive rid req headers => exact balance_arrive now req headers
  | redisAnswer ok =>
      simp only [step, redisAnswer]
      split
      · exact balance_of_eq (CacheService.stats_answer _ _ _) rfl rfl
      · exact balance_of_eq (CacheService.stats_answer _ _ _)
          (underWay_modifyCycle (Cycle.underWay_onAnswer _)) length_modifyCycle
  | resume rid latency fault => exact balance_resume hrids now latency fault
  | setHeader rid name value =>
      exact balance_of_eq rfl (underWay_modifyCycle (Cycle.underWay_onSetHeader name value))
        length_modifyCycle
  | write rid chunk =>
      exact balance_of_eq rfl (underWay_modifyCycle (Cycle.underWay_onWrite chunk))
        length_modifyCycle
  | endResponse rid status chunk latency =>
      exact balance_endResponse hrids now status chunk latency
  | delete key => exact balance_of_eq (CacheService.stats_delete _ _) rfl rfl
  | invalidatePattern pattern =>
      exact balance_of_eq (CacheService.stats_invalidatePattern _ _) rfl rfl
  | flushAll => exact balance_of_eq (CacheService.stats_flushAll _) rfl rfl
  | clientConnect => exact balance_of_eq rfl rfl rfl
  | clientError => exact balance_of_eq rfl rfl rfl
  | clientStatus status => exact balance_of_eq rfl rfl rfl

/-- The latency that an event reports. -/
def Op.latency? : Op → Option Rat
  | .resume _ latency _ => some latency
  | .endResponse _ _ _ latency => some latency
  | _ => none

/-- Reported latencies within bounds keep the averages within them. -/
theorem within_step {low high : Rat} {e : Event} (h : p.cache.stats.Within low high)
    (hlatency : ∀ latency ∈ e.op.latency?, low ≤ latency ∧ latency ≤ high) :
    (p.step libs e).cache.stats.Within low high := by
  have hhit : ∀ latency, low ≤ latency ∧ latency ≤ high →
      (p.cache.recordHit latency).stats.Within low high :=
    fun latency hl => ⟨h.hits.add hl.1 hl.2, h.misses⟩
  obtain ⟨now, op⟩ := e
  cases op with
  | arrive rid req headers =>
      simp only [step, arrive]
      split
      · exact h
      · split_ifs
        · simpa using h
        · exact ⟨h.hits, h.misses⟩
  | redisAnswer ok =>
      simp only [step, redisAnswer]
      split
      · simpa using h
      · simpa [modifyCycle] using h
  | resume rid latency fault =>
      have hl := hlatency latency rfl
      simp only [step, resume]
      split
      · exact h
      · split
        · exact h
        · split
          · exact hhit latency hl
          · exact ⟨(hhit latency hl).hits, (hhit latency hl).misses⟩
        · exact h
  | endResponse rid status chunk latency =>
      have hl := hlatency latency rfl
      simp only [step, endResponse]
      split
      · exact h
      · split
        · have hmiss : ∀ cache : CacheService Traced, cache.stats = p.cache.stats →
              (cache.recordMiss latency).stats.Within low high := by
            intro cache hstats
            refine ⟨?_, ?_⟩
            · simpa [CacheService.recordMiss, hstats] using h.hits
            · simpa [CacheService.recordMiss, hstats] using h.misses.add hl.1 hl.2
          refine hmiss _ ?_
          split_ifs
          · exact CacheService.stats_set _ _ _ _
          · rfl
        · exact h
  | delete key => simpa [step] using h
  | invalidatePattern pattern => simpa [step] using h
  | flushAll => simpa [step] using h
  | _ => exact h

end Counting

section Report

variable {libs : Libraries} {p : Pipeline}

/--
What `getStats` reports after any run from start-up.  Every request that has
arrived is counted once or still under way, apart from hits that are refused
and count twice; the hit ratio is a percentage; and both averages lie between
the bounds of the latencies reported, if any.
-/
structure Accounted (low high : Rat) (p : Pipeline) (twice : Nat) : Prop where
  requests : p.cache.getStats.totalRequests + p.cache.getStats.bypasses + p.underWay =
    p.cycles.length + twice
  hitRatio : 0 ≤ p.cache.getStats.hitRatio ∧ p.cache.getStats.hitRatio ≤ 100
  cacheLatency : 0 < p.cache.getStats.hits →
    round2 low ≤ p.cache.getStats.averageCacheLatencyMs ∧
      p.cache.getStats.averageCacheLatencyMs ≤ round2 high
  backendLatency : 0 < p.cache.getStats.misses →
    round2 low ≤ p.cache.getStats.averageBackendLatencyMs ∧
      p.cache.getStats.averageBackendLatencyMs ≤ round2 high

/-- The account over a run. -/
theorem balance_run (hboot : p.Booted) (hstats : p.cache.stats.counted = 0) (es : List Event) :
    (run (step libs) p es).cache.stats.counted + (run (step libs) p es).underWay =
      (run (step libs) p es).cycles.length + cost (step libs) refusedHit p es := by
  induction es using List.reverseRecOn with
  | nil => simp [hstats, underWay, hboot.cycles, cost]
  | append_singleton es e ih =>
      have hfilled : (run (step libs) p es).Filled libs := filled_run hboot es
      have hstep : Balance (run (step libs) p es) ((run (step libs) p es).step libs e)
          ((run (step libs) p es).refusedHit e) := balance_step hfilled.supplied.rids e
      rw [Balance] at hstep
      rw [run_append, run_cons, run_nil, cost_append]
      simp only [cost, Nat.add_zero]
      omega

theorem accounted_run (hboot : p.Booted) (hstats : p.cache.stats = ⟨0, 0, 0, 0, 0⟩)
    {low high : Rat} {es : List Event}
    (hlatency : ∀ e ∈ es, ∀ latency ∈ e.op.latency?, low ≤ latency ∧ latency ≤ high) :
    (run (step libs) p es).Accounted low high (cost (step libs) refusedHit p es) := by
  have hwithin : (run (step libs) p es).cache.stats.Within low high := by
    refine run_preserves (P := fun p : Pipeline => p.cache.stats.Within low high) ?_ ?_
    · rw [hstats]
      exact ⟨sumWithin_zero low high, sumWithin_zero low high⟩
    · exact fun e he p hp => within_step hp (hlatency e he)
  refine ⟨?_, CacheService.hitRatio_mem _, ?_, ?_⟩
  · exact balance_run hboot (by rw [hstats]; rfl) es
  · intro hhits
    have haverage : ((run (step libs) p es).cache.getStats).averageCacheLatencyMs =
        round2 ((run (step libs) p es).cache.stats.totalHitLatency /
          (run (step libs) p es).cache.stats.hits) := if_pos hhits
    rw [haverage]
    exact hwithin.hits.round2_average hhits
  · intro hmisses
    have haverage : ((run (step libs) p es).cache.getStats).averageBackendLatencyMs =
        round2 ((run (step libs) p es).cache.stats.totalMissLatency /
          (run (step libs) p es).cache.stats.misses) := if_pos hmisses
    rw [haverage]
    exact hwithin.misses.round2_average hmisses

theorem accounted_run_sample :
    (run (step sampleLibraries) samplePipeline (listedTwice "/reports")).Accounted 0 1
      (cost (step sampleLibraries) refusedHit samplePipeline (listedTwice "/reports")) :=
  accounted_run booted_samplePipeline rfl (by simp [listedTwice, Op.latency?])

end Report

end Pipeline

end SentinelADC
