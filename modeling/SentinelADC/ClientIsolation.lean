import SentinelADC.Enforcement
import SentinelADC.Lib.Noninterference

/-!
# Isolation of clients

The rate limiter and the anomaly detector keep one record for each name of a
client.  What a set of names is allowed, and what is kept about it, depends on
the requests under these names, on the timers and on the operator; the traffic
of everyone else has no influence, however much it is, as long as no request is
limited under one name and recorded under another one of the set.
-/

namespace SentinelADC

open Runs

namespace RateLimiter

variable {ip : String} {checkedAt : Int} {l l' : RateLimiter}

/-- An evaluation reads and writes one bucket. -/
theorem evalTokenBucketMemory_congr (capacity refillRate : Rat) (now : Int) (cost : Rat)
    (h : l.memoryBuckets ip = l'.memoryBuckets ip) :
    (l.evalTokenBucketMemory ip capacity refillRate now cost).1 =
        (l'.evalTokenBucketMemory ip capacity refillRate now cost).1 ∧
      (l.evalTokenBucketMemory ip capacity refillRate now cost).2.memoryBuckets ip =
        (l'.evalTokenBucketMemory ip capacity refillRate now cost).2.memoryBuckets ip := by
  have hrefilled : l.refilled ip capacity refillRate now =
      l'.refilled ip capacity refillRate now := by
    simp only [refilled, h]
  simp only [evalTokenBucketMemory, hrefilled]
  split_ifs
  · simp
  · simp

@[simp] theorem memoryBuckets_currentCapacity (cfg : RateLimitConfig) :
    (l.currentCapacity cfg checkedAt ip).2.memoryBuckets = l.memoryBuckets := by
  simp only [currentCapacity]
  split
  · rfl
  · split_ifs <;> rfl

/-- The check of the penalty reads and writes one penalty. -/
theorem currentCapacity_congr (cfg : RateLimitConfig) (checkedAt : Int)
    (h : l.penalizedIps ip = l'.penalizedIps ip) :
    (l.currentCapacity cfg checkedAt ip).1 = (l'.currentCapacity cfg checkedAt ip).1 ∧
      (l.currentCapacity cfg checkedAt ip).2.penalizedIps ip =
        (l'.currentCapacity cfg checkedAt ip).2.penalizedIps ip := by
  simp only [currentCapacity, ← h]
  cases hpenalty : l.penalizedIps ip with
  | none => exact ⟨rfl, by rw [← h]⟩
  | some penalty =>
      dsimp only
      split_ifs
      · exact ⟨rfl, h⟩
      · simp [removePenalty]

theorem penalizedIps_currentCapacity_ne (cfg : RateLimitConfig) {ip' : String} (hne : ip' ≠ ip) :
    (l.currentCapacity cfg checkedAt ip).2.penalizedIps ip' = l.penalizedIps ip' := by
  simp only [currentCapacity]
  split
  · rfl
  · split_ifs
    · rfl
    · simp [removePenalty, hne]

end RateLimiter

namespace BucketStore

variable {ip : String} {store store' : BucketStore}

/-- The script reads and writes one key. -/
theorem evalTokenBucketRedis_congr (serverNow : Int) (capacity refillRate : Rat) (now : Int)
    (cost : Rat) (h : store (bucketKey ip) = store' (bucketKey ip)) :
    (store.evalTokenBucketRedis serverNow ip capacity refillRate now cost).1 =
        (store'.evalTokenBucketRedis serverNow ip capacity refillRate now cost).1 ∧
      (store.evalTokenBucketRedis serverNow ip capacity refillRate now cost).2 (bucketKey ip) =
        (store'.evalTokenBucketRedis serverNow ip capacity refillRate now cost).2
          (bucketKey ip) := by
  have hlive : store.live serverNow (bucketKey ip) = store'.live serverNow (bucketKey ip) := by
    simp only [live, h]
  have hread : store.hmget serverNow (bucketKey ip) = store'.hmget serverNow (bucketKey ip) := by
    simp only [hmget, hlive]
  simp only [evalTokenBucketRedis, hread]
  split
  · exact ⟨rfl, by simp [hmset, hlive]⟩
  · exact ⟨rfl, by simp [expire, hmset, hlive]⟩

end BucketStore

namespace SharedLimiter

/-- The same is kept under a name. -/
structure AgreeAt (ip : String) (s t : SharedLimiter) : Prop where
  bucket : s.limiter.memoryBuckets ip = t.limiter.memoryBuckets ip
  penalty : s.limiter.penalizedIps ip = t.limiter.penalizedIps ip
  key : s.store (BucketStore.bucketKey ip) = t.store (BucketStore.bucketKey ip)

namespace AgreeAt

variable {ip : String} {s t u : SharedLimiter}

theorem refl (ip : String) (s : SharedLimiter) : AgreeAt ip s s :=
  ⟨rfl, rfl, rfl⟩

theorem symm (h : AgreeAt ip s t) : AgreeAt ip t s :=
  ⟨h.bucket.symm, h.penalty.symm, h.key.symm⟩

theorem trans (h : AgreeAt ip s t) (h' : AgreeAt ip t u) : AgreeAt ip s u :=
  ⟨h.bucket.trans h'.bucket, h.penalty.trans h'.penalty, h.key.trans h'.key⟩

end AgreeAt

section Requests

variable {ip : String} {capacity refillRate : Rat} {now checkedAt : Int} {redis : RedisCall}
  {s t : SharedLimiter}

/-- An evaluation works with what is kept under one name. -/
theorem AgreeAt.evaluate (h : AgreeAt ip s t) :
    (s.evaluate redis ip capacity refillRate now).1 =
        (t.evaluate redis ip capacity refillRate now).1 ∧
      AgreeAt ip (s.evaluate redis ip capacity refillRate now).2
        (t.evaluate redis ip capacity refillRate now).2 := by
  obtain ⟨hanswer, hbucket⟩ :=
    RateLimiter.evalTokenBucketMemory_congr capacity refillRate now 1 h.bucket
  have hpenalty : ∀ l : RateLimiter, (l.evalTokenBucketMemory ip capacity refillRate now
      1).2.penalizedIps = l.penalizedIps :=
    fun l => RateLimiter.penalizedIps_eval ip capacity refillRate now 1
  have hmemory : ∀ store store' : BucketStore,
      store (BucketStore.bucketKey ip) = store' (BucketStore.bucketKey ip) →
      AgreeAt ip ⟨(s.limiter.evalTokenBucketMemory ip capacity refillRate now 1).2, store⟩
        ⟨(t.limiter.evalTokenBucketMemory ip capacity refillRate now 1).2, store'⟩ :=
    fun store store' hstore => ⟨hbucket, by rw [hpenalty, hpenalty, h.penalty], hstore⟩
  cases redis with
  | inactive => exact ⟨hanswer, hmemory _ _ h.key⟩
  | fails => exact ⟨hanswer, hmemory _ _ h.key⟩
  | lost serverNow =>
      obtain ⟨-, hkey⟩ :=
        BucketStore.evalTokenBucketRedis_congr serverNow capacity refillRate now 1 h.key
      exact ⟨hanswer, hmemory _ _ hkey⟩
  | runs serverNow =>
      obtain ⟨hreply, hkey⟩ :=
        BucketStore.evalTokenBucketRedis_congr serverNow capacity refillRate now 1 h.key
      rcases hs : s.store.evalTokenBucketRedis serverNow ip capacity refillRate now 1 with
        ⟨result, store⟩
      rcases ht : t.store.evalTokenBucketRedis serverNow ip capacity refillRate now 1 with
        ⟨result', store'⟩
      rw [hs, ht] at hreply hkey
      obtain rfl : result = result' := hreply
      simp only [SharedLimiter.evaluate, hs, ht]
      cases result with
      | none => exact ⟨hanswer, hmemory store store' hkey⟩
      | some result => exact ⟨rfl, h.bucket, h.penalty, hkey⟩

/-- An evaluation leaves alone what is kept under the other names. -/
theorem agreeAt_evaluate_ne {ip' : String} (hne : ip' ≠ ip) :
    AgreeAt ip' (s.evaluate redis ip capacity refillRate now).2 s := by
  have hmemory : ∀ store : BucketStore,
      store (BucketStore.bucketKey ip') = s.store (BucketStore.bucketKey ip') →
      AgreeAt ip' ⟨(s.limiter.evalTokenBucketMemory ip capacity refillRate now 1).2, store⟩ s :=
    fun store hstore => ⟨RateLimiter.memoryBuckets_eval_ne hne,
      congrFun (RateLimiter.penalizedIps_eval ip capacity refillRate now 1) ip', hstore⟩
  have hredis : ∀ serverNow, (s.store.evalTokenBucketRedis serverNow ip capacity refillRate now
      1).2 (BucketStore.bucketKey ip') = s.store (BucketStore.bucketKey ip') :=
    fun serverNow => BucketStore.evalTokenBucketRedis_ne
      (BucketStore.bucketKey_injective.ne hne)
  cases redis with
  | inactive => exact hmemory _ rfl
  | fails => exact hmemory _ rfl
  | lost serverNow => exact hmemory _ (hredis serverNow)
  | runs serverNow =>
      have hkey := hredis serverNow
      rcases hs : s.store.evalTokenBucketRedis serverNow ip capacity refillRate now 1 with
        ⟨result, store⟩
      rw [hs] at hkey
      simp only [SharedLimiter.evaluate, hs]
      cases result with
      | none => exact hmemory store hkey
      | some result => exact ⟨rfl, rfl, hkey⟩

variable (cfg : RateLimitConfig) (req : ClientRequest)

/-- A request is answered from what is kept under its name. -/
theorem AgreeAt.middleware (h : AgreeAt (getClientIp req) s t) :
    (s.middleware cfg checkedAt now redis req).1 = (t.middleware cfg checkedAt now redis req).1 ∧
      AgreeAt (getClientIp req) (s.middleware cfg checkedAt now redis req).2
        (t.middleware cfg checkedAt now redis req).2 := by
  obtain ⟨hcapacity, hpenalty⟩ := RateLimiter.currentCapacity_congr cfg checkedAt h.penalty
  have hchecked : AgreeAt (getClientIp req)
      ⟨(s.limiter.currentCapacity cfg checkedAt (getClientIp req)).2, s.store⟩
      ⟨(t.limiter.currentCapacity cfg checkedAt (getClientIp req)).2, t.store⟩ :=
    ⟨by simp [h.bucket], hpenalty, h.key⟩
  simp only [SharedLimiter.middleware, hcapacity]
  exact ⟨by rw [hchecked.evaluate.1], hchecked.evaluate.2⟩

/-- A request leaves alone what is kept under the other names. -/
theorem agreeAt_middleware_ne (hne : ip ≠ getClientIp req) :
    AgreeAt ip (s.middleware cfg checkedAt now redis req).2 s := by
  have hchecked : AgreeAt ip
      ⟨(s.limiter.currentCapacity cfg checkedAt (getClientIp req)).2, s.store⟩ s :=
    ⟨by simp, RateLimiter.penalizedIps_currentCapacity_ne cfg hne, rfl⟩
  exact (agreeAt_evaluate_ne hne).trans hchecked

end Requests

end SharedLimiter

namespace AnomalyDetector

/-- The detector as far as a set of names is concerned. -/
def about (names : String → Bool) (d : AnomalyDetector) : AnomalyDetector :=
  { d with
    ipStats := d.ipStats.filter (fun entry => names entry.1)
    anomalies := [] }

section About

variable {names : String → Bool} {sqrt : Rat → Rat} {now penalizedAt : Int} {ip : String}
  {d : AnomalyDetector} {l : RateLimiter}

/-- The name in an anomaly is the name of its record. -/
theorem ip_of_evaluateWindow {stats : IpStats} {event : AnomalyEvent}
    (h : (d.evaluateWindow sqrt now ip stats).2 = some event) :
    event.ip = ip := by
  simp only [evaluateWindow] at h
  split_ifs at h
  simp only [Option.some.injEq] at h
  rw [← h]

/-- Counting a request commutes with the restriction to a set of names. -/
theorem filter_count (names : String → Bool) (ip : String) (d : AnomalyDetector) :
    (KeyedList.updateKey Prod.fst ip (fun e => (e.1, e.2.count)) d.ipStats).filter
        (fun entry => names entry.1) =
      KeyedList.updateKey Prod.fst ip (fun e => (e.1, e.2.count)) (d.about names).ipStats :=
  KeyedList.filter_updateKey (p := fun entry => names entry.1)
    (f := fun e => (e.1, e.2.count)) (fun _ => rfl) ip d.ipStats

/-- A request under another name is not recorded about the set. -/
theorem about_recordRequest_of_neg (hname : names ip = false) :
    (d.recordRequest now ip).about names = d.about names := by
  have hother : ∀ entry ∈ (d.about names).ipStats, entry.1 = ip →
      (entry.1, entry.2.count) = entry := by
    rintro entry hmem rfl
    simp [about, hname] at hmem
  simp only [recordRequest]
  split_ifs
  · rfl
  · have hcount := filter_count names ip d
    rw [KeyedList.updateKey_eq_self hother] at hcount
    simp only [about, hcount]
  · simp [about, hname]

/-- A request under a name of the set is recorded by what is known about the set. -/
theorem about_recordRequest_of_pos (hname : names ip = true) :
    (d.recordRequest now ip).about names = (d.about names).recordRequest now ip := by
  have hfound : (∃ entry ∈ (d.about names).ipStats, entry.1 = ip) ↔
      ∃ entry ∈ d.ipStats, entry.1 = ip := by
    constructor
    · rintro ⟨entry, hmem, hip⟩
      exact ⟨entry, List.mem_of_mem_filter hmem, hip⟩
    · rintro ⟨entry, hmem, rfl⟩
      exact ⟨entry, List.mem_filter.mpr ⟨hmem, hname⟩, rfl⟩
  have henabled : (d.about names).enabled = d.enabled := rfl
  simp only [recordRequest, hfound, henabled]
  split_ifs
  · rfl
  · simp only [about, filter_count]
  · simp [about, hname]

/-- The anomalies of the set are found in what is known about the set. -/
theorem found_about :
    (d.about names).found sqrt now = (d.found sqrt now).filter (fun event => names event.ip) := by
  rw [found, found, about, List.filterMap_filter, List.filter_filterMap]
  refine List.filterMap_congr (fun entry _ => ?_)
  change (if names entry.1 then (d.evaluateWindow sqrt now entry.1 entry.2).2 else none) = _
  cases hevent : (d.evaluateWindow sqrt now entry.1 entry.2).2 with
  | none => simp
  | some event => simp [Option.filter, ip_of_evaluateWindow hevent]

/-- The evaluation of the set works with what is known about the set. -/
theorem about_evaluateWindows :
    (d.evaluateWindows sqrt now penalizedAt l).1.about names =
      { d.about names with
        ipStats := (d.about names).ipStats.map (fun entry =>
          (entry.1, ((d.about names).evaluateWindow sqrt now entry.1 entry.2).1)) } := by
  simp only [evaluateWindows, about, List.filter_map]
  rfl

theorem exists_found_about (hname : names ip = true) :
    (∃ event ∈ (d.about names).found sqrt now, event.ip = ip) ↔
      ∃ event ∈ d.found sqrt now, event.ip = ip := by
  rw [found_about]
  constructor
  · rintro ⟨event, hmem, hip⟩
    exact ⟨event, List.mem_of_mem_filter hmem, hip⟩
  · rintro ⟨event, hmem, rfl⟩
    exact ⟨event, List.mem_filter.mpr ⟨hmem, hname⟩, rfl⟩

/-- Penalties do not touch the buckets. -/
theorem memoryBuckets_evaluateWindows :
    (d.evaluateWindows sqrt now penalizedAt l).2.memoryBuckets = l.memoryBuckets := by
  have hfold : ∀ (events : List AnomalyEvent) (l : RateLimiter),
      (events.foldl (d.enforce penalizedAt) l).memoryBuckets = l.memoryBuckets := by
    intro events
    induction events with
    | nil => exact fun _ => rfl
    | cons event events ih => exact fun l => ih (d.enforce penalizedAt l event)
  simp only [evaluateWindows]
  split_ifs
  · exact hfold _ l
  · rfl

variable {d' : AnomalyDetector}

/-- The evaluation penalises the same names of the set. -/
theorem penalizedIps_evaluateWindows_congr {l' : RateLimiter} (hname : names ip = true)
    (h : d.about names = d'.about names) (hpenalty : l.penalizedIps ip = l'.penalizedIps ip) :
    (d.evaluateWindows sqrt now penalizedAt l).2.penalizedIps ip =
      (d'.evaluateWindows sqrt now penalizedAt l').2.penalizedIps ip := by
  have hmax := congrArg penaltyMaxRequests h
  have hwindow := congrArg penaltyWindowMs h
  have henforce := congrArg autoEnforce h
  have hfound : (∃ event ∈ d.found sqrt now, event.ip = ip) ↔
      ∃ event ∈ d'.found sqrt now, event.ip = ip := by
    refine (exists_found_about hname).symm.trans ?_
    rw [h]
    exact exists_found_about hname
  simp only [about] at hmax hwindow henforce
  simp only [penalizedIps_evaluateWindows, hfound, hmax, hwindow, henforce, hpenalty]

theorem about_middleware_congr {req : ClientRequest} (h : d.about names = d'.about names) :
    (d.middleware now req).about names = (d'.middleware now req).about names := by
  have hflag := congrArg enabled h
  have henabled : d.enabled = d'.enabled := hflag
  simp only [middleware, henabled]
  split_ifs
  · cases hname : names (clientKey req) with
    | true => rw [about_recordRequest_of_pos hname, about_recordRequest_of_pos hname, h]
    | false => rw [about_recordRequest_of_neg hname, about_recordRequest_of_neg hname, h]
  · exact h

theorem about_middleware_of_neg {req : ClientRequest} (hname : names (clientKey req) = false) :
    (d.middleware now req).about names = d.about names := by
  simp only [middleware]
  split_ifs
  · exact about_recordRequest_of_neg hname
  · rfl

end About

end AnomalyDetector

namespace Defence

/-- The answer to a request. -/
def answer (cfg : RateLimitConfig) (s : Defence) (e : Event) : Option LimiterReply :=
  match e.op with
  | .request req checkedAt redis => some (s.request cfg e.now checkedAt redis req).1.1
  | _ => none

/-- Everything but the requests under other names and the pardons of them. -/
def Event.concerns (names : String → Bool) (e : Event) : Bool :=
  match e.op with
  | .request req _ _ => names (getClientIp req)
  | .removePenalty ip => names ip
  | _ => true

/-- A request that the detector counts for a name of the set is one that the
limiter counts for a name of the set. -/
def Event.owned (names : String → Bool) (e : Event) : Bool :=
  match e.op with
  | .request req _ _ => !names (AnomalyDetector.clientKey req) || names (getClientIp req)
  | _ => true

/-- The same is kept about a set of names. -/
structure AgreeOn (names : String → Bool) (s t : Defence) : Prop where
  limiter : ∀ ip, names ip = true → SharedLimiter.AgreeAt ip s.shared t.shared
  detector : s.detector.about names = t.detector.about names

section Isolation

variable {cfg : RateLimitConfig} {sqrt : Rat → Rat} {names : String → Bool} {s t : Defence}
  {now checkedAt penalizedAt : Int} {redis : RedisCall} {req : ClientRequest}

theorem answer_request (s : Defence) :
    (s.request cfg now checkedAt redis req).1.1 =
      (s.shared.middleware cfg checkedAt now redis req).1.1 := by
  simp only [request]
  split <;> simp_all

/-- The detector counts the requests that the limiter hands on. -/
theorem detector_request (s : Defence) :
    (s.request cfg now checkedAt redis req).2.detector =
      match (s.shared.middleware cfg checkedAt now redis req).1.1 with
      | .next _ => s.detector.middleware now req
      | _ => s.detector := by
  simp only [request]
  split <;> simp_all

theorem equivalence_agreeOn (names : String → Bool) : Equivalence (AgreeOn names) where
  refl s := ⟨fun ip _ => SharedLimiter.AgreeAt.refl ip s.shared, rfl⟩
  symm h := ⟨fun ip hname => (h.limiter ip hname).symm, h.detector.symm⟩
  trans h h' := ⟨fun ip hname => (h.limiter ip hname).trans (h'.limiter ip hname),
    h.detector.trans h'.detector⟩

/-- A request under another name. -/
theorem agreeOn_request_hidden
    (howned : Event.owned names ⟨now, .request req checkedAt redis⟩ = true)
    (hhidden : names (getClientIp req) = false) :
    AgreeOn names (s.request cfg now checkedAt redis req).2 s := by
  have hkey : names (AnomalyDetector.clientKey req) = false := by
    simpa [Event.owned, hhidden] using howned
  refine ⟨fun ip hname => ?_, ?_⟩
  · rw [shared_request]
    refine SharedLimiter.agreeAt_middleware_ne cfg req ?_
    rintro rfl
    simp [hname] at hhidden
  · rw [detector_request]
    split
    · exact AnomalyDetector.about_middleware_of_neg hkey
    · rfl

/-- A request under a name of the set is answered from what is kept about the
set. -/
theorem AgreeOn.request (h : AgreeOn names s t) (hname : names (getClientIp req) = true) :
    (s.request cfg now checkedAt redis req).1.1 = (t.request cfg now checkedAt redis req).1.1 ∧
      AgreeOn names (s.request cfg now checkedAt redis req).2
        (t.request cfg now checkedAt redis req).2 := by
  obtain ⟨hreply, hagree⟩ := (h.limiter (getClientIp req) hname).middleware cfg req
  refine ⟨?_, fun ip hip => ?_, ?_⟩
  · rw [answer_request, answer_request, hreply]
  · rw [shared_request, shared_request]
    by_cases hself : ip = getClientIp req
    · rw [hself]
      exact hagree
    · refine (SharedLimiter.agreeAt_middleware_ne cfg req hself).trans ?_
      exact (h.limiter ip hip).trans (SharedLimiter.agreeAt_middleware_ne cfg req hself).symm
  · rw [detector_request, detector_request, hreply]
    split
    · exact AnomalyDetector.about_middleware_congr h.detector
    · exact h.detector

/-- The evaluation of the windows penalises the same names of the set. -/
theorem AgreeOn.evaluateWindows (h : AgreeOn names s t) :
    AgreeOn names (s.step cfg sqrt ⟨now, .evaluateWindows penalizedAt⟩)
      (t.step cfg sqrt ⟨now, .evaluateWindows penalizedAt⟩) := by
  refine ⟨fun ip hname => ⟨?_, ?_, (h.limiter ip hname).key⟩, ?_⟩
  · simp only [step, AnomalyDetector.memoryBuckets_evaluateWindows, (h.limiter ip hname).bucket]
  · exact AnomalyDetector.penalizedIps_evaluateWindows_congr hname h.detector
      (h.limiter ip hname).penalty
  · simp only [step, AnomalyDetector.about_evaluateWindows, h.detector]

/-- The operator and the cleanup treat the names one by one. -/
theorem unwinding (cfg : RateLimitConfig) (sqrt : Rat → Rat) (names : String → Bool) :
    Unwinding (step cfg sqrt) (answer cfg) (Event.concerns names)
      (fun e => e.owned names = true) (AgreeOn names) where
  equivalence := equivalence_agreeOn names
  hidden s e howned hhidden := by
    obtain ⟨now, op⟩ := e
    cases op with
    | request req checkedAt redis =>
        exact agreeOn_request_hidden howned hhidden
    | removePenalty ip =>
        refine ⟨fun ip' hname => ⟨rfl, ?_, rfl⟩, rfl⟩
        refine Function.update_of_ne ?_ _ _
        rintro rfl
        simp [Event.concerns, hname] at hhidden
    | _ => simp [Event.concerns] at hhidden
  seen s t e _ hsees h := by
    obtain ⟨now, op⟩ := e
    cases op with
    | request req checkedAt redis => exact (h.request hsees).2
    | evaluateWindows penalizedAt => exact h.evaluateWindows
    | cleanup =>
        refine ⟨fun ip hname => ⟨?_, ?_, (h.limiter ip hname).key⟩, h.detector⟩
        · simp only [step, RateLimiter.cleanupMemoryStore, (h.limiter ip hname).bucket]
        · simp only [step, RateLimiter.cleanupMemoryStore, (h.limiter ip hname).penalty]
    | removePenalty ip =>
        refine ⟨fun ip' hname => ⟨(h.limiter ip' hname).bucket, ?_, (h.limiter ip' hname).key⟩,
          h.detector⟩
        by_cases hself : ip' = ip
        · simp [step, RateLimiter.removePenalty, hself]
        · simp [step, RateLimiter.removePenalty, hself, (h.limiter ip' hname).penalty]
    | setAutoEnforce enabled =>
        exact ⟨h.limiter, congrArg (AnomalyDetector.setAutoEnforce enabled) h.detector⟩
    | setZThreshold threshold =>
        exact ⟨h.limiter, congrArg (AnomalyDetector.setZThreshold threshold) h.detector⟩
    | clearAnomalies =>
        have hclear := congrArg AnomalyDetector.clearAnomalies h.detector
        exact ⟨h.limiter, hclear⟩
  answered s t e _ hsees h := by
    obtain ⟨now, op⟩ := e
    cases op with
    | request req checkedAt redis => exact congrArg some (h.request hsees).1
    | _ => rfl

/-- Two runs in which a set of names makes the same requests, while the timers and the
operator do the same, give these requests the same answers and keep the same
about the set, whatever the clients under other names do. -/
theorem client_isolated (h : AgreeOn names s t) {es fs : List Event}
    (hes : ∀ e ∈ es, e.owned names = true) (hfs : ∀ e ∈ fs, e.owned names = true)
    (hsame : es.filter (Event.concerns names) = fs.filter (Event.concerns names)) :
    log (step cfg sqrt) (seenAnswer (Event.concerns names) (answer cfg)) s es =
        log (step cfg sqrt) (seenAnswer (Event.concerns names) (answer cfg)) t fs ∧
      AgreeOn names (run (step cfg sqrt) s es) (run (step cfg sqrt) t fs) :=
  ⟨(unwinding cfg sqrt names).log_eq h hes hfs hsame,
    (unwinding cfg sqrt names).alike_run h hes hfs hsame⟩

/-- Two requests of a client, with or without those of a busy client around them. -/
def crowded (busy : Bool) : List Event :=
  let req (address : String) : ClientRequest := ⟨"GET", "/", none, none, some address, some address⟩
  let others (now : Int) : List Event :=
    if busy then List.replicate 3 ⟨now, .request (req "10.0.0.9") now (.runs now)⟩ else []
  others 0 ++ ⟨5, .request (req "10.0.0.7") 5 (.runs 5)⟩ :: others 9 ++
    ⟨15000, .evaluateWindows 15000⟩ :: others 15001 ++
      [⟨15002, .request (req "10.0.0.7") 15002 .fails⟩]

/-- The client whose requests are kept. -/
def quiet (ip : String) : Bool :=
  ip = "10.0.0.7"

theorem client_isolated_sample :
    log (step ⟨60000, 2⟩ ratSqrt) (seenAnswer (Event.concerns quiet) (answer ⟨60000, 2⟩))
          sampleDefence (crowded true) =
        log (step ⟨60000, 2⟩ ratSqrt) (seenAnswer (Event.concerns quiet) (answer ⟨60000, 2⟩))
          sampleDefence (crowded false) ∧
      AgreeOn quiet (run (step ⟨60000, 2⟩ ratSqrt) sampleDefence (crowded true))
        (run (step ⟨60000, 2⟩ ratSqrt) sampleDefence (crowded false)) :=
  client_isolated ((equivalence_agreeOn quiet).refl sampleDefence) (by decide) (by decide) rfl

end Isolation

end Defence

end SentinelADC
