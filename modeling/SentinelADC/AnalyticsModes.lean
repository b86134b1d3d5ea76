import SentinelADC.AnalyticsService
import SentinelADC.Rollups
import Mathlib.Data.Int.Interval

/-!
# The two modes of analytics

The routes answer from memory as they do from MongoDB.  The arrays in memory are
what the caps leave of the collections: the newest 1000 logs, which is all that
the routes look at while no half hour has more, and the newest 60 documents,
which are those of the last hour unless a minute has just begun.  Only MongoDB
gives its documents an `_id`.
-/

namespace SentinelADC

open Aggregation Runs

namespace Analytics

/-- What happens to a gateway whose MongoDB answers at once. -/
inductive Traffic where
  | log (entry : BackendLog)
  | tick (now updatedAt : Int) (answer : List Document)

/-- The time of an event. -/
def Traffic.time : Traffic → Int
  | .log entry => entry.timestamp
  | .tick now _ _ => now

/-- The event without MongoDB. -/
def Traffic.memoryEvents : Traffic → List Event
  | .log entry => [.finish entry]
  | .tick now updatedAt _ => [.tick now updatedAt]

/-- The event with MongoDB, which stores what it is given. -/
def Traffic.mongoEvents : Traffic → List Event
  | .log entry => [.finish entry, .insert entry true]
  | .tick now updatedAt answer =>
      [.tick now updatedAt, .aggregate (.ok answer) updatedAt, .replace true]

/-- The logs among the events. -/
def logsOf (es : List Traffic) : List BackendLog :=
  es.filterMap (fun e =>
    match e with
    | .log entry => some entry
    | .tick _ _ _ => none)

/-- Right after start-up. -/
structure Booted (s : Analytics) : Prop where
  enabled : s.enabled = true
  useMemoryFallback : s.useMemoryFallback = false
  connected : s.connected = false
  memoryLogs : s.memoryLogs = []
  memoryAggregates : s.memoryAggregates = []
  requestLogs : s.requestLogs = []
  analyticsAggregates : s.analyticsAggregates = []
  inserting : s.inserting = []
  rollup : s.rollup = none

/-- The gateway after a run in which MongoDB could not be reached. -/
def inMemory (start : Analytics) (es : List Traffic) : Analytics :=
  run step (start.step (.connect false)) (es.flatMap Traffic.memoryEvents)

/-- The gateway after a run with MongoDB. -/
def onMongo (start : Analytics) (es : List Traffic) : Analytics :=
  run step (start.step (.connect true)) (es.flatMap Traffic.mongoEvents)

/-- A gateway with the logs and documents in memory answers as one that has them in MongoDB,
latencies being added exactly in both. -/
structure AnswersAlike (now : Int) (memory mongo : Analytics) : Prop where
  realtime : ∀ answer,
    Evaluates (realtimePipeline (now - 5 * 60 * 1000))
      (mongo.requestLogs.map BackendLog.toDocument) answer →
    memory.realtime now (.ok answer) = mongo.realtime now (.ok answer)
  historical : ∀ objectId answer,
    Evaluates (historicalQuery (now - 60 * 60 * 1000))
      (mongo.analyticsAggregates.map (RollupDocument.stored objectId)) answer →
    mongo.historical now (.ok answer) = .historical true answer ∧
      memory.historical now (.ok answer) =
        .historical true ((answer.rtake 60).map withoutId) ∧
      (¬ 60000 ∣ now → answer.rtake 60 = answer)
  backends : ∀ answer,
    Evaluates (backendsPipeline (now - 30 * 60 * 1000))
      (mongo.requestLogs.map BackendLog.toDocument) answer →
    ∃ splits, mongo.backends now (.ok answer) = .backends true answer ∧
      memory.backends now (.ok answer) = .backends true (splits.map BackendSplit.toDocument) ∧
      BackendSplit.SameSplits (logWindow (now - 30 * 60 * 1000) mongo.requestLogs) answer splits

/-- No half hour has more logs than memory holds. -/
def HasRoom (logs : List BackendLog) : Prop :=
  ∀ t, logs.countP (fun l => t - 30 * 60 * 1000 ≤ l.timestamp ∧ l.timestamp ≤ t) ≤ 1000

/-- The two modes after the same events. -/
structure InStep (t : Int) (logs : List BackendLog) (memory mongo : Analytics) : Prop where
  memoryMode : memory.enabled = true ∧ memory.useMemoryFallback = true ∧ memory.rollup = none
  mongoMode : mongo.enabled = true ∧ mongo.useMemoryFallback = false ∧ mongo.connected = true ∧
    mongo.rollup = none ∧ mongo.inserting = []
  requestLogs : mongo.requestLogs = logs
  memoryLogs : memory.memoryLogs = logs.rtake 1000
  aggregates : memory.memoryAggregates = mongo.analyticsAggregates.rtake 60
  sorted : logs.Pairwise (fun l l' => l.timestamp ≤ l'.timestamp)
  past : ∀ l ∈ logs, l.timestamp ≤ t
  minutes : (mongo.analyticsAggregates.map RollupDocument.timeBucket).Pairwise (· < ·)
  whole : ∀ a ∈ mongo.analyticsAggregates, timeBucket a.timeBucket = a.timeBucket
  elapsed : ∀ a ∈ mongo.analyticsAggregates, a.timeBucket ≤ t

section Windows

variable {logs : List BackendLog} {t now from' : Int}

/-- What memory has of a window that ends now. -/
theorem filter_window (hsorted : logs.Pairwise (fun l l' => l.timestamp ≤ l'.timestamp))
    (hpast : ∀ l ∈ logs, l.timestamp ≤ now) (hroom : HasRoom logs)
    (hfrom : now - 30 * 60 * 1000 ≤ from') :
    (logs.rtake 1000).filter (fun l => from' ≤ l.timestamp) =
      logs.filter (fun l => from' ≤ l.timestamp) := by
  refine filter_rtake (hsorted.imp (fun hle h => ?_)) ?_
  · exact decide_eq_true ((of_decide_eq_true h).trans hle)
  · rw [← List.countP_eq_length_filter]
    refine le_trans (List.countP_mono_left (fun l hl h => ?_)) (hroom now)
    have hle := of_decide_eq_true h
    exact decide_eq_true ⟨hfrom.trans hle, hpast l hl⟩

theorem filter_toRequestLog (p : RequestLog → Bool) (logs : List BackendLog) :
    (logs.map BackendLog.toRequestLog).filter p =
      (logs.filter (fun l => p l.toRequestLog)).map BackendLog.toRequestLog := by
  rw [List.filter_map]
  rfl

/-- A rollup finds the same in memory. -/
theorem aggregateLogs_rtake (hsorted : logs.Pairwise (fun l l' => l.timestamp ≤ l'.timestamp))
    (hpast : ∀ l ∈ logs, l.timestamp ≤ now) (hroom : HasRoom logs) :
    aggregateLogs (timeBucket now) (timeBucket now + 60000)
        ((logs.rtake 1000).map BackendLog.toRequestLog) =
      aggregateLogs (timeBucket now) (timeBucket now + 60000)
        (logs.map BackendLog.toRequestLog) := by
  have hbucket : timeBucket now ≤ now ∧ now < timeBucket now + 60000 := by
    simp only [timeBucket]
    omega
  have hopen : ∀ ls : List BackendLog, (∀ l ∈ ls, l.timestamp ≤ now) →
      ls.filter (fun l => timeBucket now ≤ l.timestamp ∧ l.timestamp < timeBucket now + 60000) =
        ls.filter (fun l => timeBucket now ≤ l.timestamp) := by
    intro ls hls
    refine List.filter_congr (fun l hl => ?_)
    have hle := hls l hl
    simp only [decide_eq_decide, and_iff_left_iff_imp]
    omega
  have hwindow := filter_window hsorted hpast hroom
    (show now - 30 * 60 * 1000 ≤ timeBucket now by omega)
  simp only [aggregateLogs, filter_toRequestLog]
  rw [hopen logs hpast, hopen (logs.rtake 1000) (fun l hl => hpast l (List.mem_of_mem_drop hl)),
    hwindow]

end Windows

section Documents

variable {document : RollupDocument} {aggregates : List RollupDocument}

/-- The document of the minute of the clock is the last one, or a new one. -/
theorem upsert_cases (hminutes : (aggregates.map RollupDocument.timeBucket).Pairwise (· < ·))
    (hlast : ∀ a ∈ aggregates, a.timeBucket ≤ document.timeBucket) :
    (∃ kept last, aggregates = kept ++ [last] ∧ last.timeBucket = document.timeBucket ∧
        (∀ a ∈ kept, a.timeBucket < document.timeBucket)) ∨
      ∀ a ∈ aggregates, a.timeBucket < document.timeBucket := by
  rcases List.eq_nil_or_concat aggregates with rfl | ⟨kept, last, rfl⟩
  · exact Or.inr (by simp)
  · rw [List.concat_eq_append] at hminutes hlast ⊢
    rw [List.map_append, List.map_singleton, List.pairwise_append] at hminutes
    have hbefore : ∀ a ∈ kept, a.timeBucket < last.timeBucket := fun a ha =>
      hminutes.2.2 _ (List.mem_map_of_mem ha) _ List.mem_cons_self
    rcases (hlast last (by simp)).eq_or_lt with heq | hlt
    · exact Or.inl ⟨kept, last, rfl, heq, fun a ha => heq ▸ hbefore a ha⟩
    · refine Or.inr (fun a ha => ?_)
      rcases List.mem_append.mp ha with ha | ha
      · exact (hbefore a ha).trans hlt
      · rwa [List.mem_singleton.mp ha]

theorem upsert_last {kept : List RollupDocument} {last : RollupDocument}
    (heq : last.timeBucket = document.timeBucket)
    (hbefore : ∀ a ∈ kept, a.timeBucket < document.timeBucket) :
    AnalyticsDb.upsert document (kept ++ [last]) = kept ++ [document] := by
  refine AnalyticsDb.upsert_of_last heq (fun hmem => ?_)
  obtain ⟨a, ha, hbucket⟩ := List.mem_map.mp hmem
  exact (hbefore a ha).ne hbucket

theorem upsert_new (hbefore : ∀ a ∈ aggregates, a.timeBucket < document.timeBucket) :
    AnalyticsDb.upsert document aggregates = aggregates ++ [document] := by
  refine AnalyticsDb.upsert_of_new (fun hmem => ?_)
  obtain ⟨a, ha, hbucket⟩ := List.mem_map.mp hmem
  exact (hbefore a ha).ne hbucket

/-- In memory the newest 60 documents are left of those that MongoDB has. -/
theorem upsertCapped_rtake
    (hminutes : (aggregates.map RollupDocument.timeBucket).Pairwise (· < ·))
    (hlast : ∀ a ∈ aggregates, a.timeBucket ≤ document.timeBucket) :
    upsertCapped document (aggregates.rtake 60) =
      (AnalyticsDb.upsert document aggregates).rtake 60 := by
  have hkept : ∀ {docs : List RollupDocument} {n : Nat},
      (∀ a ∈ docs, a.timeBucket < document.timeBucket) →
        ∀ a ∈ docs.rtake n, a.timeBucket < document.timeBucket :=
    fun h a ha => h a (List.mem_of_mem_drop ha)
  rcases upsert_cases hminutes hlast with ⟨kept, last, rfl, heq, hbefore⟩ | hbefore
  · have hlength : ¬ 60 < (kept.rtake 59 ++ [document]).length := by
      simp only [List.rtake, List.length_append, List.length_drop, List.length_singleton]
      omega
    rw [upsertCapped, List.rtake_concat_succ, upsert_last heq (hkept hbefore),
      upsert_last heq hbefore, List.rtake_concat_succ]
    exact if_neg hlength
  · rw [upsertCapped, upsert_new (hkept hbefore), upsert_new hbefore,
      ← pushCapped_rtake (by omega)]
    rfl

/-- The documents stay in the order of their minutes. -/
theorem buckets_upsert
    (hminutes : (aggregates.map RollupDocument.timeBucket).Pairwise (· < ·))
    (hlast : ∀ a ∈ aggregates, a.timeBucket ≤ document.timeBucket) :
    ((AnalyticsDb.upsert document aggregates).map RollupDocument.timeBucket).Pairwise (· < ·) ∧
      ∀ a ∈ AnalyticsDb.upsert document aggregates, a ∈ aggregates ∨ a = document := by
  rcases upsert_cases hminutes hlast with ⟨kept, last, rfl, heq, hbefore⟩ | hbefore
  · rw [upsert_last heq hbefore]
    rw [List.map_append, List.map_singleton, heq] at hminutes
    refine ⟨by rwa [List.map_append, List.map_singleton], fun a ha => ?_⟩
    rcases List.mem_append.mp ha with ha | ha
    · exact Or.inl (List.mem_append_left _ ha)
    · exact Or.inr (List.mem_singleton.mp ha)
  · rw [upsert_new hbefore, List.map_append, List.map_singleton]
    refine ⟨List.pairwise_append.mpr ⟨hminutes, List.pairwise_singleton _ _, ?_⟩, ?_⟩
    · simpa using hbefore
    · intro a ha
      exact (List.mem_append.mp ha).imp_right List.mem_singleton.mp

end Documents

section Steps

variable {t : Int} {logs : List BackendLog} {memory mongo : Analytics}

theorem InStep.log (h : InStep t logs memory mongo) {entry : BackendLog}
    (hle : t ≤ entry.timestamp) :
    InStep entry.timestamp (logs ++ [entry]) (run step memory (Traffic.log entry).memoryEvents)
      (run step mongo (Traffic.log entry).mongoEvents) := by
  obtain ⟨henabled, hfallback, hidle⟩ := h.memoryMode
  obtain ⟨henabled', hfallback', hconnected, hidle', hinserting⟩ := h.mongoMode
  have hmemory : run step memory (Traffic.log entry).memoryEvents =
      { memory with memoryLogs := pushCapped 1000 entry memory.memoryLogs } := by
    simp [Traffic.memoryEvents, step, insertLog, isActive, henabled, hfallback]
  have hmongo : run step mongo (Traffic.log entry).mongoEvents =
      { mongo with inserting := [], requestLogs := mongo.requestLogs ++ [entry] } := by
    simp [Traffic.mongoEvents, step, insertLog, isActive, henabled', hfallback', hconnected,
      hinserting]
  rw [hmemory, hmongo]
  constructor
  case memoryMode => exact ⟨henabled, hfallback, hidle⟩
  case mongoMode => exact ⟨henabled', hfallback', hconnected, hidle', rfl⟩
  case requestLogs => rw [h.requestLogs]
  case memoryLogs =>
    rw [← pushCapped_rtake (by omega), ← h.memoryLogs]
  case aggregates => exact h.aggregates
  case sorted =>
    refine List.pairwise_append.mpr ⟨h.sorted, List.pairwise_singleton _ _, ?_⟩
    intro l hl l' hl'
    rw [List.mem_singleton.mp hl']
    exact (h.past l hl).trans hle
  case past =>
    intro l hl
    rcases List.mem_append.mp hl with hl | hl
    · exact (h.past l hl).trans hle
    · rw [List.mem_singleton.mp hl]
  case minutes => exact h.minutes
  case whole => exact h.whole
  case elapsed => exact fun a ha => (h.elapsed a ha).trans hle

/-- The rollups of the two modes. -/
theorem InStep.run_tick (h : InStep t logs memory mongo) (hroom : HasRoom logs)
    {now updatedAt : Int} {answer : List Document} (hle : t ≤ now)
    (hserved : EachStep step Served mongo (Traffic.tick now updatedAt answer).mongoEvents) :
    (run step memory (Traffic.tick now updatedAt answer).memoryEvents = memory ∧
        run step mongo (Traffic.tick now updatedAt answer).mongoEvents =
          { mongo with rollup := none }) ∨
      ∃ document : RollupDocument, document.timeBucket = timeBucket now ∧
        run step memory (Traffic.tick now updatedAt answer).memoryEvents =
          { memory with memoryAggregates := upsertCapped document memory.memoryAggregates } ∧
        run step mongo (Traffic.tick now updatedAt answer).mongoEvents =
          { mongo with
            rollup := none
            analyticsAggregates := AnalyticsDb.upsert document mongo.analyticsAggregates } := by
  obtain ⟨henabled, hfallback, hidle⟩ := h.memoryMode
  obtain ⟨henabled', hfallback', hconnected, hidle', -⟩ := h.mongoMode
  have htick : step mongo (.tick now updatedAt) =
      { mongo with rollup := some (.aggregating (timeBucket now)) } := by
    simp [step, runRollup, isActive, henabled', hfallback', hconnected, hidle']
  have hanswer := hserved.2.1 (timeBucket now) (by rw [htick])
  rw [htick, evaluates_rollup_iff, h.requestLogs] at hanswer
  have hmongo : run step mongo (Traffic.tick now updatedAt answer).mongoEvents =
      (({ mongo with rollup := some (.aggregating (timeBucket now)) } : Analytics).aggregated
        (.ok answer) updatedAt).replaced true := by
    rw [← htick]
    rfl
  have hmemory : run step memory (Traffic.tick now updatedAt answer).memoryEvents =
      memory.runRollup now updatedAt := by
    rfl
  have hfound : aggregateLogs (timeBucket now) (timeBucket now + 60000)
      (memory.memoryLogs.map BackendLog.toRequestLog) =
        aggregateLogs (timeBucket now) (timeBucket now + 60000)
          (logs.map BackendLog.toRequestLog) := by
    rw [h.memoryLogs]
    exact aggregateLogs_rtake h.sorted (fun l hl => (h.past l hl).trans hle) hroom
  rw [hmemory, hmongo, hanswer]
  simp only [runRollup, isActive, henabled, hfallback, hidle, hfound]
  cases aggregateLogs (timeBucket now) (timeBucket now + 60000)
      (logs.map BackendLog.toRequestLog) with
  | none => exact Or.inl ⟨rfl, rfl⟩
  | some stats =>
      refine Or.inr ⟨stats.document (timeBucket now) updatedAt, rfl, rfl, ?_⟩
      simp only [Option.toList_some, List.map_cons, List.map_nil, aggregated, List.head?_cons,
        Option.bind_some, LogStats.ofDocument_toDocument, replaced, if_true]

theorem InStep.tick (h : InStep t logs memory mongo) (hroom : HasRoom logs)
    {now updatedAt : Int} {answer : List Document} (hle : t ≤ now)
    (hserved : EachStep step Served mongo (Traffic.tick now updatedAt answer).mongoEvents) :
    InStep now logs (run step memory (Traffic.tick now updatedAt answer).memoryEvents)
      (run step mongo (Traffic.tick now updatedAt answer).mongoEvents) := by
  obtain ⟨hbucket, hnow⟩ : timeBucket (timeBucket now) = timeBucket now ∧ timeBucket now ≤ now := by
    simp only [timeBucket]
    omega
  rcases h.run_tick hroom hle hserved with ⟨hmemory, hmongo⟩ | ⟨document, hminute, hmemory, hmongo⟩
  all_goals
    rw [hmemory, hmongo]
    constructor
    case memoryMode => exact h.memoryMode
    case mongoMode =>
      obtain ⟨henabled, hfallback, hconnected, -, hinserting⟩ := h.mongoMode
      exact ⟨henabled, hfallback, hconnected, rfl, hinserting⟩
    case requestLogs => exact h.requestLogs
    case memoryLogs => exact h.memoryLogs
    case sorted => exact h.sorted
    case past => exact fun l hl => (h.past l hl).trans hle
  case inl.aggregates => exact h.aggregates
  case inl.minutes => exact h.minutes
  case inl.whole => exact h.whole
  case inl.elapsed => exact fun a ha => (h.elapsed a ha).trans hle
  all_goals
    have hlast : ∀ a ∈ mongo.analyticsAggregates, a.timeBucket ≤ document.timeBucket := by
      intro a ha
      rw [hminute, ← h.whole a ha]
      exact Ledger.timeBucket_mono ((h.elapsed a ha).trans hle)
    obtain ⟨hminutes, hmem⟩ := buckets_upsert h.minutes hlast
  case inr.aggregates =>
    rw [h.aggregates]
    exact upsertCapped_rtake h.minutes hlast
  case inr.minutes => exact hminutes
  case inr.whole =>
    intro a ha
    rcases hmem a ha with ha | rfl
    · exact h.whole a ha
    · rw [hminute, hbucket]
  case inr.elapsed =>
    intro a ha
    rcases hmem a ha with ha | rfl
    · exact (h.elapsed a ha).trans hle
    · exact hminute.le.trans hnow

theorem hasRoom_append {logs' : List BackendLog} (h : HasRoom (logs ++ logs')) :
    HasRoom logs := by
  intro t
  have hcount := h t
  rw [List.countP_append] at hcount
  omega

/-- The two modes stay in step. -/
theorem InStep.run_traffic {es : List Traffic} (h : InStep t logs memory mongo)
    (hclock : (es.map Traffic.time).Pairwise (· ≤ ·)) (hstart : ∀ e ∈ es, t ≤ e.time)
    (hroom : HasRoom (logs ++ logsOf es))
    (hserved : EachStep step Served mongo (es.flatMap Traffic.mongoEvents))
    {now : Int} (hle : t ≤ now) (hnow : ∀ e ∈ es, e.time ≤ now) :
    ∃ t' ≤ now, InStep t' (logs ++ logsOf es)
      (run step memory (es.flatMap Traffic.memoryEvents))
      (run step mongo (es.flatMap Traffic.mongoEvents)) := by
  induction es generalizing t logs memory mongo with
  | nil => exact ⟨t, hle, by simpa [logsOf] using h⟩
  | cons e es ih =>
      rw [List.map_cons, List.pairwise_cons] at hclock
      have hlater : ∀ e' ∈ es, e.time ≤ e'.time :=
        fun e' he' => hclock.1 _ (List.mem_map_of_mem he')
      have htime : t ≤ e.time := hstart e List.mem_cons_self
      rw [List.flatMap_cons, eachStep_append] at hserved
      rw [List.flatMap_cons, List.flatMap_cons, run_append, run_append]
      have hrest := fun e' he' => hnow e' (List.mem_cons_of_mem e he')
      cases e with
      | log entry =>
          have hlogs : logs ++ logsOf (.log entry :: es) = logs ++ [entry] ++ logsOf es := by
            simp [logsOf]
          rw [hlogs] at hroom ⊢
          exact ih (h.log htime) hclock.2 hlater hroom hserved.2 (hnow _ List.mem_cons_self) hrest
      | tick now' updatedAt answer =>
          have hlogs : logs ++ logsOf (.tick now' updatedAt answer :: es) = logs ++ logsOf es := by
            simp [logsOf]
          rw [hlogs] at hroom ⊢
          exact ih (h.tick (hasRoom_append hroom) htime hserved.1) hclock.2 hlater hroom hserved.2
            (hnow _ List.mem_cons_self) hrest

theorem Booted.inStep {start : Analytics} (h : start.Booted) (t : Int) :
    InStep t [] (start.step (.connect false)) (start.step (.connect true)) := by
  have hmemory : start.step (.connect false) = { start with useMemoryFallback := true } := by
    simp [step, h.enabled, h.connected, h.useMemoryFallback]
  have hmongo : start.step (.connect true) = { start with connected := true } := by
    simp [step, h.enabled, h.connected, h.useMemoryFallback]
  rw [hmemory, hmongo]
  constructor
  case memoryMode => exact ⟨h.enabled, rfl, h.rollup⟩
  case mongoMode => exact ⟨h.enabled, h.useMemoryFallback, rfl, h.rollup, h.inserting⟩
  case requestLogs => exact h.requestLogs
  case memoryLogs => exact h.memoryLogs
  case aggregates => simp [h.memoryAggregates, h.analyticsAggregates]
  case sorted => exact List.Pairwise.nil
  case past => simp
  case minutes => simp [h.analyticsAggregates]
  case whole => simp [h.analyticsAggregates]
  case elapsed => simp [h.analyticsAggregates]

end Steps

section Answers

variable {t now : Int} {logs : List BackendLog} {memory mongo : Analytics}

/-- A window of an hour has 60 minutes, or 61 at the full minute. -/
theorem length_hour {aggregates : List RollupDocument}
    (hminutes : (aggregates.map RollupDocument.timeBucket).Pairwise (· < ·))
    (hwhole : ∀ a ∈ aggregates, timeBucket a.timeBucket = a.timeBucket)
    (hpast : ∀ a ∈ aggregates, a.timeBucket ≤ now) (hmidway : ¬ 60000 ∣ now) :
    (aggregates.filter (fun a => now - 60 * 60 * 1000 ≤ a.timeBucket)).length ≤ 60 := by
  let kept := aggregates.filter (fun a => now - 60 * 60 * 1000 ≤ a.timeBucket)
  have hnodup : (kept.map (fun a => a.timeBucket / 60000)).Nodup := by
    have hkept : (kept.map RollupDocument.timeBucket).Pairwise (· < ·) :=
      hminutes.sublist (List.filter_sublist.map _)
    refine List.pairwise_map.mpr ((List.pairwise_map.mp hkept).imp_of_mem ?_)
    intro a b ha hb hlt heq
    have hbucket := hwhole a (List.mem_of_mem_filter ha)
    have hbucket' := hwhole b (List.mem_of_mem_filter hb)
    simp only [timeBucket] at hbucket hbucket'
    omega
  have hrange : ∀ a ∈ kept, a.timeBucket / 60000 ∈ Finset.Icc (now / 60000 - 59) (now / 60000) := by
    intro a ha
    obtain ⟨hmem, hrecent⟩ := List.mem_filter.mp ha
    have hbucket := hwhole a hmem
    have hle := hpast a hmem
    have hge := of_decide_eq_true hrecent
    simp only [timeBucket] at hbucket
    rw [Finset.mem_Icc]
    omega
  calc kept.length
    _ = (kept.map (fun a => a.timeBucket / 60000)).toFinset.card := by
        rw [List.toFinset_card_of_nodup hnodup, List.length_map]
    _ ≤ (Finset.Icc (now / 60000 - 59) (now / 60000)).card := by
        refine Finset.card_le_card (fun k hk => ?_)
        obtain ⟨a, ha, rfl⟩ := List.mem_map.mp (List.mem_toFinset.mp hk)
        exact hrange a ha
    _ = 60 := by
        rw [Int.card_Icc]
        omega

theorem InStep.realtime_eq (h : InStep t logs memory mongo) (hle : t ≤ now) (hroom : HasRoom logs)
    {answer : List Document}
    (hanswer : Evaluates (realtimePipeline (now - 5 * 60 * 1000))
      (mongo.requestLogs.map BackendLog.toDocument) answer) :
    memory.realtime now (.ok answer) = mongo.realtime now (.ok answer) := by
  obtain ⟨henabled, hfallback, -⟩ := h.memoryMode
  obtain ⟨henabled', hfallback', hconnected, -⟩ := h.mongoMode
  rw [evaluates_realtime_iff, h.requestLogs] at hanswer
  have hwindow := filter_window h.sorted (fun l hl => (h.past l hl).trans hle) hroom
    (show now - 30 * 60 * 1000 ≤ now - 5 * 60 * 1000 by omega)
  have hfigures : aggregateRealtime (now - 5 * 60 * 1000)
      (memory.memoryLogs.map BackendLog.toRequestLog) =
        aggregateRealtime (now - 5 * 60 * 1000) (logs.map BackendLog.toRequestLog) := by
    simp only [aggregateRealtime, filter_toRequestLog, h.memoryLogs, hwindow]
  simp only [realtime, isActive, henabled, hfallback, henabled', hfallback', hconnected, hfigures,
    hanswer]
  cases aggregateRealtime (now - 5 * 60 * 1000) (logs.map BackendLog.toRequestLog) <;> rfl

/-- What MongoDB answers to the query of `/historical`. -/
theorem evaluates_historical_iff {oneHourAgo : Int} {aggregates : List RollupDocument}
    {objectId : Int → Value}
    (hminutes : (aggregates.map RollupDocument.timeBucket).Pairwise (· < ·))
    {answer : List Document} :
    Evaluates (historicalQuery oneHourAgo) (aggregates.map (RollupDocument.stored objectId))
        answer ↔
      answer = (aggregates.filter (fun a => oneHourAgo ≤ a.timeBucket)).map
        (RollupDocument.stored objectId) := by
  have hget : ∀ a : RollupDocument,
      (a.stored objectId).get "timeBucket" = some (.date a.timeBucket) :=
    fun _ => rfl
  have hselect : select [.gte "timeBucket" (.date oneHourAgo)]
      (aggregates.map (RollupDocument.stored objectId)) =
        (aggregates.filter (fun a => oneHourAgo ≤ a.timeBucket)).map
          (RollupDocument.stored objectId) := by
    rw [select, List.filter_map]
    congr 1
    refine List.filter_congr (fun a _ => ?_)
    rw [Function.comp_apply, List.all_cons, List.all_nil, Bool.and_true,
      Condition.holds_gte_date (hget a)]
  rw [historicalQuery, evaluates_matching_iff, hselect]
  refine evaluates_sort_iff ?_
  have hkept : ((aggregates.filter (fun a => oneHourAgo ≤ a.timeBucket)).map
      RollupDocument.timeBucket).Pairwise (· < ·) :=
    hminutes.sublist (List.filter_sublist.map _)
  refine List.pairwise_map.mpr ((List.pairwise_map.mp hkept).imp (fun hlt => ?_))
  exact decide_eq_true hlt

theorem InStep.historical_eq (h : InStep t logs memory mongo) (hle : t ≤ now)
    {objectId : Int → Value} {answer : List Document}
    (hanswer : Evaluates (historicalQuery (now - 60 * 60 * 1000))
      (mongo.analyticsAggregates.map (RollupDocument.stored objectId)) answer) :
    mongo.historical now (.ok answer) = .historical true answer ∧
      memory.historical now (.ok answer) =
        .historical true ((answer.rtake 60).map withoutId) ∧
      (¬ 60000 ∣ now → answer.rtake 60 = answer) := by
  obtain ⟨henabled, hfallback, -⟩ := h.memoryMode
  obtain ⟨henabled', hfallback', hconnected, -⟩ := h.mongoMode
  rw [evaluates_historical_iff h.minutes] at hanswer
  let recent : RollupDocument → Bool := fun a => now - 60 * 60 * 1000 ≤ a.timeBucket
  have hordered : mongo.analyticsAggregates.Pairwise
      (fun a a' => a.timeBucket < a'.timeBucket) := List.pairwise_map.mp h.minutes
  have hkept : (mongo.analyticsAggregates.rtake 60).filter recent =
      (mongo.analyticsAggregates.filter recent).rtake 60 := by
    have hshort : ((mongo.analyticsAggregates.rtake 60).filter recent).length ≤ 60 :=
      List.filter_sublist.length_le.trans (length_rtake_le _ _)
    rw [← rtake_of_length_le hshort]
    refine rtake_filter_rtake (hordered.imp (fun hlt hrecent => ?_)) 60
    exact decide_eq_true ((of_decide_eq_true hrecent).trans hlt.le)
  have hsorted : ((mongo.analyticsAggregates.rtake 60).filter recent).insertionSort
      (fun a b => a.timeBucket ≤ b.timeBucket) =
        (mongo.analyticsAggregates.filter recent).rtake 60 := by
    rw [hkept]
    refine List.Pairwise.insertionSort_eq ?_
    exact ((hordered.filter recent).sublist (List.drop_sublist _ _)).imp (fun hlt => hlt.le)
  refine ⟨by simp [historical, isActive, henabled', hfallback', hconnected], ?_, ?_⟩
  · have hdocuments : (answer.rtake 60).map withoutId =
        ((mongo.analyticsAggregates.filter recent).rtake 60).map RollupDocument.toDocument := by
      have hfields : ∀ docs : List RollupDocument,
          (docs.map (RollupDocument.stored objectId)).map withoutId =
            docs.map RollupDocument.toDocument := by
        intro docs
        rw [List.map_map]
        exact List.map_congr_left (fun a _ => withoutId_stored objectId a)
      rw [hanswer, List.rtake, List.length_map, List.rtake, ← List.map_drop, hfields]
    rw [hdocuments, ← hsorted, ← h.aggregates]
    simp [historical, isActive, henabled, hfallback, recent]
  · intro hmidway
    refine rtake_of_length_le ?_
    rw [hanswer, List.length_map]
    exact length_hour h.minutes h.whole (fun a ha => (h.elapsed a ha).trans hle) hmidway

/-- The splits are those of the logs in the window. -/
theorem aggregateBackends_congr {halfHourAgo : Int} {logs' : List BackendLog}
    (hwindow : logWindow halfHourAgo logs = logWindow halfHourAgo logs') :
    aggregateBackends halfHourAgo logs = aggregateBackends halfHourAgo logs' := by
  simp only [aggregateBackends, backendEntries_logs, hwindow]

theorem InStep.backends_eq (h : InStep t logs memory mongo) (hle : t ≤ now) (hroom : HasRoom logs)
    (hnames : ∀ log ∈ logs, ∀ bid, log.backendId = some bid → bid ∉ Strategy.inheritedMembers)
    {answer : List Document}
    (hanswer : Evaluates (backendsPipeline (now - 30 * 60 * 1000))
      (mongo.requestLogs.map BackendLog.toDocument) answer) :
    ∃ splits, mongo.backends now (.ok answer) = .backends true answer ∧
      memory.backends now (.ok answer) = .backends true (splits.map BackendSplit.toDocument) ∧
      BackendSplit.SameSplits (logWindow (now - 30 * 60 * 1000) mongo.requestLogs) answer
        splits := by
  obtain ⟨henabled, hfallback, -⟩ := h.memoryMode
  obtain ⟨henabled', hfallback', hconnected, -⟩ := h.mongoMode
  have hwindow : logWindow (now - 30 * 60 * 1000) memory.memoryLogs =
      logWindow (now - 30 * 60 * 1000) logs := by
    rw [logWindow, logWindow, h.memoryLogs]
    exact filter_window h.sorted (fun l hl => (h.past l hl).trans hle) hroom le_rfl
  rw [h.requestLogs] at hanswer ⊢
  refine ⟨aggregateBackends (now - 30 * 60 * 1000) memory.memoryLogs, ?_, ?_, ?_⟩
  · simp [backends, isActive, henabled', hfallback', hconnected]
  · simp [backends, isActive, henabled, hfallback]
  · rw [aggregateBackends_congr hwindow]
    exact backends_agree
      (fun log hlog => hnames log (List.mem_of_mem_filter hlog)) hanswer

end Answers

/-- In memory the routes answer as with MongoDB, after any traffic and rollups. -/
theorem modes_agree {start : Analytics} (hstart : start.Booted) {es : List Traffic} {now : Int}
    (hclock : (es.map Traffic.time).Pairwise (· ≤ ·)) (hnow : ∀ e ∈ es, e.time ≤ now)
    (hroom : HasRoom (logsOf es))
    (hnames : ∀ log ∈ logsOf es, ∀ bid, log.backendId = some bid →
      bid ∉ Strategy.inheritedMembers)
    (hserved : EachStep step Served (start.step (.connect true))
      (es.flatMap Traffic.mongoEvents)) :
    AnswersAlike now (inMemory start es) (onMongo start es) := by
  -- The run starts with its first event.
  obtain ⟨t, ht, hfrom⟩ : ∃ t ≤ now, ∀ e ∈ es, t ≤ e.time := by
    cases es with
    | nil => exact ⟨now, le_rfl, by simp⟩
    | cons e es =>
        rw [List.map_cons, List.pairwise_cons] at hclock
        refine ⟨e.time, hnow e List.mem_cons_self, List.forall_mem_cons.mpr ⟨le_rfl, ?_⟩⟩
        exact fun e' he' => hclock.1 _ (List.mem_map_of_mem he')
  obtain ⟨t', hle, hstep⟩ :=
    (hstart.inStep t).run_traffic hclock hfrom hroom hserved ht hnow
  rw [List.nil_append] at hstep
  exact ⟨fun _ => hstep.realtime_eq hle hroom, fun _ _ => hstep.historical_eq hle,
    fun _ => hstep.backends_eq hle hroom hnames⟩

/-- The gateway right after start-up. -/
def sampleAnalytics : Analytics where
  enabled := true
  useMemoryFallback := false
  connected := false
  memoryLogs := []
  memoryAggregates := []
  requestLogs := []
  analyticsAggregates := []
  inserting := []
  rollup := none

/-- A log of a backend. -/
def sampleLog (timestamp : Int) : BackendLog :=
  { timestamp := timestamp, statusCode := 200, latencyMs := 12, cacheStatus := none
    payloadSizeBytes := 10, backendId := some "backend-1"
    backendUrl := some "http://localhost:4001" }

/-- Two logs of a minute and a rollup. -/
def sampleTraffic : List Traffic :=
  [.log (sampleLog 1000), .log (sampleLog 2000),
    .tick 5000 5001 [(LogStats.ofLogs [(sampleLog 1000).toRequestLog,
      (sampleLog 2000).toRequestLog]).toDocument]]

theorem modes_agree_sample :
    AnswersAlike 65000 (inMemory sampleAnalytics sampleTraffic)
      (onMongo sampleAnalytics sampleTraffic) := by
  have hboot : sampleAnalytics.Booted := ⟨rfl, rfl, rfl, rfl, rfl, rfl, rfl, rfl, rfl⟩
  refine modes_agree hboot (by decide) (by decide) ?_ (by decide) ?_
  · intro t
    exact List.countP_le_length.trans (by decide)
  · refine ⟨trivial, trivial, trivial, trivial, trivial, ?_, trivial, trivial⟩
    intro bucket hbucket
    obtain rfl : 0 = bucket := by
      have hstate : (some (.aggregating 0) : Option RollupStep) = some (.aggregating bucket) :=
        hbucket
      simpa using hstate
    exact evaluates_rollup_iff.mpr rfl

end Analytics

end SentinelADC
