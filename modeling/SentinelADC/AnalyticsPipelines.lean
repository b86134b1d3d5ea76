import SentinelADC.BackendSplit
import SentinelADC.Lib.Aggregation
import Mathlib.Algebra.BigOperators.Ring.Finset

/-!
# Analytics pipelines

The queries of `analytics/analyticsRoutes.js` and `analytics/aggregationWorker.js`.
Each has two forms, a loop over the logs in memory and a pipeline for MongoDB.
On one collection of logs the two forms come to the same figures, with one
difference: MongoDB rounds the average latency of a backend to the even digit
from half way, and the code rounds up.  Latencies are added exactly here; in
doubles the order of the summation can move an average by one unit of its last
digit.
-/

namespace SentinelADC

open Aggregation KeyedList

/-- What is stored of a log, without the `_id` and the fields that no query reads. -/
def BackendLog.toDocument (log : BackendLog) : Document :=
  [("timestamp", .date log.timestamp), ("statusCode", .num log.statusCode),
    ("latencyMs", .num log.latencyMs), ("backendId", Value.ofText log.backendId),
    ("backendUrl", Value.ofText log.backendUrl),
    ("cacheStatus", Value.ofText log.cacheStatus),
    ("payloadSizeBytes", .num log.payloadSizeBytes)]

section Pipelines

/-- `{ $cond: [test, 1, 0] }`. -/
def countIf (test : Expr) : Accumulator :=
  .sum (.cond test (.const (.num 1)) (.const (.num 0)))

/-- `{ $lt: ['$statusCode', 400] }`. -/
def succeeded : Expr :=
  .lt (.field "statusCode") (.const (.num 400))

/-- `{ $gte: ['$statusCode', 400] }`. -/
def failed : Expr :=
  .gte (.field "statusCode") (.const (.num 400))

/-- `{ $eq: ['$cacheStatus', 'HIT'] }`. -/
def cacheHit : Expr :=
  .eq (.field "cacheStatus") (.const (.str "HIT"))

/-- The `$group` of `runRollup`. -/
def rollupFields : List (String × Accumulator) :=
  [("requestCount", .sum (.const (.num 1))), ("totalLatency", .sum (.field "latencyMs")),
    ("minLatency", .min (.field "latencyMs")), ("maxLatency", .max (.field "latencyMs")),
    ("successCount", countIf succeeded), ("errorCount", countIf failed),
    ("cacheHitCount", countIf cacheHit), ("bytesTransferred", .sum (.field "payloadSizeBytes"))]

/-- The pipeline of `runRollup`. -/
def rollupPipeline (windowStart windowEnd : Int) : List PipelineStage :=
  [.matching [.gte "timestamp" (.date windowStart), .lt "timestamp" (.date windowEnd)],
    .group (.const .null) rollupFields]

/-- The `$group` of `/realtime`. -/
def realtimeFields : List (String × Accumulator) :=
  [("totalRequests", .sum (.const (.num 1))), ("totalLatency", .sum (.field "latencyMs")),
    ("successCount", countIf succeeded), ("cacheHitCount", countIf cacheHit)]

/-- The pipeline of `/realtime`. -/
def realtimePipeline (fiveMinutesAgo : Int) : List PipelineStage :=
  [.matching [.gte "timestamp" (.date fiveMinutesAgo)], .group (.const .null) realtimeFields]

/-- The `$group` of `/backends`. -/
def backendFields : List (String × Accumulator) :=
  [("backendUrl", .first (.field "backendUrl")), ("requestCount", .sum (.const (.num 1))),
    ("totalLatency", .sum (.field "latencyMs")), ("errorCount", countIf failed),
    ("cacheHitCount", countIf cacheHit)]

/-- The `$project` of `/backends`. -/
def backendProjection : List Projection :=
  [.compute "backendId" (.field "_id"), .keep "backendUrl", .keep "requestCount",
    .compute "averageLatencyMs"
      (.round (.divide (.field "totalLatency") (.field "requestCount")) 2),
    .keep "errorCount", .keep "cacheHitCount"]

/-- The pipeline of `/backends`. -/
def backendsPipeline (halfHourAgo : Int) : List PipelineStage :=
  [.matching [.gte "timestamp" (.date halfHourAgo), .ne "backendId" .null],
    .group (.field "backendId") backendFields, .project backendProjection]

/-- The query of `/historical`, a `find` with a `sort`. -/
def historicalQuery (oneHourAgo : Int) : List PipelineStage :=
  [.matching [.gte "timeBucket" (.date oneHourAgo)], .sort "timeBucket"]

end Pipelines

/-- The document that the `$group` of `runRollup` has for these figures. -/
def LogStats.toDocument (stats : LogStats) : Document :=
  [("_id", .null), ("requestCount", .num stats.requestCount),
    ("totalLatency", .num stats.totalLatency), ("minLatency", Value.ofNumber stats.minLatency),
    ("maxLatency", Value.ofNumber stats.maxLatency), ("successCount", .num stats.successCount),
    ("errorCount", .num stats.errorCount), ("cacheHitCount", .num stats.cacheHitCount),
    ("bytesTransferred", .num stats.bytesTransferred)]

/-- The result of `aggregateRealtime`. -/
structure RealtimeStats where
  totalRequests : Nat
  totalLatency : Rat
  successCount : Nat
  cacheHitCount : Nat
deriving DecidableEq, Repr

namespace RealtimeStats

/-- One iteration of the loop of `aggregateRealtime`. -/
def add (stats : RealtimeStats) (log : RequestLog) : RealtimeStats where
  totalRequests := stats.totalRequests
  totalLatency := stats.totalLatency + log.latencyMs
  successCount := if log.statusCode < 400 then stats.successCount + 1 else stats.successCount
  cacheHitCount :=
    if log.cacheStatus = some "HIT" then stats.cacheHitCount + 1 else stats.cacheHitCount

/-- The counters after the loop. -/
def ofLogs (logs : List RequestLog) : RealtimeStats :=
  logs.foldl add ⟨logs.length, 0, 0, 0⟩

/-- The document that the `$group` of `/realtime` has for these figures. -/
def toDocument (stats : RealtimeStats) : Document :=
  [("_id", .null), ("totalRequests", .num stats.totalRequests),
    ("totalLatency", .num stats.totalLatency), ("successCount", .num stats.successCount),
    ("cacheHitCount", .num stats.cacheHitCount)]

end RealtimeStats

/-- `aggregateLogs` on a list of logs. -/
def aggregateLogs (windowStart windowEnd : Int) (memoryLogs : List RequestLog) :
    Option LogStats :=
  let logs := memoryLogs.filter (fun l => windowStart ≤ l.timestamp ∧ l.timestamp < windowEnd)
  if logs = [] then none else some (LogStats.ofLogs logs)

/-- `aggregateRealtime`, which answers with one result or none. -/
def aggregateRealtime (fiveMinutesAgo : Int) (memoryLogs : List RequestLog) :
    Option RealtimeStats :=
  let logs := memoryLogs.filter (fun l => fiveMinutesAgo ≤ l.timestamp)
  if logs = [] then none else some (RealtimeStats.ofLogs logs)

section Documents

variable (log : BackendLog)

@[simp] theorem BackendLog.get_timestamp :
    log.toDocument.get "timestamp" = some (.date log.timestamp) := by
  rfl

@[simp] theorem BackendLog.get_statusCode :
    log.toDocument.get "statusCode" = some (.num log.statusCode) := by
  rfl

@[simp] theorem BackendLog.get_latencyMs :
    log.toDocument.get "latencyMs" = some (.num log.latencyMs) := by
  rfl

@[simp] theorem BackendLog.get_backendId :
    log.toDocument.get "backendId" = some (Value.ofText log.backendId) := by
  rfl

@[simp] theorem BackendLog.get_backendUrl :
    log.toDocument.get "backendUrl" = some (Value.ofText log.backendUrl) := by
  rfl

@[simp] theorem BackendLog.get_cacheStatus :
    log.toDocument.get "cacheStatus" = some (Value.ofText log.cacheStatus) := by
  rfl

@[simp] theorem BackendLog.get_payloadSizeBytes :
    log.toDocument.get "payloadSizeBytes" = some (.num log.payloadSizeBytes) := by
  rfl

/-- The tests of the pipelines are those of the loops. -/
theorem holds_succeeded :
    Expr.holds (succeeded.eval log.toDocument) = decide (log.statusCode < 400) := by
  simp [succeeded, Expr.eval, below, Value.lt]

theorem holds_failed :
    Expr.holds (failed.eval log.toDocument) = log.failed := by
  rw [Bool.eq_iff_iff]
  simp [failed, Expr.eval, below, Value.lt, BackendLog.failed]

theorem holds_cacheHit :
    Expr.holds (cacheHit.eval log.toDocument) = log.cacheHit := by
  simp [cacheHit, Expr.eval, BackendLog.cacheHit, Value.ofText_eq_str]

end Documents

section Counters

/-- The counters of the loop, in closed form. -/
theorem LogStats.foldl_counters (logs : List RequestLog) (stats : LogStats) :
    (logs.foldl add stats).totalLatency = stats.totalLatency + (logs.map (·.latencyMs)).sum ∧
      (logs.foldl add stats).successCount =
        stats.successCount + logs.countP (fun log => log.statusCode < 400) ∧
      (logs.foldl add stats).errorCount =
        stats.errorCount + logs.countP (fun log => 400 ≤ log.statusCode) ∧
      (logs.foldl add stats).cacheHitCount =
        stats.cacheHitCount + logs.countP (fun log => log.cacheStatus = some "HIT") := by
  induction logs generalizing stats with
  | nil => simp
  | cons log logs ih =>
      obtain ⟨hlatency, hsuccess, herror, hhit⟩ := ih (stats.add log)
      rw [List.foldl_cons, hlatency, hsuccess, herror, hhit]
      simp only [add, List.map_cons, List.sum_cons, List.countP_cons, decide_eq_true_eq]
      refine ⟨by ring, ?_, ?_, ?_⟩
      · split_ifs <;> omega
      · split_ifs <;> omega
      · split_ifs <;> omega

theorem RealtimeStats.foldl_add (logs : List RequestLog) (stats : RealtimeStats) :
    logs.foldl add stats =
      ⟨stats.totalRequests, stats.totalLatency + (logs.map (·.latencyMs)).sum,
        stats.successCount + logs.countP (fun log => log.statusCode < 400),
        stats.cacheHitCount + logs.countP (fun log => log.cacheStatus = some "HIT")⟩ := by
  induction logs generalizing stats with
  | nil => simp
  | cons log logs ih =>
      rw [List.foldl_cons, ih]
      simp only [add, List.map_cons, List.sum_cons, List.countP_cons, decide_eq_true_eq,
        RealtimeStats.mk.injEq, true_and]
      refine ⟨by ring, ?_, ?_⟩
      · split_ifs <;> omega
      · split_ifs <;> omega

/-- The loops do not depend on the order of the logs. -/
theorem LogStats.ofLogs_perm {logs logs' : List RequestLog} (h : logs.Perm logs') :
    ofLogs logs = ofLogs logs' := by
  refine h.foldl_eq' (fun x _ y _ stats => ?_) zero
  simp only [add, mk.injEq, true_and]
  refine ⟨add_right_comm _ _ _, ?_, ?_, ?_, ?_, ?_, add_right_comm _ _ _⟩
  · cases stats.minLatency with
    | none => simp only [← min_def_lt, min_comm]
    | some least => simp only [← min_def_lt, min_left_comm]
  · cases stats.maxLatency with
    | none => simp only [← max_def_lt, max_comm]
    | some most => simp only [← max_def_lt, max_right_comm]
  · split_ifs <;> rfl
  · split_ifs <;> rfl
  · split_ifs <;> rfl

theorem RealtimeStats.ofLogs_perm {logs logs' : List RequestLog} (h : logs.Perm logs') :
    ofLogs logs = ofLogs logs' := by
  rw [ofLogs, ofLogs, foldl_add, foldl_add, h.length_eq, (h.map _).sum_eq, h.countP_eq,
    h.countP_eq]

end Counters

section Summaries

variable {logs : List BackendLog} {out : List Document} {windowStart windowEnd : Int}

/-- The accumulators of the pipelines, over stored logs. -/
theorem accumulate_ones (logs : List BackendLog) :
    (Accumulator.sum (.const (.num 1))).accumulate (logs.map BackendLog.toDocument) =
      .num logs.length := by
  rw [accumulate_sum_map (w := fun _ => 1) (fun _ => rfl)]
  simp

theorem accumulate_latency (logs : List BackendLog) :
    (Accumulator.sum (.field "latencyMs")).accumulate (logs.map BackendLog.toDocument) =
      .num (logs.map (·.latencyMs)).sum :=
  accumulate_sum_map BackendLog.get_latencyMs logs

theorem accumulate_payloadSize (logs : List BackendLog) :
    (Accumulator.sum (.field "payloadSizeBytes")).accumulate (logs.map BackendLog.toDocument) =
      .num ((logs.map (·.payloadSizeBytes)).sum : Int) := by
  rw [accumulate_sum_map BackendLog.get_payloadSizeBytes, Int.cast_list_sum, List.map_map]
  rfl

theorem accumulate_count {test : Expr} {p : BackendLog → Bool}
    (htest : ∀ log : BackendLog, Expr.holds (test.eval log.toDocument) = p log)
    (logs : List BackendLog) :
    (countIf test).accumulate (logs.map BackendLog.toDocument) = .num (logs.countP p : Nat) := by
  rw [countIf, accumulate_countIf, List.countP_map]
  congr 3
  exact funext htest

theorem accumulate_minLatency (logs : List BackendLog) :
    (Accumulator.min (.field "latencyMs")).accumulate (logs.map BackendLog.toDocument) =
      Value.ofNumber (LogStats.ofLogs (logs.map BackendLog.toRequestLog)).minLatency := by
  induction logs using List.reverseRecOn with
  | nil => rfl
  | append_singleton logs log ih =>
      simp only [Accumulator.accumulate, LogStats.ofLogs, List.map_append, List.map_cons,
        List.map_nil, List.foldl_append, List.foldl_cons, List.foldl_nil] at ih ⊢
      rw [ih, LogStats.add]
      cases (List.foldl LogStats.add LogStats.zero
          (logs.map BackendLog.toRequestLog)).minLatency with
      | none => rfl
      | some least =>
          simp [Value.ofNumber, Accumulator.better, Expr.eval, Value.lt]
          split_ifs <;> rfl

theorem accumulate_maxLatency (logs : List BackendLog) :
    (Accumulator.max (.field "latencyMs")).accumulate (logs.map BackendLog.toDocument) =
      Value.ofNumber (LogStats.ofLogs (logs.map BackendLog.toRequestLog)).maxLatency := by
  induction logs using List.reverseRecOn with
  | nil => rfl
  | append_singleton logs log ih =>
      simp only [Accumulator.accumulate, LogStats.ofLogs, List.map_append, List.map_cons,
        List.map_nil, List.foldl_append, List.foldl_cons, List.foldl_nil] at ih ⊢
      rw [ih, LogStats.add]
      cases (List.foldl LogStats.add LogStats.zero
          (logs.map BackendLog.toRequestLog)).maxLatency with
      | none => rfl
      | some most =>
          simp [Value.ofNumber, Accumulator.better, Expr.eval, Value.lt]
          split_ifs <;> rfl

/-- One group holds the figures of the loop. -/
theorem rollup_document (logs : List BackendLog) :
    groupDocument rollupFields .null (logs.map BackendLog.toDocument) =
      (LogStats.ofLogs (logs.map BackendLog.toRequestLog)).toDocument := by
  obtain ⟨hlatency, hsuccess, herror, hhit⟩ :=
    LogStats.foldl_counters (logs.map BackendLog.toRequestLog) LogStats.zero
  rw [← LogStats.ofLogs] at hlatency hsuccess herror hhit
  simp only [groupDocument, rollupFields, List.map_cons, List.map_nil, accumulate_ones,
    accumulate_latency, accumulate_payloadSize, accumulate_minLatency, accumulate_maxLatency,
    accumulate_count holds_succeeded, accumulate_count holds_failed,
    accumulate_count holds_cacheHit, LogStats.toDocument, hlatency, hsuccess, herror, hhit,
    LogStats.requestCount_ofLogs, LogStats.bytesTransferred_ofLogs, List.length_map, List.map_map,
    List.countP_map, LogStats.zero, zero_add]
  rfl

theorem realtime_document (logs : List BackendLog) :
    groupDocument realtimeFields .null (logs.map BackendLog.toDocument) =
      (RealtimeStats.ofLogs (logs.map BackendLog.toRequestLog)).toDocument := by
  simp only [groupDocument, realtimeFields, List.map_cons, List.map_nil, accumulate_ones,
    accumulate_latency, accumulate_count holds_succeeded, accumulate_count holds_cacheHit,
    RealtimeStats.toDocument, RealtimeStats.ofLogs, RealtimeStats.foldl_add, List.length_map,
    List.map_map, List.countP_map, zero_add]
  rfl

/-- A group of everything, over the stored logs of a window, holds the figures that a loop has
for them in any order. -/
theorem evaluates_window_iff {conditions : List Condition}
    {fields : List (String × Accumulator)} (window : BackendLog → Bool)
    (figures : List RequestLog → Document)
    (hwindow : ∀ log : BackendLog,
      conditions.all (fun c => c.holds log.toDocument) = window log)
    (hfigures : ∀ logs : List BackendLog,
      groupDocument fields .null (logs.map BackendLog.toDocument) =
        figures (logs.map BackendLog.toRequestLog))
    (hperm : ∀ logs logs' : List RequestLog, logs.Perm logs' → figures logs = figures logs') :
    Evaluates [.matching conditions, .group (.const .null) fields]
        (logs.map BackendLog.toDocument) out ↔
      out = if logs.filter window = [] then []
        else [figures ((logs.filter window).map BackendLog.toRequestLog)] := by
  have hselect : select conditions (logs.map BackendLog.toDocument) =
      (logs.filter window).map BackendLog.toDocument := by
    rw [select, List.filter_map]
    congr 2
    exact funext hwindow
  rw [evaluates_matching_iff, evaluates_groupAll_iff, hselect, ne_eq, List.map_eq_nil_iff]
  by_cases hempty : logs.filter window = []
  · simp [hempty]
  · simp only [hempty, false_and, not_false_eq_true, true_and, false_or, if_false]
    constructor
    · rintro ⟨scan, hscan, rfl⟩
      obtain ⟨logs', hlogs', rfl⟩ := exists_map_of_perm hscan
      rw [hfigures, hperm _ _ (hlogs'.map _)]
    · rintro rfl
      exact ⟨_, List.Perm.refl _, by rw [hfigures]⟩

theorem holds_ne_backendId (log : BackendLog) :
    (Condition.ne "backendId" .null).holds log.toDocument = decide (log.backendId ≠ none) := by
  simp only [Condition.holds, BackendLog.get_backendId, Option.getD_some, ne_eq,
    Value.ofText_eq_null]

/-- What MongoDB answers to the pipeline of a rollup. -/
theorem evaluates_rollup_iff :
    Evaluates (rollupPipeline windowStart windowEnd) (logs.map BackendLog.toDocument) out ↔
      out = (aggregateLogs windowStart windowEnd
        (logs.map BackendLog.toRequestLog)).toList.map LogStats.toDocument := by
  rw [rollupPipeline, evaluates_window_iff
    (fun l => windowStart ≤ l.timestamp ∧ l.timestamp < windowEnd)
    (fun logs => (LogStats.ofLogs logs).toDocument)
    (fun log => by
      rw [List.all_cons, List.all_cons, List.all_nil, Bool.and_true,
        Condition.holds_gte_date log.get_timestamp, Condition.holds_lt_date log.get_timestamp,
        Bool.decide_and]) rollup_document
    (fun _ _ h => congrArg LogStats.toDocument (LogStats.ofLogs_perm h))]
  simp only [aggregateLogs, List.filter_map, List.map_eq_nil_iff, Function.comp_def]
  split_ifs <;> rfl

/-- What MongoDB answers to the pipeline of `/realtime`. -/
theorem evaluates_realtime_iff {fiveMinutesAgo : Int} :
    Evaluates (realtimePipeline fiveMinutesAgo) (logs.map BackendLog.toDocument) out ↔
      out = (aggregateRealtime fiveMinutesAgo
        (logs.map BackendLog.toRequestLog)).toList.map RealtimeStats.toDocument := by
  rw [realtimePipeline, evaluates_window_iff (fun l => fiveMinutesAgo ≤ l.timestamp)
    (fun logs => (RealtimeStats.ofLogs logs).toDocument)
    (fun log => by
      rw [List.all_cons, List.all_nil, Bool.and_true,
        Condition.holds_gte_date log.get_timestamp]) realtime_document
    (fun _ _ h => congrArg RealtimeStats.toDocument (RealtimeStats.ofLogs_perm h))]
  simp only [aggregateRealtime, List.filter_map, List.map_eq_nil_iff, Function.comp_def]
  split_ifs <;> rfl

end Summaries

/-- The logs of one backend. -/
def ofBackend (bid : String) (logs : List BackendLog) : List BackendLog :=
  logs.filter (fun l => l.backendId = some bid)

namespace BackendSplit

/-- The split of a backend, from its logs. -/
def ofLogs (rounding : Rat → Rat) (bid : String) (logs : List BackendLog) : BackendSplit where
  backendId := bid
  backendUrl := logs.head?.bind BackendLog.backendUrl
  requestCount := logs.length
  averageLatencyMs := rounding ((logs.map (·.latencyMs)).sum / logs.length)
  errorCount := logs.countP BackendLog.failed
  cacheHitCount := logs.countP BackendLog.cacheHit

/-- Two splits of a backend's logs are the same, up to the choice of an address among those
of its logs and to the direction in which an average is rounded from half way. -/
structure Agrees (window : List BackendLog) (mongo memory : BackendSplit) : Prop where
  backendId : mongo.backendId = memory.backendId
  mongoUrl : ∃ log ∈ window,
    log.backendId = some mongo.backendId ∧ log.backendUrl = mongo.backendUrl
  memoryUrl : ∃ log ∈ window,
    log.backendId = some memory.backendId ∧ log.backendUrl = memory.backendUrl
  requestCount : mongo.requestCount = memory.requestCount
  average : memory.averageLatencyMs = mongo.averageLatencyMs ∨
    memory.averageLatencyMs = mongo.averageLatencyMs + 1 / 100
  errorCount : mongo.errorCount = memory.errorCount
  cacheHitCount : mongo.cacheHitCount = memory.cacheHitCount

/-- The document of a split. -/
def toDocument (split : BackendSplit) : Document :=
  [("backendId", .str split.backendId), ("backendUrl", Value.ofText split.backendUrl),
    ("requestCount", .num split.requestCount), ("averageLatencyMs", .num split.averageLatencyMs),
    ("errorCount", .num split.errorCount), ("cacheHitCount", .num split.cacheHitCount)]

/-- An answer of MongoDB and a result of the loop list the same splits, in some order. -/
def SameSplits (window : List BackendLog) (mongo : List Document) (memory : List BackendSplit) :
    Prop :=
  ∃ rows : List BackendSplit,
    mongo.Perm (rows.map (fun row => ("_id", .str row.backendId) :: row.toDocument)) ∧
      List.Forall₂ (Agrees window) rows memory

end BackendSplit

section Splits

variable {halfHourAgo : Int} {logs : List BackendLog} {out : List Document} {bid : String}

/-- A group of the loop, from its logs. -/
theorem foldl_backendGroup (logs : List BackendLog) (g : BackendGroup) :
    logs.foldl BackendGroup.add g =
      ⟨g.backendId, g.backendUrl, g.requestCount + logs.length,
        g.totalLatency + (logs.map (·.latencyMs)).sum,
        g.errorCount + logs.countP BackendLog.failed,
        g.cacheHitCount + logs.countP BackendLog.cacheHit⟩ := by
  induction logs generalizing g with
  | nil => simp
  | cons log logs ih =>
      rw [List.foldl_cons, ih]
      simp only [BackendGroup.add, BackendLog.failed, BackendLog.cacheHit, List.length_cons,
        List.map_cons, List.sum_cons, List.countP_cons, decide_eq_true_eq, BackendGroup.mk.injEq,
        true_and]
      refine ⟨by omega, by ring, ?_, ?_⟩
      · split_ifs <;> omega
      · split_ifs <;> omega

theorem filter_backendEntries (bid : String) (window : List BackendLog) :
    (backendEntries window).filter (fun entry => BackendGroup.byBackend.id entry = bid) =
      (ofBackend bid window).map (Prod.mk bid) := by
  induction window with
  | nil => rfl
  | cons log window ih =>
      cases hbid : log.backendId with
      | none =>
          have hentries : backendEntries (log :: window) = backendEntries window := by
            simp [backendEntries, hbid]
          rw [hentries, ih, ofBackend, ofBackend, List.filter_cons_of_neg (by simp [hbid])]
      | some name =>
          have hentries : backendEntries (log :: window) =
              (name, log) :: backendEntries window := by
            simp [backendEntries, hbid]
          rw [hentries, ofBackend, List.filter_cons, List.filter_cons, ih]
          by_cases hname : name = bid
          · subst hname
            simp [BackendGroup.byBackend, hbid, ofBackend]
          · simp [BackendGroup.byBackend, hbid, hname, ofBackend]

/-- A group of the result, from the logs of its backend. -/
theorem split_of_mem_groups {window : List BackendLog} {g : BackendGroup}
    (hg : g ∈ BackendGroup.byBackend.groups (backendEntries window)) :
    g.split = BackendSplit.ofLogs round2 g.backendId (ofBackend g.backendId window) := by
  have hfind : findKey BackendGroup.backendId g.backendId
      (BackendGroup.byBackend.groups (backendEntries window)) = some g :=
    findKey_of_mem (Grouping.nodup_groups (G := BackendGroup.byBackend) _) hg
  have hgroup := Grouping.findKey_groups (G := BackendGroup.byBackend) g.backendId
    (backendEntries window)
  rw [filter_backendEntries] at hgroup
  have hsome := hfind.symm.trans hgroup
  cases hlogs : ofBackend g.backendId window with
  | nil => simp [hlogs] at hsome
  | cons log logs =>
      rw [hlogs, List.map_cons, List.head?_cons, Option.map_some, ← List.map_cons,
        List.foldl_map] at hsome
      have hfold : g = (log :: logs).foldl BackendGroup.add (BackendGroup.start g.backendId log) :=
        Option.some.inj hsome
      calc g.split
        _ = ((log :: logs).foldl BackendGroup.add
              (BackendGroup.start g.backendId log)).split := congrArg BackendGroup.split hfold
        _ = BackendSplit.ofLogs round2 g.backendId (log :: logs) := by
            rw [foldl_backendGroup]
            simp [BackendGroup.split, BackendGroup.start, BackendSplit.ofLogs]

/-- The result of the loop, when no backend has the name of an inherited member. -/
theorem aggregateBackends_eq
    (hnames : ∀ log ∈ logWindow halfHourAgo logs, ∀ bid, log.backendId = some bid →
      bid ∉ Strategy.inheritedMembers) :
    ∃ bids : List String, bids.Nodup ∧
      (∀ bid, bid ∈ bids ↔ ∃ log ∈ logWindow halfHourAgo logs, log.backendId = some bid) ∧
      aggregateBackends halfHourAgo logs =
        bids.map (fun bid =>
          BackendSplit.ofLogs round2 bid (ofBackend bid (logWindow halfHourAgo logs))) := by
  have hkeep : (backendEntries (logWindow halfHourAgo logs)).filter
      (fun entry => entry.1 ∉ Strategy.inheritedMembers) =
        backendEntries (logWindow halfHourAgo logs) := by
    refine List.filter_eq_self.mpr (fun entry hentry => ?_)
    obtain ⟨hlog, hbid⟩ := mem_backendEntries.mp hentry
    simpa using hnames entry.2 hlog entry.1 hbid
  have hperm : (aggregateBackends halfHourAgo logs).Perm ((BackendGroup.byBackend.groups
      ((backendEntries (logWindow halfHourAgo logs)).filter
        (fun entry => entry.1 ∉ Strategy.inheritedMembers))).map BackendGroup.split) :=
    aggregateBackends_perm
  rw [hkeep] at hperm
  have hsplits : (BackendGroup.byBackend.groups
      (backendEntries (logWindow halfHourAgo logs))).map BackendGroup.split =
      ((BackendGroup.byBackend.groups
        (backendEntries (logWindow halfHourAgo logs))).map BackendGroup.backendId).map (fun bid =>
          BackendSplit.ofLogs round2 bid (ofBackend bid (logWindow halfHourAgo logs))) := by
    rw [List.map_map]
    exact List.map_congr_left (fun g hg => split_of_mem_groups hg)
  rw [hsplits] at hperm
  obtain ⟨bids, hbids, heq⟩ := exists_map_of_perm hperm
  refine ⟨bids, ?_, ?_, heq⟩
  · exact hbids.nodup_iff.mpr (Grouping.nodup_groups (G := BackendGroup.byBackend) _)
  · intro bid
    rw [hbids.mem_iff]
    refine (BackendGroup.byBackend.mem_keys_groups _).trans ?_
    constructor
    · rintro ⟨entry, hentry, rfl⟩
      exact ⟨entry.2, mem_backendEntries.mp hentry⟩
    · rintro ⟨log, hlog⟩
      exact ⟨(bid, log), mem_backendEntries.mpr hlog, rfl⟩

theorem groupKey_toDocument (log : BackendLog) :
    groupKey (.field "backendId") log.toDocument = Value.ofText log.backendId := by
  rw [groupKey, Expr.eval, BackendLog.get_backendId, Option.getD_some]

theorem accumulate_backendUrl (logs : List BackendLog) :
    (Accumulator.first (.field "backendUrl")).accumulate (logs.map BackendLog.toDocument) =
      Value.ofText (logs.head?.bind BackendLog.backendUrl) := by
  cases logs <;> rfl

/-- A group of the pipeline, from the logs of its backend. -/
theorem split_document {group : List BackendLog} (hne : group ≠ []) (bid : String) :
    projectDocument backendProjection
        (groupDocument backendFields (.str bid) (group.map BackendLog.toDocument)) =
      ("_id", .str bid) :: (BackendSplit.ofLogs (roundEven 2) bid group).toDocument := by
  have hlength : group.length ≠ 0 := by
    rwa [ne_eq, List.length_eq_zero_iff]
  simp only [groupDocument, backendFields, List.map_cons, List.map_nil, accumulate_ones,
    accumulate_latency, accumulate_backendUrl, accumulate_count holds_failed,
    accumulate_count holds_cacheHit]
  simp [projectDocument, backendProjection, Projection.apply, Document.get, Expr.eval,
    BackendSplit.toDocument, BackendSplit.ofLogs, hlength]

/-- What MongoDB answers to the pipeline of `/backends`. -/
theorem evaluates_backends
    (h : Evaluates (backendsPipeline halfHourAgo) (logs.map BackendLog.toDocument) out) :
    ∃ (scan : List BackendLog) (bids : List String),
      (∀ bid, (ofBackend bid scan).Perm (ofBackend bid (logWindow halfHourAgo logs))) ∧
        bids.Nodup ∧
        (∀ bid, bid ∈ bids ↔ ∃ log ∈ logWindow halfHourAgo logs, log.backendId = some bid) ∧
        out = bids.map (fun bid => ("_id", .str bid) ::
          (BackendSplit.ofLogs (roundEven 2) bid (ofBackend bid scan)).toDocument) := by
  have hselect : select [.gte "timestamp" (.date halfHourAgo), .ne "backendId" .null]
      (logs.map BackendLog.toDocument) =
      ((logWindow halfHourAgo logs).filter (fun l => l.backendId ≠ none)).map
        BackendLog.toDocument := by
    have hkept : ∀ log : BackendLog,
        ([.gte "timestamp" (.date halfHourAgo), .ne "backendId" .null] : List Condition).all
          (fun c => c.holds log.toDocument) =
            (decide (halfHourAgo ≤ log.timestamp) && decide (log.backendId ≠ none)) := by
      intro log
      rw [List.all_cons, List.all_cons, List.all_nil, Bool.and_true,
        Condition.holds_gte_date log.get_timestamp, holds_ne_backendId]
    rw [select, List.filter_map, logWindow, List.filter_filter]
    congr 1
    refine List.filter_congr (fun log _ => ?_)
    rw [Function.comp_apply, hkept, Bool.and_comm]
  rw [backendsPipeline, evaluates_matching_iff, hselect] at h
  obtain ⟨docs, hdocs, between, ⟨keys, hnodup, hkeys, rfl⟩, projected, rfl, rfl⟩ := h
  obtain ⟨scan, hscan, rfl⟩ := exists_map_of_perm hdocs
  -- every key is the name of a backend
  have hnames : ∀ k ∈ keys, k ∈ Set.range Value.str := by
    intro k hk
    obtain ⟨doc, hdoc, rfl⟩ := (hkeys k).mp hk
    obtain ⟨log, hlog, rfl⟩ := List.mem_map.mp hdoc
    obtain ⟨bid, hbid⟩ := Option.ne_none_iff_exists'.mp
      (of_decide_eq_true (List.mem_filter.mp (hscan.mem_iff.mp hlog)).2)
    exact ⟨bid, by rw [groupKey_toDocument, hbid]; rfl⟩
  obtain ⟨bids, rfl⟩ : keys ∈ Set.range (List.map Value.str) := by
    rw [Set.range_list_map]
    exact hnames
  have hgroup : ∀ bid, (scan.map BackendLog.toDocument).filter
      (fun doc => groupKey (.field "backendId") doc = .str bid) =
        (ofBackend bid scan).map BackendLog.toDocument := by
    intro bid
    rw [List.filter_map, ofBackend]
    congr 1
    refine List.filter_congr (fun log _ => ?_)
    simp [groupKey_toDocument, Value.ofText_eq_str]
  have hperm : ∀ bid, (ofBackend bid scan).Perm (ofBackend bid (logWindow halfHourAgo logs)) := by
    intro bid
    have hsame : ofBackend bid ((logWindow halfHourAgo logs).filter (fun l => l.backendId ≠ none)) =
        ofBackend bid (logWindow halfHourAgo logs) := by
      rw [ofBackend, List.filter_filter, ofBackend]
      refine List.filter_congr (fun log _ => ?_)
      by_cases hbid : log.backendId = some bid <;> simp [hbid]
    rw [← hsame]
    exact hscan.filter _
  have hmem : ∀ bid, bid ∈ bids ↔ ∃ log ∈ scan, log.backendId = some bid := by
    intro bid
    rw [← List.mem_map_of_injective (f := Value.str) (fun _ _ h => Value.str.inj h), hkeys]
    simp [groupKey_toDocument, Value.ofText_eq_str]
  refine ⟨scan, bids, hperm, List.Nodup.of_map _ hnodup, ?_, ?_⟩
  · intro bid
    rw [hmem]
    constructor
    · rintro ⟨log, hlog, hbid⟩
      exact ⟨log, (List.mem_filter.mp (hscan.mem_iff.mp hlog)).1, hbid⟩
    · rintro ⟨log, hlog, hbid⟩
      exact ⟨log, hscan.mem_iff.mpr (List.mem_filter.mpr ⟨hlog, by simp [hbid]⟩), hbid⟩
  · rw [List.map_map, List.map_map]
    refine List.map_congr_left (fun bid hbid => ?_)
    obtain ⟨log, hlog, hlogbid⟩ := (hmem bid).mp hbid
    have hne : ofBackend bid scan ≠ [] :=
      List.ne_nil_of_mem (List.mem_filter.mpr ⟨hlog, by simp [hlogbid]⟩)
    rw [Function.comp_apply, Function.comp_apply, hgroup, split_document hne]

/-- Half way is the only place where the two ways of rounding differ. -/
theorem round2_cases (x : Rat) :
    round2 x = roundEven 2 x ∨ round2 x = roundEven 2 x + 1 / 100 := by
  have hscale : x * 10 ^ 2 = x * 100 := by norm_num
  have hlow : ((⌊x * 100⌋ : Int) : Rat) ≤ x * 100 := Int.floor_le _
  have hhigh : x * 100 < ⌊x * 100⌋ + 1 := Int.lt_floor_add_one _
  have hround : ∀ n : Int, (n : Rat) ≤ x * 100 + 1 / 2 → x * 100 + 1 / 2 < n + 1 →
      round2 x = n / 100 := by
    intro n hle hlt
    rw [round2, jsRound, Int.floor_eq_iff.mpr ⟨hle, hlt⟩]
  have hdown : x * 100 - ⌊x * 100⌋ < 1 / 2 → round2 x = (⌊x * 100⌋ : Rat) / 100 :=
    fun h => hround _ (by linarith) (by linarith)
  have hup : 1 / 2 ≤ x * 100 - ⌊x * 100⌋ → round2 x = ((⌊x * 100⌋ + 1 : Int) : Rat) / 100 := by
    intro h
    refine hround _ ?_ ?_ <;> push_cast <;> linarith
  simp only [roundEven, hscale]
  split_ifs with hless hmore heven
  · exact Or.inl (by rw [hdown hless]; norm_num)
  · exact Or.inl (by rw [hup hmore.le]; norm_num)
  · refine Or.inr ?_
    rw [hup (not_lt.mp hless)]
    push_cast
    ring
  · exact Or.inl (by rw [hup (not_lt.mp hless)]; norm_num)

/-- The address of a split is that of a log. -/
theorem exists_url {window group : List BackendLog} (rounding : Rat → Rat)
    (hgroup : ∀ log ∈ group, log ∈ ofBackend bid window) (hne : group ≠ []) :
    ∃ log ∈ window, log.backendId = some (BackendSplit.ofLogs rounding bid group).backendId ∧
      log.backendUrl = (BackendSplit.ofLogs rounding bid group).backendUrl := by
  cases group with
  | nil => exact absurd rfl hne
  | cons log logs =>
      obtain ⟨hlog, hbid⟩ := List.mem_filter.mp (hgroup log List.mem_cons_self)
      exact ⟨log, hlog, of_decide_eq_true hbid, rfl⟩

/-- On one collection of logs the pipeline of `/backends` and the loop list the same splits. -/
theorem backends_agree
    (hnames : ∀ log ∈ logWindow halfHourAgo logs, ∀ bid, log.backendId = some bid →
      bid ∉ Strategy.inheritedMembers)
    (h : Evaluates (backendsPipeline halfHourAgo) (logs.map BackendLog.toDocument) out) :
    BackendSplit.SameSplits (logWindow halfHourAgo logs) out
      (aggregateBackends halfHourAgo logs) := by
  obtain ⟨scan, bids', hscan, hnodup', hmem', rfl⟩ := evaluates_backends h
  obtain ⟨bids, hnodup, hmem, heq⟩ := aggregateBackends_eq hnames
  have hperm : bids'.Perm bids :=
    (List.perm_ext_iff_of_nodup hnodup' hnodup).mpr (fun bid => by rw [hmem', hmem])
  refine ⟨bids.map (fun bid => BackendSplit.ofLogs (roundEven 2) bid (ofBackend bid scan)),
    ?_, ?_⟩
  · rw [List.map_map]
    exact hperm.map _
  · rw [heq, List.forall₂_map_left_iff, List.forall₂_map_right_iff, List.forall₂_same]
    intro bid hbid
    have hlogs := hscan bid
    obtain ⟨log, hlog, hlogbid⟩ := (hmem bid).mp hbid
    have hne : ofBackend bid (logWindow halfHourAgo logs) ≠ [] :=
      List.ne_nil_of_mem (List.mem_filter.mpr ⟨hlog, by simp [hlogbid]⟩)
    refine ⟨rfl, ?_, ?_, hlogs.length_eq, ?_, hlogs.countP_eq _, hlogs.countP_eq _⟩
    · exact exists_url _ (fun log hlog => hlogs.mem_iff.mp hlog)
        (fun h => hne (List.perm_nil.mp (h ▸ hlogs).symm))
    · exact exists_url _ (fun log hlog => hlog) hne
    · simp only [BackendSplit.ofLogs, hlogs.length_eq, (hlogs.map _).sum_eq]
      exact round2_cases _

end Splits

end SentinelADC
