import SentinelADC.Helpers
import SentinelADC.Lib.CappedList

/-!
# Analytics

`analytics/analyticsDb.js` in its in-memory mode and the rollup of
`analytics/aggregationWorker.js`.  A finished request adds a log; every tick of
the worker condenses the logs of the minute that the clock shows into one
document, which replaces the document of the same minute.
-/

namespace SentinelADC

/-- The part of a request log that the aggregations read. -/
structure RequestLog where
  timestamp : Int
  statusCode : Nat
  latencyMs : Rat
  cacheStatus : Option String
  payloadSizeBytes : Int
deriving DecidableEq, Repr

/-- The result of `aggregateLogs`.  The extrema are absent where the code has
`Infinity`. -/
structure LogStats where
  requestCount : Nat
  totalLatency : Rat
  minLatency : Option Rat
  maxLatency : Option Rat
  successCount : Nat
  errorCount : Nat
  cacheHitCount : Nat
  bytesTransferred : Int
deriving DecidableEq, Repr

/-- A document of `analytics_aggregates`. -/
structure RollupDocument where
  timeBucket : Int
  requestCount : Nat
  averageLatencyMs : Rat
  minLatencyMs : Option Rat
  maxLatencyMs : Option Rat
  errorRate : Rat
  cacheHitRatio : Rat
  bytesTransferred : Int
  updatedAt : Int
deriving DecidableEq, Repr

/-- `analyticsDb` without MongoDB. -/
structure AnalyticsDb where
  enabled : Bool
  useMemoryFallback : Bool
  memoryLogs : List RequestLog
  memoryAggregates : List RollupDocument

namespace LogStats

/-- The counters before the loop of `aggregateLogs`. -/
def zero : LogStats where
  requestCount := 0
  totalLatency := 0
  minLatency := none
  maxLatency := none
  successCount := 0
  errorCount := 0
  cacheHitCount := 0
  bytesTransferred := 0

/-- One iteration of the loop. -/
def add (stats : LogStats) (log : RequestLog) : LogStats where
  requestCount := stats.requestCount + 1
  totalLatency := stats.totalLatency + log.latencyMs
  minLatency :=
    match stats.minLatency with
    | none => some log.latencyMs
    | some least => some (if log.latencyMs < least then log.latencyMs else least)
  maxLatency :=
    match stats.maxLatency with
    | none => some log.latencyMs
    | some most => some (if most < log.latencyMs then log.latencyMs else most)
  successCount := if log.statusCode < 400 then stats.successCount + 1 else stats.successCount
  errorCount := if log.statusCode < 400 then stats.errorCount else stats.errorCount + 1
  cacheHitCount :=
    if log.cacheStatus = some "HIT" then stats.cacheHitCount + 1 else stats.cacheHitCount
  bytesTransferred := stats.bytesTransferred + log.payloadSizeBytes

/-- The counters after the loop. -/
def ofLogs (logs : List RequestLog) : LogStats :=
  logs.foldl add zero

/-- The document that a rollup saves for a minute. -/
def document (timeBucket updatedAt : Int) (stats : LogStats) : RollupDocument where
  timeBucket := timeBucket
  requestCount := stats.requestCount
  averageLatencyMs :=
    round2 (if 0 < stats.requestCount then stats.totalLatency / stats.requestCount else 0)
  minLatencyMs := stats.minLatency.map round2
  maxLatencyMs := stats.maxLatency.map round2
  errorRate :=
    round2 (if 0 < stats.requestCount then stats.errorCount / stats.requestCount * 100 else 0)
  cacheHitRatio :=
    round2 (if 0 < stats.requestCount then stats.cacheHitCount / stats.requestCount * 100 else 0)
  bytesTransferred := stats.bytesTransferred
  updatedAt := updatedAt

theorem foldl_add (logs : List RequestLog) (stats : LogStats) :
    (logs.foldl add stats).requestCount = stats.requestCount + logs.length ∧
      (logs.foldl add stats).bytesTransferred =
        stats.bytesTransferred + (logs.map RequestLog.payloadSizeBytes).sum := by
  induction logs generalizing stats with
  | nil => simp
  | cons log logs ih =>
      obtain ⟨hcount, hbytes⟩ := ih (stats.add log)
      rw [List.foldl_cons, hcount, hbytes]
      simp only [add, List.length_cons, List.map_cons, List.sum_cons]
      constructor <;> ring

@[simp] theorem requestCount_ofLogs (logs : List RequestLog) :
    (ofLogs logs).requestCount = logs.length :=
  (foldl_add logs zero).1.trans (Nat.zero_add _)

@[simp] theorem bytesTransferred_ofLogs (logs : List RequestLog) :
    (ofLogs logs).bytesTransferred = (logs.map RequestLog.payloadSizeBytes).sum :=
  (foldl_add logs zero).2.trans (zero_add _)

end LogStats

/-- The minute that a time lies in. -/
def timeBucket (now : Int) : Int :=
  now / 60000 * 60000

namespace AnalyticsDb

/-- `isActive`. -/
def isActive (db : AnalyticsDb) : Bool :=
  db.enabled && db.useMemoryFallback

/-- `insertOne('request_logs', …)`. -/
def insertLog (log : RequestLog) (db : AnalyticsDb) : AnalyticsDb :=
  if db.isActive then { db with memoryLogs := pushCapped 1000 log db.memoryLogs } else db

/-- Replace the first document of the same minute, or append. -/
def upsert (document : RollupDocument) (aggregates : List RollupDocument) : List RollupDocument :=
  match aggregates.findIdx? (fun a => a.timeBucket = document.timeBucket) with
  | some idx => aggregates.set idx document
  | none => aggregates ++ [document]

/-- `insertOne('analytics_aggregates', …)`. -/
def insertAggregate (document : RollupDocument) (db : AnalyticsDb) : AnalyticsDb :=
  if db.isActive then
    let aggregates := upsert document db.memoryAggregates
    { db with memoryAggregates := if 60 < aggregates.length then aggregates.tail else aggregates }
  else db

/-- `aggregateLogs`, which answers with one result or none. -/
def aggregateLogs (windowStart windowEnd : Int) (db : AnalyticsDb) : Option LogStats :=
  let logs := db.memoryLogs.filter (fun l => windowStart ≤ l.timestamp ∧ l.timestamp < windowEnd)
  if logs = [] then none else some (LogStats.ofLogs logs)

/-- `runRollup`, which runs from its call to its end without a pause here. -/
def runRollup (now updatedAt : Int) (db : AnalyticsDb) : AnalyticsDb :=
  if db.isActive then
    match db.aggregateLogs (timeBucket now) (timeBucket now + 60000) with
    | none => db
    | some stats => db.insertAggregate (stats.document (timeBucket now) updatedAt)
  else db

/-- A request finishes, or the timer of the worker fires. -/
inductive Event where
  | log (entry : RequestLog)
  | tick (now updatedAt : Int)

/-- The time of an event. -/
def Event.time : Event → Int
  | .log entry => entry.timestamp
  | .tick now _ => now

/-- One event. -/
def step (db : AnalyticsDb) : Event → AnalyticsDb
  | .log entry => db.insertLog entry
  | .tick now updatedAt => db.runRollup now updatedAt

/-- In use, and empty. -/
structure Booted (db : AnalyticsDb) : Prop where
  active : db.isActive = true
  logs : db.memoryLogs = []
  aggregates : db.memoryAggregates = []

/-- Requests of a minute according to its stored document. -/
def storedCount (minute : Int) (db : AnalyticsDb) : Nat :=
  ((db.memoryAggregates.find? (fun a => a.timeBucket = minute)).map
    RollupDocument.requestCount).getD 0

/-- Bytes of a minute according to its stored document. -/
def storedBytes (minute : Int) (db : AnalyticsDb) : Int :=
  ((db.memoryAggregates.find? (fun a => a.timeBucket = minute)).map
    RollupDocument.bytesTransferred).getD 0

/-- The window of a rollup holds the logs of the minute. -/
theorem mem_window_iff (now timestamp : Int) :
    timeBucket now ≤ timestamp ∧ timestamp < timeBucket now + 60000 ↔
      timeBucket timestamp = timeBucket now := by
  simp only [timeBucket]
  omega

end AnalyticsDb

end SentinelADC
