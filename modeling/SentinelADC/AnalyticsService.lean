import SentinelADC.AnalyticsPipelines
import SentinelADC.Lib.Runs

/-!
# Analytics service

`analytics/analyticsDb.js` with both of its stores, the arrays in memory and the
collections of MongoDB, the rollup worker that waits for MongoDB between its
steps, and the three routes of `analytics/analyticsRoutes.js`.  Which store is in
use is settled once, by the result of the connection attempt.
-/

namespace SentinelADC

open Aggregation Runs

/-- A number of a result document. -/
def Aggregation.Document.number (name : String) (doc : Document) : Option Rat :=
  (doc.get name).bind Value.number?

/-- A whole number of a result document. -/
def Aggregation.Document.integer (name : String) (doc : Document) : Option Int :=
  (doc.number name).map Rat.num

/-- A counter of a result document. -/
def Aggregation.Document.count (name : String) (doc : Document) : Option Nat :=
  (doc.integer name).map Int.toNat

/-- `results[0]` in `runRollup`. -/
def LogStats.ofDocument (doc : Document) : Option LogStats := do
  let requestCount ← doc.count "requestCount"
  let totalLatency ← doc.number "totalLatency"
  let successCount ← doc.count "successCount"
  let errorCount ← doc.count "errorCount"
  let cacheHitCount ← doc.count "cacheHitCount"
  let bytesTransferred ← doc.integer "bytesTransferred"
  return {
    requestCount := requestCount
    totalLatency := totalLatency
    minLatency := doc.number "minLatency"
    maxLatency := doc.number "maxLatency"
    successCount := successCount
    errorCount := errorCount
    cacheHitCount := cacheHitCount
    bytesTransferred := bytesTransferred }

/-- `stats[0]` in `/realtime`. -/
def RealtimeStats.ofDocument (doc : Document) : Option RealtimeStats := do
  let totalRequests ← doc.count "totalRequests"
  let totalLatency ← doc.number "totalLatency"
  let successCount ← doc.count "successCount"
  let cacheHitCount ← doc.count "cacheHitCount"
  return ⟨totalRequests, totalLatency, successCount, cacheHitCount⟩

/-- What is stored of a rollup. -/
def RollupDocument.toDocument (rollup : RollupDocument) : Document :=
  [("timeBucket", .date rollup.timeBucket), ("requestCount", .num rollup.requestCount),
    ("averageLatencyMs", .num rollup.averageLatencyMs),
    ("minLatencyMs", Value.ofNumber rollup.minLatencyMs),
    ("maxLatencyMs", Value.ofNumber rollup.maxLatencyMs), ("errorRate", .num rollup.errorRate),
    ("cacheHitRatio", .num rollup.cacheHitRatio),
    ("bytesTransferred", .num rollup.bytesTransferred), ("updatedAt", .date rollup.updatedAt)]

/-- A rollup in the collection: `replaceOne` keeps the `_id` that its upsert gave to
the document of the minute. -/
def RollupDocument.stored (objectId : Int → Value) (rollup : RollupDocument) : Document :=
  ("_id", objectId rollup.timeBucket) :: rollup.toDocument

/-- A document without its `_id`. -/
def withoutId (doc : Document) : Document :=
  doc.filter (fun field => field.1 ≠ "_id")

section Documents

@[simp] theorem withoutId_stored (objectId : Int → Value) (rollup : RollupDocument) :
    withoutId (rollup.stored objectId) = rollup.toDocument := by
  simp [withoutId, RollupDocument.stored, RollupDocument.toDocument]

/-- The figures can be read back from their documents. -/
@[simp] theorem LogStats.ofDocument_toDocument (stats : LogStats) :
    ofDocument stats.toDocument = some stats := by
  obtain ⟨requestCount, totalLatency, minLatency, maxLatency, counts⟩ := stats
  cases minLatency <;> cases maxLatency <;> rfl

@[simp] theorem RealtimeStats.ofDocument_toDocument (stats : RealtimeStats) :
    ofDocument stats.toDocument = some stats := by
  rfl

end Documents

/-- What a rollup waits for. -/
inductive RollupStep where
  | aggregating (timeBucket : Int)
  | replacing (document : RollupDocument)
deriving DecidableEq, Repr

/-- `analyticsDb` with the collections of MongoDB, and the rollup worker. -/
structure Analytics where
  enabled : Bool
  useMemoryFallback : Bool
  connected : Bool
  memoryLogs : List BackendLog
  memoryAggregates : List RollupDocument
  /-- The collection `request_logs`. -/
  requestLogs : List BackendLog
  /-- The collection `analytics_aggregates`. -/
  analyticsAggregates : List RollupDocument
  /-- Logs on their way to MongoDB. -/
  inserting : List BackendLog
  /-- The worker is `running` while this is present. -/
  rollup : Option RollupStep

/-- The answer of a route. -/
inductive AnalyticsReply where
  | realtime (dbConnected : Bool) (throughputRps averageLatencyMs successRate cacheHitRatio : Rat)
      (totalRequests : Nat)
  | historical (dbConnected : Bool) (timeline : List Document)
  | backends (dbConnected : Bool) (backends : List Document)
  | failed (status : Nat) (error : String)
deriving DecidableEq, Repr

namespace Analytics

/-- `isActive`. -/
def isActive (s : Analytics) : Bool :=
  s.enabled && (s.useMemoryFallback || s.connected)

/-- What can happen. -/
inductive Event where
  /-- The connection attempt of the start-up has succeeded, or failed. -/
  | connect (ok : Bool)
  /-- A response has finished. -/
  | finish (log : BackendLog)
  /-- MongoDB has stored a log, or the insertion has failed. -/
  | insert (log : BackendLog) (ok : Bool)
  /-- The timer of the worker. -/
  | tick (now updatedAt : Int)
  /-- MongoDB has answered the pipeline of a rollup. -/
  | aggregate (answer : Except String (List Document)) (updatedAt : Int)
  /-- MongoDB has replaced a document, or has failed to. -/
  | replace (ok : Bool)
  /-- MongoDB drops the logs that have expired. -/
  | expire (cutoff : Int)

/-- `insertOne('request_logs', …)`. -/
def insertLog (log : BackendLog) (s : Analytics) : Analytics :=
  if !s.isActive then s
  else if s.useMemoryFallback then { s with memoryLogs := pushCapped 1000 log s.memoryLogs }
  else { s with inserting := s.inserting ++ [log] }

/-- `insertOne('analytics_aggregates', …)` in memory. -/
def upsertCapped (document : RollupDocument) (aggregates : List RollupDocument) :
    List RollupDocument :=
  let aggregates := AnalyticsDb.upsert document aggregates
  if 60 < aggregates.length then aggregates.tail else aggregates

/-- `runRollup`, to its end or to where it waits for MongoDB. -/
def runRollup (now updatedAt : Int) (s : Analytics) : Analytics :=
  if !s.isActive || s.rollup.isSome then s
  else if s.useMemoryFallback then
    match aggregateLogs (timeBucket now) (timeBucket now + 60000)
        (s.memoryLogs.map BackendLog.toRequestLog) with
    | none => s
    | some stats =>
        let document := stats.document (timeBucket now) updatedAt
        { s with memoryAggregates := upsertCapped document s.memoryAggregates }
  else { s with rollup := some (.aggregating (timeBucket now)) }

/-- `runRollup` goes on with an answer to its pipeline. -/
def aggregated (answer : Except String (List Document)) (updatedAt : Int) (s : Analytics) :
    Analytics :=
  match s.rollup with
  | some (.aggregating bucket) =>
      match answer with
      | .error _ => { s with rollup := none }
      | .ok results =>
          -- The pipeline has no result without its numbers.
          match results.head?.bind LogStats.ofDocument with
          | none => { s with rollup := none }
          | some stats => { s with rollup := some (.replacing (stats.document bucket updatedAt)) }
  | _ => s

/-- `runRollup` ends. -/
def replaced (ok : Bool) (s : Analytics) : Analytics :=
  match s.rollup with
  | some (.replacing document) =>
      { s with
        rollup := none
        analyticsAggregates :=
          if ok then AnalyticsDb.upsert document s.analyticsAggregates
          else s.analyticsAggregates }
  | _ => s

/-- One event. -/
def step (s : Analytics) : Event → Analytics
  | .connect ok =>
      if !s.enabled || s.connected || s.useMemoryFallback then s
      else if ok then { s with connected := true } else { s with useMemoryFallback := true }
  | .finish log => s.insertLog log
  | .insert log ok =>
      if log ∈ s.inserting then
        { s with
          inserting := s.inserting.erase log
          requestLogs := if ok then s.requestLogs ++ [log] else s.requestLogs }
      else s
  | .tick now updatedAt => s.runRollup now updatedAt
  | .aggregate answer updatedAt => s.aggregated answer updatedAt
  | .replace ok => s.replaced ok
  | .expire cutoff =>
      { s with requestLogs := s.requestLogs.filter (fun l => cutoff ≤ l.timestamp) }

/-- An answer of MongoDB is one that the pipeline may have on the collection. -/
def Served (s : Analytics) : Event → Prop
  | .aggregate (.ok results) _ =>
      ∀ bucket, s.rollup = some (.aggregating bucket) →
        Evaluates (rollupPipeline bucket (bucket + 60000))
          (s.requestLogs.map BackendLog.toDocument) results
  | _ => True

/-- The figures of `/realtime`. -/
def summary : Option RealtimeStats → AnalyticsReply
  | none => .realtime true 0 0 100 0 0
  | some data =>
      .realtime true (round2 (data.totalRequests / 300))
        (round2 (data.totalLatency / data.totalRequests))
        (round2 (data.successCount / data.totalRequests * 100))
        (round2 (data.cacheHitCount / data.totalRequests * 100)) data.totalRequests

/-- `GET /realtime`, with the answer of MongoDB in case it is asked. -/
def realtime (now : Int) (answer : Except String (List Document)) (s : Analytics) :
    AnalyticsReply :=
  if !s.isActive then .realtime false 0 0 100 0 0
  else if s.useMemoryFallback then
    summary (aggregateRealtime (now - 5 * 60 * 1000)
      (s.memoryLogs.map BackendLog.toRequestLog))
  else
    match answer with
    | .ok stats => summary (stats.head?.bind RealtimeStats.ofDocument)
    | .error message => .failed 500 ("Failed to query realtime metrics: " ++ message)

/-- `GET /historical`. -/
def historical (now : Int) (answer : Except String (List Document)) (s : Analytics) :
    AnalyticsReply :=
  if !s.isActive then .historical false []
  else if s.useMemoryFallback then
    let timeline := (s.memoryAggregates.filter
      (fun a => now - 60 * 60 * 1000 ≤ a.timeBucket)).insertionSort
        (fun a b => a.timeBucket ≤ b.timeBucket)
    .historical true (timeline.map RollupDocument.toDocument)
  else
    match answer with
    | .ok timeline => .historical true timeline
    | .error message => .failed 500 ("Failed to query historical timeline: " ++ message)

/-- `GET /backends`. -/
def backends (now : Int) (answer : Except String (List Document)) (s : Analytics) :
    AnalyticsReply :=
  if !s.isActive then .backends false []
  else if s.useMemoryFallback then
    .backends true
      ((aggregateBackends (now - 30 * 60 * 1000) s.memoryLogs).map BackendSplit.toDocument)
  else
    match answer with
    | .ok backendsData => .backends true backendsData
    | .error message => .failed 500 ("Failed to query backend workload split: " ++ message)

end Analytics

end SentinelADC
