import SentinelADC.AnalyticsModes

/-!
# Rollups are snapshots

Logs, ticks of the worker, answers of MongoDB and expiry come in any order, and
requests to MongoDB may fail.  Whatever the order, a timeline has one document
for a minute, and the document is what a rollup of the minute gives on the logs
as they were stored at one moment of the run.  It never counts more than has
finished.
-/

namespace SentinelADC

open Aggregation Runs

namespace Analytics

/-- The logs of the responses that have finished. -/
def finished (es : List Event) : List BackendLog :=
  es.filterMap (fun e =>
    match e with
    | .finish log => some log
    | _ => none)

/-- The document is that of a rollup of these logs. -/
def Snapshot (logs : List BackendLog) (a : RollupDocument) : Prop :=
  timeBucket a.timeBucket = a.timeBucket ∧
    ∃ stats, aggregateLogs a.timeBucket (a.timeBucket + 60000)
        (logs.map BackendLog.toRequestLog) = some stats ∧
      a = stats.document a.timeBucket a.updatedAt

/-- The document is that of the logs in `store` at a moment of the run. -/
def Taken (store : Analytics → List BackendLog) (start : Analytics) (es : List Event)
    (a : RollupDocument) : Prop :=
  ∃ pre post, es = pre ++ post ∧ Snapshot (store (run step start pre)) a

/-- A timeline that is made of snapshots of `store`. -/
structure Sound (store : Analytics → List BackendLog) (start : Analytics) (es : List Event)
    (timeline : List RollupDocument) : Prop where
  distinct : (timeline.map RollupDocument.timeBucket).Nodup
  taken : ∀ a ∈ timeline, Taken store start es a
  counted : ∀ a ∈ timeline, a.requestCount ≤
    (finished es).countP (fun l => timeBucket l.timestamp = a.timeBucket)

section Upserts

variable {document a : RollupDocument} {aggregates : List RollupDocument}

theorem mem_upsert (h : a ∈ AnalyticsDb.upsert document aggregates) :
    a ∈ aggregates ∨ a = document := by
  simp only [AnalyticsDb.upsert] at h
  split at h
  · exact List.mem_or_eq_of_mem_set h
  · exact (List.mem_append.mp h).imp_right List.mem_singleton.mp

/-- A minute keeps its one document. -/
theorem nodup_upsert (h : (aggregates.map RollupDocument.timeBucket).Nodup) :
    ((AnalyticsDb.upsert document aggregates).map RollupDocument.timeBucket).Nodup := by
  simp only [AnalyticsDb.upsert]
  split
  · next idx hidx =>
      obtain ⟨hlt, hbucket, -⟩ := List.findIdx?_eq_some_iff_getElem.mp hidx
      have hsame : (aggregates.set idx document).map RollupDocument.timeBucket =
          aggregates.map RollupDocument.timeBucket := by
        rw [List.map_set, ← of_decide_eq_true hbucket,
          ← List.getElem_map RollupDocument.timeBucket (h := by simpa using hlt),
          List.set_getElem_self]
      rwa [hsame]
  · next hidx =>
      rw [List.map_append, List.map_singleton]
      refine h.append (List.nodup_singleton _) ?_
      rw [List.disjoint_singleton]
      intro hmem
      obtain ⟨a, ha, hbucket⟩ := List.mem_map.mp hmem
      have hnone := List.findIdx?_eq_none_iff.mp hidx a ha
      simp [hbucket] at hnone

theorem mem_upsertCapped (h : a ∈ upsertCapped document aggregates) :
    a ∈ aggregates ∨ a = document := by
  simp only [upsertCapped] at h
  split_ifs at h
  · exact mem_upsert (List.mem_of_mem_tail h)
  · exact mem_upsert h

theorem nodup_upsertCapped (h : (aggregates.map RollupDocument.timeBucket).Nodup) :
    ((upsertCapped document aggregates).map RollupDocument.timeBucket).Nodup := by
  simp only [upsertCapped]
  split_ifs
  · exact (nodup_upsert h).sublist ((List.tail_sublist _).map _)
  · exact nodup_upsert h

end Upserts

section Counts

variable {s start : Analytics} {es : List Event} {p : BackendLog → Bool}

/-- The worker leaves the logs alone. -/
theorem logs_runRollup (now updatedAt : Int) (s : Analytics) :
    (s.runRollup now updatedAt).requestLogs = s.requestLogs ∧
      (s.runRollup now updatedAt).inserting = s.inserting ∧
      (s.runRollup now updatedAt).memoryLogs = s.memoryLogs := by
  simp only [runRollup]
  split_ifs
  · exact ⟨rfl, rfl, rfl⟩
  · split <;> exact ⟨rfl, rfl, rfl⟩
  · exact ⟨rfl, rfl, rfl⟩

theorem logs_aggregated (answer : Except String (List Document)) (updatedAt : Int)
    (s : Analytics) :
    (s.aggregated answer updatedAt).requestLogs = s.requestLogs ∧
      (s.aggregated answer updatedAt).inserting = s.inserting ∧
      (s.aggregated answer updatedAt).memoryLogs = s.memoryLogs := by
  simp only [aggregated]
  split
  · split
    · exact ⟨rfl, rfl, rfl⟩
    · split <;> exact ⟨rfl, rfl, rfl⟩
  · exact ⟨rfl, rfl, rfl⟩

theorem logs_replaced (ok : Bool) (s : Analytics) :
    (s.replaced ok).requestLogs = s.requestLogs ∧ (s.replaced ok).inserting = s.inserting ∧
      (s.replaced ok).memoryLogs = s.memoryLogs := by
  simp only [replaced]
  split <;> exact ⟨rfl, rfl, rfl⟩

theorem logs_connect (ok : Bool) (s : Analytics) :
    (s.step (.connect ok)).requestLogs = s.requestLogs ∧
      (s.step (.connect ok)).inserting = s.inserting ∧
      (s.step (.connect ok)).memoryLogs = s.memoryLogs := by
  simp only [step]
  split_ifs <;> exact ⟨rfl, rfl, rfl⟩

/-- A log that finishes is stored once, or not at all. -/
theorem countP_insertLog (log : BackendLog) (s : Analytics) (p : BackendLog → Bool) :
    (s.insertLog log).requestLogs.countP p + (s.insertLog log).inserting.countP p ≤
        s.requestLogs.countP p + s.inserting.countP p + [log].countP p ∧
      (s.insertLog log).memoryLogs.countP p ≤ s.memoryLogs.countP p + [log].countP p := by
  have hpush : (pushCapped 1000 log s.memoryLogs).countP p ≤
      s.memoryLogs.countP p + [log].countP p := by
    rw [← List.countP_append, pushCapped]
    split_ifs
    · exact (List.tail_sublist _).countP_le
    · exact le_rfl
  simp only [insertLog]
  split_ifs
  · exact ⟨Nat.le_add_right _ _, Nat.le_add_right _ _⟩
  · exact ⟨Nat.le_add_right _ _, hpush⟩
  · refine ⟨?_, Nat.le_add_right _ _⟩
    dsimp only
    rw [List.countP_append]
    omega

/-- A log that arrives at MongoDB is on its way no longer. -/
theorem countP_insert (log : BackendLog) (ok : Bool) (s : Analytics) (p : BackendLog → Bool) :
    (s.step (.insert log ok)).requestLogs.countP p + (s.step (.insert log ok)).inserting.countP p ≤
        s.requestLogs.countP p + s.inserting.countP p ∧
      (s.step (.insert log ok)).memoryLogs = s.memoryLogs := by
  by_cases hmem : log ∈ s.inserting
  · have hperm := (List.perm_cons_erase hmem).countP_eq p
    rw [List.countP_cons] at hperm
    rw [step, if_pos hmem]
    refine ⟨?_, rfl⟩
    cases ok with
    | true =>
        dsimp only
        rw [if_pos rfl, List.countP_append, List.countP_singleton]
        omega
    | false =>
        dsimp only
        rw [if_neg Bool.false_ne_true]
        omega
  · rw [step, if_neg hmem]
    exact ⟨le_rfl, rfl⟩

/-- No log is in the stores more often than it has finished. -/
theorem countP_run (hboot : start.Booted) (es : List Event) (p : BackendLog → Bool) :
    (run step start es).requestLogs.countP p + (run step start es).inserting.countP p ≤
        (finished es).countP p ∧
      (run step start es).memoryLogs.countP p ≤ (finished es).countP p := by
  induction es using List.reverseRecOn with
  | nil => simp [hboot.requestLogs, hboot.inserting, hboot.memoryLogs]
  | append_singleton es e ih =>
      rw [run_append, run_cons, run_nil]
      generalize run step start es = s at ih ⊢
      have hsame : ∀ s' : Analytics, s'.requestLogs = s.requestLogs ∧ s'.inserting = s.inserting ∧
          s'.memoryLogs = s.memoryLogs → finished (es ++ [e]) = finished es →
          s'.requestLogs.countP p + s'.inserting.countP p ≤ (finished (es ++ [e])).countP p ∧
            s'.memoryLogs.countP p ≤ (finished (es ++ [e])).countP p := by
        rintro s' ⟨hlogs, hinserting, hmemory⟩ hfinished
        rwa [hlogs, hinserting, hmemory, hfinished]
      cases e with
      | connect ok => exact hsame _ (logs_connect ok s) (by simp [finished])
      | finish log =>
          have hfinished : finished (es ++ [.finish log]) = finished es ++ [log] := by
            simp [finished]
          obtain ⟨hstored, hheld⟩ := countP_insertLog log s p
          rw [hfinished, List.countP_append, step]
          exact ⟨by omega, by omega⟩
      | insert log ok =>
          have hfinished : finished (es ++ [.insert log ok]) = finished es := by simp [finished]
          obtain ⟨hstored, hheld⟩ := countP_insert log ok s p
          rw [hfinished, hheld]
          exact ⟨hstored.trans ih.1, ih.2⟩
      | tick now updatedAt => exact hsame _ (logs_runRollup now updatedAt s) (by simp [finished])
      | aggregate answer updatedAt =>
          exact hsame _ (logs_aggregated answer updatedAt s) (by simp [finished])
      | replace ok => exact hsame _ (logs_replaced ok s) (by simp [finished])
      | expire cutoff =>
          have hfinished : finished (es ++ [.expire cutoff]) = finished es := by simp [finished]
          have hkept : (s.requestLogs.filter (fun l => cutoff ≤ l.timestamp)).countP p ≤
              s.requestLogs.countP p := List.filter_sublist.countP_le
          rw [hfinished, step]
          exact ⟨(Nat.add_le_add_right hkept _).trans ih.1, ih.2⟩

end Counts

section Snapshots

variable {s start : Analytics} {es : List Event} {e : Event} {a : RollupDocument}
  {store : Analytics → List BackendLog}

theorem Taken.concat (h : Taken store start es a) (e : Event) :
    Taken store start (es ++ [e]) a := by
  obtain ⟨pre, post, rfl, hsnapshot⟩ := h
  exact ⟨pre, post ++ [e], List.append_assoc _ _ _, hsnapshot⟩

theorem Snapshot.taken (h : Snapshot (store (run step start es)) a) (e : Event) :
    Taken store start (es ++ [e]) a :=
  ⟨es, [e], rfl, h⟩

/-- A snapshot counts the stored logs of its minute. -/
theorem Snapshot.requestCount_eq {logs : List BackendLog} (h : Snapshot logs a) :
    a.requestCount = logs.countP (fun l => timeBucket l.timestamp = a.timeBucket) := by
  obtain ⟨hwhole, stats, hstats, heq⟩ := h
  have hwindow : ∀ t : Int, (a.timeBucket ≤ t ∧ t < a.timeBucket + 60000) ↔
      timeBucket t = a.timeBucket := by
    intro t
    have hiff := AnalyticsDb.mem_window_iff a.timeBucket t
    rwa [hwhole] at hiff
  simp only [aggregateLogs, filter_toRequestLog, hwindow] at hstats
  split_ifs at hstats
  have hcount : a.requestCount = stats.requestCount := congrArg RollupDocument.requestCount heq
  rw [hcount, ← Option.some.inj hstats, LogStats.requestCount_ofLogs, List.length_map,
    List.countP_eq_length_filter]

theorem finished_append (es fs : List Event) :
    finished (es ++ fs) = finished es ++ finished fs := by
  rw [finished, List.filterMap_append]
  rfl

/-- Snapshots of what is stored count no more than has finished. -/
theorem Taken.counted
    (hstore : ∀ es p, (store (run step start es)).countP p ≤ (finished es).countP p)
    (h : Taken store start es a) :
    a.requestCount ≤ (finished es).countP (fun l => timeBucket l.timestamp = a.timeBucket) := by
  obtain ⟨pre, post, rfl, hsnapshot⟩ := h
  rw [hsnapshot.requestCount_eq, finished_append, List.countP_append]
  exact (hstore pre _).trans (Nat.le_add_right _ _)

/-- The timelines are made of snapshots, and so is what the worker is about to store. -/
structure Worker (start : Analytics) (es : List Event) (s : Analytics) : Prop where
  distinct : (s.analyticsAggregates.map RollupDocument.timeBucket).Nodup
  taken : ∀ a ∈ s.analyticsAggregates, Taken Analytics.requestLogs start es a
  memoryDistinct : (s.memoryAggregates.map RollupDocument.timeBucket).Nodup
  memoryTaken : ∀ a ∈ s.memoryAggregates, Taken Analytics.memoryLogs start es a
  aggregating : ∀ bucket, s.rollup = some (.aggregating bucket) → timeBucket bucket = bucket
  replacing : ∀ a, s.rollup = some (.replacing a) → Taken Analytics.requestLogs start es a

/-- An event that leaves the timelines alone, and starts nothing. -/
theorem Worker.keep {s' : Analytics} (h : Worker start es s) (e : Event)
    (haggregates : s'.analyticsAggregates = s.analyticsAggregates)
    (hmemory : s'.memoryAggregates = s.memoryAggregates)
    (hrollup : s'.rollup = s.rollup ∨ s'.rollup = none) :
    Worker start (es ++ [e]) s' := by
  constructor
  case distinct => rw [haggregates]; exact h.distinct
  case taken => rw [haggregates]; exact fun a ha => (h.taken a ha).concat e
  case memoryDistinct => rw [hmemory]; exact h.memoryDistinct
  case memoryTaken => rw [hmemory]; exact fun a ha => (h.memoryTaken a ha).concat e
  case aggregating =>
    intro bucket hbucket
    rcases hrollup with heq | heq
    · exact h.aggregating bucket (heq ▸ hbucket)
    · rw [heq] at hbucket
      cases hbucket
  case replacing =>
    intro a ha
    rcases hrollup with heq | heq
    · exact (h.replacing a (heq ▸ ha)).concat e
    · rw [heq] at ha
      cases ha

/-- What a tick of the worker does. -/
theorem runRollup_cases (now updatedAt : Int) (s : Analytics) :
    s.runRollup now updatedAt = s ∨
      (∃ document, Snapshot s.memoryLogs document ∧
        s.runRollup now updatedAt =
          { s with memoryAggregates := upsertCapped document s.memoryAggregates }) ∨
      s.runRollup now updatedAt = { s with rollup := some (.aggregating (timeBucket now)) } := by
  simp only [runRollup]
  split_ifs
  · exact Or.inl rfl
  · split
    · exact Or.inl rfl
    · next stats hstats =>
        refine Or.inr (Or.inl ⟨_, ⟨?_, stats, hstats, rfl⟩, rfl⟩)
        simp only [LogStats.document, timeBucket]
        omega
  · exact Or.inr (Or.inr rfl)

/-- What the worker does with an answer. -/
theorem aggregated_cases {answer : Except String (List Document)} {updatedAt : Int}
    (hserved : s.Served (.aggregate answer updatedAt))
    (hwhole : ∀ bucket, s.rollup = some (.aggregating bucket) → timeBucket bucket = bucket) :
    s.aggregated answer updatedAt = s ∨ s.aggregated answer updatedAt = { s with rollup := none } ∨
      ∃ document, Snapshot s.requestLogs document ∧
        s.aggregated answer updatedAt = { s with rollup := some (.replacing document) } := by
  simp only [aggregated]
  split
  · next bucket hbucket =>
      cases answer with
      | error message => exact Or.inr (Or.inl rfl)
      | ok results =>
          have hresults := evaluates_rollup_iff.mp (hserved bucket hbucket)
          dsimp only
          split
          · exact Or.inr (Or.inl rfl)
          · next stats hstats =>
              refine Or.inr (Or.inr ⟨_, ⟨hwhole bucket hbucket, stats, ?_, rfl⟩, rfl⟩)
              rw [hresults] at hstats
              cases hlogs : aggregateLogs bucket (bucket + 60000)
                  (s.requestLogs.map BackendLog.toRequestLog) with
              | none => simp [hlogs] at hstats
              | some found => simpa [hlogs, LogStats.document] using hstats
  · exact Or.inl rfl

/-- How a rollup ends. -/
theorem replaced_cases (ok : Bool) (s : Analytics) :
    s.replaced ok = s ∨ s.replaced ok = { s with rollup := none } ∨
      ∃ document, s.rollup = some (.replacing document) ∧
        s.replaced ok =
          { s with
            rollup := none
            analyticsAggregates := AnalyticsDb.upsert document s.analyticsAggregates } := by
  simp only [replaced]
  split
  · next document hdocument =>
      cases ok with
      | true => exact Or.inr (Or.inr ⟨document, hdocument, rfl⟩)
      | false => exact Or.inr (Or.inl rfl)
  · exact Or.inl rfl

/-- One event. -/
theorem Worker.concat (h : Worker start es (run step start es)) (e : Event)
    (hserved : (run step start es).Served e) :
    Worker start (es ++ [e]) (run step start (es ++ [e])) := by
  have hrun : run step start (es ++ [e]) = (run step start es).step e := by
    rw [run_append, run_cons, run_nil]
  rw [hrun]
  cases e with
  | connect ok =>
      simp only [step]
      split_ifs <;> exact h.keep _ rfl rfl (Or.inl rfl)
  | finish log =>
      simp only [step, insertLog]
      split_ifs <;> exact h.keep _ rfl rfl (Or.inl rfl)
  | insert log ok =>
      simp only [step]
      split_ifs <;> exact h.keep _ rfl rfl (Or.inl rfl)
  | expire cutoff => exact h.keep _ rfl rfl (Or.inl rfl)
  | tick now updatedAt =>
      rw [step]
      rcases runRollup_cases now updatedAt (run step start es) with
        heq | ⟨document, hsnapshot, heq⟩ | heq
      · rw [heq]
        exact h.keep _ rfl rfl (Or.inl rfl)
      · have hkeep := h.keep (.tick now updatedAt) rfl rfl (Or.inl rfl)
        rw [heq]
        refine ⟨hkeep.distinct, hkeep.taken, nodup_upsertCapped hkeep.memoryDistinct, ?_,
          hkeep.aggregating, hkeep.replacing⟩
        intro a ha
        rcases mem_upsertCapped ha with hold | rfl
        · exact hkeep.memoryTaken a hold
        · exact hsnapshot.taken _
      · have hkeep := h.keep (.tick now updatedAt) rfl rfl (Or.inl rfl)
        rw [heq]
        refine ⟨hkeep.distinct, hkeep.taken, hkeep.memoryDistinct, hkeep.memoryTaken, ?_, ?_⟩
        · rintro bucket ⟨⟩
          simp only [timeBucket]
          omega
        · rintro a ⟨⟩
  | aggregate answer updatedAt =>
      rw [step]
      rcases aggregated_cases hserved h.aggregating with heq | heq | ⟨document, hsnapshot, heq⟩
      · rw [heq]
        exact h.keep _ rfl rfl (Or.inl rfl)
      · rw [heq]
        exact h.keep _ rfl rfl (Or.inr rfl)
      · have hkeep := h.keep (.aggregate answer updatedAt) rfl rfl (Or.inl rfl)
        rw [heq]
        refine ⟨hkeep.distinct, hkeep.taken, hkeep.memoryDistinct, hkeep.memoryTaken, ?_, ?_⟩
        · rintro bucket ⟨⟩
        · rintro a ⟨⟩
          exact hsnapshot.taken _
  | replace ok =>
      rw [step]
      rcases replaced_cases ok (run step start es) with heq | heq | ⟨document, hdocument, heq⟩
      · rw [heq]
        exact h.keep _ rfl rfl (Or.inl rfl)
      · rw [heq]
        exact h.keep _ rfl rfl (Or.inr rfl)
      · have hkeep := h.keep (.replace ok) rfl rfl (Or.inl rfl)
        rw [heq]
        refine ⟨nodup_upsert hkeep.distinct, ?_, hkeep.memoryDistinct, hkeep.memoryTaken, ?_, ?_⟩
        · intro a ha
          rcases mem_upsert ha with hold | rfl
          · exact hkeep.taken a hold
          · exact hkeep.replacing a hdocument
        · rintro bucket ⟨⟩
        · rintro a ⟨⟩

theorem worker_run (hboot : start.Booted) (es : List Event)
    (hserved : EachStep step Served start es) :
    Worker start es (run step start es) := by
  induction es using List.reverseRecOn with
  | nil =>
      constructor <;>
        simp [hboot.analyticsAggregates, hboot.memoryAggregates, hboot.rollup]
  | append_singleton es e ih =>
      rw [eachStep_append] at hserved
      exact (ih hserved.1).concat e hserved.2.1

/-- In every run, in memory and on MongoDB, the timeline has one document for a minute, each
of them a snapshot that counts no more than has finished. -/
theorem timelines_sound (hboot : start.Booted) (es : List Event)
    (hserved : EachStep step Served start es) :
    Sound Analytics.requestLogs start es (run step start es).analyticsAggregates ∧
      Sound Analytics.memoryLogs start es (run step start es).memoryAggregates := by
  have hworker := worker_run hboot es hserved
  constructor
  · refine ⟨hworker.distinct, hworker.taken, fun a ha => (hworker.taken a ha).counted ?_⟩
    intro es p
    exact (Nat.le_add_right _ _).trans (countP_run hboot es p).1
  · refine ⟨hworker.memoryDistinct, hworker.memoryTaken,
      fun a ha => (hworker.memoryTaken a ha).counted ?_⟩
    intro es p
    exact (countP_run hboot es p).2

/-- The second log overtakes the first one, which comes too late for the rollup. -/
def overtaking : List Event :=
  [.connect true, .finish (sampleLog 1000), .finish (sampleLog 2000), .tick 5000 5001,
    .insert (sampleLog 2000) true,
    .aggregate (.ok [(LogStats.ofLogs [(sampleLog 2000).toRequestLog]).toDocument]) 5040,
    .insert (sampleLog 1000) true, .replace true]

theorem timelines_sound_sample :
    Sound Analytics.requestLogs sampleAnalytics overtaking
        (run step sampleAnalytics overtaking).analyticsAggregates ∧
      Sound Analytics.memoryLogs sampleAnalytics overtaking
        (run step sampleAnalytics overtaking).memoryAggregates := by
  have hboot : sampleAnalytics.Booted := ⟨rfl, rfl, rfl, rfl, rfl, rfl, rfl, rfl, rfl⟩
  refine timelines_sound hboot overtaking ?_
  refine ⟨trivial, trivial, trivial, trivial, trivial, ?_, trivial, trivial, trivial⟩
  intro bucket hbucket
  obtain rfl : 0 = bucket := by
    have hstate : (some (.aggregating 0) : Option RollupStep) = some (.aggregating bucket) :=
      hbucket
    simpa using hstate
  exact evaluates_rollup_iff.mpr rfl

end Snapshots

end Analytics

end SentinelADC
