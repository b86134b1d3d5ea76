import SentinelADC.Analytics
import SentinelADC.Lib.Runs

/-!
# What rollups count

An unbounded ledger says what the rollups come to: for every minute the logs
that its last rollup has found, and the minutes in the order of their first
rollup.  The database holds the same as long as no log is evicted, for the last
60 minutes of the ledger.  A rollup looks at the minute of the clock only, so
what arrives after the last tick of its minute is never counted.
-/

namespace SentinelADC

open Runs

/-- Logs of one minute. -/
def ofMinute (minute : Int) (logs : List RequestLog) : List RequestLog :=
  logs.filter (fun entry => timeBucket entry.timestamp = minute)

/-- All logs, and what the rollups have found. -/
structure Ledger where
  logs : List RequestLog
  /-- The logs that the last rollup of a minute has found. -/
  covered : Int → List RequestLog
  /-- The minutes with a rollup, in the order of the first one. -/
  minutes : List Int

namespace Ledger

/-- Nothing has happened. -/
def empty : Ledger where
  logs := []
  covered _ := []
  minutes := []

/-- A rollup of a minute. -/
def rollup (minute : Int) (l : Ledger) : Ledger :=
  let found := ofMinute minute l.logs
  if found = [] then l
  else
    { l with
      covered := Function.update l.covered minute found
      minutes := if minute ∈ l.minutes then l.minutes else l.minutes ++ [minute] }

/-- One event. -/
def step (l : Ledger) : AnalyticsDb.Event → Ledger
  | .log entry => { l with logs := l.logs ++ [entry] }
  | .tick now _ => l.rollup (timeBucket now)

/-- The minutes are those that something was found for, and come in order. -/
structure Sound (l : Ledger) (now : Int) : Prop where
  covered : ∀ minute, (l.covered minute).Sublist (ofMinute minute l.logs)
  minutes : ∀ minute, minute ∈ l.minutes ↔ l.covered minute ≠ []
  sorted : l.minutes.Pairwise (· < ·)
  past : ∀ minute ∈ l.minutes, minute ≤ timeBucket now

section Sound

variable {l : Ledger} {now now' : Int}

theorem timeBucket_mono (h : now ≤ now') :
    timeBucket now ≤ timeBucket now' := by
  simp only [timeBucket]
  omega

theorem sound_empty (now : Int) :
    empty.Sound now :=
  ⟨fun _ => List.nil_sublist _, by simp [empty], List.Pairwise.nil, by simp [empty]⟩

theorem Sound.later (h : l.Sound now) (hle : now ≤ now') :
    l.Sound now' :=
  ⟨h.covered, h.minutes, h.sorted,
    fun minute hmem => (h.past minute hmem).trans (timeBucket_mono hle)⟩

theorem Sound.log (h : l.Sound now) (entry : RequestLog) :
    ({ l with logs := l.logs ++ [entry] } : Ledger).Sound now := by
  refine ⟨fun minute => (h.covered minute).trans ?_, h.minutes, h.sorted, h.past⟩
  exact List.Sublist.filter _ (List.sublist_append_left _ _)

theorem Sound.rollup (h : l.Sound now) :
    (l.rollup (timeBucket now)).Sound now := by
  simp only [Ledger.rollup]
  split_ifs with hfound hmem
  · exact h
  all_goals
    refine ⟨fun minute => ?_, fun minute => ?_, ?_, ?_⟩
    · by_cases heq : minute = timeBucket now
      · subst heq
        simp
      · simpa [heq] using h.covered minute
  · by_cases heq : minute = timeBucket now
    · subst heq
      simp [hmem, hfound]
    · simpa [heq] using h.minutes minute
  · exact h.sorted
  · exact h.past
  · by_cases heq : minute = timeBucket now
    · subst heq
      simp [hfound]
    · simpa [heq] using h.minutes minute
  · rw [List.pairwise_append]
    refine ⟨h.sorted, List.pairwise_singleton _ _, ?_⟩
    intro minute hminute minute' hminute'
    rw [List.mem_singleton.mp hminute']
    exact lt_of_le_of_ne (h.past minute hminute) (fun heq => hmem (heq ▸ hminute))
  · intro minute hminute
    rcases List.mem_append.mp hminute with hminute | hminute
    · exact h.past minute hminute
    · exact (List.mem_singleton.mp hminute).le

theorem Sound.step (h : l.Sound now) {e : AnalyticsDb.Event} (hle : now ≤ e.time) :
    (l.step e).Sound e.time := by
  cases e with
  | log entry => exact (h.later hle).log entry
  | tick now' updatedAt => exact (h.later hle).rollup

end Sound

end Ledger

namespace AnalyticsDb

/-- The database holds the logs of the ledger and a document for each of its
last 60 minutes. -/
structure Refines (db : AnalyticsDb) (l : Ledger) : Prop where
  active : db.isActive = true
  logs : db.memoryLogs = l.logs
  buckets : db.memoryAggregates.map RollupDocument.timeBucket = l.minutes.rtake 60
  documents : ∀ a ∈ db.memoryAggregates,
    a.requestCount = (l.covered a.timeBucket).length ∧
      a.bytesTransferred = ((l.covered a.timeBucket).map RequestLog.payloadSizeBytes).sum

section Refines

variable {db : AnalyticsDb} {l : Ledger} {now updatedAt : Int} {document : RollupDocument}

theorem findIdx?_of_new {minute : Int} {aggregates : List RollupDocument}
    (h : minute ∉ aggregates.map RollupDocument.timeBucket) :
    aggregates.findIdx? (fun a => a.timeBucket = minute) = none := by
  rw [List.findIdx?_eq_none_iff]
  intro a ha
  rw [decide_eq_false_iff_not]
  rintro rfl
  exact h (List.mem_map_of_mem ha)

theorem upsert_of_new {aggregates : List RollupDocument}
    (h : document.timeBucket ∉ aggregates.map RollupDocument.timeBucket) :
    upsert document aggregates = aggregates ++ [document] := by
  rw [upsert, findIdx?_of_new h]

theorem upsert_of_last {aggregates : List RollupDocument} {last : RollupDocument}
    (hlast : last.timeBucket = document.timeBucket)
    (h : document.timeBucket ∉ aggregates.map RollupDocument.timeBucket) :
    upsert document (aggregates ++ [last]) = aggregates ++ [document] := by
  have hidx : (aggregates ++ [last]).findIdx? (fun a => a.timeBucket = document.timeBucket) =
      some aggregates.length := by
    simp [List.findIdx?_append, findIdx?_of_new h, List.findIdx?_cons, hlast]
  rw [upsert, hidx]
  simp

theorem aggregateLogs_eq :
    db.aggregateLogs (timeBucket now) (timeBucket now + 60000) =
      if ofMinute (timeBucket now) db.memoryLogs = [] then none
      else some (LogStats.ofLogs (ofMinute (timeBucket now) db.memoryLogs)) := by
  have hwindow : db.memoryLogs.filter (fun entry =>
      timeBucket now ≤ entry.timestamp ∧ entry.timestamp < timeBucket now + 60000) =
      ofMinute (timeBucket now) db.memoryLogs := by
    refine List.filter_congr (fun entry _ => ?_)
    simp only [mem_window_iff]
  rw [aggregateLogs, hwindow]

theorem Refines.log (h : db.Refines l) (hroom : l.logs.length < 1000) (entry : RequestLog) :
    (db.insertLog entry).Refines { l with logs := l.logs ++ [entry] } := by
  have hlogs : pushCapped 1000 entry db.memoryLogs = l.logs ++ [entry] := by
    rw [h.logs, pushCapped_of_lt hroom]
  simp only [insertLog, h.active, if_true, hlogs]
  exact ⟨h.active, rfl, h.buckets, h.documents⟩

/-- The documents after a rollup that has found something. -/
theorem Refines.insert (h : db.Refines l) (hsound : l.Sound now) (document : RollupDocument)
    (hbucket : document.timeBucket = timeBucket now) :
    ∃ kept : List RollupDocument,
      (db.insertAggregate document).memoryAggregates = kept ++ [document] ∧
        (∀ a ∈ kept, a ∈ db.memoryAggregates ∧ a.timeBucket ≠ timeBucket now) ∧
        (kept ++ [document]).map RollupDocument.timeBucket =
          (if timeBucket now ∈ l.minutes then l.minutes
            else l.minutes ++ [timeBucket now]).rtake 60 := by
  simp only [insertAggregate, h.active, if_true]
  by_cases hmem : timeBucket now ∈ l.minutes
  · -- the minute of the clock is the last one of the ledger, so its document is the last
    obtain ⟨before, after, hsplit⟩ := List.append_of_mem hmem
    have hsorted := hsound.sorted
    rw [hsplit, List.pairwise_append, List.pairwise_cons] at hsorted
    have hafter : after = [] := by
      refine List.eq_nil_iff_forall_not_mem.mpr (fun minute hminute => ?_)
      have hlt := hsorted.2.1.1 minute hminute
      have hle := hsound.past minute (by rw [hsplit]; simp [hminute])
      omega
    subst hafter
    have hbuckets := h.buckets
    rw [hsplit, List.rtake_concat_succ] at hbuckets
    obtain ⟨kept, tail, hkept, hbefore, htail⟩ := List.map_eq_append_iff.mp hbuckets
    obtain ⟨last, rfl, hlast⟩ := List.map_eq_singleton_iff.mp htail
    have hfresh : timeBucket now ∉ kept.map RollupDocument.timeBucket := by
      rw [hbefore]
      intro hin
      exact lt_irrefl _ (hsorted.2.2 _ (List.mem_of_mem_drop hin) _ List.mem_cons_self)
    have hupsert : upsert document db.memoryAggregates = kept ++ [document] := by
      rw [hkept]
      exact upsert_of_last (hlast.trans hbucket.symm) (hbucket.symm ▸ hfresh)
    have hlength : ¬ 60 < (kept ++ [document]).length := by
      have hle : (kept.map RollupDocument.timeBucket).length ≤ 59 := by
        rw [hbefore, List.rtake, List.length_drop]
        omega
      simp only [List.length_map] at hle
      simp only [List.length_append, List.length_singleton]
      omega
    rw [hupsert, if_neg hlength, if_pos hmem]
    refine ⟨kept, rfl, fun a ha => ⟨?_, ?_⟩, ?_⟩
    · rw [hkept]
      exact List.mem_append_left _ ha
    · intro heq
      exact hfresh (heq ▸ List.mem_map_of_mem ha)
    · rw [hsplit, List.rtake_concat_succ, List.map_append, hbefore, List.map_singleton, hbucket]
  · have hfresh : timeBucket now ∉ db.memoryAggregates.map RollupDocument.timeBucket := by
      rw [h.buckets]
      exact fun hin => hmem (List.mem_of_mem_drop hin)
    have hpush : (if 60 < (upsert document db.memoryAggregates).length then
        (upsert document db.memoryAggregates).tail else upsert document db.memoryAggregates) =
        pushCapped 60 document db.memoryAggregates := by
      rw [upsert_of_new (hbucket.symm ▸ hfresh)]
      rfl
    obtain ⟨kept, hkept, hsub⟩ := exists_of_pushCapped (show 0 < 60 by omega) document
      db.memoryAggregates
    rw [hpush, hkept, if_neg hmem]
    refine ⟨kept, rfl, fun a ha => ⟨hsub a ha, ?_⟩, ?_⟩
    · intro heq
      exact hfresh (heq ▸ List.mem_map_of_mem (hsub a ha))
    · rw [← hkept, map_pushCapped, h.buckets, hbucket, pushCapped_rtake (by omega)]

theorem Refines.rollup (h : db.Refines l) (hsound : l.Sound now) :
    (db.runRollup now updatedAt).Refines (l.rollup (timeBucket now)) := by
  simp only [runRollup, h.active, if_true, aggregateLogs_eq, h.logs, Ledger.rollup]
  by_cases hfound : ofMinute (timeBucket now) l.logs = []
  · simp only [if_pos hfound]
    exact h
  · simp only [if_neg hfound]
    obtain ⟨kept, hkept, hold, hbuckets⟩ := h.insert hsound ((LogStats.ofLogs
      (ofMinute (timeBucket now) l.logs)).document (timeBucket now) updatedAt) rfl
    have hsame : ∀ document, (db.insertAggregate document).isActive = true ∧
        (db.insertAggregate document).memoryLogs = l.logs := by
      intro document
      simp only [insertAggregate, h.active, if_true]
      exact ⟨h.active, h.logs⟩
    refine ⟨(hsame _).1, (hsame _).2, hkept ▸ hbuckets, ?_⟩
    rw [hkept]
    intro a ha
    rcases List.mem_append.mp ha with ha | ha
    · obtain ⟨hmem, hne⟩ := hold a ha
      simpa [hne] using h.documents a hmem
    · obtain rfl := List.mem_singleton.mp ha
      simp [LogStats.document]

theorem Refines.step (h : db.Refines l) (hsound : l.Sound now) {e : Event} (hle : now ≤ e.time)
    (hroom : (l.step e).logs.length ≤ 1000) :
    (db.step e).Refines (l.step e) := by
  cases e with
  | log entry =>
      refine h.log ?_ entry
      simp only [Ledger.step, List.length_append, List.length_singleton] at hroom
      omega
  | tick now' updatedAt => exact h.rollup (hsound.later hle)

/-- The logs among the events. -/
def logsOf (es : List Event) : List RequestLog :=
  es.filterMap (fun e =>
    match e with
    | .log entry => some entry
    | .tick _ _ => none)

theorem logs_step (l : Ledger) (e : Event) :
    (l.step e).logs = l.logs ++ logsOf [e] := by
  cases e with
  | log entry => rfl
  | tick now updatedAt =>
      simp only [Ledger.step, Ledger.rollup, logsOf, List.filterMap_cons, List.filterMap_nil,
        List.append_nil]
      split_ifs <;> rfl

theorem logs_run (l : Ledger) (es : List Event) :
    (run Ledger.step l es).logs = l.logs ++ logsOf es := by
  induction es generalizing l with
  | nil => simp [logsOf]
  | cons e es ih =>
      rw [run_cons, ih, logs_step, List.append_assoc]
      simp only [logsOf, ← List.filterMap_append, List.singleton_append]

/-- The database follows the ledger under a clock that does not go back. -/
theorem refines_run_of_sound {es : List Event} (h : db.Refines l) (hsound : l.Sound now)
    (hfrom : ∀ e ∈ es, now ≤ e.time) (hclock : (es.map Event.time).Pairwise (· ≤ ·))
    (hroom : (run Ledger.step l es).logs.length ≤ 1000) :
    (run step db es).Refines (run Ledger.step l es) ∧
      ∃ now', (run Ledger.step l es).Sound now' := by
  induction es generalizing db l now with
  | nil => exact ⟨h, now, hsound⟩
  | cons e es ih =>
      rw [List.map_cons, List.pairwise_cons] at hclock
      have hlater : ∀ e' ∈ es, e.time ≤ e'.time :=
        fun e' he' => hclock.1 _ (List.mem_map_of_mem he')
      have hle : now ≤ e.time := hfrom e List.mem_cons_self
      have hstep : (l.step e).logs.length ≤ 1000 := by
        rw [run_cons, logs_run, List.length_append] at hroom
        omega
      exact ih (h.step hsound hle hstep) (hsound.step hle) hlater hclock.2 hroom

theorem Booted.refines (h : db.Booted) :
    db.Refines Ledger.empty :=
  ⟨h.active, h.logs, by simp [h.aggregates, Ledger.empty], by simp [h.aggregates]⟩

theorem Booted.refines_run {es : List Event} (h : db.Booted)
    (hclock : (es.map Event.time).Pairwise (· ≤ ·)) (hroom : (logsOf es).length ≤ 1000) :
    (run step db es).Refines (run Ledger.step Ledger.empty es) ∧
      ∃ now, (run Ledger.step Ledger.empty es).Sound now := by
  have hlogs : (run Ledger.step Ledger.empty es).logs.length ≤ 1000 := by
    rw [logs_run]
    exact hroom
  cases es with
  | nil => exact ⟨h.refines, 0, Ledger.sound_empty 0⟩
  | cons e es =>
      refine refines_run_of_sound h.refines (Ledger.sound_empty e.time) ?_ hclock hlogs
      intro e' he'
      rcases List.mem_cons.mp he' with rfl | he'
      · exact le_refl _
      · exact (List.pairwise_cons.mp hclock).1 _ (List.mem_map_of_mem he')

/-- What the database says about a minute. -/
theorem Refines.stored (h : db.Refines l) (minute : Int) :
    db.storedCount minute =
        (if minute ∈ l.minutes.rtake 60 then (l.covered minute).length else 0) ∧
      db.storedBytes minute =
        (if minute ∈ l.minutes.rtake 60 then
          ((l.covered minute).map RequestLog.payloadSizeBytes).sum else 0) := by
  simp only [storedCount, storedBytes, ← h.buckets]
  cases hfind : db.memoryAggregates.find? (fun a => a.timeBucket = minute) with
  | none =>
      have hnot : minute ∉ db.memoryAggregates.map RollupDocument.timeBucket := by
        simpa using hfind
      simp [hnot]
  | some a =>
      obtain rfl : a.timeBucket = minute := by simpa using List.find?_some hfind
      have ha := List.mem_of_find?_eq_some hfind
      obtain ⟨hcount, hbytes⟩ := h.documents a ha
      rw [if_pos (List.mem_map_of_mem ha), if_pos (List.mem_map_of_mem ha)]
      exact ⟨hcount, hbytes⟩

/-- Every log of the minute is followed by a tick in the same minute. -/
def RolledUp (minute : Int) (es : List Event) : Prop :=
  ∀ pre entry post, es = pre ++ .log entry :: post → timeBucket entry.timestamp = minute →
    ∃ now updatedAt, .tick now updatedAt ∈ post ∧ timeBucket now = minute

theorem rolledUp_nil (minute : Int) :
    RolledUp minute [] := by
  intro pre entry post heq
  simp at heq

/-- One more log. -/
theorem rolledUp_log (minute : Int) (es : List Event) (entry : RequestLog) :
    RolledUp minute (es ++ [.log entry]) ↔
      timeBucket entry.timestamp ≠ minute ∧ RolledUp minute es := by
  constructor
  · intro h
    refine ⟨fun heq => ?_, fun pre entry' post hsplit hminute => ?_⟩
    · obtain ⟨_, _, hmem, _⟩ := h es entry [] rfl heq
      simp at hmem
    · obtain ⟨now, updatedAt, hmem, hnow⟩ :=
        h pre entry' (post ++ [.log entry]) (by simp [hsplit]) hminute
      exact ⟨now, updatedAt, by simpa using hmem, hnow⟩
  · rintro ⟨hne, h⟩ pre entry' post hsplit hminute
    rcases List.eq_nil_or_concat post with rfl | ⟨post, last, rfl⟩
    · obtain ⟨_, heq⟩ := List.append_inj' hsplit rfl
      obtain rfl : entry = entry' := by simpa using heq
      exact absurd hminute hne
    · rw [List.concat_eq_append, ← List.cons_append, ← List.append_assoc] at hsplit
      obtain ⟨hes, _⟩ := List.append_inj' hsplit rfl
      obtain ⟨now, updatedAt, hmem, hnow⟩ := h pre entry' post hes hminute
      exact ⟨now, updatedAt, by simp [hmem], hnow⟩

/-- One more tick. -/
theorem rolledUp_tick (minute : Int) (es : List Event) (now updatedAt : Int) :
    RolledUp minute (es ++ [.tick now updatedAt]) ↔
      timeBucket now = minute ∨ RolledUp minute es := by
  constructor
  · intro h
    by_cases heq : timeBucket now = minute
    · exact Or.inl heq
    · refine Or.inr (fun pre entry post hsplit hminute => ?_)
      obtain ⟨now', updatedAt', hmem, hnow⟩ :=
        h pre entry (post ++ [.tick now updatedAt]) (by simp [hsplit]) hminute
      rcases List.mem_append.mp hmem with hmem | hmem
      · exact ⟨now', updatedAt', hmem, hnow⟩
      · obtain ⟨rfl, rfl⟩ : now' = now ∧ updatedAt' = updatedAt := by simpa using hmem
        exact absurd hnow heq
  · intro h pre entry post hsplit hminute
    rcases List.eq_nil_or_concat post with rfl | ⟨post, last, rfl⟩
    · obtain ⟨_, heq⟩ := List.append_inj' hsplit rfl
      simp at heq
    · rw [List.concat_eq_append, ← List.cons_append, ← List.append_assoc] at hsplit
      obtain ⟨hes, hlast⟩ := List.append_inj' hsplit rfl
      obtain rfl : .tick now updatedAt = last := by simpa using hlast
      rcases h with heq | h
      · exact ⟨now, updatedAt, by simp, heq⟩
      · obtain ⟨now', updatedAt', hmem, hnow⟩ := h pre entry post hes hminute
        exact ⟨now', updatedAt', by simp [hmem], hnow⟩

theorem covered_rollup (minute minute' : Int) (l : Ledger) :
    (l.rollup minute').covered minute =
      if minute = minute' ∧ ofMinute minute l.logs ≠ [] then ofMinute minute l.logs
      else l.covered minute := by
  by_cases heq : minute = minute'
  · subst heq
    simp only [Ledger.rollup]
    split_ifs with hfound <;> simp_all
  · simp only [Ledger.rollup]
    split_ifs <;> simp_all

/-- What the last rollup of a minute has found, and what it has not. -/
theorem covered_eq_iff (minute : Int) (es : List Event) :
    ((run Ledger.step Ledger.empty es).covered minute).Sublist (ofMinute minute (logsOf es)) ∧
      ((run Ledger.step Ledger.empty es).covered minute = ofMinute minute (logsOf es) ↔
        RolledUp minute es) := by
  induction es using List.reverseRecOn with
  | nil => exact ⟨List.nil_sublist _, fun _ => rolledUp_nil minute, fun _ => rfl⟩
  | append_singleton es e ih =>
      obtain ⟨hsub, hiff⟩ := ih
      have hlogs : (run Ledger.step Ledger.empty es).logs = logsOf es :=
        logs_run Ledger.empty es
      rw [run_append, run_cons, run_nil]
      cases e with
      | log entry =>
          have hmore : ofMinute minute (logsOf (es ++ [.log entry])) =
              ofMinute minute (logsOf es) ++ ofMinute minute [entry] := by
            simp [ofMinute, logsOf]
          rw [rolledUp_log, hmore]
          by_cases heq : timeBucket entry.timestamp = minute
          · have hone : ofMinute minute [entry] = [entry] := by simp [ofMinute, heq]
            rw [hone]
            refine ⟨hsub.trans (List.sublist_append_left _ _), fun hall => ?_, fun h => ?_⟩
            · have hlength := hsub.length_le
              have hcovered : ((run Ledger.step Ledger.empty es).covered minute).length =
                  (ofMinute minute (logsOf es) ++ [entry]).length := congrArg List.length hall
              simp only [List.length_append, List.length_singleton] at hcovered
              omega
            · exact absurd heq h.1
          · have hone : ofMinute minute [entry] = [] := by simp [ofMinute, heq]
            rw [hone, List.append_nil]
            exact ⟨hsub, hiff.trans (by simp [heq])⟩
      | tick now updatedAt =>
          have hsame : logsOf (es ++ [.tick now updatedAt]) = logsOf es := by simp [logsOf]
          rw [rolledUp_tick, hsame]
          simp only [Ledger.step]
          rw [covered_rollup, hlogs]
          by_cases heq : timeBucket now = minute
          · have hall : (if minute = timeBucket now ∧ ofMinute minute (logsOf es) ≠ [] then
                ofMinute minute (logsOf es)
                else (run Ledger.step Ledger.empty es).covered minute) =
                ofMinute minute (logsOf es) := by
              split_ifs with hfound
              · rfl
              · have hempty : ofMinute minute (logsOf es) = [] := by
                  by_contra hne
                  exact hfound ⟨heq.symm, hne⟩
                rw [hempty] at hsub ⊢
                exact List.sublist_nil.mp hsub
            rw [hall]
            exact ⟨List.Sublist.refl _, fun _ => Or.inl heq, fun _ => rfl⟩
          · rw [if_neg (fun h => heq h.1.symm)]
            exact ⟨hsub, hiff.trans (by simp [heq])⟩

/-- How many later minutes have been rolled up. -/
def laterMinutes (minute : Int) (es : List Event) : Nat :=
  (run Ledger.step Ledger.empty es).minutes.countP (fun other => minute < other)

/-- The stored document of a minute counts all its logs exactly when each of
them was followed by a tick of the same minute, and the document, if there is
something to count, has not given way to those of 60 later minutes. -/
theorem rollup_complete_iff (hboot : db.Booted) {es : List Event}
    (hclock : (es.map Event.time).Pairwise (· ≤ ·)) (hroom : (logsOf es).length ≤ 1000)
    (minute : Int) :
    ((run step db es).storedCount minute = (ofMinute minute (logsOf es)).length ∧
        (run step db es).storedBytes minute =
          ((ofMinute minute (logsOf es)).map RequestLog.payloadSizeBytes).sum) ↔
      RolledUp minute es ∧
        (ofMinute minute (logsOf es) = [] ∨ laterMinutes minute es < 60) := by
  obtain ⟨hrefines, now, hsound⟩ := hboot.refines_run hclock hroom
  obtain ⟨hsub, hiff⟩ := covered_eq_iff minute es
  obtain ⟨hcount, hbytes⟩ := hrefines.stored minute
  have hkept : (run Ledger.step Ledger.empty es).covered minute ≠ [] →
      (minute ∈ (run Ledger.step Ledger.empty es).minutes.rtake 60 ↔
        laterMinutes minute es < 60) :=
    fun hne => mem_rtake_iff hsound.sorted ((hsound.minutes minute).mpr hne) 60
  rw [hcount, hbytes, ← hiff]
  constructor
  · rintro ⟨hlength, _⟩
    split_ifs at hlength with hmem
    · have hall := hsub.eq_of_length hlength
      refine ⟨hall, ?_⟩
      by_cases hempty : ofMinute minute (logsOf es) = []
      · exact Or.inl hempty
      · exact Or.inr ((hkept (hall ▸ hempty)).mp hmem)
    · have hempty := List.length_eq_zero_iff.mp hlength.symm
      rw [hempty] at hsub ⊢
      exact ⟨List.sublist_nil.mp hsub, Or.inl rfl⟩
  · rintro ⟨hall, hretained⟩
    by_cases hempty : ofMinute minute (logsOf es) = []
    · rw [hall, hempty]
      simp
    · have hmem := (hkept (hall ▸ hempty)).mpr (hretained.resolve_left hempty)
      rw [if_pos hmem, if_pos hmem, hall]
      exact ⟨rfl, rfl⟩

end Refines

section Runs

/-- The times of the ticks. -/
def ticksOf (es : List Event) : List Int :=
  es.filterMap (fun e =>
    match e with
    | .log _ => none
    | .tick now _ => some now)

/-- The gateway without MongoDB, right after start-up. -/
def sampleDb : AnalyticsDb where
  enabled := true
  useMemoryFallback := true
  memoryLogs := []
  memoryAggregates := []

theorem booted_sampleDb : sampleDb.Booted :=
  ⟨rfl, rfl, rfl⟩

/-- Two requests in the first minute, the second one at a given time. -/
def firstMinute (second : Int) : List Event :=
  [.log ⟨1000, 200, 3, none, 10⟩, .tick 5000 5001, .tick 15000 15001, .tick 25000 25001,
    .tick 35000 35001, .tick 45000 45001] ++
  (if second < 55000 then [.log ⟨second, 200, 4, some "HIT", 20⟩, .tick 55000 55001]
    else [.tick 55000 55001, .log ⟨second, 200, 4, some "HIT", 20⟩]) ++
  [.tick 65000 65001]

theorem rollup_complete_iff_sample :
    (run step sampleDb (firstMinute 52000)).storedCount 0 =
        (ofMinute 0 (logsOf (firstMinute 52000))).length ∧
      (run step sampleDb (firstMinute 52000)).storedBytes 0 =
        ((ofMinute 0 (logsOf (firstMinute 52000))).map RequestLog.payloadSizeBytes).sum := by
  refine (rollup_complete_iff booted_sampleDb (by decide) (by decide) 0).mpr
    ⟨?_, Or.inr (by decide)⟩
  rw [← (covered_eq_iff 0 (firstMinute 52000)).2]
  decide

/-- With ticks every ten seconds, a request two seconds before the end of its
minute is not counted. -/
theorem rollup_incomplete :
    ¬ ∀ (db : AnalyticsDb) (es : List Event) (phase : Int) (ticks : Nat) (minute : Int),
      db.Booted → (es.map Event.time).Pairwise (· ≤ ·) → (logsOf es).length ≤ 1000 →
      ticksOf es = (List.range ticks).map (fun (i : Nat) => phase + 10000 * (i : Int)) →
      timeBucket minute = minute → (∃ now ∈ ticksOf es, minute + 60000 ≤ now) →
      (run step db es).storedCount minute = (ofMinute minute (logsOf es)).length ∧
        (run step db es).storedBytes minute =
          ((ofMinute minute (logsOf es)).map RequestLog.payloadSizeBytes).sum := by
  intro hclaim
  have hcount := (hclaim sampleDb (firstMinute 58000) 5000 7 0 booted_sampleDb (by decide)
    (by decide) (by decide) (by decide) (by decide)).1
  revert hcount
  decide

end Runs

end AnalyticsDb

end SentinelADC
