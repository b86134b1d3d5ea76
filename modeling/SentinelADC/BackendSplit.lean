import SentinelADC.Analytics
import SentinelADC.Strategies
import SentinelADC.Lib.GroupBy
import Mathlib.Data.List.Sort

/-!
# Traffic per backend

`aggregateBackends` of `analytics/analyticsDb.js`.  The groups are the
properties of a plain object, looked up by the backend's name: a name that every
object inherits is found there before a group of that name exists.
-/

namespace SentinelADC

open KeyedList

/-- The part of a request log that `aggregateBackends` reads. -/
structure BackendLog extends RequestLog where
  backendId : Option String
  backendUrl : Option String
deriving DecidableEq, Repr

/-- A value of `groups`. -/
structure BackendGroup where
  backendId : String
  backendUrl : Option String
  requestCount : Nat
  totalLatency : Rat
  errorCount : Nat
  cacheHitCount : Nat
deriving DecidableEq, Repr

/-- A backend in the result. -/
structure BackendSplit where
  backendId : String
  backendUrl : Option String
  requestCount : Nat
  averageLatencyMs : Rat
  errorCount : Nat
  cacheHitCount : Nat
deriving DecidableEq, Repr

namespace BackendLog

/-- Counted in `errorCount`. -/
def failed (log : BackendLog) : Bool :=
  400 ≤ log.statusCode

/-- Counted in `cacheHitCount`. -/
def cacheHit (log : BackendLog) : Bool :=
  log.cacheStatus = some "HIT"

end BackendLog

namespace BackendGroup

/-- The group that a log opens under its backend's name. -/
def start (bid : String) (log : BackendLog) : BackendGroup where
  backendId := bid
  backendUrl := log.backendUrl
  requestCount := 0
  totalLatency := 0
  errorCount := 0
  cacheHitCount := 0

/-- The rest of an iteration, with `g` the group of the log. -/
def add (g : BackendGroup) (log : BackendLog) : BackendGroup :=
  { g with
    requestCount := g.requestCount + 1
    totalLatency := g.totalLatency + log.latencyMs
    errorCount := if 400 ≤ log.statusCode then g.errorCount + 1 else g.errorCount
    cacheHitCount :=
      if log.cacheStatus = some "HIT" then g.cacheHitCount + 1 else g.cacheHitCount }

/-- What the result says of a group. -/
def split (g : BackendGroup) : BackendSplit where
  backendId := g.backendId
  backendUrl := g.backendUrl
  requestCount := g.requestCount
  averageLatencyMs := round2 (g.totalLatency / g.requestCount)
  errorCount := g.errorCount
  cacheHitCount := g.cacheHitCount

/-- One iteration of the loop, for a log and its `bid`. -/
def countLog (groups : List BackendGroup) (entry : String × BackendLog) : List BackendGroup :=
  match findKey backendId entry.1 groups with
  | some _ => updateKey backendId entry.1 (fun g => g.add entry.2) groups
  | none =>
      -- `groups[bid]` is the inherited member, and `g` too: no group sees the log.
      if entry.1 ∈ Strategy.inheritedMembers then groups
      else groups ++ [(start entry.1 entry.2).add entry.2]

/-- A property key that is an array index. -/
def arrayIndex (key : String) : Option Nat :=
  key.toNat?.filter (fun n => toString n = key ∧ n < 2 ^ 32 - 1)

/-- `Object.values`: array indices come first and in ascending order. -/
def objectValues (groups : List BackendGroup) : List BackendGroup :=
  (groups.filter (fun g => (arrayIndex g.backendId).isSome)).insertionSort
      (fun g g' => (arrayIndex g.backendId).getD 0 ≤ (arrayIndex g'.backendId).getD 0) ++
    groups.filter (fun g => !(arrayIndex g.backendId).isSome)

end BackendGroup

/-- The logs that have a `bid`, each with it. -/
def backendEntries (logs : List BackendLog) : List (String × BackendLog) :=
  logs.filterMap (fun l => l.backendId.map (fun bid => (bid, l)))

/-- `aggregateBackends`. -/
def aggregateBackends (halfHourAgo : Int) (memoryLogs : List BackendLog) : List BackendSplit :=
  let logs := memoryLogs.filter (fun l => halfHourAgo ≤ l.timestamp ∧ l.backendId ≠ none)
  let groups := (backendEntries logs).foldl BackendGroup.countLog []
  (BackendGroup.objectValues groups).map BackendGroup.split

/-- The logs of the window. -/
def logWindow (halfHourAgo : Int) (memoryLogs : List BackendLog) : List BackendLog :=
  memoryLogs.filter (fun l => halfHourAgo ≤ l.timestamp)

/-- A counter of the result counts the logs with a property, each for its own backend. -/
structure Tallied (counter : BackendSplit → Nat) (p : BackendLog → Bool)
    (window : List BackendLog) (result : List BackendSplit) : Prop where
  own : ∀ split ∈ result, counter split =
    window.countP (fun l => l.backendId = some split.backendId ∧ p l)
  total : (result.map counter).sum = window.countP (fun l => l.backendId.isSome ∧ p l)

/-- The result splits the logs of the window that have a backend. -/
structure Partitions (window : List BackendLog) (result : List BackendSplit) : Prop where
  distinct : (result.map BackendSplit.backendId).Nodup
  covers : ∀ log ∈ window, ∀ bid, log.backendId = some bid →
    bid ∈ result.map BackendSplit.backendId
  requests : Tallied BackendSplit.requestCount (fun _ => true) window result
  errors : Tallied BackendSplit.errorCount BackendLog.failed window result
  cacheHits : Tallied BackendSplit.cacheHitCount BackendLog.cacheHit window result

namespace BackendGroup

/-- Groups by the backend's name. -/
def byBackend : Grouping (String × BackendLog) BackendGroup String where
  id := Prod.fst
  key := backendId
  start entry := start entry.1 entry.2
  add g entry := g.add entry.2
  key_start _ := rfl
  key_add _ _ := rfl

section Loop

variable {groups : List BackendGroup} {entry : String × BackendLog}

theorem countLog_of_own (hname : entry.1 ∉ Strategy.inheritedMembers) :
    countLog groups entry = byBackend.insert groups entry := by
  cases hfind : findKey backendId entry.1 groups with
  | some g =>
      have hfind' : findKey byBackend.key (byBackend.id entry) groups = some g := hfind
      rw [countLog, hfind, Grouping.insert_of_some hfind']
      rfl
  | none =>
      have hfind' : findKey byBackend.key (byBackend.id entry) groups = none := hfind
      rw [countLog, hfind, Grouping.insert_of_none hfind']
      exact if_neg hname

theorem countLog_of_inherited (hname : entry.1 ∈ Strategy.inheritedMembers)
    (hgroups : ∀ g ∈ groups, g.backendId ∉ Strategy.inheritedMembers) :
    countLog groups entry = groups := by
  have hfind : findKey backendId entry.1 groups = none := by
    rw [← Option.not_isSome_iff_eq_none, findKey_isSome_iff, List.mem_map]
    rintro ⟨g, hg, heq⟩
    exact hgroups g hg (heq ▸ hname)
  rw [countLog, hfind]
  exact if_pos hname

/-- A group has the name of one of the logs, which is not inherited. -/
theorem backendId_of_mem_kept {entries : List (String × BackendLog)} {g : BackendGroup}
    (hg : g ∈ byBackend.groups
      (entries.filter (fun entry => entry.1 ∉ Strategy.inheritedMembers))) :
    g.backendId ∉ Strategy.inheritedMembers := by
  obtain ⟨entry, hentry, heq⟩ :=
    (Grouping.mem_keys_groups (G := byBackend) _).mp (List.mem_map_of_mem hg)
  have hname : entry.1 ∉ Strategy.inheritedMembers := by
    simpa using (List.mem_filter.mp hentry).2
  have heq : entry.1 = g.backendId := heq
  exact fun hmem => hname (heq ▸ hmem)

/-- The loop groups the logs whose backend has no inherited name. -/
theorem foldl_countLog (entries : List (String × BackendLog)) :
    entries.foldl countLog [] =
      byBackend.groups (entries.filter (fun entry => entry.1 ∉ Strategy.inheritedMembers)) := by
  induction entries using List.reverseRecOn with
  | nil => rfl
  | append_singleton entries entry ih =>
      rw [List.foldl_append, ih, List.filter_append, List.foldl_cons, List.foldl_nil]
      by_cases hname : entry.1 ∈ Strategy.inheritedMembers
      · rw [countLog_of_inherited hname (fun g hg => backendId_of_mem_kept hg)]
        simp [hname]
      · have hkeep : [entry].filter (fun entry => entry.1 ∉ Strategy.inheritedMembers) =
            [entry] := by
          simp [hname]
        rw [hkeep, Grouping.groups_concat, countLog_of_own hname]

end Loop

theorem objectValues_perm (groups : List BackendGroup) : (objectValues groups).Perm groups :=
  ((List.perm_insertionSort _ _).append_right _).trans (List.filter_append_perm _ _)

/-- The counters of a group start at zero and count the logs. -/
theorem tallies_requestCount : byBackend.Tallies requestCount (fun _ => 1) :=
  ⟨fun _ => rfl, fun _ _ => rfl⟩

theorem tallies_errorCount :
    byBackend.Tallies errorCount (fun entry => if entry.2.failed then 1 else 0) := by
  refine ⟨fun _ => rfl, fun g entry => ?_⟩
  simp only [byBackend, add, BackendLog.failed, decide_eq_true_eq]
  split <;> rfl

theorem tallies_cacheHitCount :
    byBackend.Tallies cacheHitCount (fun entry => if entry.2.cacheHit then 1 else 0) := by
  refine ⟨fun _ => rfl, fun g entry => ?_⟩
  simp only [byBackend, add, BackendLog.cacheHit, decide_eq_true_eq]
  split <;> rfl

end BackendGroup

section Result

variable {halfHourAgo : Int} {memoryLogs window : List BackendLog}

theorem mem_backendEntries {entry : String × BackendLog} :
    entry ∈ backendEntries window ↔ entry.2 ∈ window ∧ entry.2.backendId = some entry.1 := by
  simp only [backendEntries, List.mem_filterMap, Option.map_eq_some_iff]
  constructor
  · rintro ⟨log, hlog, bid, hbid, rfl⟩
    exact ⟨hlog, hbid⟩
  · rintro ⟨hlog, hbid⟩
    exact ⟨entry.2, hlog, entry.1, hbid, rfl⟩

/-- Logs without a backend have no entry, in the code's list or in the window. -/
theorem backendEntries_logs (halfHourAgo : Int) (memoryLogs : List BackendLog) :
    backendEntries
        (memoryLogs.filter (fun l => halfHourAgo ≤ l.timestamp ∧ l.backendId ≠ none)) =
      backendEntries (logWindow halfHourAgo memoryLogs) := by
  rw [backendEntries, backendEntries, logWindow, List.filterMap_filter, List.filterMap_filter]
  congr 1
  funext log
  cases hbid : log.backendId <;> simp

/-- The entries whose names pass a test are the logs whose backends do. -/
theorem sum_backendEntries (f : String → Bool) (p : BackendLog → Bool)
    (window : List BackendLog) :
    (((backendEntries window).filter (fun entry => f entry.1)).map
        (fun entry => if p entry.2 then 1 else 0)).sum =
      window.countP (fun l => l.backendId.any f ∧ p l) := by
  induction window with
  | nil => rfl
  | cons log window ih =>
      rw [List.countP_cons, ← ih]
      cases hbid : log.backendId with
      | none => simp [backendEntries, hbid]
      | some bid =>
          have hentries : backendEntries (log :: window) = (bid, log) :: backendEntries window := by
            simp [backendEntries, hbid]
          rw [hentries, List.filter_cons]
          by_cases hf : f bid <;> simp [hf, Nat.add_comm]

/-- The result groups the logs of the window whose backend has no inherited name. -/
theorem aggregateBackends_perm :
    (aggregateBackends halfHourAgo memoryLogs).Perm ((BackendGroup.byBackend.groups
      ((backendEntries (logWindow halfHourAgo memoryLogs)).filter
        (fun entry => entry.1 ∉ Strategy.inheritedMembers))).map BackendGroup.split) := by
  rw [aggregateBackends, backendEntries_logs, BackendGroup.foldl_countLog]
  exact (BackendGroup.objectValues_perm _).map _

/-- No group has an inherited name. -/
theorem backendId_not_inherited {split : BackendSplit}
    (h : split ∈ aggregateBackends halfHourAgo memoryLogs) :
    split.backendId ∉ Strategy.inheritedMembers := by
  obtain ⟨g, hg, rfl⟩ := List.mem_map.mp (aggregateBackends_perm.mem_iff.mp h)
  exact BackendGroup.backendId_of_mem_kept hg

/-- Groups by the backend's name split the logs. -/
theorem tallied_groups {counter : BackendSplit → Nat} {p : BackendLog → Bool}
    {result : List BackendSplit}
    (hperm : result.Perm
      ((BackendGroup.byBackend.groups (backendEntries window)).map BackendGroup.split))
    (ht : BackendGroup.byBackend.Tallies (fun g => counter g.split)
      (fun entry => if p entry.2 then 1 else 0)) :
    Tallied counter p window result := by
  constructor
  · intro split hsplit
    obtain ⟨g, hg, rfl⟩ := List.mem_map.mp (hperm.mem_iff.mp hsplit)
    have hsum := sum_backendEntries (fun bid => bid = g.backendId) p window
    refine (Grouping.tally_group ht hg).trans (hsum.trans ?_)
    apply List.countP_congr
    intro log _
    have hid : g.split.backendId = g.backendId := rfl
    cases hbid : log.backendId <;> simp [hid]
  · have hsum := sum_backendEntries (fun _ => true) p window
    rw [(hperm.map counter).sum_eq, List.map_map]
    refine (Grouping.tally_groups ht (backendEntries window)).trans ?_
    simpa using hsum

theorem partitions_groups {result : List BackendSplit}
    (hperm : result.Perm
      ((BackendGroup.byBackend.groups (backendEntries window)).map BackendGroup.split)) :
    Partitions window result := by
  have hids : (result.map BackendSplit.backendId).Perm
      ((BackendGroup.byBackend.groups (backendEntries window)).map BackendGroup.backendId) := by
    have hmap := hperm.map BackendSplit.backendId
    rw [List.map_map] at hmap
    exact hmap
  constructor
  case distinct => exact hids.nodup_iff.mpr (Grouping.nodup_groups (G := BackendGroup.byBackend) _)
  case covers =>
    intro log hlog bid hbid
    refine hids.mem_iff.mpr ((BackendGroup.byBackend.mem_keys_groups _).mpr ?_)
    exact ⟨(bid, log), mem_backendEntries.mpr ⟨hlog, hbid⟩, rfl⟩
  case requests => exact tallied_groups hperm BackendGroup.tallies_requestCount
  case errors => exact tallied_groups hperm BackendGroup.tallies_errorCount
  case cacheHits => exact tallied_groups hperm BackendGroup.tallies_cacheHitCount

/-- The result splits the traffic exactly when no log of the window has a backend whose name
is inherited. -/
theorem aggregateBackends_iff (halfHourAgo : Int) (memoryLogs : List BackendLog) :
    Partitions (logWindow halfHourAgo memoryLogs) (aggregateBackends halfHourAgo memoryLogs) ↔
      ∀ log ∈ logWindow halfHourAgo memoryLogs, ∀ bid, log.backendId = some bid →
        bid ∉ Strategy.inheritedMembers := by
  constructor
  · intro h log hlog bid hbid
    obtain ⟨split, hsplit, rfl⟩ := List.mem_map.mp (h.covers log hlog bid hbid)
    exact backendId_not_inherited hsplit
  · intro h
    refine partitions_groups ?_
    have hkeep : (backendEntries (logWindow halfHourAgo memoryLogs)).filter
        (fun entry => entry.1 ∉ Strategy.inheritedMembers) =
          backendEntries (logWindow halfHourAgo memoryLogs) := by
      refine List.filter_eq_self.mpr (fun entry hentry => ?_)
      obtain ⟨hlog, hbid⟩ := mem_backendEntries.mp hentry
      simpa using h entry.2 hlog entry.1 hbid
    rw [← hkeep]
    exact aggregateBackends_perm

/-- A backend that calls itself `constructor` has no group. -/
theorem aggregateBackends_drops :
    ¬ ∀ (halfHourAgo : Int) (memoryLogs : List BackendLog),
      Partitions (logWindow halfHourAgo memoryLogs)
        (aggregateBackends halfHourAgo memoryLogs) := by
  intro hclaim
  let log : BackendLog :=
    { timestamp := 0, statusCode := 200, latencyMs := 12, cacheStatus := none
      payloadSizeBytes := 0, backendId := some "constructor"
      backendUrl := some "http://localhost:3001" }
  have hcovers := (hclaim 0 [log]).covers log List.mem_cons_self "constructor" rfl
  obtain ⟨split, hsplit, hname⟩ := List.mem_map.mp hcovers
  exact backendId_not_inherited hsplit (hname ▸ by decide)

end Result

end SentinelADC
