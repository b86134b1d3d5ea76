import SentinelADC.MetricsStore
import SentinelADC.Lib.CappedList
import SentinelADC.Lib.Runs

/-!
# The metrics window

The metrics store prunes what it keeps, by age and by count, whenever it is
written or read.  Against a ledger of everything that was ever recorded nothing
is lost by this: a read sees the transactions of the last minute, at most the
newest hundred.
-/

namespace SentinelADC

open Runs

/-- Figures are computed from the newest transactions of the window. -/
def newestInWindow (now : Int) (ledger : List Transaction) : List Transaction :=
  (ledger.filter (fun item => now - metricsWindowMs < item.timestamp)).rtake metricsHistoryLimit

/-- A call of the metrics store. -/
inductive MetricsOp where
  | recordTransaction (latency : Rat) (error : Bool)
  | getBackendMetrics
deriving DecidableEq, Repr

/-- A call for a backend at a time. -/
structure MetricsCall where
  now : Int
  backendId : String
  op : MetricsOp
deriving DecidableEq, Repr

namespace MetricsCall

/-- What a call records for a backend. -/
def recorded (b : String) (m : MetricsCall) : Option Transaction :=
  match m.op with
  | .recordTransaction latency error =>
      if m.backendId = b then some ⟨latency, error, m.now⟩ else none
  | .getBackendMetrics => none

/-- Everything that was ever recorded for a backend, oldest first. -/
def ledger (b : String) (calls : List MetricsCall) : List Transaction :=
  calls.filterMap (recorded b)

end MetricsCall

theorem pruneTransactions_eq (now : Int) :
    pruneTransactions now = newestInWindow now := by
  funext list
  simp only [pruneTransactions, newestInWindow, List.rtake]
  split_ifs with hlong
  · rfl
  · rw [Nat.sub_eq_zero_of_le (not_lt.mp hlong), List.drop_zero]

section Window

variable {now later : Int} {list : List Transaction}

/-- A read or write on top of an earlier one sees what it would have seen alone. -/
theorem newestInWindow_newestInWindow
    (hlist : list.Pairwise (fun x y => x.timestamp ≤ y.timestamp)) (hlater : now ≤ later) :
    newestInWindow later (newestInWindow now list) = newestInWindow later list := by
  have hsorted : (list.filter (fun item => now - metricsWindowMs < item.timestamp)).Pairwise
      (fun x y => decide (later - metricsWindowMs < x.timestamp) = true →
        decide (later - metricsWindowMs < y.timestamp) = true) := by
    refine (hlist.filter _).imp ?_
    intro x y hxy hx
    rw [decide_eq_true_eq] at hx ⊢
    omega
  rw [newestInWindow, newestInWindow, rtake_filter_rtake hsorted, List.filter_filter,
    newestInWindow]
  congr 2
  funext item
  rw [Bool.eq_iff_iff, Bool.and_eq_true, decide_eq_true_eq, decide_eq_true_eq]
  omega

/-- One more transaction, in the window or out of it. -/
theorem newestInWindow_concat (now : Int) (list : List Transaction) (item : Transaction) :
    newestInWindow now (list ++ [item]) =
      if now - metricsWindowMs < item.timestamp then
        pushCapped metricsHistoryLimit item (newestInWindow now list)
      else newestInWindow now list := by
  rw [newestInWindow, newestInWindow, pushCapped_rtake (by decide), List.filter_append]
  split_ifs with hitem <;> simp [hitem]

theorem newestInWindow_sublist (now : Int) (list : List Transaction) :
    (newestInWindow now list).Sublist list :=
  (List.drop_sublist _ _).trans List.filter_sublist

theorem length_newestInWindow (now : Int) (list : List Transaction) :
    (newestInWindow now list).length =
      min metricsHistoryLimit
        (list.countP (fun item => now - metricsWindowMs < item.timestamp)) := by
  rw [newestInWindow, List.rtake, List.length_drop, ← List.countP_eq_length_filter]
  omega

end Window

namespace StrategyMemory

/-- One call. -/
def metricsCall (pool : BackendPool) (m : StrategyMemory) (c : MetricsCall) : StrategyMemory :=
  match c.op with
  | .recordTransaction latency error => m.recordTransaction c.now c.backendId latency error
  | .getBackendMetrics => (m.getBackendMetrics c.now pool c.backendId).2

section Ledger

variable {m : StrategyMemory} {pool : BackendPool} {b : String} {c : MetricsCall}
  {calls : List MetricsCall}

/-- A call prunes the list of its backend, with what it records. -/
theorem history_metricsCall (pool : BackendPool) (m : StrategyMemory) (c : MetricsCall)
    (b : String) :
    (m.metricsCall pool c).history b =
      if b = c.backendId then
        (m.history b).map (fun list => newestInWindow c.now (list ++ (c.recorded b).toList))
      else m.history b := by
  obtain ⟨now, id, op⟩ := c
  cases op with
  | recordTransaction latency error =>
      simp only [metricsCall, history_recordTransaction, pruneTransactions_eq]
      split_ifs with hid
      · simp [MetricsCall.recorded, hid]
      · rfl
  | getBackendMetrics =>
      simp [metricsCall, getBackendMetrics_snd, history_cleanup, MetricsCall.recorded,
        pruneTransactions_eq]

theorem ledger_concat (calls : List MetricsCall) (c : MetricsCall) :
    MetricsCall.ledger b (calls ++ [c]) =
      MetricsCall.ledger b calls ++ (c.recorded b).toList := by
  rw [MetricsCall.ledger, List.filterMap_append, MetricsCall.ledger]
  cases hc : c.recorded b <;> simp [hc]

theorem sorted_ledger (hclock : calls.Pairwise (fun c c' => c.now ≤ c'.now)) :
    (MetricsCall.ledger b calls).Pairwise (fun x y => x.timestamp ≤ y.timestamp) := by
  have htime : ∀ c item, MetricsCall.recorded b c = some item → item.timestamp = c.now := by
    intro c item hitem
    simp only [MetricsCall.recorded] at hitem
    split at hitem
    · split_ifs at hitem
      rw [← Option.some.inj hitem]
    · cases hitem
  refine List.Pairwise.filterMap _ ?_ hclock
  intro c c' hle item hitem item' hitem'
  rw [htime c item hitem, htime c' item' hitem']
  exact hle

/-- What is stored gives the same reads as the ledger, from now on. -/
theorem history_run (pool : BackendPool) (hstart : m.history b = some [])
    (hclock : calls.Pairwise (fun c c' => c.now ≤ c'.now)) :
    ∃ list, (run (metricsCall pool) m calls).history b = some list ∧
      list.Sublist (MetricsCall.ledger b calls) ∧
      ∀ now, (∀ c ∈ calls, c.now ≤ now) →
        newestInWindow now list = newestInWindow now (MetricsCall.ledger b calls) := by
  induction calls using List.reverseRecOn with
  | nil => exact ⟨[], hstart, List.Sublist.refl _, fun _ _ => rfl⟩
  | append_singleton calls c ih =>
      have hsorted := sorted_ledger (b := b) hclock
      obtain ⟨hbefore, -, hlast⟩ := List.pairwise_append.mp hclock
      obtain ⟨list, hlist, hsub, hsame⟩ := ih hbefore
      rw [ledger_concat] at hsorted ⊢
      rw [run_append, run_cons, run_nil, history_metricsCall, hlist, Option.map_some]
      by_cases hb : b = c.backendId
      · have hsub' := hsub.append (List.Sublist.refl (c.recorded b).toList)
        refine ⟨_, if_pos hb, (newestInWindow_sublist _ _).trans hsub', ?_⟩
        intro now hnow
        have hread := hsame now (fun c' hc' => hnow c' (by simp [hc']))
        rw [newestInWindow_newestInWindow (hsorted.sublist hsub') (hnow c (by simp))]
        cases c.recorded b with
        | none => simpa using hread
        | some item =>
            rw [Option.toList_some, newestInWindow_concat, newestInWindow_concat, hread]
      · have hnone : c.recorded b = none := by
          simp only [MetricsCall.recorded]
          split
          · exact if_neg (Ne.symm hb)
          · rfl
        refine ⟨list, if_neg hb, ?_⟩
        rw [hnone, Option.toList_none, List.append_nil]
        refine ⟨hsub, fun now hnow => ?_⟩
        exact hsame now (fun c' hc' => hnow c' (by simp [hc']))

/-- A read at a time `now` computes its figures from the transactions of the last
minute, of all that were ever recorded, or from the newest hundred of them. -/
theorem metrics_exact (pool : BackendPool) (m : StrategyMemory) {b : String} {backend : Backend}
    (hstart : m.history b = some []) (hfind : pool.find b = some backend)
    {calls : List MetricsCall} {now : Int}
    (hclock : calls.Pairwise (fun c c' => c.now ≤ c'.now)) (hnow : ∀ c ∈ calls, c.now ≤ now) :
    ((run (metricsCall pool) m calls).getBackendMetrics now pool b).1 =
        some (metricsOf backend (newestInWindow now (MetricsCall.ledger b calls))) ∧
      (newestInWindow now (MetricsCall.ledger b calls)).length =
        min 100
          ((MetricsCall.ledger b calls).countP (fun item => now - 60000 < item.timestamp)) := by
  obtain ⟨list, hlist, -, hsame⟩ := history_run pool hstart hclock
  refine ⟨?_, length_newestInWindow now _⟩
  simp only [getBackendMetrics, hfind, history_cleanup, if_true, hlist, Option.map_some,
    pruneTransactions_eq, hsame now hnow]

/-- A read that is made in time does not lose the transaction that a later read
still has to count. -/
theorem metrics_exact_sample :
    ∃ backend, (createBackendPool ["http://localhost:4001"]).find "backend-1" = some backend ∧
      ((run (metricsCall (createBackendPool ["http://localhost:4001"]))
        ⟨fun _ => some [], 0, ⟨-1, 0⟩⟩
        [⟨0, "backend-1", .recordTransaction 3 false⟩, ⟨20000, "backend-1", .getBackendMetrics⟩,
          ⟨30000, "backend-1", .recordTransaction 7 true⟩]).getBackendMetrics 60000
        (createBackendPool ["http://localhost:4001"]) "backend-1").1 =
      some (metricsOf backend [⟨7, true, 30000⟩]) := by
  have hsome : ((createBackendPool ["http://localhost:4001"]).find "backend-1").isSome := by
    decide
  obtain ⟨backend, hbackend⟩ := Option.isSome_iff_exists.mp hsome
  exact ⟨backend, hbackend,
    (metrics_exact _ _ rfl hbackend (by decide) (by decide)).1⟩

end Ledger

end StrategyMemory

end SentinelADC
