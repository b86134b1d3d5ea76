import SentinelADC.ExchangeStep
import SentinelADC.MetricsWindow

/-!
# Metrics of the attempts

The hooks of the proxy middleware report every attempt to the metrics store, and
the strategies read the store while they choose.  The reads prune what the
reports wrote.  After any run of the gateway the figures of a backend are still
those of the attempts at it that were reported in the last minute, whatever
strategies were installed and however often they looked.
-/

namespace SentinelADC

open Runs

section Mirror

variable {t now : Int} {ledger list : List Transaction}

/-- From `t` on the list gives the reads that the ledger gives. -/
structure Mirrors (t : Int) (ledger list : List Transaction) : Prop where
  sublist : list.Sublist ledger
  reads : ∀ now, t ≤ now → newestInWindow now list = newestInWindow now ledger

theorem Mirrors.mono (h : Mirrors t ledger list) (hlater : t ≤ now) :
    Mirrors now ledger list :=
  ⟨h.sublist, fun later hnow => h.reads later (hlater.trans hnow)⟩

/-- A write or a read prunes the list. -/
theorem Mirrors.prune (h : Mirrors t ledger list) {new : Option Transaction}
    (hsorted : (ledger ++ new.toList).Pairwise (fun x y => x.timestamp ≤ y.timestamp))
    (hlater : t ≤ now) :
    Mirrors now (ledger ++ new.toList) (newestInWindow now (list ++ new.toList)) := by
  have hsub := h.sublist.append (List.Sublist.refl new.toList)
  refine ⟨(newestInWindow_sublist _ _).trans hsub, ?_⟩
  intro later hnow
  have hread := h.reads later (hlater.trans hnow)
  rw [newestInWindow_newestInWindow (hsorted.sublist hsub) hnow]
  cases new with
  | none => simpa using hread
  | some item => rw [Option.toList_some, newestInWindow_concat, newestInWindow_concat, hread]

end Mirror

section Reads

variable {now : Int} {pool : BackendPool} {m m' m'' : StrategyMemory}

/-- Every window is as it was, or pruned at this time. -/
def StrategyMemory.ReadsTo (now : Int) (m m' : StrategyMemory) : Prop :=
  ∀ id, m'.history id = m.history id ∨
    m'.history id = (m.history id).map (newestInWindow now)

theorem newestInWindow_idem (now : Int) (list : List Transaction) :
    newestInWindow now (newestInWindow now list) = newestInWindow now list := by
  have hall : (newestInWindow now list).filter
      (fun item => now - metricsWindowMs < item.timestamp) = newestInWindow now list := by
    rw [List.filter_eq_self]
    intro item hitem
    exact (List.mem_filter.mp (List.mem_of_mem_drop hitem)).2
  have hshort : (newestInWindow now list).length ≤ metricsHistoryLimit :=
    (length_newestInWindow now list).trans_le (min_le_left _ _)
  rw [newestInWindow, hall, List.rtake, Nat.sub_eq_zero_of_le hshort, List.drop_zero]

theorem StrategyMemory.ReadsTo.refl (now : Int) (m : StrategyMemory) :
    m.ReadsTo now m :=
  fun _ => Or.inl rfl

theorem StrategyMemory.ReadsTo.trans (h : m.ReadsTo now m') (h' : m'.ReadsTo now m'') :
    m.ReadsTo now m'' := by
  intro id
  rcases h' id with hid' | hid' <;> rcases h id with hid | hid <;> rw [hid', hid]
  · exact Or.inl rfl
  · exact Or.inr rfl
  · exact Or.inr rfl
  · refine Or.inr ?_
    cases m.history id with
    | none => rfl
    | some list => rw [Option.map_some, Option.map_some, newestInWindow_idem]

theorem StrategyMemory.readsTo_scoreOf (now : Int) (pool : BackendPool) (id : String)
    (m : StrategyMemory) :
    m.ReadsTo now (m.scoreOf now pool id).2 := by
  intro id'
  rw [scoreOf_snd, history_cleanup, pruneTransactions_eq]
  split_ifs
  · exact Or.inr rfl
  · exact Or.inl rfl

theorem LeastConnections.readsTo_breakTie (bs : List Backend) (bestScore : Int)
    (selected : Option Backend) :
    m.ReadsTo now (breakTie now pool bs bestScore selected m).2 := by
  induction bs generalizing bestScore selected m with
  | nil => exact StrategyMemory.ReadsTo.refl now m
  | cons b bs ih =>
      have hread := StrategyMemory.readsTo_scoreOf now pool b.id m
      simp only [breakTie]
      split_ifs
      · exact hread.trans (ih _ _)
      · exact hread.trans (ih _ _)

theorem WeightedRoundRobin.readsTo_virtualPool (backends : List Backend) :
    m.ReadsTo now (virtualPool now pool backends m).2 := by
  induction backends generalizing m with
  | nil => exact StrategyMemory.ReadsTo.refl now m
  | cons b bs ih =>
      simp only [virtualPool]
      exact (StrategyMemory.readsTo_scoreOf now pool b.id m).trans ih

/-- A strategy only reads the windows. -/
theorem Strategy.readsTo_select (cfg : Config) (now : Int) (pool : BackendPool)
    (req : ClientRequest) (backends : List Backend) (m : StrategyMemory) (strategy : Strategy) :
    m.ReadsTo now (strategy.select cfg now pool req backends m).2 := by
  cases strategy with
  | roundRobin => exact fun _ => Or.inl rfl
  | leastConnections => exact LeastConnections.readsTo_breakTie _ _ _
  | weightedRoundRobin =>
      have hpool : m.ReadsTo now (WeightedRoundRobin.virtualPool now pool backends m).2 :=
        WeightedRoundRobin.readsTo_virtualPool backends
      simp only [select, WeightedRoundRobin.select]
      split_ifs <;> exact hpool
  | ipHash => exact StrategyMemory.ReadsTo.refl now m
  | consistentHash => exact StrategyMemory.ReadsTo.refl now m
  | inherited member => exact StrategyMemory.ReadsTo.refl now m

end Reads

namespace Gateway

/-- What the hooks report about an attempt at `b` when an event happens. -/
def reported (b : String) (g : Gateway) (e : Event) : Option Transaction :=
  match e.op with
  | .proxyRes rid status latency =>
      if g.awaitsResponse b rid then some ⟨latency, decide (500 ≤ status), e.now⟩ else none
  | .proxyError rid _ latency _ =>
      if g.awaitsError b rid then some ⟨latency, true, e.now⟩ else none
  | _ => none

section AttemptMetrics

variable {cfg : Config} {g : Gateway} {b : String} {rid : Nat}

/-- The events that reach the metrics store. -/
theorem memory_step {e : Event} (hroute : ∀ rid, e.op ≠ .route rid)
    (hres : ∀ rid status latency, e.op ≠ .proxyRes rid status latency)
    (herror : ∀ rid err latency random, e.op ≠ .proxyError rid err latency random) :
    (g.step cfg e).memory = g.memory := by
  obtain ⟨now, op⟩ := e
  cases op with
  | healthCheck id outcome => exact (records_healthCheck outcome).memory
  | healthOverride id healthy => exact (records_healthOverride healthy).memory
  | setWeight id weight => exact (records_setWeight weight).memory
  | setAlgorithm algorithm =>
      simp only [step, setAlgorithm]
      cases Strategy.getStrategy algorithm <;> rfl
  | drain id timeoutSec => exact (records_drainBackend timeoutSec).memory
  | undrain id => exact records_undrainBackend.memory
  | resetBreaker backendId =>
      simp only [step, resetRoute]
      cases truthy backendId with
      | none => rfl
      | some id => exact breakerFrame_resetBreaker.records.memory
  | resetAllBreakers => exact records_resetAllBreakers.memory
  | status => exact (breakerFrame_getHealthyBackends g cfg now).records.memory
  | drainTimer handle => exact (records_fireDrainTimer handle).memory
  | request rid req =>
      simp only [step, request]
      cases g.exchange rid <;> rfl
  | route rid => exact absurd rfl (hroute rid)
  | proxyRes rid status latency => exact absurd rfl (hres rid status latency)
  | pipeBody rid =>
      rcases pipeBody_cases rid g with heq | ⟨f, heq⟩ <;> simp only [step, heq]
      rfl
  | proxyError rid err latency random => exact absurd rfl (herror rid err latency random)
  | resumeRetry rid =>
      rcases resumeRetry_cases rid g with heq | ⟨f, heq⟩ <;> simp only [step, heq]
      rfl
  | finish rid =>
      rcases responseFinish_cases rid g with heq | ⟨selections, f, heq⟩ <;> simp only [step, heq]
      exact (records_runDecrements selections g).memory
  | close rid =>
      rcases responseClose_cases rid g with heq | ⟨selections, f, heq⟩ <;> simp only [step, heq]
      exact (records_runDecrements selections g).memory

theorem readsTo_selectBackend (g : Gateway) (cfg : Config) (now : Int) (req : ClientRequest)
    (failedBackends : List String) :
    g.memory.ReadsTo now (g.selectBackend cfg now req failedBackends).2.memory := by
  have hfilter : (g.getHealthyBackends cfg now).2.memory = g.memory :=
    (breakerFrame_getHealthyBackends g cfg now).memory
  unfold selectBackend
  dsimp only
  split_ifs
  · rw [hfilter]
    exact StrategyMemory.ReadsTo.refl now g.memory
  · rw [← hfilter]
    split <;> exact Strategy.readsTo_select _ _ _ _ _ _ _

/-- A router call only reads. -/
theorem readsTo_router (cfg : Config) (now : Int) (rid : Nat) (g : Gateway) :
    g.memory.ReadsTo now (g.router cfg now rid).memory := by
  have hsame := StrategyMemory.ReadsTo.refl now g.memory
  simp only [router]
  split
  · exact hsame
  · next x hx =>
      split_ifs
      · exact hsame
      · split
        · exact hsame
        · have hselect := readsTo_selectBackend g cfg now x.request x.failedBackends
          split <;> next heq => rw [heq] at hselect; exact hselect

/-- A report is written to the window of its backend. -/
theorem history_collect (g : Gateway) (now : Int) (backendId : Option String) (latency : Rat)
    (error : Bool) (b : String) :
    (g.collect now backendId latency error).memory.history b =
      if truthy backendId = some b then
        (g.memory.history b).map (fun list => newestInWindow now (list ++ [⟨latency, error, now⟩]))
      else g.memory.history b := by
  simp only [collect]
  split
  · next hnone => rw [hnone, if_neg (by simp)]
  · next id hid =>
      rw [StrategyMemory.history_recordTransaction, pruneTransactions_eq, hid]
      simp only [Option.some.injEq, eq_comm]

/-- The hook reports the headers of a response that is awaited. -/
theorem memory_proxyRes {x : Exchange} (hx : g.exchange rid = some x) (now : Int) (status : Nat)
    (latency : Rat) :
    (g.proxyRes cfg now rid status latency).memory =
      if x.phase = .upstream then
        (g.collect now x.backendId latency (decide (500 ≤ status))).memory
      else g.memory := by
  simp only [proxyRes, hx]
  by_cases hphase : x.phase = .upstream
  · rw [if_neg (not_not.mpr hphase), if_pos hphase]
    exact (records_reportStatus _ _).memory
  · rw [if_pos hphase, if_neg hphase]

/-- The hook reports an error that may still arrive. -/
theorem memory_handleProxyError {x : Exchange} (hx : g.exchange rid = some x) (now : Int)
    (err : ProxyError) (latency random : Rat) :
    (g.handleProxyError cfg now rid err latency random).memory =
      if x.awaitsError then (g.collect now x.backendId latency true).memory else g.memory := by
  simp only [handleProxyError, hx]
  cases x.awaitsError with
  | true => exact (records_reportError _ _).memory
  | false => rfl

/-- An event writes what it reports about an attempt at `b` to the window of `b`, and
leaves the window otherwise as a read does. -/
theorem history_step (cfg : Config) (g : Gateway) (b : String) (e : Event) :
    ((g.step cfg e).memory.history b = g.memory.history b ∧ g.reported b e = none) ∨
      (g.step cfg e).memory.history b =
        (g.memory.history b).map
          (fun list => newestInWindow e.now (list ++ (g.reported b e).toList)) := by
  obtain ⟨now, op⟩ := e
  cases op with
  | route rid =>
      rcases readsTo_router cfg now rid g b with hsame | hread
      · exact Or.inl ⟨hsame, rfl⟩
      · exact Or.inr (by simpa [step, reported] using hread)
  | proxyRes rid status latency =>
      rcases hx : g.exchange rid with - | x
      · exact Or.inl ⟨by simp only [step, proxyRes, hx], by simp [reported, awaitsResponse, hx]⟩
      · simp only [step, memory_proxyRes hx, reported, awaitsResponse, hx]
        by_cases hphase : x.phase = .upstream
        · simp only [hphase, if_true, history_collect, true_and, decide_eq_true_eq]
          split_ifs with hid
          · exact Or.inr rfl
          · exact Or.inl ⟨rfl, rfl⟩
        · exact Or.inl (by simp [hphase])
  | proxyError rid err latency random =>
      rcases hx : g.exchange rid with - | x
      · exact Or.inl
          ⟨by simp only [step, handleProxyError, hx], by simp [reported, awaitsError, hx]⟩
      · simp only [step, memory_handleProxyError hx, reported, awaitsError, hx]
        cases x.awaitsError with
        | true =>
            simp only [if_true, history_collect, true_and, decide_eq_true_eq]
            split_ifs with hid
            · exact Or.inr rfl
            · exact Or.inl ⟨rfl, rfl⟩
        | false => exact Or.inl (by simp)
  | _ => exact Or.inl ⟨by rw [memory_step] <;> simp, rfl⟩

/-- Everything that the hooks have reported about attempts at `b`. -/
def reports (cfg : Config) (b : String) (g : Gateway) (es : List Event) : List Transaction :=
  log (step cfg) (fun g e => (g.reported b e).toList) g es

theorem timestamp_reported {e : Event} {item : Transaction} (h : g.reported b e = some item) :
    item.timestamp = e.now := by
  obtain ⟨now, op⟩ := e
  cases op with
  | proxyRes rid status latency =>
      simp only [reported] at h
      split_ifs at h
      rw [← Option.some.inj h]
  | proxyError rid err latency random =>
      simp only [reported] at h
      split_ifs at h
      rw [← Option.some.inj h]
  | _ => cases h

/-- One event, for a window that gives the reads of a ledger. -/
theorem mirrors_step (cfg : Config) {t : Int} {ledger list : List Transaction} {e : Event}
    (hlist : g.memory.history b = some list) (h : Mirrors t ledger list)
    (hsorted : (ledger ++ (g.reported b e).toList).Pairwise (fun x y => x.timestamp ≤ y.timestamp))
    (hlater : t ≤ e.now) :
    ∃ list', (g.step cfg e).memory.history b = some list' ∧
      Mirrors e.now (ledger ++ (g.reported b e).toList) list' := by
  rcases history_step cfg g b e with ⟨hsame, hnone⟩ | hwrite
  · refine ⟨list, hsame.trans hlist, ?_⟩
    rw [hnone, Option.toList_none, List.append_nil]
    exact h.mono hlater
  · rw [hlist, Option.map_some] at hwrite
    exact ⟨_, hwrite, h.prune hsorted hlater⟩

/-- A ledger that a run extends stays in order, and its window keeps giving its reads. -/
theorem mirrors_run (cfg : Config) {t : Int} {ledger list : List Transaction} {es : List Event}
    (hlist : g.memory.history b = some list) (h : Mirrors t ledger list)
    (hsorted : ledger.Pairwise (fun x y => x.timestamp ≤ y.timestamp))
    (hpast : ∀ item ∈ ledger, item.timestamp ≤ t)
    (hclock : es.Pairwise (fun e e' => e.now ≤ e'.now)) (hstart : ∀ e ∈ es, t ≤ e.now)
    {now : Int} (hlater : t ≤ now) (hnow : ∀ e ∈ es, e.now ≤ now) :
    ∃ list', (run (step cfg) g es).memory.history b = some list' ∧
      Mirrors now (ledger ++ reports cfg b g es) list' := by
  induction es generalizing g t ledger list with
  | nil =>
      refine ⟨list, hlist, ?_⟩
      rw [reports, log, List.append_nil]
      exact h.mono hlater
  | cons e es ih =>
      obtain ⟨hnext, hrest⟩ := List.pairwise_cons.mp hclock
      have htime : t ≤ e.now := hstart e List.mem_cons_self
      have hreport : ∀ item ∈ (g.reported b e).toList, item.timestamp = e.now :=
        fun item hitem => timestamp_reported (Option.mem_toList.mp hitem)
      have hsorted' : (ledger ++ (g.reported b e).toList).Pairwise
          (fun x y => x.timestamp ≤ y.timestamp) := by
        refine List.pairwise_append.mpr ⟨hsorted, ?_, ?_⟩
        · cases g.reported b e <;> simp
        · intro x hx y hy
          rw [hreport y hy]
          exact (hpast x hx).trans htime
      have hpast' : ∀ item ∈ ledger ++ (g.reported b e).toList, item.timestamp ≤ e.now := by
        intro item hitem
        rcases List.mem_append.mp hitem with hold | hnew
        · exact (hpast item hold).trans htime
        · exact (hreport item hnew).le
      obtain ⟨list', hlist', hmirrors⟩ := mirrors_step cfg hlist h hsorted' htime
      rw [run_cons, reports, log, ← List.append_assoc]
      exact ih hlist' hmirrors hsorted' hpast' hrest hnext (hnow e List.mem_cons_self)
        (fun e' he' => hnow e' (List.mem_cons_of_mem e he'))

/-- The metrics of a backend after any run are those of the attempts at it that were
reported in the last minute, or of the newest hundred of these. -/
theorem attempt_metrics_exact (h : Booted cfg g) (hb : b ∈ g.pool.ids) {es : List Event}
    {now : Int} (hclock : es.Pairwise (fun e e' => e.now ≤ e'.now))
    (hnow : ∀ e ∈ es, e.now ≤ now) :
    ∃ backend, (run (step cfg) g es).pool.find b = some backend ∧
      ((run (step cfg) g es).memory.getBackendMetrics now (run (step cfg) g es).pool b).1 =
        some (metricsOf backend (newestInWindow now (reports cfg b g es))) := by
  have hpool : (run (step cfg) g es).Complete ∧ b ∈ (run (step cfg) g es).pool.ids := by
    refine run_preserves (P := fun g : Gateway => g.Complete ∧ b ∈ g.pool.ids)
      ⟨h.complete, hb⟩ ?_
    rintro e - g ⟨hg, hb⟩
    exact ⟨complete_step e hg, by rwa [ids_step cfg e hg]⟩
  obtain ⟨backend, hfind⟩ :=
    Option.isSome_iff_exists.mp (BackendPool.find_isSome_iff.mpr hpool.2)
  have hempty : g.memory.history b = some [] := by
    obtain ⟨boot, strategy, rfl⟩ := h.eq_initial
    exact if_pos hb
  -- The run starts with its first event.
  obtain ⟨t, ht, hstart⟩ : ∃ t ≤ now, ∀ e ∈ es, t ≤ e.now := by
    cases es with
    | nil => exact ⟨now, le_rfl, by simp⟩
    | cons e es =>
        exact ⟨e.now, hnow e List.mem_cons_self,
          List.forall_mem_cons.mpr ⟨le_rfl, (List.pairwise_cons.mp hclock).1⟩⟩
  have hmirrors : Mirrors t [] [] := ⟨List.Sublist.refl [], fun _ _ => rfl⟩
  obtain ⟨list, hlist, hreads⟩ :=
    mirrors_run cfg hempty hmirrors List.Pairwise.nil (by simp) hclock hstart ht hnow
  refine ⟨backend, hfind, ?_⟩
  rw [List.nil_append] at hreads
  simp only [StrategyMemory.getBackendMetrics, hfind, StrategyMemory.history_cleanup, if_true,
    hlist, Option.map_some, pruneTransactions_eq, hreads.reads now le_rfl]

/-- A failed attempt is still counted a minute later, one of the previous minute is not. -/
theorem attempt_metrics_exact_sample :
    ∃ backend,
      (run (step (Config.default (fun _ => 0))) sampleGateway
        (answeredRequests 1 2 200 ++ answeredRequests 4 50000 500)).pool.find "backend-1" =
          some backend ∧
      ((run (step (Config.default (fun _ => 0))) sampleGateway
        (answeredRequests 1 2 200 ++ answeredRequests 4 50000 500)).memory.getBackendMetrics 70000
          (run (step (Config.default (fun _ => 0))) sampleGateway
            (answeredRequests 1 2 200 ++ answeredRequests 4 50000 500)).pool "backend-1").1 =
        some (metricsOf backend [⟨1, true, 50000⟩]) := by
  have hboot : Booted (Config.default (fun _ => 0)) sampleGateway := ⟨0, rfl⟩
  have hreports : newestInWindow 70000 (reports (Config.default (fun _ => 0)) "backend-1"
      sampleGateway (answeredRequests 1 2 200 ++ answeredRequests 4 50000 500)) =
        [⟨1, true, 50000⟩] := by
    decide
  rw [← hreports]
  exact attempt_metrics_exact hboot (by decide) (by decide) (by decide)

end AttemptMetrics

end Gateway

end SentinelADC
