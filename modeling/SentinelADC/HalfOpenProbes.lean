import SentinelADC.LiveRecovery

/-!
# Probes of a half-open breaker

A half-open breaker leaves that state through the outcome of a probe, so one
should always be under way.  A permit is handed out whenever the router's
filter asks, though: for a status poll, or for a request that the strategy
sends elsewhere; and a response between 400 and 499 ends a probe without a
report to the breaker.  These are the only ways to strand it.
-/

namespace SentinelADC

open Runs

/-- The request was admitted as a probe of `b` and awaits its response. -/
def Exchange.probes (b : String) (x : Exchange) : Bool :=
  x.phase = .upstream ∧ x.backendId = some b ∧ x.probe

/-- Asking for admission now opens the half-open phase. -/
def Cell.opensHalfOpen (cfg : Config) (now : Int) (c : Cell) : Bool :=
  cfg.enabled ∧ c.backend.healthy ∧ c.breaker.state = .opened ∧
    cfg.cooldownMs ≤ now - c.breaker.lastStateChange

namespace Cell

variable {cfg : Config} {now : Int} {c : Cell}

theorem state_consult_eq_halfOpen_iff :
    (c.consult cfg now).2.breaker.state = .halfOpen ↔
      c.breaker.state = .halfOpen ∨ c.opensHalfOpen cfg now = true := by
  simp only [consult, opensHalfOpen]
  cases hup : c.backend.healthy with
  | false => simp
  | true =>
      cases hen : cfg.enabled with
      | false => simp [canExecute_of_disabled hen]
      | true =>
          cases hs : c.breaker.state with
          | closed => simp [canExecute_of_closed hs, hs]
          | opened =>
              by_cases hcool : cfg.cooldownMs ≤ now - c.breaker.lastStateChange
              · simp [canExecute_of_opened hen hs, hcool, enterHalfOpen]
              · simp [canExecute_of_opened hen hs, hcool, hs]
          | halfOpen =>
              simp only [canExecute_of_halfOpen hen hs]
              split_ifs <;> simp [takePermit, hs]

/-- Only the filter opens the half-open phase. -/
theorem state_ne_halfOpen_step {op : CellOp} (hop : ∀ now, op ≠ .consult now)
    (h : c.breaker.state ≠ .halfOpen) :
    (c.step cfg op).breaker.state ≠ .halfOpen := by
  cases op with
  | consult now => exact absurd rfl (hop now)
  | recordSuccess now =>
      cases hen : cfg.enabled with
      | false => simpa [step, recordSuccess_of_disabled hen] using h
      | true => simp [step, state_recordSuccess hen]
  | recordFailure now error =>
      rw [step, state_recordFailure]
      split_ifs
      · simp
      · exact h
  | resetBreaker now => simp [step]
  | _ => rwa [breaker_step rfl]

/-- With breakers disabled none ever leaves the closed state. -/
theorem state_closed_step (hen : cfg.enabled = false) (op : CellOp)
    (h : c.breaker.state = .closed) :
    (c.step cfg op).breaker.state = .closed := by
  cases op with
  | consult now =>
      simp only [step, consult, canExecute_of_disabled hen]
      split_ifs <;> exact h
  | recordSuccess now => simpa [step, recordSuccess_of_disabled hen] using h
  | recordFailure now error => simpa [step, recordFailure_of_disabled hen] using h
  | resetBreaker now => simp [step]
  | _ => rwa [breaker_step rfl]

end Cell

namespace Gateway

section Probes

variable {cfg : Config} {b : String} {g : Gateway} {c : Cell}

/-- A half-open breaker of a pool member has a probe under way. -/
def NotStranded (b : String) (g : Gateway) : Prop :=
  b ∈ g.pool.ids → g.isHalfOpen b = true → ∃ x ∈ g.exchanges, x.probes b = true

/-- Some probe of `b` is under way. -/
def probeInFlight (b : String) (g : Gateway) : Bool :=
  g.exchanges.any (fun x => x.probes b)

/-- Some probe of `b` other than the given request is under way. -/
def otherProbeInFlight (b : String) (rid : Nat) (g : Gateway) : Bool :=
  g.exchanges.any (fun x => x.rid ≠ rid ∧ x.probes b)

/-- Events that leave the breaker of `b` half-open without a probe: a status
poll or a selection of another backend opens the phase, or the last probe is
answered with a status between 400 and 499. -/
def strands (cfg : Config) (b : String) (g : Gateway) (e : Event) : Bool :=
  match g.cell b with
  | none => false
  | some c =>
      match e.op with
      | .status => c.opensHalfOpen cfg e.now ∧ g.probeInFlight b = false
      | .route rid =>
          (g.routerSelection cfg e.now rid).isSome ∧
            g.routerSelection cfg e.now rid ≠ some (.selected b) ∧
            c.opensHalfOpen cfg e.now ∧ g.probeInFlight b = false
      | .proxyRes rid status _ =>
          c.breaker.state = .halfOpen ∧ g.awaitsResponse b rid ∧
            400 ≤ status ∧ status < 500 ∧ g.otherProbeInFlight b rid = false
      | _ => false

theorem notStranded_iff (hc : g.cell b = some c) :
    NotStranded b g ↔ (c.breaker.state = .halfOpen → g.probeInFlight b = true) := by
  obtain ⟨-, hbr, -⟩ := cell_eq_some_iff.mp hc
  simp [NotStranded, isHalfOpen, probeInFlight, hbr, mem_ids_of_cell hc]

theorem Reachable.closed_of_disabled (h : Reachable cfg g) (hen : cfg.enabled = false)
    (hc : g.cell b = some c) :
    c.breaker.state = .closed :=
  h.cell_invariant (P := fun c : Cell => c.breaker.state = .closed)
    (fun _ hboot _ _ hc => (hboot.cell_eq hc).1)
    (fun _ op hs => Cell.state_closed_step hen op hs) hc

/-- A probe stays under way until its own response or error arrives. -/
theorem probes_exchangeNext {x : Exchange} {e : Event} (h : x.probes b = true)
    (hres : ∀ status latency, e.op ≠ .proxyRes x.rid status latency)
    (herr : ∀ err latency random, e.op ≠ .proxyError x.rid err latency random) :
    (g.exchangeNext cfg e x).probes b = true := by
  obtain ⟨hphase, hb, hprobe⟩ : x.phase = .upstream ∧ x.backendId = some b ∧ x.probe = true := by
    simpa [Exchange.probes] using h
  simp only [exchangeNext]
  split_ifs with hrid
  · obtain ⟨now, op⟩ := e
    cases op with
    | route rid => simp [exchangeAfter, Exchange.onRoute, Exchange.probes, hphase, hb, hprobe]
    | proxyRes rid status latency =>
        obtain rfl : rid = x.rid := by simpa [Op.rid?] using hrid
        exact absurd rfl (hres status latency)
    | pipeBody rid =>
        simp [exchangeAfter, Exchange.onPipeBody, Exchange.probes, hphase, hb, hprobe]
    | proxyError rid err latency random =>
        obtain rfl : rid = x.rid := by simpa [Op.rid?] using hrid
        exact absurd rfl (herr err latency random)
    | resumeRetry rid =>
        simp [exchangeAfter, Exchange.onResumeRetry, Exchange.probes, hphase, hb, hprobe]
    | finish rid =>
        simp only [exchangeAfter, Exchange.onFinish]
        split_ifs <;>
          simp [Exchange.probes, Exchange.runSelections, hphase, hb, hprobe]
    | close rid =>
        simp only [exchangeAfter, Exchange.onClose]
        split_ifs <;>
          simp [Exchange.probes, Exchange.runSelections, hphase, hb, hprobe]
    | _ => simp [Op.rid?] at hrid
  · exact h

/-- An event that is not the answer to a request keeps all probes under way. -/
theorem probeInFlight_step {e : Event} (hg : g.WellFormed)
    (hres : ∀ rid status latency, e.op ≠ .proxyRes rid status latency)
    (herr : ∀ rid err latency random, e.op ≠ .proxyError rid err latency random)
    (h : g.probeInFlight b = true) :
    (g.step cfg e).probeInFlight b = true := by
  obtain ⟨x, hx, hprobe⟩ := List.any_eq_true.mp h
  exact List.any_eq_true.mpr ⟨_, exchangeNext_mem _ e hg hx,
    probes_exchangeNext hprobe (hres x.rid) (herr x.rid)⟩

/-- The answer to one request keeps the probes of the others under way. -/
theorem probeInFlight_of_other {e : Event} {rid : Nat} (hg : g.WellFormed)
    (hrid : e.op.rid? = some rid) (h : g.otherProbeInFlight b rid = true) :
    (g.step cfg e).probeInFlight b = true := by
  obtain ⟨x, hx, hprobe⟩ := List.any_eq_true.mp h
  simp only [decide_eq_true_eq] at hprobe
  have hne : ¬ e.op.rid? = some x.rid := by
    rw [hrid]
    exact fun heq => hprobe.1 (Option.some.inj heq).symm
  have hnext := exchangeNext_mem cfg e hg hx
  rw [exchangeNext, if_neg hne] at hnext
  exact List.any_eq_true.mpr ⟨x, hnext, hprobe.2⟩

/-- A step that does not open the half-open phase of `b` and keeps its probes
under way strands nothing. -/
theorem notStranded_of_quiet {e : Event} (hg : g.WellFormed) (hc : g.cell b = some c)
    (hstate : (run (Cell.step cfg) c (effects cfg g e b)).breaker.state = .halfOpen →
      c.breaker.state = .halfOpen)
    (hprobe : c.breaker.state = .halfOpen → g.probeInFlight b = true →
      (run (Cell.step cfg) c (effects cfg g e b)).breaker.state = .halfOpen →
      (g.step cfg e).probeInFlight b = true)
    (h : NotStranded b g) :
    NotStranded b (g.step cfg e) := by
  rw [notStranded_iff (cell_step _ e hg.complete hc)]
  intro hs'
  have hs := hstate hs'
  exact hprobe hs ((notStranded_iff hc).mp h hs) hs'

theorem halfOpen_of_effects {e : Event} (hconsult : ∀ now, .consult now ∉ effects cfg g e b)
    (h : (run (Cell.step cfg) c (effects cfg g e b)).breaker.state = .halfOpen) :
    c.breaker.state = .halfOpen := by
  by_contra hs
  refine run_preserves (P := fun c : Cell => c.breaker.state ≠ .halfOpen) hs ?_ h
  intro op hop c' hc'
  exact Cell.state_ne_halfOpen_step (fun now heq => hconsult now (heq ▸ hop)) hc'

/-- The breaker of `b` after a filter call. -/
theorem state_of_callsFilter {e : Event} (h : g.callsFilter cfg e = true) :
    (run (Cell.step cfg) c (effects cfg g e b)).breaker.state = .halfOpen ↔
      c.breaker.state = .halfOpen ∨ c.opensHalfOpen cfg e.now = true := by
  rw [← Cell.state_consult_eq_halfOpen_iff]
  rcases effects_of_callsFilter (b := b) h with hops | hops <;>
    simp [hops, Cell.step, Cell.connect]

/-- A selection is made for a request in the routing phase without a target. -/
theorem routerSelection_eq_some {now : Int} {rid : Nat} {result : SelectResult}
    (h : g.routerSelection cfg now rid = some result) :
    ∃ x, g.exchange rid = some x ∧ x.phase = .routing ∧ x.targetBackend = none := by
  simp only [routerSelection] at h
  cases hx : g.exchange rid with
  | none => simp [hx] at h
  | some x =>
      by_cases hdue : x.phase = .routing ∧ x.targetBackend = none
      · exact ⟨x, rfl, hdue⟩
      · simp [hx, hdue] at h

/-- A probe of `b` after an event that does not select `b` was one before. -/
theorem probeInFlight_of_step {e : Event} (hg : g.WellFormed)
    (hroute : e.op = .status ∨
      ∃ rid result, e.op = .route rid ∧ g.routerSelection cfg e.now rid = some result ∧
        result ≠ .selected b)
    (h : (g.step cfg e).probeInFlight b = true) :
    g.probeInFlight b = true := by
  obtain ⟨x', hx', hprobe⟩ := List.any_eq_true.mp h
  rcases exchange_origin e hg hx' with ⟨x, hx, rfl⟩ | ⟨rid, req, hop, rfl⟩
  · refine List.any_eq_true.mpr ⟨x, hx, ?_⟩
    rcases hroute with hop | ⟨rid, result, hop, hsel, hne⟩
    · simpa [exchangeNext, hop, Op.rid?] using hprobe
    · simp only [exchangeNext] at hprobe
      split_ifs at hprobe with hrid
      · obtain ⟨x₀, hx₀, hphase, htarget⟩ := routerSelection_eq_some hsel
        have hsame : x = x₀ := by
          rw [hop, Op.rid?, Option.some.injEq] at hrid
          exact KeyedList.eq_of_findKey hg.nodup_rids hx₀ hx hrid.symm
        subst hsame
        simp only [exchangeAfter, hop, hsel, Exchange.onRoute, hphase, htarget, if_true] at hprobe
        cases result with
        | noneHealthy => simp [Exchange.probes] at hprobe
        | typeError => simp [Exchange.probes, Exchange.routingFailed] at hprobe
        | endless => simpa [exchangeAfter] using hprobe
        | selected id =>
            simp only [Exchange.probes, Exchange.attach, Option.some.injEq, true_and,
              decide_eq_true_eq] at hprobe
            exact absurd (congrArg SelectResult.selected hprobe.1) hne
      · exact hprobe
  · simp [Exchange.probes, Exchange.start] at hprobe

/-- A filter call that does not select `b` strands it when it opens the phase
without a probe under way. -/
theorem notStranded_of_filter {e : Event} (hg : g.WellFormed) (hc : g.cell b = some c)
    (hroute : e.op = .status ∨
      ∃ rid result, e.op = .route rid ∧ g.routerSelection cfg e.now rid = some result ∧
        result ≠ .selected b)
    (h : NotStranded b g) :
    NotStranded b (g.step cfg e) ↔
      ¬(c.opensHalfOpen cfg e.now = true ∧ g.probeInFlight b = false) := by
  have hcall : g.callsFilter cfg e = true := by
    rcases hroute with hop | ⟨rid, result, hop, hsel, -⟩
    · simp [callsFilter, hop]
    · simp [callsFilter, hop, hsel]
  have hstays : g.probeInFlight b = true → (g.step cfg e).probeInFlight b = true := by
    refine probeInFlight_step hg ?_ ?_ <;>
      rcases hroute with hop | ⟨rid, result, hop, -, -⟩ <;> simp [hop]
  rw [notStranded_iff (cell_step _ e hg.complete hc), state_of_callsFilter hcall]
  rw [notStranded_iff hc] at h
  constructor
  · rintro hafter ⟨hopens, hnone⟩
    have hprobe := probeInFlight_of_step hg hroute (hafter (Or.inr hopens))
    simp [hnone] at hprobe
  · intro hquiet hs
    apply hstays
    rcases hs with hs | hopens
    · exact h hs
    · by_contra hnone
      exact hquiet ⟨hopens, by simpa using hnone⟩

/-- A selected backend has the request as its probe when its breaker is
half-open after the call. -/
theorem notStranded_of_selected {e : Event} {rid : Nat} (hg : g.WellFormed)
    (hc : g.cell b = some c) (hop : e.op = .route rid)
    (hsel : g.routerSelection cfg e.now rid = some (.selected b)) :
    NotStranded b (g.step cfg e) := by
  have hcall : g.callsFilter cfg e = true := by
    simp [callsFilter, hop, hsel]
  rw [notStranded_iff (cell_step _ e hg.complete hc), state_of_callsFilter hcall,
    ← Cell.state_consult_eq_halfOpen_iff]
  intro hs
  obtain ⟨x, hx, hphase, htarget⟩ := routerSelection_eq_some hsel
  have hrid : x.rid = rid := KeyedList.key_of_findKey hx
  have hnext := exchangeNext_mem cfg e hg (KeyedList.mem_of_findKey hx)
  have hattach : g.exchangeNext cfg e x = x.attach b true := by
    simp [exchangeNext, hop, Op.rid?, hrid, exchangeAfter, hsel, Exchange.onRoute, hphase,
      htarget, probeAfter, hc, hs]
  rw [hattach] at hnext
  exact List.any_eq_true.mpr ⟨_, hnext, by simp [Exchange.probes, Exchange.attach]⟩

/-- The request waits for `b` when its attempt is upstream and was sent there. -/
theorem awaitsResponse_of_probes {x : Exchange} (hg : g.WellFormed) (hb : b ≠ "")
    (hx : x ∈ g.exchanges) (hprobe : x.probes b = true) :
    g.awaitsResponse b x.rid = true := by
  have hfind : g.exchange x.rid = some x := KeyedList.findKey_of_mem hg.nodup_rids hx
  simp only [Exchange.probes, decide_eq_true_eq] at hprobe
  simp [awaitsResponse, hfind, hprobe.1, hprobe.2.1, truthy, hb]

/-- One probe under way is the given request or another one. -/
theorem otherProbeInFlight_or (rid : Nat) (h : g.probeInFlight b = true) :
    g.otherProbeInFlight b rid = true ∨
      ∃ x ∈ g.exchanges, x.rid = rid ∧ x.probes b = true := by
  obtain ⟨x, hx, hprobe⟩ := List.any_eq_true.mp h
  by_cases hrid : x.rid = rid
  · exact Or.inr ⟨x, hx, hrid, hprobe⟩
  · exact Or.inl (List.any_eq_true.mpr ⟨x, hx, by simp [hrid, hprobe]⟩)

/-- What the response to an attempt at `b` does to its cell. -/
theorem effects_of_awaitsResponse {now : Int} {rid status : Nat} {latency : Rat}
    (h : g.awaitsResponse b rid = true) :
    effects cfg g ⟨now, .proxyRes rid status latency⟩ b =
      if 500 ≤ status then [.recordFailure now ("HTTP " ++ toString status)]
      else if status < 400 then [.recordSuccess now]
      else [] := by
  cases hx : g.exchange rid with
  | none => simp [awaitsResponse, hx] at h
  | some x =>
      simp only [awaitsResponse, hx, decide_eq_true_eq] at h
      simp only [effects, hx, h.1, if_true, statusOps, h.2]
      split_ifs <;> simp

/-- The answered request is no longer a probe under way. -/
theorem otherProbeInFlight_of_proxyRes {now : Int} {rid status : Nat} {latency : Rat}
    (hg : g.WellFormed)
    (h : (g.step cfg ⟨now, .proxyRes rid status latency⟩).probeInFlight b = true) :
    g.otherProbeInFlight b rid = true := by
  obtain ⟨x', hx', hprobe⟩ := List.any_eq_true.mp h
  rcases exchange_origin _ hg hx' with ⟨x, hx, rfl⟩ | ⟨rid', req, hop, -⟩
  · by_cases hrid : x.rid = rid
    · simp only [exchangeNext, Op.rid?, hrid, if_true, exchangeAfter,
        Exchange.onProxyRes] at hprobe
      split_ifs at hprobe with hphase
      · simp [Exchange.probes] at hprobe
      · simp [Exchange.probes, hphase] at hprobe
    · have hne : rid ≠ x.rid := fun heq => hrid heq.symm
      rw [exchangeNext, Op.rid?, if_neg (by simpa using hne)] at hprobe
      exact List.any_eq_true.mpr ⟨x, hx, by simp [hrid, hprobe]⟩
  · simp at hop

theorem consult_notMem_effects {e : Event} (hstatus : e.op ≠ .status)
    (hroute : ∀ rid, e.op ≠ .route rid) (now : Int) :
    .consult now ∉ effects cfg g e b := by
  intro hmem
  rcases (causes_of_mem_effects hmem).2 with hop | ⟨rid, hop⟩
  · exact hstatus hop
  · exact hroute rid hop

/-- A failed attempt at `b` opens a half-open breaker. -/
theorem opened_of_liveFailure {e : Event} (hen : cfg.enabled = true)
    (hs : c.breaker.state = .halfOpen) (h : g.liveFailure b e = true) :
    (run (Cell.step cfg) c (effects cfg g e b)).breaker.state = .opened := by
  obtain ⟨error, hops⟩ := effects_of_liveFailure cfg h
  have htrip : c.breaker.trips cfg = true := Cell.trips_eq_true_iff.mpr ⟨hen, Or.inl hs⟩
  simp [hops, Cell.step, Cell.state_recordFailure, htrip]

theorem notStranded_of_proxyError {e : Event} {rid : Nat} {err : ProxyError}
    {latency random : Rat} (hg : Reachable cfg g) (hc : g.cell b = some c)
    (hop : e.op = .proxyError rid err latency random) (h : NotStranded b g) :
    NotStranded b (g.step cfg e) := by
  have hwf := hg.wellFormed
  refine notStranded_of_quiet hwf hc ?_ ?_ h
  · exact halfOpen_of_effects (consult_notMem_effects (by simp [hop]) (by simp [hop]))
  · intro hs hprobe hs'
    have hen : cfg.enabled = true := by
      by_contra hen
      rw [hg.closed_of_disabled (by simpa using hen) hc] at hs
      simp at hs
    rcases otherProbeInFlight_or rid hprobe with hother | ⟨x, hx, rfl, hx'⟩
    · exact probeInFlight_of_other hwf (by simp [hop, Op.rid?]) hother
    · have hfind : g.exchange x.rid = some x := KeyedList.findKey_of_mem hwf.nodup_rids hx
      have hb : b ≠ "" := hg.id_ne_empty (mem_ids_of_cell hc)
      simp only [Exchange.probes, decide_eq_true_eq] at hx'
      have hfail : g.liveFailure b e = true := by
        simp [liveFailure, hop, awaitsError, hfind, Exchange.awaitsError, hx'.1, hx'.2.1,
          truthy, hb]
      rw [opened_of_liveFailure hen hs hfail] at hs'
      simp at hs'

theorem notStranded_of_proxyRes {now : Int} {rid status : Nat} {latency : Rat}
    (hg : Reachable cfg g) (hc : g.cell b = some c) (h : NotStranded b g) :
    NotStranded b (g.step cfg ⟨now, .proxyRes rid status latency⟩) ↔
      ¬(c.breaker.state = .halfOpen ∧ g.awaitsResponse b rid = true ∧ 400 ≤ status ∧
        status < 500 ∧ g.otherProbeInFlight b rid = false) := by
  have hwf := hg.wellFormed
  constructor
  · rintro hafter ⟨hs, hawait, h400, h500, hnone⟩
    rw [notStranded_iff (cell_step _ _ hwf.complete hc), effects_of_awaitsResponse hawait,
      if_neg (by omega), if_neg (by omega)] at hafter
    have hother := otherProbeInFlight_of_proxyRes hwf (hafter hs)
    simp [hnone] at hother
  · intro hlast
    refine notStranded_of_quiet hwf hc ?_ ?_ h
    · exact halfOpen_of_effects (consult_notMem_effects (by simp) (by simp))
    · intro hs hprobe hs'
      have hen : cfg.enabled = true := by
        by_contra hen
        rw [hg.closed_of_disabled (by simpa using hen) hc] at hs
        simp at hs
      rcases otherProbeInFlight_or rid hprobe with hother | ⟨x, hx, rfl, hx'⟩
      · exact probeInFlight_of_other hwf rfl hother
      · have hawait := awaitsResponse_of_probes hwf
          (hg.id_ne_empty (mem_ids_of_cell hc)) hx hx'
        by_cases h500 : 500 ≤ status
        · rw [opened_of_liveFailure hen hs (by simp [liveFailure, hawait, h500])] at hs'
          simp at hs'
        · by_cases h400 : status < 400
          · rw [effects_of_awaitsResponse hawait, if_neg h500, if_pos h400] at hs'
            simp [Cell.step, Cell.state_recordSuccess hen] at hs'
          · by_contra hnot
            have hnone : g.otherProbeInFlight b x.rid = false := by
              by_contra hother
              exact hnot (probeInFlight_of_other hwf rfl (by simpa using hother))
            exact hlast ⟨hs, hawait, by omega, by omega, hnone⟩

/-- One step strands the breaker of `b` exactly in the listed cases. -/
theorem notStranded_step (e : Event) (hg : Reachable cfg g) (h : NotStranded b g) :
    NotStranded b (g.step cfg e) ↔ strands cfg b g e = false := by
  have hwf := hg.wellFormed
  cases hc : g.cell b with
  | none =>
      have hmissing : b ∉ (g.step cfg e).pool.ids := by
        rw [← BackendPool.find_isSome_iff, find_step_eq_none cfg e hwf.complete hc]
        simp
      simp [strands, hc, NotStranded, hmissing]
  | some c =>
      have hquiet : (∀ now, .consult now ∉ effects cfg g e b) →
          (∀ rid status latency, e.op ≠ .proxyRes rid status latency) →
          (∀ rid err latency random, e.op ≠ .proxyError rid err latency random) →
          NotStranded b (g.step cfg e) := by
        intro hconsult hres herr
        exact notStranded_of_quiet hwf hc (halfOpen_of_effects hconsult)
          (fun _ hprobe _ => probeInFlight_step hwf hres herr hprobe) h
      obtain ⟨now, op⟩ := e
      cases op with
      | status =>
          rw [notStranded_of_filter hwf hc (Or.inl rfl) h]
          simp [strands, hc]
      | route rid =>
          cases hsel : g.routerSelection cfg now rid with
          | none =>
              have hno : ∀ now', .consult now' ∉ effects cfg g ⟨now, .route rid⟩ b := by
                simp [effects, routerOps, hsel]
              simp [strands, hc, hsel, hquiet hno (by simp) (by simp)]
          | some result =>
              by_cases hb : result = .selected b
              · subst hb
                have hkeep : NotStranded b (g.step cfg ⟨now, .route rid⟩) :=
                  notStranded_of_selected hwf hc rfl hsel
                simp [strands, hc, hsel, hkeep]
              · rw [notStranded_of_filter hwf hc (Or.inr ⟨rid, result, rfl, hsel, hb⟩) h]
                simp [strands, hc, hsel, hb]
      | proxyRes rid status latency =>
          rw [notStranded_of_proxyRes hg hc h]
          simp [strands, hc]
      | proxyError rid err latency random =>
          have hkeep : NotStranded b
              (g.step cfg ⟨now, .proxyError rid err latency random⟩) :=
            notStranded_of_proxyError hg hc rfl h
          simp [strands, hc, hkeep]
      | _ =>
          simp [strands, hc, hquiet (consult_notMem_effects (by simp) (by simp)) (by simp)
            (by simp)]

/-- Over every run from start-up, a half-open breaker has a probe under way
exactly as long as no step strands it. -/
theorem halfOpen_probed_iff {es : List Event} (hboot : Booted cfg g) :
    Always (step cfg) (NotStranded b) g es ↔
      EachStep (step cfg) (fun g e => strands cfg b g e = false) g es := by
  refine always_iff_eachStep (I := Reachable cfg) (Q := fun _ _ => True)
    (fun g e hg _ => hg.next e trivial) (fun g e hg h _ => notStranded_step e hg h)
    (.start hboot) ?_ (eachStep_of_forall (by simp))
  intro hmem hs
  obtain ⟨c, hc⟩ := Option.isSome_iff_exists.mp (hboot.complete b hmem)
  obtain ⟨-, hbr, -⟩ := cell_eq_some_iff.mp hc
  simp [isHalfOpen, hbr, (hboot.cell_eq hc).1] at hs

/-- The sample gateway with its first backend tripped by live failures and
then enabled by an operator. -/
def restoredSample : List Event :=
  answeredRequests 13 1 500 ++ [⟨2, .healthOverride "backend-1" (some true)⟩]

/-- A request that the strategy sends to the backend is its probe, and a
response without error ends the half-open phase. -/
theorem halfOpen_probed_sample :
    Always (step (Config.default (fun _ => 0))) (NotStranded "backend-1") sampleGateway
      (restoredSample ++
        [⟨2, .request 13 ⟨"GET", "/", none, none, none, none⟩⟩, ⟨2, .route 13⟩,
          ⟨20000, .request 14 ⟨"GET", "/", none, none, none, none⟩⟩, ⟨20000, .route 14⟩,
          ⟨20001, .status⟩, ⟨20010, .proxyRes 14 200 5⟩]) :=
  (halfOpen_probed_iff ⟨0, rfl⟩).mpr (by decide +kernel)

/-- One status poll consumes the only permit and routes nothing. -/
theorem halfOpen_probed_violated :
    ¬ ∀ (cfg : Config) (b : String) (g : Gateway), Reachable cfg g → NotStranded b g := by
  intro hclaim
  have hreach : Reachable (Config.default (fun _ => 0))
      (run (step (Config.default (fun _ => 0))) sampleGateway
        (restoredSample ++ [⟨20000, .status⟩])) :=
    reachable_sampleGateway.run (eachStep_of_forall (by simp))
  obtain ⟨x, hx, hprobe⟩ := hclaim _ "backend-1" _ hreach (by decide +kernel) (by decide +kernel)
  have hflight : probeInFlight "backend-1" (run (step (Config.default (fun _ => 0)))
      sampleGateway (restoredSample ++ [⟨20000, .status⟩])) = true :=
    List.any_eq_true.mpr ⟨x, hx, hprobe⟩
  revert hflight
  decide +kernel

end Probes

end Gateway

end SentinelADC
