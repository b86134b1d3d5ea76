import SentinelADC.OperatorSettings

/-!
# Requests without a token

What anyone can do to gateway, blocklist and security log through the API
without a valid token.  Each status poll asks the breakers of the backends for
admission, each read of metrics drops transactions that have left the window,
and each refusal is logged, as is what the middlewares before the routes notice.
That is all, whatever is sent and however often.  What the middlewares keep for
themselves, the cache among it, is not looked at here.
-/

namespace SentinelADC

open Runs Router

universe u

namespace ControlEvent

variable {V : Type u}

/-- A request at the API without a valid token, or what a middleware writes for
one. -/
def Anonymous (libs : Libraries) (e : ControlEvent V) : Prop :=
  match e.op with
  | .call call => target libs call.request ≠ .proxy ∧ ¬ call.request.HasValidToken libs
  | .caching _ => True
  | .logging _ => True
  | .background _ _ => False

/-- The target of a request. -/
def target? (libs : Libraries) (e : ControlEvent V) : Option Target :=
  match e.op with
  | .call call => some (target libs call.request)
  | _ => none

/-- What a status poll asks of every backend. -/
def poll? (libs : Libraries) (e : ControlEvent V) : Option CellOp :=
  match e.target? libs with
  | some (.handler .status _) => some (.consult e.now)
  | _ => none

/-- The request reads the metrics of a backend of the pool. -/
def readsMetrics (libs : Libraries) (ids : List String) (id : String) (e : ControlEvent V) :
    Bool :=
  match e.op with
  | .call call =>
      match target libs call.request with
      | .handler .metricsOfAll _ => id ∈ ids
      | .handler .metricsOfOne _ => call.param = id
      | _ => false
  | _ => false

/-- What is logged: the refusal of a request, or the entries of a middleware. -/
def entries (libs : Libraries) (e : ControlEvent V) : List SecurityEvent :=
  match e.op with
  | .call call =>
      match target libs call.request with
      | .unauthorized _ => [call.unauthorizedEvent libs e.now]
      | _ => []
  | .logging logged => logged
  | _ => []

end ControlEvent

namespace ControlPlane

variable {V : Type u} {env : ControlEnv} {s s' s'' : ControlPlane V}

/-- A window after the reads of some requests. -/
def prunedBy (libs : Libraries) (ids : List String) (id : String) (es : List (ControlEvent V))
    (list : List Transaction) : List Transaction :=
  (es.filter (fun e => e.readsMetrics libs ids id)).foldl
    (fun list e => pruneTransactions e.now list) list

@[simp] theorem prunedBy_nil (libs : Libraries) (ids : List String) (id : String) :
    prunedBy libs ids id ([] : List (ControlEvent V)) = fun list => list := by
  rfl

/-- The windows after one request. -/
theorem map_prunedBy_singleton (libs : Libraries) (ids : List String) (id : String)
    (e : ControlEvent V) (list : Option (List Transaction)) :
    list.map (prunedBy libs ids id [e]) =
      if e.readsMetrics libs ids id then list.map (pruneTransactions e.now) else list := by
  cases list with
  | none => split_ifs <;> rfl
  | some list => cases hread : e.readsMetrics libs ids id <;> simp [prunedBy, hread]

/-- The whole effect of some requests without a token on gateway, blocklist and
log. -/
structure AnonymousEffect (env : ControlEnv) (es : List (ControlEvent V))
    (s s' : ControlPlane V) : Prop where
  ids : s'.gateway.pool.ids = s.gateway.pool.ids
  /-- Polls consult the breakers. -/
  cells : ∀ id, s'.gateway.cell id =
    (s.gateway.cell id).map
      (fun c => run (Cell.step env.cfg) c (es.filterMap (ControlEvent.poll? env.libs)))
  /-- Reads prune the windows. -/
  history : ∀ id, s'.gateway.memory.history id =
    (s.gateway.memory.history id).map (prunedBy env.libs s.gateway.pool.ids id es)
  /-- Nothing else of the gateway is written. -/
  gateway : s'.gateway = { s.gateway with
    pool := s'.gateway.pool
    breakers := s'.gateway.breakers
    memory := { s.gateway.memory with history := s'.gateway.memory.history } }
  blockedIps : s'.blockedIps = s.blockedIps
  /-- Refusals are logged, and what the middlewares notice. -/
  events : s'.events =
    ((es.flatMap (ControlEvent.entries env.libs)).reverse ++ s.events).take securityLogLimit

section Effect

variable {es es' : List (ControlEvent V)}

theorem AnonymousEffect.refl (env : ControlEnv) (hlog : s.events.length ≤ securityLogLimit) :
    AnonymousEffect env [] s s where
  ids := rfl
  cells := fun id => by simp
  history := fun id => by simp
  gateway := rfl
  blockedIps := rfl
  events := by simp [List.take_of_length_le hlog]

theorem AnonymousEffect.trans (h : AnonymousEffect env es s s')
    (h' : AnonymousEffect env es' s' s'') :
    AnonymousEffect env (es ++ es') s s'' where
  ids := h'.ids.trans h.ids
  cells := fun id => by
    rw [h'.cells, h.cells, Option.map_map]
    congr 1
    funext c
    rw [List.filterMap_append, run_append]
    rfl
  history := fun id => by
    rw [h'.history, h.history, Option.map_map, h.ids]
    congr 1
    funext list
    rw [Function.comp_apply, prunedBy, prunedBy, prunedBy, List.filter_append, List.foldl_append]
  gateway := by
    rw [h'.gateway, h.gateway]
  blockedIps := h'.blockedIps.trans h.blockedIps
  events := by
    rw [h'.events, h.events, take_append_take, List.flatMap_append, List.reverse_append,
      List.append_assoc]

/-- A request that does nothing. -/
theorem AnonymousEffect.idle {e : ControlEvent V} (hlog : s.events.length ≤ securityLogLimit)
    (hpoll : e.poll? env.libs = none)
    (hread : ∀ id, e.readsMetrics env.libs s.gateway.pool.ids id = false)
    (hentries : e.entries env.libs = []) :
    AnonymousEffect env [e] s s where
  ids := rfl
  cells := fun id => by simp [hpoll]
  history := fun id => by simp [map_prunedBy_singleton, hread id]
  gateway := rfl
  blockedIps := rfl
  events := by simp [hentries, List.take_of_length_le hlog]

/-- A status poll. -/
theorem AnonymousEffect.status {now : Int} {call : ApiCall} {guarded : Bool}
    (hs : s.gateway.Complete) (hlog : s.events.length ≤ securityLogLimit)
    (htarget : target env.libs call.request = .handler .status guarded) :
    AnonymousEffect env [⟨now, .call call⟩] s
      { s with gateway := (s.gateway.getHealthyBackends env.cfg now).2 } where
  ids := (Gateway.moves_getHealthyBackends hs).ids
  cells := fun id => by
    rw [(Gateway.moves_getHealthyBackends hs).cell id]
    congr 1
    funext c
    simp [ControlEvent.poll?, ControlEvent.target?, htarget, Cell.step]
  history := fun id => by
    have hread : (⟨now, .call call⟩ : ControlEvent V).readsMetrics env.libs s.gateway.pool.ids id =
        false := by
      simp [ControlEvent.readsMetrics, htarget]
    rw [map_prunedBy_singleton, hread,
      (Gateway.breakerFrame_getHealthyBackends s.gateway env.cfg now).memory]
    rfl
  gateway := by
    have hframe := Gateway.breakerFrame_getHealthyBackends s.gateway env.cfg now
    rw [hframe]
  blockedIps := rfl
  events := by
    simp [ControlEvent.entries, htarget, List.take_of_length_le hlog]

/-- The windows after reads of the metrics of some backends. -/
theorem history_readMetrics (now : Int) (s : ControlPlane V) {ids : List String}
    (hnodup : ids.Nodup) (id : String) :
    (ids.foldl (fun s id => s.readMetrics now id) s).gateway.memory.history id =
      if id ∈ ids then (s.gateway.memory.history id).map (pruneTransactions now)
      else s.gateway.memory.history id := by
  induction ids generalizing s with
  | nil => simp
  | cons id' ids ih =>
      obtain ⟨hfresh, hnodup⟩ := List.nodup_cons.mp hnodup
      have hone : (s.readMetrics now id').gateway.memory.history id =
          if id = id' then (s.gateway.memory.history id).map (pruneTransactions now)
          else s.gateway.memory.history id := by
        rw [readMetrics, StrategyMemory.getBackendMetrics_snd]
        exact StrategyMemory.history_cleanup now id' id s.gateway.memory
      rw [List.foldl_cons, ih _ hnodup, hone]
      by_cases hid : id = id'
      · subst hid
        simp [hfresh]
      · simp [hid]

theorem readMetrics_of_none (now : Int) {id : String}
    (hnone : (s.gateway.memory.history id).isNone = true) :
    s.readMetrics now id = s := by
  rw [Option.isNone_iff_eq_none] at hnone
  simp only [readMetrics, StrategyMemory.getBackendMetrics_snd, StrategyMemory.cleanup, hnone]

/-- A read of the metrics of some backends. -/
theorem AnonymousEffect.reads {now : Int} {call : ApiCall} {ids : List String}
    (hnodup : ids.Nodup) (hlog : s.events.length ≤ securityLogLimit)
    (hpoll : (⟨now, .call call⟩ : ControlEvent V).poll? env.libs = none)
    (hread : ∀ id, (⟨now, .call call⟩ : ControlEvent V).readsMetrics env.libs
      s.gateway.pool.ids id = decide (id ∈ ids))
    (hentries : (⟨now, .call call⟩ : ControlEvent V).entries env.libs = []) :
    AnonymousEffect env [⟨now, .call call⟩] s
      (ids.foldl (fun s id => s.readMetrics now id) s) := by
  have hhistory := history_readMetrics now s hnodup
  obtain ⟨history, hfold⟩ := readMetrics_foldl now s ids
  rw [hfold] at hhistory ⊢
  exact {
    ids := rfl
    cells := fun id => by
      rw [List.filterMap_cons, hpoll]
      simp [Gateway.cell]
    history := fun id => by
      rw [hhistory, map_prunedBy_singleton, hread id]
      simp only [decide_eq_true_eq]
    gateway := rfl
    blockedIps := rfl
    events := by simp [hentries, List.take_of_length_le hlog] }

/-- A refusal. -/
theorem AnonymousEffect.refusal {now : Int} {call : ApiCall} {message : String}
    (hlog : s.events.length ≤ securityLogLimit)
    (htarget : target env.libs call.request = .unauthorized message) :
    AnonymousEffect env [⟨now, .call call⟩] s (s.logAll [call.unauthorizedEvent env.libs now]) where
  ids := rfl
  cells := fun id => by simp [ControlEvent.poll?, ControlEvent.target?, htarget, logAll]
  history := fun id => by
    simp [map_prunedBy_singleton, ControlEvent.readsMetrics, htarget, logAll]
  gateway := rfl
  blockedIps := rfl
  events := by
    simp [ControlEvent.entries, htarget, logAll, logEvent, unshiftCapped_eq_take _ hlog]

/-- The cache is none of it. -/
theorem AnonymousEffect.caching (now : Int) (cache : CacheService V)
    (hlog : s.events.length ≤ securityLogLimit) :
    AnonymousEffect env [⟨now, .caching cache⟩] s { s with cache := cache } where
  ids := rfl
  cells := fun id => by
    have hpoll : (⟨now, .caching cache⟩ : ControlEvent V).poll? env.libs = none := rfl
    simp [hpoll]
  history := fun id => by simp [map_prunedBy_singleton, ControlEvent.readsMetrics]
  gateway := rfl
  blockedIps := rfl
  events := by simp [ControlEvent.entries, List.take_of_length_le hlog]

/-- A middleware logs. -/
theorem AnonymousEffect.logging (now : Int) (logged : List SecurityEvent)
    (hlog : s.events.length ≤ securityLogLimit) :
    AnonymousEffect env [⟨now, .logging logged⟩] s (s.logAll logged) where
  ids := rfl
  cells := fun id => by
    have hpoll : (⟨now, .logging logged⟩ : ControlEvent V).poll? env.libs = none := rfl
    simp [hpoll, logAll]
  history := fun id => by simp [map_prunedBy_singleton, ControlEvent.readsMetrics, logAll]
  gateway := rfl
  blockedIps := rfl
  events := by
    simpa [ControlEvent.entries, logAll, logEvent] using foldl_unshiftCapped logged hlog

end Effect

section Run

variable {e : ControlEvent V}

/-- One request without a token. -/
theorem anonymousEffect_call {now : Int} {call : ApiCall} (hs : s.gateway.Complete)
    (hlog : s.events.length ≤ securityLogLimit) (hproxy : target env.libs call.request ≠ .proxy)
    (htoken : ¬ call.request.HasValidToken env.libs) :
    AnonymousEffect env [⟨now, .call call⟩] s (step env s ⟨now, .call call⟩) := by
  have hidle : (step env s ⟨now, .call call⟩) = s →
      (∀ guarded, target env.libs call.request ≠ .handler .status guarded) →
      (∀ guarded, target env.libs call.request ≠ .handler .metricsOfAll guarded) →
      (∀ guarded, target env.libs call.request ≠ .handler .metricsOfOne guarded) →
      (∀ message, target env.libs call.request ≠ .unauthorized message) →
      AnonymousEffect env [⟨now, .call call⟩] s (step env s ⟨now, .call call⟩) := by
    intro hsame hstatus hall hone hrefusal
    rw [hsame]
    refine AnonymousEffect.idle hlog ?_ (fun id => ?_) ?_
    · simp only [ControlEvent.poll?, ControlEvent.target?]
      split
      · next guarded heq => exact absurd (Option.some.inj heq) (hstatus guarded)
      · rfl
    · simp only [ControlEvent.readsMetrics]
    · simp only [ControlEvent.entries]
  cases htarget : target env.libs call.request with
  | handler handler guarded =>
      have hguard : guarded = false := by
        by_contra hguarded
        rw [Bool.not_eq_false] at hguarded
        exact htoken (hasValidToken_of_target (hguarded ▸ htarget))
      subst hguard
      have hstep : step env s ⟨now, .call call⟩ = (s.handle env now call handler).2 := by
        simp only [step, serve, htarget]
      have hopen := ApiCall.mem_openToAll htarget
      have hdocument : (s.handle env now call handler).2 = s → handler ≠ .status →
          handler ≠ .metricsOfAll → handler ≠ .metricsOfOne →
          AnonymousEffect env [⟨now, .call call⟩] s (step env s ⟨now, .call call⟩) := by
        intro hsame hstatus hall hone
        refine hidle (hstep.trans hsame) ?_ ?_ ?_ ?_ <;> simp [htarget, hstatus, hall, hone]
      simp only [ApiCall.openToAll, List.mem_cons, List.not_mem_nil, or_false] at hopen
      rcases hopen with rfl | rfl | rfl | rfl | rfl | rfl | rfl | rfl
      · rw [hstep]
        exact AnonymousEffect.status hs hlog htarget
      · exact hdocument rfl (by simp) (by simp) (by simp)
      · exact hdocument rfl (by simp) (by simp) (by simp)
      · refine hdocument ?_ (by simp) (by simp) (by simp)
        simp only [handle]
        split_ifs <;> rfl
      · rw [hstep]
        refine AnonymousEffect.reads s.gateway.pool.ids_nodup hlog ?_ (fun id => ?_) ?_
        · simp [ControlEvent.poll?, ControlEvent.target?, htarget]
        · simp [ControlEvent.readsMetrics, htarget]
        · simp [ControlEvent.entries, htarget]
      · have hread : (s.handle env now call .metricsOfOne).2 =
            [call.param].foldl (fun s id => s.readMetrics now id) s := by
          simp only [handle, List.foldl_cons, List.foldl_nil]
          split_ifs with hsome hinherited
          · rfl
          · exact (readMetrics_of_none now hinherited.1).symm
          · rfl
        rw [hstep, hread]
        refine AnonymousEffect.reads (List.nodup_singleton _) hlog ?_ (fun id => ?_) ?_
        · simp [ControlEvent.poll?, ControlEvent.target?, htarget]
        · simp [ControlEvent.readsMetrics, htarget, eq_comm]
        · simp [ControlEvent.entries, htarget]
      · exact hdocument rfl (by simp) (by simp) (by simp)
      · refine hdocument ?_ (by simp) (by simp) (by simp)
        simp only [handle]
        split_ifs <;> rfl
  | unauthorized message =>
      simp only [step, serve, htarget]
      exact AnonymousEffect.refusal hlog htarget
  | badBody status =>
      refine hidle ?_ (by simp [htarget]) (by simp [htarget]) (by simp [htarget])
        (by simp [htarget])
      simp only [step, serve, htarget]
  | proxy => exact absurd htarget hproxy
  | notFound =>
      refine hidle ?_ (by simp [htarget]) (by simp [htarget]) (by simp [htarget])
        (by simp [htarget])
      simp only [step, serve, htarget]

theorem anonymousEffect_step (hs : s.gateway.Complete) (hlog : s.events.length ≤ securityLogLimit)
    (he : e.Anonymous env.libs) :
    AnonymousEffect env [e] s (step env s e) := by
  obtain ⟨now, op⟩ := e
  cases op with
  | call call => exact anonymousEffect_call hs hlog he.1 he.2
  | caching cache => exact AnonymousEffect.caching now cache hlog
  | logging logged => exact AnonymousEffect.logging now logged hlog
  | background op logged => exact absurd he id

theorem length_logAll_le (logged : List SecurityEvent)
    (hlog : s.events.length ≤ securityLogLimit) :
    (s.logAll logged).events.length ≤ securityLogLimit := by
  induction logged generalizing s with
  | nil => exact hlog
  | cons event logged ih =>
      exact ih (s := s.logAll [event]) (length_unshiftCapped_le event hlog)

/-- The log stays within its limit. -/
theorem length_events_step_le (e : ControlEvent V) (hlog : s.events.length ≤ securityLogLimit) :
    (step env s e).events.length ≤ securityLogLimit := by
  obtain ⟨now, op⟩ := e
  cases op with
  | background op logged => exact length_logAll_le logged hlog
  | caching cache => exact hlog
  | logging logged => exact length_logAll_le logged hlog
  | call call =>
      cases htarget : target env.libs call.request with
      | handler handler guarded =>
          simp only [step, serve, htarget]
          cases hop : call.op? handler with
          | some op =>
              obtain ⟨logged, heq⟩ := handle_op env now s hop
              rw [heq]
              exact length_logAll_le logged hlog
          | none =>
              rcases handle_none env now s hop with ⟨-, memory, heq⟩ | ⟨-, cache, heq⟩ |
                ⟨-, heq⟩ | ⟨-, ip, -, heq⟩ | ⟨-, heq⟩ <;> rw [heq]
              · exact hlog
              · exact hlog
              · exact Nat.zero_le _
              · exact hlog
              · exact hlog
      | unauthorized message =>
          simp only [step, serve, htarget]
          exact length_logAll_le _ hlog
      | badBody status => simpa only [step, serve, htarget] using hlog
      | proxy => simpa only [step, serve, htarget] using hlog
      | notFound => simpa only [step, serve, htarget] using hlog

theorem Reachable.length_events_le (h : Reachable env s) :
    s.events.length ≤ securityLogLimit := by
  refine Runs.Reachable.invariant (P := fun s : ControlPlane V =>
    s.events.length ≤ securityLogLimit) ?_ (fun _ e hlog _ => length_events_step_le e hlog) h
  intro s hboot
  rw [hboot.events]
  exact Nat.zero_le _

/-- Without a token, requests poll, read and are refused, and do nothing more. -/
theorem anonymous_run (h : Reachable env s) {es : List (ControlEvent V)}
    (hes : ∀ e ∈ es, e.Anonymous env.libs) :
    AnonymousEffect env es s (run (step env) s es) := by
  induction es generalizing s with
  | nil => exact AnonymousEffect.refl env h.length_events_le
  | cons e es ih =>
      have hone : AnonymousEffect env [e] s (step env s e) :=
        anonymousEffect_step h.complete h.length_events_le (hes e List.mem_cons_self)
      have hrest : AnonymousEffect env es (step env s e) (run (step env) (step env s e) es) :=
        ih (h.next e trivial) (fun e' he' => hes e' (List.mem_cons_of_mem e he'))
      exact hone.trans hrest

/-- Two polls, a read of all metrics and a request to block an address, without a token; the cache
counts a bypass, and the firewall notices something in between. -/
def anonymousCalls : List (ControlEvent Unit) :=
  [⟨1, .caching sampleControl.cache.recordBypass⟩, ⟨1, .call (getCall "/api/status")⟩,
    ⟨2, .call (getCall "/api/metrics")⟩,
    ⟨3, .logging [⟨"waf-block", "192.0.2.7", some "/api/status?q=<script>", some "GET", "unknown",
      [], 3⟩]⟩,
    ⟨3, .call (blockCall none)⟩, ⟨4, .call (getCall "/api/status")⟩]

theorem anonymous_run_sample :
    AnonymousEffect sampleEnv anonymousCalls sampleControl
      (run (step sampleEnv) sampleControl anonymousCalls) := by
  refine anonymous_run reachable_sampleControl ?_
  have hrefused : ∀ call : ApiCall, call.request.headers "authorization" = none →
      ¬ call.request.HasValidToken sampleEnv.libs := by
    rintro call hheader ⟨token, hbearer, -⟩
    simp [hheader, bearerToken, truthy] at hbearer
  intro e he
  simp only [anonymousCalls, List.mem_cons, List.not_mem_nil, or_false] at he
  rcases he with rfl | rfl | rfl | rfl | rfl | rfl
  · trivial
  · exact ⟨by decide +kernel, hrefused _ rfl⟩
  · exact ⟨by decide +kernel, hrefused _ rfl⟩
  · trivial
  · exact ⟨by decide +kernel, hrefused _ rfl⟩
  · exact ⟨by decide +kernel, hrefused _ rfl⟩

end Run

end ControlPlane

end SentinelADC
