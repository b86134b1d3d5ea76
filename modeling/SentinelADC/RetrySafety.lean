import SentinelADC.ExchangeStep

/-!
# Retry safety

What the retry protocol of `proxy/proxyMiddleware.js` does for one request, in
every run: attempts it dispatches, failures it records and replies it writes,
while the pool, the breakers, the drains and other requests change in between.

A log lists what the handlers do, in order.  The fields on `req` and `res` are
tied to it: `_attempts` covers the attempts dispatched and the one that may be
due, `_failedBackends` lists the failures, and `headersSent` knows of every
reply.
-/

namespace SentinelADC

open Runs

/-- What the proxy does for a request. -/
inductive ProxyAction where
  /-- The router hands on a backend while `getHealthyBackends` admits these. -/
  | dispatch (id : String) (admitted : List String)
  /-- The error hook runs for an attempt at a backend. -/
  | failure (id : String)
  /-- Headers of a response other than the proxy's 502 go out. -/
  | headers
  /-- The proxy writes a 502. -/
  | badGateway
deriving DecidableEq, Repr

namespace ProxyAction

def isDispatch : ProxyAction → Bool
  | .dispatch _ _ => true
  | _ => false

/-- Number of attempts dispatched. -/
def dispatches (l : List ProxyAction) : Nat :=
  l.countP isDispatch

end ProxyAction

/-- What a log of actions for one request promises. -/
structure RetrySafe (idempotent : Bool) (l : List ProxyAction) : Prop where
  /-- At most three attempts. -/
  attempts : ProxyAction.dispatches l ≤ 3
  /-- At most one attempt for a method that may have effects. -/
  once : idempotent = false → ProxyAction.dispatches l ≤ 1
  /-- A backend that has failed is tried again only when all that are admitted
  have failed. -/
  fallback : ∀ before id admitted after, l = before ++ .dispatch id admitted :: after →
    .failure id ∈ before → ∀ id' ∈ admitted, .failure id' ∈ before
  /-- At most one 502. -/
  replies : l.count .badGateway ≤ 1
  /-- None once headers are sent. -/
  unsent : ∀ before after, l = before ++ .badGateway :: after →
    .headers ∉ before ∧ .badGateway ∉ before

namespace Exchange

/-- What a router call does, with the list that the filter returns. -/
def routeActions (selection : Option SelectResult) (admitted : List String) (x : Exchange) :
    List ProxyAction :=
  if x.phase = .routing then
    match x.targetBackend, selection with
    | some id, _ => [.dispatch id admitted]
    | none, some (.selected id) => [.dispatch id admitted]
    | none, some .typeError =>
        if x.headersSent then [] else if 1 < x.attempts then [.badGateway] else [.headers]
    | none, _ => []
  else []

/-- What the error hook does: after a failure it retries, or it answers unless
headers are sent. -/
def errorActions (x : Exchange) : List ProxyAction :=
  x.backendId.toList.map .failure ++
    (if isIdempotent x.request.method ∧ x.attempts ≤ maxRetries ∧ x.headersSent = false then []
    else if x.headersSent = false then [.badGateway]
    else [])

/-- What the first byte of a body does. -/
def bodyActions (x : Exchange) : List ProxyAction :=
  if x.phase = .streaming ∧ x.headersSent = false then [.headers] else []

/-- An attempt will be dispatched without another error. -/
def attemptDue (x : Exchange) : Bool :=
  x.phase = .routing ∨ x.phase = .backoff

end Exchange

/-- The action is allowed after the actions before it. -/
def ProxyAction.Allowed (before : List ProxyAction) : ProxyAction → Prop
  | .dispatch id admitted => .failure id ∈ before → ∀ id' ∈ admitted, .failure id' ∈ before
  | .badGateway => .headers ∉ before ∧ .badGateway ∉ before
  | _ => True

/-- The fields of a request agree with the log of what was done for it. -/
structure Exchange.Logged (x : Exchange) (l : List ProxyAction) : Prop where
  allowed : EachEntry ProxyAction.Allowed l
  sent : x.headersSent = true ↔ .headers ∈ l ∨ .badGateway ∈ l
  replied : x.reply.isSome = true ↔ .badGateway ∈ l
  failed : ∀ id, id ∈ x.failedBackends ↔ .failure id ∈ l
  named : x.backendId ≠ some ""
  untargeted : x.attemptDue = true → x.targetBackend = none
  covered : ProxyAction.dispatches l + x.attemptDue.toNat ≤ x.attempts
  bounded : x.attempts ≤ maxRetries + 1
  single : isIdempotent x.request.method = false → x.attempts = 1

section Logs

open ProxyAction

variable {l : List ProxyAction}

@[simp] theorem dispatches_concat (l : List ProxyAction) (a : ProxyAction) :
    dispatches (l ++ [a]) = dispatches l + a.isDispatch.toNat := by
  rw [dispatches, List.countP_append, List.countP_singleton]
  cases a <;> rfl

/-- A reply is allowed only as the first. -/
theorem count_badGateway_le (h : EachEntry Allowed l) :
    l.count .badGateway ≤ 1 := by
  induction l using List.reverseRecOn with
  | nil => simp
  | append_singleton l a ih =>
      obtain ⟨hl, ha⟩ := eachEntry_concat.mp h
      rw [List.count_append]
      by_cases hreply : a = .badGateway
      · subst hreply
        simp [List.count_eq_zero.mpr ha.2]
      · simpa [hreply] using ih hl

/-- A log that agrees with its request keeps its promises. -/
theorem Exchange.Logged.retrySafe {x : Exchange} (h : x.Logged l) :
    RetrySafe (isIdempotent x.request.method) l := by
  have hcovered := h.covered
  have hbounded := h.bounded
  have hmax : maxRetries = 2 := rfl
  refine ⟨by omega, ?_, ?_, count_badGateway_le h.allowed, ?_⟩
  · intro hmethod
    have := h.single hmethod
    omega
  · intro before id admitted after heq
    exact h.allowed before _ after heq
  · intro before after heq
    exact h.allowed before _ after heq

end Logs

namespace Exchange

open ProxyAction

variable {x : Exchange} {l : List ProxyAction}

theorem logged_start (rid : Nat) (req : ClientRequest) :
    (start rid req).Logged [] where
  allowed := eachEntry_nil _
  sent := by simp [start]
  replied := by simp [start]
  failed := by simp [start]
  named := by simp [start]
  untargeted := fun _ => rfl
  covered := by simp [start, attemptDue, dispatches]
  bounded := by simp [start, maxRetries]
  single := fun _ => rfl

/-- A backend that has failed is left by the exclusion only with others that
have. -/
theorem Logged.allowed_dispatch {id : String} {admitted : List String} (h : x.Logged l)
    (hmem : id ∈ excludeFailed x.failedBackends admitted) :
    Allowed l (.dispatch id admitted) := by
  intro hfailure
  rw [← h.failed] at hfailure
  unfold excludeFailed at hmem
  dsimp only at hmem
  split_ifs at hmem with hnone
  · intro id' hid'
    have hfailed := List.filter_eq_nil_iff.mp hnone id' hid'
    exact (h.failed id').mp (by simpa using hfailed)
  · exact absurd hfailure (by simpa using List.of_mem_filter hmem)

/-- The proxy hands on the selected backend. -/
theorem logged_dispatch {id : String} {admitted : List String} (probe : Bool) (h : x.Logged l)
    (hphase : x.phase = .routing) (hid : id ≠ "")
    (hmem : id ∈ excludeFailed x.failedBackends admitted) :
    (x.attach id probe).Logged (l ++ [.dispatch id admitted]) where
  allowed := eachEntry_concat.mpr ⟨h.allowed, h.allowed_dispatch hmem⟩
  sent := by simpa [attach] using h.sent
  replied := by simpa [attach] using h.replied
  failed := by simpa [attach] using h.failed
  named := by simpa [attach] using hid
  untargeted := by simp [attach, attemptDue]
  covered := by
    have hcovered := h.covered
    simp only [attemptDue, hphase, true_or, decide_true, Bool.toNat_true] at hcovered
    simpa [isDispatch, attach, attemptDue] using hcovered
  bounded := h.bounded
  single := h.single

/-- Closures may run and the phase may change, but no attempt falls due. -/
theorem Logged.settle {phase : Phase} {selections : List Selection} {finished closed : Bool}
    (h : x.Logged l)
    (hdue : phase = .routing ∨ phase = .backoff → x.phase = .routing ∨ x.phase = .backoff) :
    Logged { x with
      phase := phase, selections := selections, finished := finished, closed := closed } l where
  allowed := h.allowed
  sent := h.sent
  replied := h.replied
  failed := h.failed
  named := h.named
  untargeted := by
    intro hafter
    exact h.untargeted (by simpa [attemptDue] using hdue (by simpa [attemptDue] using hafter))
  covered := by
    have hcovered := h.covered
    cases hafter : attemptDue { x with
        phase := phase, selections := selections, finished := finished, closed := closed } with
    | false =>
        simp only [Bool.toNat_false]
        omega
    | true =>
        have hbefore : x.attemptDue = true := by
          simpa [attemptDue] using hdue (by simpa [attemptDue] using hafter)
        rwa [hbefore] at hcovered
  bounded := h.bounded
  single := h.single

/-- The proxy answers 502 while no headers are sent. -/
theorem Logged.answer (reply : BadGateway) (h : x.Logged l) (hunsent : x.headersSent = false) :
    Logged { x with headersSent := true, reply := some reply, phase := .settled }
      (l ++ [.badGateway]) := by
  have hnone : ¬(.headers ∈ l ∨ .badGateway ∈ l) := by
    rw [← h.sent, hunsent]
    decide
  have hcovered := h.covered
  rw [not_or] at hnone
  constructor
  · exact eachEntry_concat.mpr ⟨h.allowed, hnone⟩
  · simp
  · simp
  · simpa using h.failed
  · exact h.named
  · simp [attemptDue]
  · simp [isDispatch, attemptDue]
    omega
  · exact h.bounded
  · exact h.single

/-- Other headers go out while none are sent. -/
theorem Logged.send {phase : Phase} (h : x.Logged l)
    (hphase : ¬(phase = .routing ∨ phase = .backoff)) :
    Logged { x with headersSent := true, phase := phase } (l ++ [.headers]) := by
  have hcovered := h.covered
  constructor
  · exact eachEntry_concat.mpr ⟨h.allowed, trivial⟩
  · simp
  · simpa using h.replied
  · simpa using h.failed
  · exact h.named
  · simp [attemptDue, hphase]
  · simp [isDispatch, attemptDue, hphase]
    omega
  · exact h.bounded
  · exact h.single

/-- The error hook adds the backend of the attempt to the list of failed ones. -/
theorem Logged.mem_failed (h : x.Logged l) (id : String) :
    (id ∈ match truthy x.backendId with
      | none => x.failedBackends
      | some id => if id ∈ x.failedBackends then x.failedBackends else x.failedBackends ++ [id]) ↔
      id ∈ x.failedBackends ∨ x.backendId = some id := by
  rcases Option.eq_none_or_eq_some x.backendId with hid | ⟨id', hid⟩
  · simp [hid, truthy]
  · have hne : id' ≠ "" := fun heq => h.named (by rw [hid, heq])
    have htruthy : truthy (some id') = some id' := by simp [truthy, hne]
    rw [hid, htruthy]
    dsimp only
    split_ifs with hmem
    · simp only [Option.some.injEq, iff_self_or]
      rintro rfl
      exact hmem
    · simp [eq_comm]

/-- The error hook records the backend of the attempt. -/
theorem Logged.fail {failedBackends : List String} (lastFailed : Option String) (h : x.Logged l)
    (hfailed : ∀ id, id ∈ failedBackends ↔ id ∈ x.failedBackends ∨ x.backendId = some id) :
    Logged { x with failedBackends := failedBackends, lastFailed := lastFailed }
      (l ++ x.backendId.toList.map .failure) := by
  rcases Option.eq_none_or_eq_some x.backendId with hid | ⟨id, hid⟩
  · have hlog : x.backendId.toList.map failure = [] := by simp [hid]
    have hsame : ∀ id, id ∈ failedBackends ↔ .failure id ∈ l := by
      intro id
      rw [hfailed id, h.failed id]
      simp [hid]
    rw [hlog, List.append_nil]
    exact ⟨h.allowed, h.sent, h.replied, hsame, h.named, h.untargeted, h.covered, h.bounded,
      h.single⟩
  · have hlog : x.backendId.toList.map failure = [.failure id] := by simp [hid]
    rw [hlog]
    constructor
    · exact eachEntry_concat.mpr ⟨h.allowed, trivial⟩
    · simpa using h.sent
    · simpa using h.replied
    · intro id'
      simp [hfailed id', h.failed id', hid, eq_comm]
    · exact h.named
    · exact h.untargeted
    · rw [dispatches_concat]
      exact h.covered
    · exact h.bounded
    · exact h.single

/-- A retry makes another attempt fall due. -/
theorem Logged.retry {phase : Phase} (h : x.Logged l) (hdue : x.attemptDue = false)
    (hidempotent : isIdempotent x.request.method = true) (hattempts : x.attempts ≤ maxRetries) :
    Logged { x with
      attempts := x.attempts + 1, targetBackend := none, backendId := none, phase := phase }
        l where
  allowed := h.allowed
  sent := h.sent
  replied := h.replied
  failed := h.failed
  named := by simp
  untargeted := fun _ => rfl
  covered := by
    have hcovered := h.covered
    have hone := Bool.toNat_le (attemptDue { x with
      attempts := x.attempts + 1, targetBackend := none, backendId := none, phase := phase })
    rw [hdue] at hcovered
    simp only [Bool.toNat_false] at hcovered
    show dispatches l + _ ≤ x.attempts + 1
    omega
  bounded := Nat.succ_le_succ hattempts
  single := by simp [hidempotent]

/-- A router call that selects hands on a backend that the exclusion left. -/
theorem logged_onRoute {selection : Option SelectResult} {admitted : List String}
    (probe : String → Bool) (h : x.Logged l)
    (hselection : ∀ id, selection = some (.selected id) →
      id ≠ "" ∧ id ∈ excludeFailed x.failedBackends admitted) :
    (x.onRoute selection probe).Logged (l ++ x.routeActions selection admitted) := by
  by_cases hphase : x.phase = .routing
  · have htarget : x.targetBackend = none := h.untargeted (by simp [attemptDue, hphase])
    simp only [onRoute, routeActions, hphase, htarget, if_true]
    rcases selection with - | - | id | - | -
    · simpa using h
    · have hsettled : Logged { x with phase := .unrouted } l := h.settle (by simp)
      simpa [htarget] using hsettled
    · obtain ⟨hid, hmem⟩ := hselection id rfl
      exact logged_dispatch (probe id) h hphase hid hmem
    · -- the router threw: the callback of a retry answers, or the application does
      cases hsent : x.headersSent with
      | true =>
          simp only [routingFailed, hsent, if_true, List.append_nil, Bool.true_eq_false,
            false_and, if_false]
          rw [← hsent]
          exact h.settle (by simp)
      | false =>
          by_cases hretry : 1 < x.attempts
          · simp only [routingFailed, hsent, hretry, and_self, if_true, Bool.false_eq_true,
              if_false]
            exact h.answer _ hsent
          · simp only [routingFailed, hsent, hretry, and_false, if_false, Bool.false_eq_true]
            exact h.send (by simp)
    · simpa using h
  · simpa [onRoute, routeActions, hphase] using h

/-- The error hook records the failure, and then retries or answers. -/
theorem logged_onProxyError (random : Rat) (h : x.Logged l) :
    (x.onProxyError random).Logged
      (l ++ if x.awaitsError then x.errorActions else []) := by
  cases hawaits : x.awaitsError with
  | false => simpa [onProxyError, hawaits] using h
  | true =>
      have hdue : x.attemptDue = false := by
        cases hphase : x.phase <;> simp_all [awaitsError, attemptDue]
      have hfail := h.fail x.backendId h.mem_failed
      simp only [onProxyError, hawaits, if_true, errorActions, ← List.append_assoc, afterError]
      by_cases hretry : isIdempotent x.request.method = true ∧ x.attempts ≤ maxRetries ∧
          x.headersSent = false
      · simp only [if_pos hretry, List.append_nil]
        exact hfail.retry hdue hretry.1 hretry.2.1
      · by_cases hsent : x.headersSent = false
        · simp only [if_neg hretry, if_pos hsent]
          exact hfail.answer _ hsent
        · simp only [if_neg hretry, if_neg hsent, List.append_nil]
          exact hfail.settle (by simp)

theorem logged_onPipeBody (h : x.Logged l) :
    x.onPipeBody.Logged (l ++ x.bodyActions) := by
  by_cases hphase : x.phase = .streaming
  · cases hsent : x.headersSent with
    | true =>
        simp only [onPipeBody, bodyActions, hphase, hsent, if_true]
        have hsettled : Logged { x with phase := .streaming } l := h.settle (by simp)
        simpa [hphase, hsent] using hsettled
    | false =>
        simp only [onPipeBody, bodyActions, hphase, hsent, if_true, and_self]
        rw [← hphase]
        exact h.send (by simp [hphase])
  · simpa [onPipeBody, bodyActions, hphase] using h

/-- What an event does for the request that it is about. -/
def actions (cfg : Config) (g : Gateway) (e : Event) (x : Exchange) : List ProxyAction :=
  match e.op with
  | .route rid =>
      x.routeActions (g.routerSelection cfg e.now rid) (g.getHealthyBackends cfg e.now).1
  | .pipeBody _ => x.bodyActions
  | .proxyError _ _ _ _ => if x.awaitsError then x.errorActions else []
  | _ => []

end Exchange

namespace Gateway

/-- What an event does for the request with the given number. -/
def actionsFor (cfg : Config) (rid : Nat) (g : Gateway) (e : Event) : List ProxyAction :=
  if e.op.rid? = some rid then
    match g.exchange rid with
    | none => []
    | some x => x.actions cfg g e
  else []

/-- What a run does for the request with the given number. -/
def proxyLog (cfg : Config) (rid : Nat) : Gateway → List Event → List ProxyAction :=
  log (step cfg) (actionsFor cfg rid)

section Runs

variable {cfg : Config} {g : Gateway} {rid : Nat} {x : Exchange} {l : List ProxyAction}

/-- A request after an event, looked up by its number. -/
theorem exchange_step (e : Event) (hg : g.WellFormed) (hx : g.exchange rid = some x) :
    (g.step cfg e).exchange rid = some (g.exchangeNext cfg e x) := by
  have hkey : (g.exchangeNext cfg e x).rid = rid := by
    rw [← KeyedList.key_of_findKey hx]
    simp only [exchangeNext]
    split_ifs
    · exact rid_exchangeAfter cfg g e x
    · rfl
  rw [← hkey]
  exact KeyedList.findKey_of_mem (wellFormed_step e hg).nodup_rids
    (exchangeNext_mem cfg e hg (KeyedList.mem_of_findKey hx))

/-- The handlers keep the fields of their request in agreement with the log. -/
theorem logged_exchangeAfter {e : Event} (hg : Reachable cfg g) (hx : g.exchange rid = some x)
    (hrid : e.op.rid? = some rid) (h : x.Logged l) :
    (g.exchangeAfter cfg e x).Logged (l ++ x.actions cfg g e) := by
  obtain ⟨now, op⟩ := e
  cases op with
  | route rid' =>
      obtain rfl : rid' = rid := by simpa [Op.rid?] using hrid
      refine Exchange.logged_onRoute _ h ?_
      intro id hselected
      simp only [routerSelection, hx] at hselected
      split_ifs at hselected
      have hpick := Option.some.inj hselected
      have hmem := mem_candidates_of_selected hg.complete hpick
      exact ⟨hg.id_ne_empty (List.mem_of_mem_filter hmem),
        mem_excludeFailed_of_selected hg.complete hpick⟩
  | proxyRes rid' status latency =>
      simp only [exchangeAfter, Exchange.actions, Exchange.onProxyRes, List.append_nil]
      split_ifs
      · exact h.settle (by simp)
      · exact h
  | pipeBody rid' => exact Exchange.logged_onPipeBody h
  | proxyError rid' err latency random => exact Exchange.logged_onProxyError random h
  | resumeRetry rid' =>
      simp only [exchangeAfter, Exchange.actions, Exchange.onResumeRetry, List.append_nil]
      split_ifs with hphase
      · exact h.settle (fun _ => Or.inr hphase)
      · exact h
  | finish rid' =>
      simp only [exchangeAfter, Exchange.actions, Exchange.onFinish, List.append_nil]
      split_ifs
      · exact h
      · exact h.settle id
  | close rid' =>
      simp only [exchangeAfter, Exchange.actions, Exchange.onClose, List.append_nil]
      split_ifs
      · exact h
      · exact h.settle id
  | _ => simp [Op.rid?] at hrid

/-- The request agrees with the log of the run so far, if it is there. -/
structure LogAgrees (cfg : Config) (rid : Nat) (g : Gateway) (l : List ProxyAction) : Prop where
  reachable : Reachable cfg g
  absent : g.exchange rid = none → l = []
  present : ∀ x, g.exchange rid = some x → x.Logged l

theorem Booted.logAgrees (h : Booted cfg g) (rid : Nat) :
    LogAgrees cfg rid g [] := by
  have hnone : g.exchange rid = none := by
    simp [exchange, h.exchanges, KeyedList.findKey]
  exact ⟨.start h, fun _ => rfl, by simp [hnone]⟩

theorem logAgrees_step (e : Event) (h : LogAgrees cfg rid g l) :
    LogAgrees cfg rid (g.step cfg e) (l ++ g.actionsFor cfg rid e) := by
  have hg := h.reachable
  cases hx : g.exchange rid with
  | none =>
      have hlog : l ++ g.actionsFor cfg rid e = [] := by
        simp [h.absent hx, actionsFor, hx]
      refine ⟨hg.run_step [e], fun _ => hlog, fun x' hx' => ?_⟩
      rw [hlog]
      have hkey : x'.rid = rid := KeyedList.key_of_findKey hx'
      rcases exchange_origin e hg.wellFormed (KeyedList.mem_of_findKey hx') with
        ⟨x, hmem, rfl⟩ | ⟨rid', req, -, rfl⟩
      · -- the number of an old request is in use
        simp only [exchangeNext] at hkey
        have hold : (x.rid = rid) := by
          split_ifs at hkey
          · rwa [rid_exchangeAfter] at hkey
          · exact hkey
        have hfind := KeyedList.findKey_of_mem hg.wellFormed.nodup_rids hmem
        rw [hold] at hfind
        rw [exchange, hfind] at hx
        cases hx
      · exact Exchange.logged_start rid' req
  | some x =>
      have hafter : (g.step cfg e).exchange rid = some (g.exchangeNext cfg e x) :=
        exchange_step e hg.wellFormed hx
      refine ⟨hg.run_step [e], by simp [hafter], ?_⟩
      intro x' hx'
      rw [hafter] at hx'
      obtain rfl := Option.some.inj hx'
      have hkey : x.rid = rid := KeyedList.key_of_findKey hx
      simp only [exchangeNext, actionsFor, hkey, hx]
      split_ifs with hrid
      · exact logged_exchangeAfter hg hx hrid (h.present x hx)
      · simpa using h.present x hx

theorem logAgrees_run (h : LogAgrees cfg rid g l) (es : List Event) :
    LogAgrees cfg rid (run (step cfg) g es) (l ++ proxyLog cfg rid g es) :=
  log_invariant (fun _ _ e h => logAgrees_step e h) h es

/--
In every run from start-up, and for every request: at most three attempts are
dispatched, one if the method may have effects; a backend that has failed is
tried again only when all that are admitted have; at most one 502 is written,
and none once headers are sent.
-/
theorem retry_safe (hboot : Booted cfg g) (rid : Nat) (es : List Event)
    (hx : (run (step cfg) g es).exchange rid = some x) :
    RetrySafe (isIdempotent x.request.method) (proxyLog cfg rid g es) := by
  have hlogged := (logAgrees_run (hboot.logAgrees rid) es).present x hx
  exact hlogged.retrySafe

/-- The request and three attempts that fail, the last answered with 502. -/
def failingRequest (method : String) : List Event :=
  [⟨0, .request 0 ⟨method, "/", none, none, none, none⟩⟩, ⟨0, .route 0⟩,
    ⟨1, .proxyError 0 ⟨some "ECONNREFUSED", "refused"⟩ 1 (1 / 2)⟩, ⟨60, .resumeRetry 0⟩,
    ⟨60, .route 0⟩, ⟨61, .proxyError 0 ⟨some "ECONNRESET", "reset"⟩ 1 (1 / 2)⟩,
    ⟨200, .resumeRetry 0⟩, ⟨200, .route 0⟩,
    ⟨201, .proxyError 0 ⟨some "ETIMEDOUT", "timeout"⟩ 1 (1 / 2)⟩]

theorem retry_safe_sample :
    ∃ x, (run (step (Config.default (fun _ => 0))) sampleGateway
        (failingRequest "get")).exchange 0 = some x ∧
      RetrySafe (isIdempotent x.request.method)
        (proxyLog (Config.default (fun _ => 0)) 0 sampleGateway (failingRequest "get")) := by
  have hsome : ((run (step (Config.default (fun _ => 0))) sampleGateway
      (failingRequest "get")).exchange 0).isSome = true := by decide +kernel
  obtain ⟨x, hx⟩ := Option.isSome_iff_exists.mp hsome
  exact ⟨x, hx, retry_safe ⟨0, rfl⟩ 0 (failingRequest "get") hx⟩

/-- All three backends are tried, and then the client is told. -/
example :
    proxyLog (Config.default (fun _ => 0)) 0 sampleGateway (failingRequest "get") =
      [.dispatch "backend-1" ["backend-1", "backend-2", "backend-3"], .failure "backend-1",
        .dispatch "backend-3" ["backend-1", "backend-2", "backend-3"], .failure "backend-3",
        .dispatch "backend-2" ["backend-1", "backend-2", "backend-3"], .failure "backend-2",
        .badGateway] := by
  decide +kernel

/-- A request that may have effects is not tried again. -/
example :
    proxyLog (Config.default (fun _ => 0)) 0 sampleGateway (failingRequest "POST") =
      [.dispatch "backend-1" ["backend-1", "backend-2", "backend-3"], .failure "backend-1",
        .badGateway] := by
  decide

end Runs

end Gateway

end SentinelADC
