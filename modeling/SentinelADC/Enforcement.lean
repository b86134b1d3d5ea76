import SentinelADC.AnomalyDetector
import SentinelADC.RateBound

/-!
# Enforcement of anomalies

The rate limiter and the anomaly detector behind it.  The detector names a
client after the socket, the limiter after the first entry of
`x-forwarded-for`.  The penalty for a flagged client reaches the requests that
made it stand out as long as both names are the same.
-/

namespace SentinelADC

open Runs

/-- The rate limiter and the detector. -/
structure Defence where
  shared : SharedLimiter
  detector : AnomalyDetector

namespace Defence

/-- What can happen to them. -/
inductive Op where
  | request (req : ClientRequest) (checkedAt : Int) (redis : RedisCall)
  | evaluateWindows (penalizedAt : Int)
  | cleanup
  | removePenalty (ip : String)
  | setAutoEnforce (enabled : Bool)
  | setZThreshold (threshold : Option Rat)
  | clearAnomalies

/-- Something happens at a time. -/
structure Event where
  now : Int
  op : Op

/-- The readings of the clock during an event, in order. -/
def Event.readings (e : Event) : List Int :=
  match e.op with
  | .request _ checkedAt _ => [checkedAt, e.now]
  | .evaluateWindows penalizedAt => [e.now, penalizedAt]
  | _ => [e.now]

/-- The detector is behind the limiter and sees what the limiter lets through. -/
def request (cfg : RateLimitConfig) (now checkedAt : Int) (redis : RedisCall)
    (req : ClientRequest) (s : Defence) : (LimiterReply × Int) × Defence :=
  let ((reply, capacity, _), shared) := s.shared.middleware cfg checkedAt now redis req
  match reply with
  | .next _ => ((reply, capacity), ⟨shared, s.detector.middleware now req⟩)
  | _ => ((reply, capacity), ⟨shared, s.detector⟩)

/-- One event. -/
def step (cfg : RateLimitConfig) (sqrt : Rat → Rat) (s : Defence) (e : Event) : Defence :=
  match e.op with
  | .request req checkedAt redis => (s.request cfg e.now checkedAt redis req).2
  | .evaluateWindows penalizedAt =>
      let (detector, limiter) := s.detector.evaluateWindows sqrt e.now penalizedAt s.shared.limiter
      ⟨{ s.shared with limiter := limiter }, detector⟩
  | .cleanup => { s with shared.limiter := s.shared.limiter.cleanupMemoryStore e.now }
  | .removePenalty ip => { s with shared.limiter := s.shared.limiter.removePenalty ip }
  | .setAutoEnforce enabled => { s with detector := s.detector.setAutoEnforce enabled }
  | .setZThreshold threshold => { s with detector := s.detector.setZThreshold threshold }
  | .clearAnomalies => { s with detector := s.detector.clearAnomalies }

/-- The capacity that a request is evaluated with. -/
def capacity (cfg : RateLimitConfig) (s : Defence) (e : Event) : Option Int :=
  match e.op with
  | .request req checkedAt redis => some (s.request cfg e.now checkedAt redis req).1.2
  | _ => none

/-- The detector records the event as the request `req`. -/
def Records (cfg : RateLimitConfig) (s : Defence) (e : Event) (req : ClientRequest) : Prop :=
  s.detector.enabled = true ∧
    ∃ checkedAt redis headers, e.op = .request req checkedAt redis ∧
      (s.request cfg e.now checkedAt redis req).1.1 = .next headers

/-- The event flags the client with `autoEnforce` on. -/
def Flags (sqrt : Rat → Rat) (s : Defence) (e : Event) (ip : String) : Prop :=
  s.detector.autoEnforce = true ∧ ∃ event ∈ s.detector.found sqrt e.now, event.ip = ip

/-- Two requests with the same socket address and the same headers. -/
structure SameSource (req req' : ClientRequest) : Prop where
  remoteAddress : req'.remoteAddress = req.remoteAddress
  xForwardedFor : req'.xForwardedFor = req.xForwardedFor
  xSessionId : req'.xSessionId = req.xSessionId

/-- When the detector has recorded a request and flags its client, every later
request of that source is held to the penalty until it expires, unless it is
removed. -/
def Enforced (cfg : RateLimitConfig) (sqrt : Rat → Rat) (s : Defence) (es : List Event) : Prop :=
  ∀ pre recorded mid flag mid' later post req req' checkedAt redis penalizedAt,
    es = pre ++ recorded :: mid ++ flag :: mid' ++ later :: post →
    Records cfg (run (step cfg sqrt) s pre) recorded req →
    flag.op = .evaluateWindows penalizedAt →
    Flags sqrt (run (step cfg sqrt) s (pre ++ recorded :: mid)) flag
      (AnomalyDetector.clientKey req) →
    (∀ e ∈ mid', e.op ≠ .removePenalty (AnomalyDetector.clientKey req)) →
    later.op = .request req' checkedAt redis → SameSource req req' →
    checkedAt < penalizedAt + s.detector.penaltyWindowMs →
    (run (step cfg sqrt) s (pre ++ recorded :: mid ++ flag :: mid')).capacity cfg later =
      some s.detector.penaltyMaxRequests

/-- Without `trust proxy`, `req.ip` is the address of the socket. -/
def Event.direct (e : Event) : Bool :=
  match e.op with
  | .request req _ _ => req.ip = req.remoteAddress
  | _ => true

/-- Detector and limiter have the same name for the client. -/
def Event.sameName (e : Event) : Bool :=
  match e.op with
  | .request req _ _ => AnomalyDetector.clientKey req = getClientIp req
  | _ => true

/-- For a client behind a known socket the names are the same without a
forwarding header, or with one that starts with the address of the socket. -/
theorem clientKey_eq_iff {req : ClientRequest} {address : String} (hne : address ≠ "")
    (hsocket : req.remoteAddress = some address) (hip : req.ip = req.remoteAddress) :
    AnomalyDetector.clientKey req = getClientIp req ↔
      truthy req.xForwardedFor = none ∨
        ∃ forwarded, truthy req.xForwardedFor = some forwarded ∧
          String.ofList (jsTrim (forwarded.toList.takeWhile (fun c => c ≠ ','))) = address := by
  have htruthy : truthy (some address) = some address :=
    Option.filter_some_pos (by simpa using hne)
  have hkey : AnomalyDetector.clientKey req = address := by
    simp [AnomalyDetector.clientKey, hip, hsocket, htruthy]
  rw [hkey, getClientIp]
  cases hforwarded : truthy req.xForwardedFor with
  | none => simp [hsocket, htruthy]
  | some forwarded => simp [eq_comm]

section Penalty

variable {cfg : RateLimitConfig} {sqrt : Rat → Rat} {s : Defence} {C t : Int} {ip : String}

theorem shared_request {now checkedAt : Int} {redis : RedisCall} {req : ClientRequest} :
    (s.request cfg now checkedAt redis req).2.shared =
      (s.shared.middleware cfg checkedAt now redis req).2 := by
  simp only [request]
  split <;> rfl

/-- A request leaves a penalty that has not expired. -/
theorem heldTo_request {now checkedAt : Int} {redis : RedisCall} {req : ClientRequest}
    (h : s.shared.limiter.HeldTo C ip t) (hcheck : checkedAt ≤ t) :
    (s.request cfg now checkedAt redis req).2.shared.limiter.HeldTo C ip t := by
  rw [shared_request]
  exact (h.currentCapacity hcheck).congr
    (congrFun (SharedLimiter.penalizedIps_middleware cfg checkedAt now redis req s.shared) ip)

/-- The capacity of a request whose client is held to `C`. -/
theorem capacity_of_heldTo {now : Int} {redis : RedisCall} {req : ClientRequest}
    (h : s.shared.limiter.HeldTo C (getClientIp req) t) :
    s.capacity cfg ⟨now, .request req t redis⟩ = some C := by
  simp only [capacity, request, SharedLimiter.middleware,
    RateLimiter.currentCapacity_of_heldTo h]
  split <;> rfl

/-- A flagged client is held to the penalty until it expires. -/
theorem heldTo_flag (cfg : RateLimitConfig) {now penalizedAt : Int}
    (hflag : s.Flags sqrt ⟨now, .evaluateWindows penalizedAt⟩ ip)
    (ht : t < penalizedAt + s.detector.penaltyWindowMs) :
    (s.step cfg sqrt ⟨now, .evaluateWindows penalizedAt⟩).shared.limiter.HeldTo
      s.detector.penaltyMaxRequests ip t := by
  refine ⟨⟨s.detector.penaltyMaxRequests, penalizedAt + s.detector.penaltyWindowMs,
    "statistical-anomaly"⟩, ?_, rfl, ht⟩
  exact (AnomalyDetector.penalizedIps_evaluateWindows _ _ _).trans (if_pos hflag)

/-- Another evaluation keeps a penalty or renews it. -/
theorem heldTo_evaluateWindows {now penalizedAt : Int}
    (h : s.shared.limiter.HeldTo s.detector.penaltyMaxRequests ip t)
    (ht : t < penalizedAt + s.detector.penaltyWindowMs) :
    (s.step cfg sqrt ⟨now, .evaluateWindows penalizedAt⟩).shared.limiter.HeldTo
      s.detector.penaltyMaxRequests ip t := by
  by_cases hflag : s.Flags sqrt ⟨now, .evaluateWindows penalizedAt⟩ ip
  · exact heldTo_flag cfg hflag ht
  · exact h.congr ((AnomalyDetector.penalizedIps_evaluateWindows _ _ _).trans (if_neg hflag))

/-- What one event keeps of a penalty that has not expired by `t`. -/
theorem heldTo_step {e : Event} (h : s.shared.limiter.HeldTo s.detector.penaltyMaxRequests ip t)
    (hbefore : ∀ r ∈ e.readings, r ≤ t)
    (hagain : ∀ penalizedAt, e.op = .evaluateWindows penalizedAt →
      t < penalizedAt + s.detector.penaltyWindowMs)
    (hkeep : e.op ≠ .removePenalty ip) :
    (s.step cfg sqrt e).shared.limiter.HeldTo s.detector.penaltyMaxRequests ip t := by
  obtain ⟨now, op⟩ := e
  cases op with
  | request req checkedAt redis =>
      exact heldTo_request h (hbefore checkedAt (by simp [Event.readings]))
  | evaluateWindows penalizedAt => exact heldTo_evaluateWindows h (hagain penalizedAt rfl)
  | cleanup => exact h.cleanup (hbefore now (by simp [Event.readings]))
  | removePenalty ip' => exact h.removePenalty (fun heq => hkeep (by rw [heq]))
  | setAutoEnforce enabled => exact h
  | setZThreshold threshold => exact h
  | clearAnomalies => exact h

/-- The settings of the penalty never change. -/
structure SameSettings (s s' : Defence) : Prop where
  maxRequests : s'.detector.penaltyMaxRequests = s.detector.penaltyMaxRequests
  windowMs : s'.detector.penaltyWindowMs = s.detector.penaltyWindowMs

theorem sameSettings_request {now checkedAt : Int} {redis : RedisCall} {req : ClientRequest} :
    SameSettings s (s.request cfg now checkedAt redis req).2 := by
  simp only [request]
  split
  · simp only [AnomalyDetector.middleware, AnomalyDetector.recordRequest]
    split_ifs <;> exact ⟨rfl, rfl⟩
  · exact ⟨rfl, rfl⟩

theorem SameSettings.step {s₀ : Defence} (h : SameSettings s₀ s) (cfg : RateLimitConfig)
    (sqrt : Rat → Rat) (e : Event) :
    SameSettings s₀ (s.step cfg sqrt e) := by
  obtain ⟨now, op⟩ := e
  cases op with
  | request req checkedAt redis =>
      have hsame : SameSettings s (s.step cfg sqrt ⟨now, .request req checkedAt redis⟩) :=
        sameSettings_request
      exact ⟨hsame.maxRequests.trans h.maxRequests, hsame.windowMs.trans h.windowMs⟩
  | evaluateWindows penalizedAt => exact ⟨h.maxRequests, h.windowMs⟩
  | cleanup => exact ⟨h.maxRequests, h.windowMs⟩
  | removePenalty ip => exact ⟨h.maxRequests, h.windowMs⟩
  | setAutoEnforce enabled => exact ⟨h.maxRequests, h.windowMs⟩
  | setZThreshold threshold => exact ⟨h.maxRequests, h.windowMs⟩
  | clearAnomalies => exact ⟨h.maxRequests, h.windowMs⟩

theorem sameSettings_run (cfg : RateLimitConfig) (sqrt : Rat → Rat) (s : Defence)
    (es : List Event) :
    SameSettings s (run (step cfg sqrt) s es) :=
  run_preserves (P := SameSettings s) ⟨rfl, rfl⟩ (fun e _ _ h => h.step cfg sqrt e)

/-- A penalty outlasts a run that ends before it expires. -/
theorem heldTo_run (cfg : RateLimitConfig) (sqrt : Rat → Rat) {es : List Event} {penalizedAt : Int}
    (h : s.shared.limiter.HeldTo s.detector.penaltyMaxRequests ip t)
    (ht : t < penalizedAt + s.detector.penaltyWindowMs)
    (hbefore : ∀ e ∈ es, ∀ r ∈ e.readings, r ≤ t)
    (hagain : ∀ e ∈ es, ∀ t', e.op = .evaluateWindows t' → penalizedAt ≤ t')
    (hkeep : ∀ e ∈ es, e.op ≠ .removePenalty ip) :
    (run (step cfg sqrt) s es).shared.limiter.HeldTo s.detector.penaltyMaxRequests ip t := by
  have hinv : (run (step cfg sqrt) s es).shared.limiter.HeldTo s.detector.penaltyMaxRequests ip t ∧
      SameSettings s (run (step cfg sqrt) s es) := by
    refine run_preserves (P := fun s' => s'.shared.limiter.HeldTo s.detector.penaltyMaxRequests
      ip t ∧ SameSettings s s') ⟨h, rfl, rfl⟩ ?_
    rintro e he s' ⟨hheld, hsame⟩
    refine ⟨?_, hsame.step cfg sqrt e⟩
    rw [← hsame.maxRequests] at hheld ⊢
    refine heldTo_step hheld (hbefore e he) (fun t' hop => ?_) (hkeep e he)
    have hlater := hagain e he t' hop
    rw [hsame.windowMs]
    omega
  exact hinv.1

/-- Detector and limiter agree on the name of a later request. -/
theorem getClientIp_eq {es : List Event} {recorded later : Event} {req req' : ClientRequest}
    {checkedAt checkedAt' : Int} {redis redis' : RedisCall}
    (hdirect : ∀ e ∈ es, e.direct = true) (hname : ∀ e ∈ es, e.sameName = true)
    (hrecorded : recorded ∈ es) (hlater : later ∈ es)
    (hop : recorded.op = .request req checkedAt redis)
    (hop' : later.op = .request req' checkedAt' redis') (hsource : SameSource req req') :
    getClientIp req' = AnomalyDetector.clientKey req := by
  have hip := hdirect recorded hrecorded
  have hip' := hdirect later hlater
  have hname' := hname later hlater
  simp only [Event.direct, Event.sameName, hop, hop', decide_eq_true_eq] at hip hip' hname'
  rw [← hname', AnomalyDetector.clientKey, AnomalyDetector.clientKey, hip, hip',
    hsource.remoteAddress]

/-- When every client has one name, penalties reach the clients that were
flagged. -/
theorem enforced_of_sameName {es : List Event}
    (hsorted : (es.flatMap Event.readings).Pairwise (· ≤ ·))
    (hdirect : ∀ e ∈ es, e.direct = true) (hname : ∀ e ∈ es, e.sameName = true) :
    Enforced cfg sqrt s es := by
  intro pre recorded mid flag mid' later post req req' checkedAt redis penalizedAt hes hrecords
    hflag hflags hkeep hlater hsource hexpiry
  obtain ⟨-, checkedAt₀, redis₀, -, hrecorded, -⟩ := hrecords
  have hip := getClientIp_eq hdirect hname (by rw [hes]; simp) (by rw [hes]; simp) hrecorded hlater
    hsource
  have horder := (List.pairwise_flatMap.mp hsorted).2
  rw [hes] at horder
  have hbefore : ∀ e ∈ mid', ∀ r ∈ e.readings, r ≤ checkedAt := by
    intro e he r hr
    rw [List.pairwise_append] at horder
    exact horder.2.2 e (by simp [he]) later List.mem_cons_self r hr checkedAt
      (by simp [Event.readings, hlater])
  have hagain : ∀ e ∈ mid', ∀ t, e.op = .evaluateWindows t → penalizedAt ≤ t := by
    intro e he t ht
    have hwindow := (List.pairwise_append.mp (List.pairwise_append.mp horder).1).2.1
    exact (List.pairwise_cons.mp hwindow).1 e he penalizedAt (by simp [Event.readings, hflag]) t
      (by simp [Event.readings, ht])
  have hsame := sameSettings_run cfg sqrt s (pre ++ recorded :: mid)
  obtain ⟨now, op⟩ := flag
  obtain ⟨now', op'⟩ := later
  subst hflag hlater
  rw [run_append, run_cons]
  rw [← hsame.windowMs] at hexpiry
  have hflagged := heldTo_flag cfg hflags hexpiry
  have hkept := hsame.step cfg sqrt ⟨now, .evaluateWindows penalizedAt⟩
  rw [hsame.windowMs, ← hkept.windowMs] at hexpiry
  rw [hsame.maxRequests, ← hkept.maxRequests] at hflagged
  have hheld := heldTo_run cfg sqrt hflagged hexpiry hbefore hagain hkeep
  rw [hkept.maxRequests, ← hip] at hheld
  exact capacity_of_heldTo hheld

end Penalty

section Runs

/-- The square root of a rational with a rational root. -/
def ratSqrt (x : Rat) : Rat :=
  (Nat.sqrt x.num.natAbs : Rat) / Nat.sqrt x.den

/-- The gateway right after start-up, with `autoEnforce`. -/
def sampleDefence : Defence where
  shared := ⟨RateLimiter.initial, fun _ => none⟩
  detector := ⟨true, 3, true, 10, 300000, [], []⟩

/-- A client of a socket sends one request in a window, and five in the next. -/
def spike (xForwardedFor : Option String) : List Event :=
  let req : ClientRequest := ⟨"GET", "/", xForwardedFor, none, some "10.0.0.9", some "10.0.0.9"⟩
  ⟨0, .request req 0 .inactive⟩ :: (⟨15000, .evaluateWindows 15000⟩ ::
    List.replicate 5 ⟨15000, .request req 15000 .inactive⟩) ++
      [⟨25000, .evaluateWindows 25000⟩, ⟨25001, .request req 25001 .inactive⟩]

theorem enforced_of_sameName_sample :
    Enforced ⟨60000, 100⟩ ratSqrt sampleDefence (spike none) :=
  enforced_of_sameName (by decide) (by decide) (by decide)

/-- A forwarding header hides the client from the limiter. -/
theorem penalty_missed :
    ¬ ∀ (cfg : RateLimitConfig) (sqrt : Rat → Rat) (s : Defence) (es : List Event),
      (es.flatMap Event.readings).Pairwise (· ≤ ·) → (∀ e ∈ es, e.direct = true) →
        Enforced cfg sqrt s es := by
  intro hclaim
  let req : ClientRequest := ⟨"GET", "/", some "1.2.3.4", none, some "10.0.0.9", some "10.0.0.9"⟩
  have hcapacity := hclaim ⟨60000, 100⟩ ratSqrt sampleDefence (spike (some "1.2.3.4")) (by decide)
    (by decide) [] ⟨0, .request req 0 .inactive⟩ (⟨15000, .evaluateWindows 15000⟩ ::
      List.replicate 5 ⟨15000, .request req 15000 .inactive⟩) ⟨25000, .evaluateWindows 25000⟩ []
    ⟨25001, .request req 25001 .inactive⟩ [] req req 25001 .inactive 25000 rfl
    ⟨rfl, 0, .inactive, ⟨100, 99, 600⟩, rfl, by decide +kernel⟩ rfl
    ⟨by decide +kernel, by decide +kernel⟩ (by simp) rfl ⟨rfl, rfl, rfl⟩ (by decide)
  revert hcapacity
  decide +kernel

end Runs

end Defence

end SentinelADC
