import SentinelADC.ExchangeStep

/-!
# How an error callback ends

`handleProxyError` over its whole course.  It may wait and hand the request to
the proxy again; the proxy then sends another attempt, or fails and calls back.
Everything else ends in one place, which answers 502 as long as the response
headers are not out.  Once they are out, nobody ends the response.
-/

namespace SentinelADC

open Runs

/-- What becomes of a request that the proxy instance gets for another attempt. -/
inductive AttemptStart where
  /-- The attempt is on its way to a backend. -/
  | dispatched
  /-- The router returned `null`: the proxy has no target, and calls back without the request. -/
  | unrouted
  /-- An exception: the proxy calls back with it. -/
  | failed
deriving DecidableEq, Repr

/-- A request whose attempt has failed, with its client response. -/
structure Failing where
  exchange : Exchange
  /-- `res.writableEnded`. -/
  ended : Bool
deriving DecidableEq, Repr

/-- The reason in the last reply of `handleProxyError`. -/
def badGatewayReason (method : String) : String :=
  if !isIdempotent method then
    "Non-idempotent request [" ++ String.ofList (upperMethod method) ++
      "] failed (retries disabled to prevent double-writes)"
  else "Bad Gateway — upstream server unavailable"

namespace Failing

/-- `res.status(502).json(reply)`, unless the headers are out. -/
def answer (reply : BadGateway) (s : Failing) : Failing :=
  if s.exchange.headersSent then s
  else ⟨{ s.exchange with headersSent := true, reply := some reply }, true⟩

/-- The failed backend is noted, and the attempts are counted from one. -/
def noteFailure (s : Failing) : Failing :=
  let x := s.exchange
  let failedBackends :=
    match truthy x.backendId with
    | none => x.failedBackends
    | some id => if id ∈ x.failedBackends then x.failedBackends else x.failedBackends ++ [id]
  { s with
    exchange :=
      { x with
        failedBackends := failedBackends
        lastFailed := x.backendId
        attempts := if x.attempts = 0 then 1 else x.attempts } }

/-- `isIdempotent && req._attempts <= MAX_RETRIES && !res.headersSent`. -/
def retries (s : Failing) : Bool :=
  isIdempotent s.exchange.request.method ∧ s.exchange.attempts ≤ maxRetries ∧
    s.exchange.headersSent = false

/-- The request is made ready for another attempt, and the backoff delay passes.
`wait` is what happens to the request and its response meanwhile. -/
def backOff (random : Rat) (wait : Failing → Failing) (s : Failing) : Failing :=
  let attempts := s.exchange.attempts + 1
  let s : Failing :=
    { s with
      exchange :=
        { s.exchange with
          attempts := attempts
          targetBackend := none
          backendId := none } }
  if 0 < calculateBackoffJitter random attempts 50 500 then wait s else s

/-- `handleProxyError`; the second component says whether another attempt is on its
way when it returns. -/
def handleProxyError (proxyInstance : Option (Failing → AttemptStart)) (random : Rat)
    (wait : Failing → Failing) (s : Failing) : Failing × Bool :=
  let failedBackendId := s.exchange.backendId
  let s := s.noteFailure
  let method := s.exchange.request.method
  let badGateway (s : Failing) : Failing × Bool :=
    (s.answer ⟨badGatewayReason method, failedBackendId, some s.exchange.attempts⟩, false)
  if s.retries then
    let s := s.backOff random wait
    match proxyInstance with
    | some proxy =>
        match proxy s with
        | .dispatched => (s, true)
        | .unrouted => (s, false)
        | .failed =>
            (s.answer ⟨"Bad Gateway — upstream server unavailable", failedBackendId, none⟩, false)
    | none => badGateway s
  else badGateway s

/-- The request and its response when the handler decides how to go on. -/
def last (random : Rat) (wait : Failing → Failing) (s : Failing) : Failing :=
  if s.noteFailure.retries then s.noteFailure.backOff random wait else s.noteFailure

/-- The attempt that the handler starts, if it starts one. -/
def nextAttempt (proxyInstance : Option (Failing → AttemptStart)) (random : Rat)
    (wait : Failing → Failing) (s : Failing) : Option AttemptStart :=
  if s.noteFailure.retries then
    proxyInstance.map (fun proxy => proxy (s.last random wait))
  else none

/-- The headers are out, and the response is not ended. -/
def Open (s : Failing) : Prop :=
  s.exchange.headersSent = true ∧ s.ended = false

/-- Where no attempt starts, the response is not open; where the router finds no
backend for it, the response has ended. -/
def Ends (proxyInstance : Option (Failing → AttemptStart)) (random : Rat)
    (wait : Failing → Failing) (s : Failing) : Prop :=
  match s.nextAttempt proxyInstance random wait with
  | some .dispatched => True
  | some .unrouted => (s.last random wait).ended = true
  | some .failed => ¬ (s.last random wait).Open
  | none => ¬ (s.last random wait).Open

section Answers

variable {s : Failing}

/-- The answer ends every response that is not open. -/
theorem ended_answer_iff (reply : BadGateway) :
    (s.answer reply).ended = true ↔ ¬ s.Open := by
  simp only [answer, Open]
  split_ifs with hsent
  · simp [hsent]
  · simp [hsent]

/-- An error callback on the gateway is the handler that has another attempt to
start and sees no change while it waits. -/
theorem exchange_handleProxyError (random : Rat) (x : Exchange) (ended : Bool)
    (hattempts : 1 ≤ x.attempts) :
    (handleProxyError (some (fun _ => .dispatched)) random id ⟨x, ended⟩).1.exchange =
      { x.afterError random with phase := x.phase } := by
  have hone : (if x.attempts = 0 then 1 else x.attempts) = x.attempts := by
    rw [if_neg (by omega)]
  unfold Exchange.afterError handleProxyError
  simp only [noteFailure, retries, hone, backOff, answer, badGatewayReason, id, ite_self]
  by_cases hretry : isIdempotent x.request.method ∧ x.attempts ≤ maxRetries ∧ x.headersSent = false
  · cases truthy x.backendId <;> simp [hretry]
  · simp only [hretry, decide_false, Bool.false_eq_true, if_false]
    cases x.headersSent <;> rfl

/-- What an error callback leaves behind. -/
theorem handleProxyError_ends_iff (proxyInstance : Option (Failing → AttemptStart)) (random : Rat)
    (wait : Failing → Failing) (s : Failing) :
    (s.handleProxyError proxyInstance random wait).2 = true ∨
        (s.handleProxyError proxyInstance random wait).1.ended = true ↔
      s.Ends proxyInstance random wait := by
  unfold Ends nextAttempt last handleProxyError
  cases hretry : s.noteFailure.retries with
  | false => simp [hretry, ended_answer_iff]
  | true =>
      cases proxyInstance with
      | none => simp [hretry, ended_answer_iff]
      | some proxy =>
          cases hproxy : proxy (s.noteFailure.backOff random wait) <;>
            simp [hretry, hproxy, ended_answer_iff]

/-- A request whose response body is under way. -/
def streamingRun : List Event :=
  [⟨0, .request 0 ⟨"GET", "/", none, none, none, none⟩⟩, ⟨0, .route 0⟩, ⟨5, .proxyRes 0 200 5⟩,
    ⟨6, .pipeBody 0⟩]

/-- The upstream connection fails after the headers are out: no further attempt, and the
response stays open, however the proxy instance and the time behave. -/
theorem streaming_error_hangs :
    ∃ x, (run (Gateway.step (Config.default (fun _ => 0))) Gateway.sampleGateway
        streamingRun).exchange 0 = some x ∧ x.awaitsError = true ∧
      ∀ proxyInstance random wait,
        (handleProxyError proxyInstance random wait ⟨x, false⟩).2 = false ∧
          (handleProxyError proxyInstance random wait ⟨x, false⟩).1.ended = false := by
  have hx : ((run (Gateway.step (Config.default (fun _ => 0))) Gateway.sampleGateway
      streamingRun).exchange 0).isSome := by decide
  obtain ⟨x, hx⟩ := Option.isSome_iff_exists.mp hx
  have hfields : ((run (Gateway.step (Config.default (fun _ => 0))) Gateway.sampleGateway
      streamingRun).exchange 0).map (fun x => (x.awaitsError, x.headersSent)) =
        some (true, true) := by decide
  rw [hx, Option.map_some, Option.some.injEq, Prod.mk.injEq] at hfields
  refine ⟨x, hx, hfields.1, fun proxyInstance random wait => ?_⟩
  simp [handleProxyError, retries, noteFailure, answer, hfields.2]

end Answers

end Failing

end SentinelADC
