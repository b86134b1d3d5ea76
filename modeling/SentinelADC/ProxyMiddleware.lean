import SentinelADC.RoutingEngine
import SentinelADC.HealthStore
import SentinelADC.ConnectionDrain
import SentinelADC.MetricsStore

/-!
# Proxy middleware

`proxy/proxyMiddleware.js`.  A proxied request is driven by callbacks: the
router picks a backend and registers a `decrement` closure on the response,
the response and error hooks feed the circuit breaker, an error may start
another attempt after a backoff, and the client response emits `finish` and
`close`, which run the closures registered so far.

Each callback is one function on the gateway state.  A callback that is not
due in the current phase of its exchange leaves the state alone.
-/

namespace SentinelADC

/-- `MAX_RETRIES`. -/
def maxRetries : Nat := 2

/-- `(req.method || 'GET').toUpperCase()`. -/
def upperMethod (method : String) : List Char :=
  (if method = "" then "GET" else method).toList.map Char.toUpper

/-- `['GET', 'HEAD', 'OPTIONS'].includes(method)`. -/
def isIdempotent (method : String) : Bool :=
  upperMethod method ∈ ["GET".toList, "HEAD".toList, "OPTIONS".toList]

/-- `calculateBackoffJitter` for a given value of `Math.random()`. -/
def calculateBackoffJitter (random : Rat) (attempt : Nat) (baseMs maxMs : Int) : Int :=
  ⌊random * (min maxMs (baseMs * 2 ^ attempt) : Int)⌋

/-- The fields of a Node error that the error hook reads. -/
structure ProxyError where
  code : Option String
  message : String
deriving DecidableEq, Repr

/-- `err.code || err.message`. -/
def ProxyError.text (err : ProxyError) : String :=
  (truthy err.code).getD err.message

namespace Exchange

/-- A request as `proxyMiddlewareWithRetry` hands it on. -/
def start (rid : Nat) (request : ClientRequest) : Exchange where
  rid := rid
  request := request
  attempts := 1
  failedBackends := []
  targetBackend := none
  backendId := none
  lastFailed := none
  headersSent := false
  reply := none
  finished := false
  closed := false
  selections := []
  phase := .routing
  probe := false

/-- The response has emitted neither `finish` nor `close`. -/
def isOpen (x : Exchange) : Bool :=
  !x.finished && !x.closed

/-- What the router writes for a selected backend. -/
def attach (id : String) (probe : Bool) (x : Exchange) : Exchange :=
  { x with
    targetBackend := some id
    backendId := some id
    selections := x.selections ++ [⟨id, false⟩]
    phase := .upstream
    probe := probe }

/-- The router threw.  On a retry the callback answers 502; otherwise the
error handler of the application answers. -/
def routingFailed (x : Exchange) : Exchange :=
  { x with
    headersSent := true
    reply :=
      if x.headersSent = false ∧ 1 < x.attempts then
        some ⟨"Bad Gateway — upstream server unavailable", x.lastFailed, none⟩
      else x.reply
    phase := .settled }

/-- An error event may still arrive for the current attempt.  When the router
gives no target, `http-proxy` emits its error without the request, and the hook
throws before it writes anything. -/
def awaitsError (x : Exchange) : Bool :=
  x.phase ∈ [.upstream, .streaming]

/-- What `handleProxyError` writes to the request and the response. -/
def afterError (random : Rat) (x : Exchange) : Exchange :=
  let failedBackends :=
    match truthy x.backendId with
    | none => x.failedBackends
    | some id => if id ∈ x.failedBackends then x.failedBackends else x.failedBackends ++ [id]
  let x := { x with failedBackends := failedBackends, lastFailed := x.backendId }
  if isIdempotent x.request.method ∧ x.attempts ≤ maxRetries ∧ x.headersSent = false then
    let attempts := x.attempts + 1
    { x with
      attempts := attempts
      targetBackend := none
      backendId := none
      phase := if 0 < calculateBackoffJitter random attempts 50 500 then .backoff else .routing }
  else if x.headersSent = false then
    let reason :=
      if !isIdempotent x.request.method then
        "Non-idempotent request [" ++ String.ofList (upperMethod x.request.method) ++
          "] failed (retries disabled to prevent double-writes)"
      else "Bad Gateway — upstream server unavailable"
    { x with
      headersSent := true
      reply := some ⟨reason, x.lastFailed, some x.attempts⟩
      phase := .settled }
  else { x with phase := .settled }

/-- The closures registered so far have all run. -/
def runSelections (x : Exchange) : Exchange :=
  { x with selections := x.selections.map (fun s => { s with decremented := true }) }

end Exchange

namespace Backend

/-- `activeConnections = (activeConnections || 0) + 1`. -/
def connect (b : Backend) : Backend :=
  { b with
    activeConnections := (if b.activeConnections = 0 then 0 else b.activeConnections) + 1 }

/-- `activeConnections = Math.max(0, (activeConnections || 1) - 1)`. -/
def disconnect (b : Backend) : Backend :=
  { b with
    activeConnections :=
      max 0 ((if b.activeConnections = 0 then 1 else b.activeConnections) - 1) }

@[simp] theorem id_connect (b : Backend) :
    b.connect.id = b.id := by
  rfl

@[simp] theorem id_disconnect (b : Backend) :
    b.disconnect.id = b.id := by
  rfl

end Backend

namespace Gateway

/-- A client request reaches the proxy. -/
def request (rid : Nat) (req : ClientRequest) (g : Gateway) : Gateway :=
  match g.exchange rid with
  | some _ => g
  | none => { g with exchanges := g.exchanges ++ [Exchange.start rid req] }

/-- The breaker of a backend is `HALF_OPEN`. -/
def isHalfOpen (id : String) (g : Gateway) : Bool :=
  match g.breakers id with
  | none => false
  | some breaker => breaker.state = .halfOpen

/-- The `router` callback. -/
def router (cfg : Config) (now : Int) (rid : Nat) (g : Gateway) : Gateway :=
  match g.exchange rid with
  | none => g
  | some x =>
      if x.phase ≠ .routing then g
      else
        match x.targetBackend with
        | some _ => g.modifyExchange rid (fun x => { x with phase := .upstream })
        | none =>
            match g.selectBackend cfg now x.request x.failedBackends with
            | (.noneHealthy, g) => g.modifyExchange rid (fun x => { x with phase := .unrouted })
            | (.typeError, g) => g.modifyExchange rid Exchange.routingFailed
            -- the process is busy for ever, and the request stays where it is
            | (.endless, g) => g
            | (.selected id, g) =>
                (g.modifyBackend id Backend.connect Backend.id_connect).modifyExchange rid
                  (Exchange.attach id (g.isHalfOpen id))

/-- One `decrement` closure runs for the first time. -/
def decrement (id : String) (g : Gateway) : Gateway :=
  let g := g.modifyBackend id Backend.disconnect Backend.id_disconnect
  match g.pool.find id with
  | none => g
  | some b => if b.onDrainComplete ∧ b.activeConnections = 0 then g.onDrainComplete id else g

/-- The closures of one response, in the order of registration. -/
def runDecrements : List Selection → Gateway → Gateway
  | [], g => g
  | s :: rest, g => runDecrements rest (if s.decremented then g else g.decrement s.backendId)

/-- `collectProxyResponse` and `collectProxyError`. -/
def collect (now : Int) (backendId : Option String) (latency : Rat) (error : Bool)
    (g : Gateway) : Gateway :=
  match truthy backendId with
  | none => g
  | some id => { g with memory := g.memory.recordTransaction now id latency error }

/-- What the `proxyRes` hook reports to the circuit breaker. -/
def reportStatus (cfg : Config) (now : Int) (backendId : Option String) (status : Nat)
    (g : Gateway) : Gateway :=
  match truthy backendId with
  | none => g
  | some id =>
      if 500 ≤ status then g.recordFailure cfg now id ("HTTP " ++ toString status)
      else if status < 400 then g.recordSuccess cfg now id
      else g

/-- The `proxyRes` hook: upstream response headers have arrived. -/
def proxyRes (cfg : Config) (now : Int) (rid : Nat) (status : Nat) (latency : Rat)
    (g : Gateway) : Gateway :=
  match g.exchange rid with
  | none => g
  | some x =>
      if x.phase ≠ .upstream then g
      else
        ((g.collect now x.backendId latency (decide (500 ≤ status))).reportStatus cfg now
          x.backendId status).modifyExchange rid (fun x => { x with phase := .streaming })

/-- The first byte of the upstream response is written to the client. -/
def pipeBody (rid : Nat) (g : Gateway) : Gateway :=
  match g.exchange rid with
  | none => g
  | some x =>
      if x.phase ≠ .streaming then g
      else g.modifyExchange rid (fun x => { x with headersSent := true })

/-- What the error hook reports to the circuit breaker. -/
def reportError (cfg : Config) (now : Int) (backendId : Option String) (err : ProxyError)
    (g : Gateway) : Gateway :=
  match truthy backendId with
  | none => g
  | some id => g.recordFailure cfg now id err.text

/-- The `error` hook, `handleProxyError`. -/
def handleProxyError (cfg : Config) (now : Int) (rid : Nat) (err : ProxyError)
    (latency random : Rat) (g : Gateway) : Gateway :=
  match g.exchange rid with
  | none => g
  | some x =>
      if !x.awaitsError then g
      else
        ((g.collect now x.backendId latency true).reportError cfg now x.backendId
          err).modifyExchange rid (Exchange.afterError random)

/-- The backoff delay is over and `proxyInstance` is called again. -/
def resumeRetry (rid : Nat) (g : Gateway) : Gateway :=
  match g.exchange rid with
  | none => g
  | some x =>
      if x.phase ≠ .backoff then g
      else g.modifyExchange rid (fun x => { x with phase := .routing })

/-- The client response emits `finish`; its headers are sent by then. -/
def responseFinish (rid : Nat) (g : Gateway) : Gateway :=
  match g.exchange rid with
  | none => g
  | some x =>
      if x.finished = true ∨ x.headersSent = false then g
      else
        (g.runDecrements x.selections).modifyExchange rid
          (fun x => { x.runSelections with finished := true })

/-- The client response emits `close`. -/
def responseClose (rid : Nat) (g : Gateway) : Gateway :=
  match g.exchange rid with
  | none => g
  | some x =>
      if x.closed then g
      else
        (g.runDecrements x.selections).modifyExchange rid
          (fun x => { x.runSelections with closed := true })

section Callbacks

/-- These callbacks write the exchange or do nothing. -/
theorem pipeBody_cases (rid : Nat) (g : Gateway) :
    g.pipeBody rid = g ∨ ∃ f, g.pipeBody rid = g.modifyExchange rid f := by
  simp only [pipeBody]
  split
  · exact Or.inl rfl
  · split_ifs
    · exact Or.inl rfl
    · exact Or.inr ⟨_, rfl⟩

theorem resumeRetry_cases (rid : Nat) (g : Gateway) :
    g.resumeRetry rid = g ∨ ∃ f, g.resumeRetry rid = g.modifyExchange rid f := by
  simp only [resumeRetry]
  split
  · exact Or.inl rfl
  · split_ifs
    · exact Or.inl rfl
    · exact Or.inr ⟨_, rfl⟩

/-- These run the closures of an exchange first. -/
theorem responseFinish_cases (rid : Nat) (g : Gateway) :
    g.responseFinish rid = g ∨
      ∃ selections f,
        g.responseFinish rid = (g.runDecrements selections).modifyExchange rid f := by
  simp only [responseFinish]
  split
  · exact Or.inl rfl
  · split_ifs
    · exact Or.inl rfl
    · exact Or.inr ⟨_, _, rfl⟩

theorem responseClose_cases (rid : Nat) (g : Gateway) :
    g.responseClose rid = g ∨
      ∃ selections f,
        g.responseClose rid = (g.runDecrements selections).modifyExchange rid f := by
  simp only [responseClose]
  split
  · exact Or.inl rfl
  · split_ifs
    · exact Or.inl rfl
    · exact Or.inr ⟨_, _, rfl⟩

end Callbacks

end Gateway

namespace Cell

/-- The router's increment on one cell. -/
def connect (c : Cell) : Cell :=
  { c with backend := c.backend.connect }

/-- A `decrement` closure on one cell. -/
def disconnect (c : Cell) : Cell :=
  let b := c.backend.disconnect
  if b.onDrainComplete ∧ b.activeConnections = 0 ∧ b.status = .draining then
    { c with backend := b.finishDrain }
  else { c with backend := b }

end Cell

end SentinelADC
