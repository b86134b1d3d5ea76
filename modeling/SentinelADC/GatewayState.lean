import SentinelADC.BackendPool
import Mathlib.Data.Rat.Defs
import Mathlib.Logic.Function.Basic

/-!
# Gateway state

The gateway keeps its state in module-level singletons: the backend pool, the
health store, the circuit breaker manager, the drain manager, the metrics
store, the routing engine and, for each proxied request, the fields that the
proxy middleware hangs on `req` and `res`.  `Gateway` puts them in one record,
so that operations of different modules on the same backend object are
functions on one state.

JavaScript maps keyed by backend id are partial functions on ids.  Times are
integers (milliseconds of `Date.now()`); measured durations are rationals.
-/

namespace SentinelADC

/-- The settings read by the modelled modules. -/
structure Config where
  /-- `config.backends`: upstream URLs. -/
  backends : List String
  /-- `config.loadBalancing.algorithm`. -/
  algorithm : String
  /-- `config.security.circuitBreaker.enabled`. -/
  enabled : Bool
  failureThreshold : Int
  cooldownMs : Int
  halfOpenMaxProbes : Int
  /-- First 32 bits of the MD5 digest of a key, from `node:crypto`. -/
  hash32 : String → UInt32

/-- The defaults of `config/index.js`. -/
def Config.default (hash32 : String → UInt32) : Config where
  backends := ["http://localhost:4001", "http://localhost:4002", "http://localhost:4003"]
  algorithm := "round-robin"
  enabled := true
  failureThreshold := 5
  cooldownMs := 15000
  halfOpenMaxProbes := 1
  hash32 := hash32

/-- `CIRCUIT_STATE`: `CLOSED`, `OPEN`, `HALF_OPEN`. -/
inductive CircuitState where
  | closed
  | opened
  | halfOpen
deriving DecidableEq, Repr

/-- Breaker record of one backend in `circuitBreakerManager.breakers`. -/
structure Breaker where
  state : CircuitState
  consecutiveFailures : Nat
  lastStateChange : Int
  probeCount : Nat
  lastError : Option String
deriving DecidableEq, Repr

/-- One entry of `stats.checks`. -/
structure HealthCheck where
  success : Bool
  latency : Rat
  timestamp : Int
deriving DecidableEq, Repr

/-- Health record of one backend in `healthStore.stats`. -/
structure HealthStats where
  checks : List HealthCheck
  consecutiveFailures : Nat
  consecutiveSuccesses : Nat
  totalChecks : Nat
  successfulChecks : Nat
  averageLatency : Rat
  uptimePercentage : Rat
  lastCheckTime : Option Int
  /-- Undefined until the first check. -/
  successRate : Option Rat
deriving DecidableEq, Repr

/-- A deadline timer waiting in the event loop. -/
structure DrainTimer where
  handle : Nat
  backendId : String
  timeoutSec : Int
  /-- Earliest time at which the event loop may run the callback. -/
  fireAt : Int
deriving DecidableEq, Repr

/-- One entry of `metricsStore.history[backendId]`. -/
structure Transaction where
  latency : Rat
  error : Bool
  timestamp : Int
deriving DecidableEq, Repr

/-- Persistent fields of the weighted round robin strategy. -/
structure WrrState where
  currentIndex : Int
  currentWeight : Int
deriving DecidableEq, Repr

/-- What a strategy may read and write besides the candidates: the metrics
history and the fields of the strategy instances. -/
structure StrategyMemory where
  /-- `metricsStore.history`. -/
  history : String → Option (List Transaction)
  /-- `index` of the round robin instance. -/
  roundRobinIndex : Nat
  wrr : WrrState

/--
The object installed as `routingEngine._strategy`.  `strategies[name]` is a
plain property lookup, so besides the five strategy instances it can also
yield a member inherited from `Object.prototype`.
-/
inductive Strategy where
  | roundRobin
  | leastConnections
  | weightedRoundRobin
  | ipHash
  | consistentHash
  | inherited (member : String)
deriving DecidableEq, Repr

/-- How a call of a strategy's `select` ends. -/
inductive Pick where
  | backend (b : Backend)
  /-- It threw or returned `undefined`. -/
  | failed
  /-- Its loop never ends. -/
  | endless

/-- The entry of a list that was read, where reading past the end yields
`undefined`. -/
def Pick.ofOption : Option Backend → Pick
  | none => .failed
  | some b => .backend b

/-- The parts of a client request that routing and the retry policy read. -/
structure ClientRequest where
  method : String
  originalUrl : String
  xForwardedFor : Option String
  xSessionId : Option String
  /-- `req.socket?.remoteAddress`. -/
  remoteAddress : Option String
  /-- `req.ip`. -/
  ip : Option String
deriving DecidableEq, Repr

/-- The `decrement` closure registered on a response by one router selection. -/
structure Selection where
  backendId : String
  decremented : Bool
deriving DecidableEq, Repr

/-- Body of a reply `handleProxyError` writes itself, always with status 502. -/
structure BadGateway where
  message : String
  backend : Option String
  attempts : Option Nat
deriving DecidableEq, Repr

/-- Where the proxying of a request stands. -/
inductive Phase where
  /-- `proxyInstance` has been invoked; it will call the router next. -/
  | routing
  /-- The router returned `null`, so there is nowhere to send the attempt. -/
  | unrouted
  /-- An attempt is on its way to the backend; no response event so far. -/
  | upstream
  /-- The upstream response event has fired; the body is being piped. -/
  | streaming
  /-- `handleProxyError` awaits the backoff delay. -/
  | backoff
  /-- No further event of this exchange comes from the proxy. -/
  | settled
deriving DecidableEq, Repr

/-- A proxied request with the fields kept on `req` and `res`. -/
structure Exchange where
  rid : Nat
  request : ClientRequest
  /-- `req._attempts`. -/
  attempts : Nat
  /-- `req._failedBackends`. -/
  failedBackends : List String
  /-- `req._targetBackend`, as the id of the object. -/
  targetBackend : Option String
  /-- `req._backendId`. -/
  backendId : Option String
  /-- `failedBackendId` of the latest error, captured by the retry callback. -/
  lastFailed : Option String
  /-- `res.headersSent`. -/
  headersSent : Bool
  /-- Error reply written by the proxy middleware. -/
  reply : Option BadGateway
  /-- The response has emitted `finish`. -/
  finished : Bool
  /-- The response has emitted `close`. -/
  closed : Bool
  /-- Closures registered on `finish` and `close`, oldest first. -/
  selections : List Selection
  phase : Phase
  /-- History variable: the breaker of the selected backend was `HALF_OPEN`
  when the current attempt was admitted. -/
  probe : Bool
deriving DecidableEq, Repr

/-- The shared mutable state of the gateway process. -/
structure Gateway where
  pool : BackendPool
  /-- `circuitBreakerManager.breakers`. -/
  breakers : String → Option Breaker
  /-- `healthStore.stats`. -/
  stats : String → Option HealthStats
  /-- `connectionDrainManager.drainTimers`. -/
  drainTimers : String → Option Nat
  /-- Deadline timers the event loop still holds. -/
  pendingTimers : List DrainTimer
  /-- Handle of the next timer to be created. -/
  nextTimer : Nat
  /-- `routingEngine._algorithm`. -/
  algorithm : String
  /-- `routingEngine._strategy`. -/
  strategy : Strategy
  memory : StrategyMemory
  exchanges : List Exchange

namespace Gateway

/-- The proxied request with the given number. -/
def exchange (g : Gateway) (rid : Nat) : Option Exchange :=
  KeyedList.findKey Exchange.rid rid g.exchanges

/-- Write the fields of one proxied request. -/
def modifyExchange (g : Gateway) (rid : Nat) (f : Exchange → Exchange) : Gateway :=
  { g with exchanges := KeyedList.updateKey Exchange.rid rid f g.exchanges }

/-- Write the fields of one backend object. -/
def modifyBackend (g : Gateway) (id : String) (f : Backend → Backend)
    (hf : ∀ b, (f b).id = b.id) : Gateway :=
  { g with pool := g.pool.modify id f hf }

/-- Write the breaker record of one backend. -/
def setBreaker (g : Gateway) (id : String) (breaker : Breaker) : Gateway :=
  { g with breakers := Function.update g.breakers id (some breaker) }

/-- Write the health record of one backend. -/
def setStats (g : Gateway) (id : String) (stats : HealthStats) : Gateway :=
  { g with stats := Function.update g.stats id (some stats) }

end Gateway

end SentinelADC
