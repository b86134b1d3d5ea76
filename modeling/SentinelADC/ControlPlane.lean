import SentinelADC.AlgorithmSwitch
import SentinelADC.ApiRoutes
import SentinelADC.CacheService
import SentinelADC.Lib.CappedList

/-!
# The control plane

The handlers behind the API routes with the state they work on: the gateway,
the cache service, the blocklist of the firewall and the security log.  A
request that the middlewares let through to the routes is a `call`; what the
middlewares write for it comes as `caching` and `logging`, and a request that
they answer is nothing else.  Everything else that goes on in the process is
`background`.  Documents that a handler only reads off the state are not spelled
out.
-/

namespace SentinelADC

open Runs

universe u

/-- An entry of `securityLogger.events`.  Its id, which is random, is left out. -/
structure SecurityEvent where
  type : String
  ip : String
  path : Option String
  method : Option String
  userAgent : String
  details : List (String × String)
  timestamp : Int
deriving DecidableEq, Repr

/-- `securityLogger.limit`. -/
def securityLogLimit : Nat := 100

/-- `securityLogger.logEvent`, for an entry with its fields. -/
def logEvent (event : SecurityEvent) (events : List SecurityEvent) : List SecurityEvent :=
  unshiftCapped securityLogLimit event events

/-- `ipBlocklist.block`; a `Set` keeps the order of insertion. -/
def blockIp (ip : String) (blockedIps : List String) : List String :=
  if ip ∈ blockedIps then blockedIps else blockedIps ++ [ip]

/-- `ipBlocklist.unblock`, which tells whether the address was there. -/
def unblockIp (ip : String) (blockedIps : List String) : Bool × List String :=
  (decide (ip ∈ blockedIps), blockedIps.filter (fun blocked => blocked ≠ ip))

/-- A request at the API routes, with what the handlers read of path, query and
body. -/
structure ApiCall where
  request : HttpRequest
  client : ClientRequest
  /-- `req.params.id` or `req.params.ip`. -/
  param : String
  /-- `req.query.pattern`. -/
  pattern : Option String
  algorithm : Option String
  /-- `parseInt(req.body.weight, 10)`, unless it is `NaN`.  `Infinity`, which a text of 309 digits
  gives, is left out. -/
  weight : Option Int
  /-- `parseInt(req.body.timeoutSec || req.query.timeoutSec, 10)`, unless it is `NaN`. -/
  timeoutSec : Option Int
  /-- `req.body.healthy`, if it is a boolean. -/
  healthy : Option Bool
  backendId : Option String
  /-- `req.body.ip`. -/
  ip : Option String
  username : Option String
  password : Option String

/-- How a request ends that the routes have taken. -/
inductive ApiReply where
  /-- Status 200 with a document read off the state. -/
  | document
  /-- Status 200 with a message. -/
  | message (text : String)
  | failure (status : Nat) (text : String)
  /-- Express or its body parsers answer. -/
  | platform (status : Nat)
deriving DecidableEq, Repr

/-- Configuration and libraries of the process. -/
structure ControlEnv where
  cfg : Config
  libs : Libraries
  /-- The keys that the store in use finds for a pattern. -/
  matching : String → String → Bool

/-- The state behind the API. -/
structure ControlPlane (V : Type u) where
  gateway : Gateway
  cache : CacheService V
  /-- `ipBlocklist.blockedIps`. -/
  blockedIps : List String
  /-- `securityLogger.events`, newest first. -/
  events : List SecurityEvent

namespace ApiCall

/-- `parseInt(…) || 30` of the drain route. -/
def drainTimeout (call : ApiCall) : Int :=
  match call.timeoutSec with
  | some timeoutSec => if timeoutSec = 0 then 30 else timeoutSec
  | none => 30

/-- The log entry of `jwtMiddleware` for a request that it turns away. -/
def unauthorizedEvent (libs : Libraries) (now : Int) (call : ApiCall) : SecurityEvent where
  type := "unauthorized-jwt"
  ip := getClientIp call.client
  path := some call.request.originalUrl
  method := some call.request.method
  userAgent := (truthy (call.request.headers "user-agent")).getD "unknown"
  details :=
    match bearerToken (call.request.headers "authorization") with
    | none => [("reason", "Missing or malformed Authorization Bearer header")]
    | some token =>
        match libs.verify token with
        | .ok () => []
        | .error message =>
            [("reason", "JWT verification failed: " ++ message), ("error", message)]
  timestamp := now

end ApiCall

namespace ControlPlane

variable {V : Type u}

/-- An entry of the drain manager, which logs without a request. -/
def drainEvent (type : String) (now : Int) (details : List (String × String)) :
    SecurityEvent where
  type := type
  ip := "ADMIN"
  path := none
  method := none
  userAgent := "unknown"
  details := details
  timestamp := now

/-- What `drainBackend` logs, oldest first. -/
def drainEvents (now : Int) (id : String) (timeoutSec : Int) (g : Gateway) :
    List SecurityEvent :=
  match g.pool.find id with
  | none => []
  | some backend =>
      if backend.status = .draining then []
      else
        let started := drainEvent "backend-drain-started" now
          [("backendId", id), ("activeConnections", toString backend.activeConnections),
            ("timeoutSec", toString timeoutSec)]
        if backend.activeConnections ≤ 0 then
          [started, drainEvent "backend-drain-completed" now
            [("backendId", id), ("reason", "Immediate drain (0 active connections)")]]
        else [started]

/-- Entries logged one after the other. -/
def logAll (logged : List SecurityEvent) (s : ControlPlane V) : ControlPlane V :=
  { s with events := logged.foldl (fun events event => logEvent event events) s.events }

/-- Answer with the message of an operation on the gateway, or with status and
text of its error. -/
def settleGateway (status : Nat) (text : String) (result : Except String Gateway)
    (s : ControlPlane V) : ApiReply × ControlPlane V :=
  match result with
  | .ok g => (.message text, { s with gateway := g })
  | .error message => (.failure status message, s)

/-- The same for an operation that comes with its own message. -/
def settleMessage (status : Nat) (result : Except String (String × Gateway))
    (s : ControlPlane V) : ApiReply × ControlPlane V :=
  match result with
  | .ok (text, g) => (.message text, { s with gateway := g })
  | .error message => (.failure status message, s)

/-- Run a cache operation if the cache is in use. -/
def onCache (text : String) (f : CacheService V → CacheService V) (s : ControlPlane V) :
    ApiReply × ControlPlane V :=
  if s.cache.isActive then (.message text, { s with cache := f s.cache })
  else (.failure 503 "Cache service is currently offline or disabled", s)

/-- Reading the metrics of a backend prunes its window. -/
def readMetrics (now : Int) (id : String) (s : ControlPlane V) : ControlPlane V :=
  { s with gateway.memory := (s.gateway.memory.getBackendMetrics now s.gateway.pool id).2 }

/-- `"${healthy ? 'HEALTHY' : 'UNHEALTHY'} (Sticky override: ${!healthy})"`. -/
def overrideText (healthy : Bool) : String :=
  if healthy then "HEALTHY (Sticky override: false)" else "UNHEALTHY (Sticky override: true)"

/-- The handlers of the API. -/
def handle (env : ControlEnv) (now : Int) (call : ApiCall) (s : ControlPlane V) :
    Handler → ApiReply × ControlPlane V
  | .status => (.document, { s with gateway := (s.gateway.getHealthyBackends env.cfg now).2 })
  | .ping => (.document, s)
  | .getAlgorithm => (.document, s)
  | .setAlgorithm =>
      let algorithm := call.algorithm.getD ""
      s.settleGateway 400 s!"Load balancing algorithm successfully switched to {algorithm}"
        (s.gateway.putAlgorithm algorithm)
  | .listBackends => (.document, s)
  | .setWeight =>
      let weight := call.weight.getD 0
      -- a weight that is refused is an error of the request, an unknown id is not
      s.settleGateway (if call.weight.any (fun weight => 0 ≤ weight) then 404 else 400)
        s!"Successfully updated weight of {call.param} to {weight}"
        (s.gateway.setWeight call.param call.weight)
  | .drain =>
      let logged := drainEvents now call.param call.drainTimeout s.gateway
      let result := s.gateway.drainBackend now call.param call.drainTimeout
      (s.logAll logged).settleMessage 404 result
  | .undrain => s.settleMessage 404 (s.gateway.undrainBackend call.param)
  | .healthOfAll => (.document, s)
  | .healthOfOne =>
      if (s.gateway.pool.find call.param).isSome then (.document, s)
      else (.failure 404 s!"Backend with ID \"{call.param}\" not found", s)
  | .healthOverride =>
      s.settleGateway (if call.healthy.isSome then 404 else 400)
        (s!"Backend \"{call.param}\" health manually overridden to " ++
          overrideText (call.healthy.getD false))
        (s.gateway.healthOverride call.param call.healthy)
  | .metricsOfAll => (.document, s.gateway.pool.ids.foldl (fun s id => s.readMetrics now id) s)
  | .metricsOfOne =>
      if (s.gateway.memory.getBackendMetrics now s.gateway.pool call.param).1.isSome then
        (.document, s.readMetrics now call.param)
      -- `this.history` inherits a member under this name, which has no `filter`
      else if (s.gateway.memory.history call.param).isNone ∧
          call.param ∈ Strategy.inheritedMembers then
        (.failure 500 "Internal Server Error", s)
      else
        (.failure 404 s!"Backend with ID \"{call.param}\" not found",
          s.readMetrics now call.param)
  | .cacheStats => (.document, s)
  | .cacheFlush => s.onCache "Cache database flushed successfully" CacheService.flushAll
  | .cacheInvalidate =>
      match truthy call.pattern with
      | none => (.failure 400 "Missing required query parameter \"pattern\"", s)
      | some pattern =>
          s.onCache s!"Successfully invalidated cache keys matching pattern: \"{pattern}\""
            (CacheService.invalidatePattern (env.matching pattern))
  | .login =>
      if call.username = some "admin" ∧ call.password = some "sentinel" then (.document, s)
      else (.failure 401 "Invalid credentials. Default: admin / sentinel", s)
  | .listEvents => (.document, s)
  | .clearEvents =>
      (.message "Security event logs cleared successfully", { s with events := [] })
  | .listBlocked => (.document, s)
  | .block =>
      match truthy call.ip with
      | none => (.failure 400 "Missing required body field: \"ip\"", s)
      | some ip =>
          (.message s!"Manually blocked IP: \"{ip}\" successfully",
            { s with blockedIps := blockIp ip s.blockedIps })
  | .unblock =>
      let (existed, blockedIps) := unblockIp call.param s.blockedIps
      if existed then
        (.message s!"Manually unblocked IP: \"{call.param}\" successfully",
          { s with blockedIps := blockedIps })
      else (.failure 404 s!"IP address \"{call.param}\" was not found in the blocklist", s)
  -- `anomalyDetector` is not imported there, so these three throw a `ReferenceError`
  | .listAnomalies => (.failure 500 "Internal Server Error", s)
  | .configureAnomalies => (.failure 500 "Internal Server Error", s)
  | .clearAnomalies => (.failure 500 "Internal Server Error", s)
  | .realtimeAnalytics => (.document, s)
  | .historicalAnalytics => (.document, s)
  | .backendAnalytics => (.document, s)
  | .listBreakers => (.document, s)
  | .resetBreaker =>
      let backendId := call.backendId.getD ""
      s.settleGateway 400
        s!"Circuit breaker for backend \"{backendId}\" reset to CLOSED successfully."
        (s.gateway.resetRoute now call.backendId)
  | .resetAllBreakers =>
      (.message "All circuit breakers reset to CLOSED successfully.",
        { s with gateway := s.gateway.resetAllBreakers now })

/-- The routes of the API; a request for the proxy is not theirs. -/
def serve (env : ControlEnv) (now : Int) (call : ApiCall) (s : ControlPlane V) :
    Option ApiReply × ControlPlane V :=
  match target env.libs call.request with
  | .handler handler _ =>
      let (reply, s) := s.handle env now call handler
      (some reply, s)
  | .unauthorized text =>
      (some (.failure 401 text), s.logAll [call.unauthorizedEvent env.libs now])
  | .badBody status => (some (.platform status), s)
  | .notFound => (some (.platform 404), s)
  | .proxy => (none, s)

end ControlPlane

/-- The operations that are requests at the API. -/
def Op.isApiCall : Op → Bool
  | .healthOverride _ _ => true
  | .setWeight _ _ => true
  | .setAlgorithm _ => true
  | .drain _ _ => true
  | .undrain _ => true
  | .resetBreaker _ => true
  | .resetAllBreakers => true
  | .status => true
  | _ => false

/-- What happens to the control plane at a time. -/
inductive ControlOp (V : Type u) where
  | call (call : ApiCall)
  /-- Proxied requests, health checks and timers, with the entries they log. -/
  | background (op : { op : Op // op.isApiCall = false }) (logged : List SecurityEvent)
  /-- The cache middleware leaves the cache service in some state. -/
  | caching (cache : CacheService V)
  /-- The middlewares in front of the routes log what they notice. -/
  | logging (logged : List SecurityEvent)

/-- An operation and the time at which it happens. -/
structure ControlEvent (V : Type u) where
  now : Int
  op : ControlOp V

namespace ControlPlane

variable {V : Type u}

/-- One event. -/
def step (env : ControlEnv) (s : ControlPlane V) (e : ControlEvent V) : ControlPlane V :=
  match e.op with
  | .call call => (s.serve env e.now call).2
  | .background op logged =>
      { s with gateway := s.gateway.step env.cfg ⟨e.now, op⟩ }.logAll logged
  | .caching cache => { s with cache := cache }
  | .logging logged => s.logAll logged

end ControlPlane

end SentinelADC
