import SentinelADC.Lib.Router
import SentinelADC.Helpers

/-!
# API routes and authentication

What `createApp` installs behind the cache: the body parsers, the routers of
the gateway API with `jwtMiddleware`, and the reverse proxy.  `parseurl`,
`jsonwebtoken` and the body parsers are parameters: the path that Express sees
for a URL, the verdict on a token and the error for a request body.
-/

namespace SentinelADC

open Router

/-- The parts of an HTTP request that the cache and the API mounts read. -/
structure HttpRequest where
  method : String
  originalUrl : String
  /-- `req.headers`, under lower-case names. -/
  headers : String → Option String
  /-- Status of the error that the body parsers report, if any. -/
  bodyError : Option Nat

/-- Third-party and platform code that the pipeline calls. -/
structure Libraries where
  /-- `parseurl(req).pathname`, which is `req.path` outside of routers. -/
  pathname : String → List Char
  /-- `jwt.verify` with the gateway's secret; an error carries its message. -/
  verify : String → Except String Unit
  /-- `Buffer.toString('utf8')`. -/
  decode : List UInt8 → String
  /-- The bytes that `res.send` writes for a string. -/
  encode : String → List UInt8
  /-- A latency in a template string, with its unit. -/
  formatMs : Rat → String

/-- The handlers of the gateway API. -/
inductive Handler where
  | status
  | ping
  | getAlgorithm
  | setAlgorithm
  | listBackends
  | setWeight
  | drain
  | undrain
  | healthOfAll
  | healthOfOne
  | healthOverride
  | metricsOfAll
  | metricsOfOne
  | cacheStats
  | cacheFlush
  | cacheInvalidate
  | login
  | listEvents
  | clearEvents
  | listBlocked
  | block
  | unblock
  | listAnomalies
  | configureAnomalies
  | clearAnomalies
  | realtimeAnalytics
  | historicalAnalytics
  | backendAnalytics
  | listBreakers
  | resetBreaker
  | resetAllBreakers
deriving DecidableEq, Repr

/-- `api/statusRoutes.js`. -/
def statusRoutes : List (Layer Handler) :=
  [.route "GET" [.lit "status"] .status, .route "GET" [.lit "status", .lit "ping"] .ping]

/-- `api/adminRoutes.js`. -/
def adminRoutes : List (Layer Handler) :=
  [.route "GET" [.lit "algorithm"] .getAlgorithm,
    .route "PUT" [.lit "algorithm"] .setAlgorithm,
    .route "GET" [.lit "backends"] .listBackends,
    .route "PUT" [.lit "backends", .param, .lit "weight"] .setWeight,
    .route "POST" [.lit "backends", .param, .lit "drain"] .drain,
    .route "POST" [.lit "backends", .param, .lit "undrain"] .undrain]

/-- `health/healthRoutes.js`. -/
def healthRoutes : List (Layer Handler) :=
  [.route "GET" [] .healthOfAll, .route "GET" [.param] .healthOfOne, .guard,
    .route "POST" [.param, .lit "override"] .healthOverride]

/-- `metrics/metricsRoutes.js`. -/
def metricsRoutes : List (Layer Handler) :=
  [.route "GET" [] .metricsOfAll, .route "GET" [.param] .metricsOfOne]

/-- `cache/cacheRoutes.js`. -/
def cacheRoutes : List (Layer Handler) :=
  [.route "GET" [.lit "stats"] .cacheStats, .guard, .route "DELETE" [] .cacheFlush,
    .route "DELETE" [.lit "invalidate"] .cacheInvalidate]

/-- `security/securityRoutes.js`. -/
def securityRoutes : List (Layer Handler) :=
  [.route "POST" [.lit "login"] .login, .guard, .route "GET" [.lit "events"] .listEvents,
    .route "DELETE" [.lit "events"] .clearEvents,
    .route "GET" [.lit "blocklist"] .listBlocked,
    .route "POST" [.lit "blocklist"] .block,
    .route "DELETE" [.lit "blocklist", .param] .unblock,
    .route "GET" [.lit "anomalies"] .listAnomalies,
    .route "POST" [.lit "anomalies", .lit "config"] .configureAnomalies,
    .route "DELETE" [.lit "anomalies"] .clearAnomalies]

/-- `analytics/analyticsRoutes.js`. -/
def analyticsRoutes : List (Layer Handler) :=
  [.route "GET" [.lit "realtime"] .realtimeAnalytics,
    .route "GET" [.lit "historical"] .historicalAnalytics,
    .route "GET" [.lit "backends"] .backendAnalytics]

/-- `resilience/resilienceRoutes.js`. -/
def resilienceRoutes : List (Layer Handler) :=
  [.guard, .route "GET" [.lit "circuit-breakers"] .listBreakers,
    .route "POST" [.lit "circuit-breakers", .lit "reset"] .resetBreaker,
    .route "POST" [.lit "circuit-breakers", .lit "reset-all"] .resetAllBreakers]

/-- The API mounts of `createApp`, in order. -/
def apiMounts : List (Mount Handler) :=
  [⟨"/api", statusRoutes⟩, ⟨"/api/admin", .guard :: adminRoutes⟩, ⟨"/api/health", healthRoutes⟩,
    ⟨"/api/metrics", metricsRoutes⟩, ⟨"/api/cache", cacheRoutes⟩,
    ⟨"/api/security", securityRoutes⟩, ⟨"/api/analytics", .guard :: analyticsRoutes⟩,
    ⟨"/api/resilience", resilienceRoutes⟩]

/-- `str.startsWith(text)`. -/
def startsWith (str text : List Char) : Bool :=
  text.isPrefixOf str

/-- `authHeader.split(' ')[1]` for a header that starts with `Bearer`. -/
def bearerToken (authHeader : Option String) : Option String :=
  match truthy authHeader with
  | none => none
  | some header =>
      if startsWith header.toList "Bearer ".toList then
        some (String.ofList ((header.toList.drop 7).takeWhile (fun c => c ≠ ' ')))
      else none

/-- `jwtMiddleware`; an error is the text of its answer with status 401. -/
def jwtMiddleware (libs : Libraries) (req : HttpRequest) : Except String Unit :=
  match bearerToken (req.headers "authorization") with
  | none => .error "Unauthorized — Missing or malformed Authorization token"
  | some token =>
      match libs.verify token with
      | .ok () => .ok ()
      | .error message => .error ("Unauthorized — Invalid or expired token: " ++ message)

/-- The request carries a bearer token that `jwt.verify` accepts. -/
def HttpRequest.HasValidToken (libs : Libraries) (req : HttpRequest) : Prop :=
  ∃ token, bearerToken (req.headers "authorization") = some token ∧ libs.verify token = .ok ()

/-- `jwtMiddleware` lets through exactly the requests with a valid token. -/
theorem jwtMiddleware_ok_iff {libs : Libraries} {req : HttpRequest} :
    jwtMiddleware libs req = .ok () ↔ req.HasValidToken libs := by
  simp only [jwtMiddleware, HttpRequest.HasValidToken]
  cases bearerToken (req.headers "authorization") with
  | none => simp
  | some token =>
      cases hverify : libs.verify token with
      | ok value => simp [hverify]
      | error message => simp [hverify]

/-- What answers a request that the cache passes on. -/
inductive Target where
  | handler (handler : Handler) (guarded : Bool)
  | unauthorized (message : String)
  /-- The error handler, for a request body that was refused. -/
  | badBody (status : Nat)
  | proxy
  /-- Express itself, when no layer answers. -/
  | notFound
deriving DecidableEq, Repr

/-- A handler of the gateway API. -/
def Target.isApi : Target → Bool
  | .handler _ _ => true
  | _ => false

/-- Status of the targets whose answer is fixed. -/
def Target.status? : Target → Option Nat
  | .unauthorized _ => some 401
  | .badBody status => some status
  | .notFound => some 404
  | _ => none

/-- The verdict of `jwtMiddleware`. -/
def HttpRequest.admitted (libs : Libraries) (req : HttpRequest) : Bool :=
  match jwtMiddleware libs req with
  | .ok () => true
  | .error _ => false

/-- Text of the answer to a request that is not admitted. -/
def unauthorizedMessage (libs : Libraries) (req : HttpRequest) : String :=
  match jwtMiddleware libs req with
  | .ok () => ""
  | .error message => message

/-- The layers behind the cache, for one request.  A route parameter that cannot be
decoded, which Express answers with status 400, is left out. -/
def target (libs : Libraries) (req : HttpRequest) : Target :=
  let path := libs.pathname req.originalUrl
  match req.bodyError, mountRest "/api".toList path with
  | some status, some _ => .badBody status
  | _, _ =>
      match dispatch (req.admitted libs) req.method path apiMounts with
      | some (.handled handler guarded) => .handler handler guarded
      | some .denied => .unauthorized (unauthorizedMessage libs req)
      | none => if startsWith path "/api".toList then .notFound else .proxy

theorem admitted_iff {libs : Libraries} {req : HttpRequest} :
    req.admitted libs = true ↔ req.HasValidToken libs := by
  rw [← jwtMiddleware_ok_iff, HttpRequest.admitted]
  cases jwtMiddleware libs req <;> simp

/-- A handler behind `jwtMiddleware` answers requests with a valid token only. -/
theorem hasValidToken_of_target {libs : Libraries} {req : HttpRequest} {handler : Handler}
    (h : target libs req = .handler handler true) :
    req.HasValidToken libs := by
  unfold target at h
  dsimp only at h
  split at h
  · simp at h
  · split at h
    · next hdispatch =>
        simp only [Target.handler.injEq] at h
        obtain ⟨rfl, rfl⟩ := h
        exact admitted_iff.mp (dispatch_guarded hdispatch)
    · simp at h
    · split_ifs at h

/-- Every API mount is `/api` or extends it by a segment. -/
theorem apiMounts_extend :
    ∀ mount ∈ apiMounts, mount.path.toList = "/api".toList ∨
      "/api".toList ++ ['/'] <+: mount.path.toList := by
  decide

/-- The path of a request that an API handler answers lies under `/api`, in any
mix of letter cases. -/
theorem mounted_of_target {libs : Libraries} {req : HttpRequest}
    (h : (target libs req).isApi = true) :
    (mountRest "/api".toList (libs.pathname req.originalUrl)).isSome := by
  unfold target at h
  dsimp only at h
  split at h
  · simp [Target.isApi] at h
  · split at h
    · next hdispatch =>
        obtain ⟨mount, hmem, hmatch⟩ := dispatch_mounted hdispatch
        rcases apiMounts_extend mount hmem with heq | ⟨more, heq⟩
        · rwa [heq] at hmatch
        · rw [← heq, List.append_assoc] at hmatch
          exact mountRest_of_append hmatch
    · simp [Target.isApi] at h
    · split_ifs at h <;> simp [Target.isApi] at h

end SentinelADC
