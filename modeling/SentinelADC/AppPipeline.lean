import SentinelADC.WafMiddleware
import SentinelADC.CacheMiddleware
import SentinelADC.RateLimiter

/-!
# The middlewares in order

`app.js` installs the firewall in front of the cache and the body parsers
behind it.  A middleware answers a request or hands it on; `createApp` runs
them one after the other.  When the firewall runs, no parser has set
`req.body` yet, so that it decides by path and query alone.
-/

namespace SentinelADC

open Router

/-- A request as the server hands it to the application. -/
structure ServerRequest (N : Type) where
  request : HttpRequest
  client : ClientRequest
  /-- The connection is not encrypted. -/
  isHttp : Bool
  /-- `req.query`. -/
  query : Json N
  /-- What the body parsers read from the body. -/
  payload : Option (Json N)

/-- A request on its way through the middlewares. -/
structure InFlight (N : Type) extends ServerRequest N where
  /-- `req.body`. -/
  body : Option (Json N)

/-- The answer to a request. -/
inductive Answer where
  /-- A middleware answers with a status and a message. -/
  | refused (status : Nat) (message : String)
  /-- The cache answers. -/
  | hit (cached : CachedResponse)
  /-- A middleware fails without an answer. -/
  | none
  /-- The layers behind the body parsers take over. -/
  | routed (target : Target)
deriving DecidableEq, Repr

/-- Configuration, and the state of the middlewares at the time of a request. -/
structure AppState where
  libs : Libraries
  tlsEnabled : Bool
  tlsRedirect : Bool
  tlsPort : Nat
  blockedIps : List String
  /-- Status with which `cors` answers a preflight request. -/
  preflight : HttpRequest → Option Nat
  /-- The reply of the rate limiter. -/
  limiter : ClientRequest → LimiterReply
  cache : CacheService Traced
  /-- The result of `cacheService.get`. -/
  lookup : String → Option CachedResponse

/-- A middleware of the application. -/
abbrev Middleware (N : Type) :=
  InFlight N → Except Answer (InFlight N)

namespace AppState

variable {N : Type}

/-- `req.path`. -/
def path (app : AppState) (req : HttpRequest) : List Char :=
  app.libs.pathname req.originalUrl

/-- The host without its port, in `tlsRedirect`. -/
def redirectHost (req : HttpRequest) : String :=
  match truthy (req.headers "host") with
  | some host => String.ofList (host.toList.takeWhile (fun c => c ≠ ':'))
  | none => "localhost"

/-- `tlsRedirect`. -/
def tlsRedirectMiddleware (app : AppState) : Middleware N := fun req =>
  if app.tlsEnabled && app.tlsRedirect && req.isHttp then
    let httpsPort := if app.tlsPort = 443 then "" else ":" ++ toString app.tlsPort
    .error (.refused 301
      ("https://" ++ redirectHost req.request ++ httpsPort ++ req.request.originalUrl))
  else .ok req

/-- `ipBlocklist.middleware`. -/
def ipBlocklist (app : AppState) : Middleware N := fun req =>
  if getClientIp req.client ∈ app.blockedIps then
    .error (.refused 403 "Access Forbidden — client IP has been blocked by administrator")
  else .ok req

/-- `SCANNERS`. -/
def scanners : List Signature :=
  [.ofPattern "nikto" (PatternItem.literal "nikto"),
    .ofPattern "sqlmap" (PatternItem.literal "sqlmap"),
    .ofPattern "nmap" (PatternItem.literal "nmap"),
    .ofPattern "acunetix" (PatternItem.literal "acunetix"),
    .ofPattern "w3af" (PatternItem.literal "w3af")]

/-- `headerValidator`. -/
def headerValidator : Middleware N := fun req =>
  if truthy (req.request.headers "host") = none then
    .error (.refused 400 "Bad Request — Missing Host header")
  else
    match truthy (req.request.headers "user-agent") with
    | some userAgent =>
        if scanners.any (fun regex => regex.test userAgent.toList) then
          .error (.refused 403 "Forbidden — scanner signature detected")
        else .ok req
    | none => .ok req

/-- `cors`. -/
def cors (app : AppState) : Middleware N := fun req =>
  match app.preflight req.request with
  | some status => .error (.refused status "")
  | none => .ok req

/-- `rateLimiter.middleware`. -/
def rateLimiter (app : AppState) : Middleware N := fun req =>
  match app.limiter req.client with
  | .next _ => .ok req
  | .tooManyRequests _ _ message => .error (.refused 429 message)
  | .invalidTime => .error .none

/-- The answer of the firewall. -/
def blocked (found : WafMatch) (place : String) : Answer :=
  .refused 403 ("Access Blocked — WAF detected a potential " ++ found.attackType.upper ++
    " attempt in " ++ place)

/-- `wafMiddleware`. -/
def wafMiddleware (app : AppState) : Middleware N := fun req =>
  match wafSignatures.scanString (app.path req.request) with
  | some pathMatch => .error (blocked pathMatch "the URI path")
  | none =>
      match wafSignatures.scanPayload req.query with
      | some queryMatch => .error (blocked queryMatch "query parameters")
      | none =>
          match req.body.bind wafSignatures.scanPayload with
          | some bodyMatch => .error (blocked bodyMatch "request payload")
          | none => .ok req

/-- `cacheMiddleware`. -/
def cacheMiddleware (app : AppState) : Middleware N := fun req =>
  if cacheable app.cache req.request then
    match app.lookup (cacheKey req.request) with
    | some cached => .error (.hit cached)
    | none => .ok req
  else .ok req

/-- The request is for the gateway API. -/
def isApiRequest (app : AppState) (req : HttpRequest) : Bool :=
  (mountRest "/api".toList (app.path req)).isSome

/-- `express.json` and `express.urlencoded`; their errors are part of `target`. -/
def bodyParsers (app : AppState) : Middleware N := fun req =>
  if app.isApiRequest req.request && req.request.bodyError.isNone then
    .ok { req with body := req.payload }
  else .ok req

/-- The middlewares in front of the firewall that can answer a request. -/
def frontMiddlewares (app : AppState) : List (Middleware N) :=
  [app.tlsRedirectMiddleware, app.ipBlocklist, headerValidator, app.cors, app.rateLimiter]

/-- The middlewares of `createApp` that can answer a request or change it. -/
def middlewares (app : AppState) : List (Middleware N) :=
  app.frontMiddlewares ++ [app.wafMiddleware, app.cacheMiddleware, app.bodyParsers]

/-- Middlewares one after the other, for a request without `req.body`. -/
def runMiddlewares (middlewares : List (Middleware N)) (req : ServerRequest N) :
    Except Answer (InFlight N) :=
  middlewares.foldlM (fun req middleware => middleware req) { req with body := none }

/-- `createApp`. -/
def createApp (app : AppState) (req : ServerRequest N) : Answer :=
  match runMiddlewares app.middlewares req with
  | .error answer => answer
  | .ok req => .routed (target app.libs req.request)

/-- A request for the gateway API whose JSON body matches a signature is
answered with status 403 before any API handler runs. -/
def ScreensBody (app : AppState) (req : ServerRequest N) : Prop :=
  app.isApiRequest req.request = true → req.request.bodyError = none →
    ∀ body, req.payload = some body → wafSignatures.MatchesIn body →
      ∃ message, app.createApp req = .refused 403 message

section Screening

variable {app : AppState} {req : ServerRequest N}

/-- A middleware that answers a request or hands it on as it is. -/
def Guards (middleware : Middleware N) : Prop :=
  ∀ req req', middleware req = .ok req' → req' = req

theorem guards_frontMiddlewares : ∀ middleware ∈ app.frontMiddlewares (N := N),
    Guards middleware := by
  intro middleware hmem req req' hok
  simp only [frontMiddlewares, List.mem_cons, List.not_mem_nil, or_false] at hmem
  rcases hmem with rfl | rfl | rfl | rfl | rfl
  · simp only [tlsRedirectMiddleware] at hok
    split_ifs at hok
    exact (Except.ok.inj hok).symm
  · simp only [ipBlocklist] at hok
    split_ifs at hok
    exact (Except.ok.inj hok).symm
  · simp only [headerValidator] at hok
    split_ifs at hok
    split at hok
    · split_ifs at hok
      exact (Except.ok.inj hok).symm
    · exact (Except.ok.inj hok).symm
  · simp only [cors] at hok
    split at hok
    · simp at hok
    · exact (Except.ok.inj hok).symm
  · simp only [rateLimiter] at hok
    split at hok
    · exact (Except.ok.inj hok).symm
    · simp at hok
    · simp at hok

/-- Guards one after the other. -/
theorem foldlM_guards {guards : List (Middleware N)} (h : ∀ guard ∈ guards, Guards guard)
    {req req' : InFlight N} (hok : guards.foldlM (fun req guard => guard req) req = .ok req') :
    req' = req := by
  induction guards generalizing req with
  | nil => exact (Except.ok.inj hok).symm
  | cons guard guards ih =>
      rw [List.foldlM_cons] at hok
      cases hguard : guard req with
      | error answer => simp [hguard, bind, Except.bind] at hok
      | ok next =>
          rw [hguard] at hok
          have hnext := ih (fun g hg => h g (List.mem_cons_of_mem _ hg)) hok
          exact hnext.trans (h guard List.mem_cons_self req next hguard)

/-- A request passes the middlewares in front of the firewall unchanged, if it
passes them. -/
theorem front_cases (app : AppState) (req : ServerRequest N) :
    (∃ answer, runMiddlewares app.frontMiddlewares req = .error answer) ∨
      runMiddlewares app.frontMiddlewares req = .ok { req with body := none } := by
  cases hfront : runMiddlewares app.frontMiddlewares req with
  | error answer => exact Or.inl ⟨answer, rfl⟩
  | ok next =>
      refine Or.inr ?_
      rw [foldlM_guards guards_frontMiddlewares hfront]

/-- What the middlewares behind the front ones do. -/
theorem createApp_eq (app : AppState) (req : ServerRequest N) :
    app.createApp req =
      match runMiddlewares app.frontMiddlewares req >>= app.wafMiddleware >>=
        app.cacheMiddleware >>= app.bodyParsers with
      | .error answer => answer
      | .ok req => .routed (target app.libs req.request) := by
  simp only [createApp, runMiddlewares, middlewares, List.foldlM_append, List.foldlM_cons,
    List.foldlM_nil, bind_assoc, bind_pure]

/-- The firewall sees no body. -/
theorem wafMiddleware_cases (app : AppState) (req : ServerRequest N) :
    ((wafSignatures.Matches (app.path req.request) ∨ wafSignatures.MatchesIn req.query) ∧
        ∃ message, app.wafMiddleware { req with body := none } = .error (.refused 403 message)) ∨
      (¬ (wafSignatures.Matches (app.path req.request) ∨ wafSignatures.MatchesIn req.query) ∧
        app.wafMiddleware { req with body := none } = .ok { req with body := none }) := by
  have hpath := Signatures.scanString_isSome_iff wafSignatures (app.path req.request)
  have hquery : (wafSignatures.scanPayload req.query).isSome ↔ wafSignatures.MatchesIn req.query :=
    Signatures.scanPayload_isSome_iff req.query
  rw [← hpath, ← hquery]
  cases hp : wafSignatures.scanString (app.path req.request) with
  | some pathMatch =>
      refine Or.inl ⟨Or.inl rfl, ?_⟩
      simp only [wafMiddleware, hp]
      exact ⟨_, rfl⟩
  | none =>
      cases hq : wafSignatures.scanPayload req.query with
      | some queryMatch =>
          refine Or.inl ⟨Or.inr rfl, ?_⟩
          simp only [wafMiddleware, hp, hq]
          exact ⟨_, rfl⟩
      | none =>
          refine Or.inr ⟨by simp, ?_⟩
          simp only [wafMiddleware, hp, hq, Option.bind_none]

/-- Behind the firewall no middleware refuses a request. -/
theorem not_refused_of_ok (app : AppState) (req : InFlight N) (message : String) :
    (match app.cacheMiddleware req >>= app.bodyParsers with
      | .error answer => answer
      | .ok req => .routed (target app.libs req.request)) ≠ .refused 403 message := by
  have hparsers : ∀ req : InFlight N, ∃ req', app.bodyParsers req = .ok req' := by
    intro req
    simp only [bodyParsers]
    split_ifs
    · exact ⟨_, rfl⟩
    · exact ⟨_, rfl⟩
  have hcache : (∃ cached, app.cacheMiddleware req = .error (.hit cached)) ∨
      app.cacheMiddleware req = .ok req := by
    simp only [cacheMiddleware]
    split_ifs
    · split
      · exact Or.inl ⟨_, rfl⟩
      · exact Or.inr rfl
    · exact Or.inr rfl
  obtain ⟨req', hok⟩ := hparsers req
  rcases hcache with ⟨cached, hhit⟩ | hpass
  · simp [hhit, bind, Except.bind]
  · simp [hpass, hok, bind, Except.bind]

/-- Which requests are answered with status 403 in front of the routes. -/
theorem createApp_refused_iff (app : AppState) (req : ServerRequest N) :
    (∃ message, app.createApp req = .refused 403 message) ↔
      (∃ message, runMiddlewares app.frontMiddlewares req = .error (.refused 403 message)) ∨
        runMiddlewares app.frontMiddlewares req = .ok { req with body := none } ∧
          (wafSignatures.Matches (app.path req.request) ∨ wafSignatures.MatchesIn req.query) := by
  rw [createApp_eq]
  rcases front_cases app req with ⟨answer, herror⟩ | hpass
  · simp [herror, bind, Except.bind]
  · rw [hpass]
    rcases wafMiddleware_cases app req with ⟨hmatch, message, hblocked⟩ | ⟨hclean, hok⟩
    · refine iff_of_true ⟨message, ?_⟩ (Or.inr ⟨rfl, hmatch⟩)
      simp [hblocked, bind, Except.bind]
    · refine iff_of_false ?_ (by simp [hclean])
      rintro ⟨message, hrefused⟩
      refine not_refused_of_ok app { req with body := none } message ?_
      simpa [hok, bind, Except.bind] using hrefused

/-- A signature in the body decides nothing: the request is answered with
status 403 in front of the API handlers exactly when a middleware before the
firewall does so, or the path or the query matches. -/
theorem screensBody_iff (app : AppState) (req : ServerRequest N) :
    app.ScreensBody req ↔
      ¬ (app.isApiRequest req.request = true ∧ req.request.bodyError = none ∧
          ∃ body, req.payload = some body ∧ wafSignatures.MatchesIn body) ∨
        (∃ message, runMiddlewares app.frontMiddlewares req = .error (.refused 403 message)) ∨
        runMiddlewares app.frontMiddlewares req = .ok { req with body := none } ∧
          (wafSignatures.Matches (app.path req.request) ∨ wafSignatures.MatchesIn req.query) := by
  rw [← createApp_refused_iff]
  constructor
  · intro hscreens
    by_cases hbody : app.isApiRequest req.request = true ∧ req.request.bodyError = none ∧
        ∃ body, req.payload = some body ∧ wafSignatures.MatchesIn body
    · obtain ⟨hapi, hread, body, hpayload, hmatch⟩ := hbody
      exact Or.inr (hscreens hapi hread body hpayload hmatch)
    · exact Or.inl hbody
  · rintro (hnone | hrefused) hapi hread body hpayload hmatch
    · exact absurd ⟨hapi, hread, body, hpayload, hmatch⟩ hnone
    · exact hrefused

end Screening

section Samples

/-- The application without TLS, Redis or an earlier request. -/
def sampleApp : AppState where
  libs :=
    { pathname url := url.toList.takeWhile (fun c => c ≠ '?')
      verify _ := .error "jwt malformed"
      decode bytes := String.ofList (bytes.map (fun byte => Char.ofNat byte.toNat))
      encode text := text.toList.map (fun c => UInt8.ofNat c.toNat)
      formatMs latency := toString ⌊latency⌋ ++ "ms" }
  tlsEnabled := false
  tlsRedirect := false
  tlsPort := 8443
  blockedIps := []
  preflight _ := none
  limiter _ := .next ⟨100, 99, 0⟩
  cache :=
    { enabled := true, ttl := 300, client := none, useMemoryFallback := true, memoryCache := []
      redis := [], queue := [], stats := ⟨0, 0, 0, 0, 0⟩ }
  lookup _ := none

/-- A login with a user name. -/
def login (username : String) : ServerRequest Nat where
  request := ⟨"POST", "/api/security/login", fun name =>
    if name = "host" then some "gateway" else none, none⟩
  client := ⟨"POST", "/api/security/login", none, none, some "10.0.0.1", none⟩
  isHttp := true
  query := .obj []
  payload := some (.obj [("username".toList, .str username.toList)])

/-- A script in the user name reaches the handler. -/
theorem body_unscreened :
    ¬ ∀ (app : AppState) (req : ServerRequest Nat), app.ScreensBody req := by
  intro hclaim
  have hrouted : sampleApp.createApp (login "<script>") = .routed (.handler .login false) := by
    decide +kernel
  obtain ⟨message, hrefused⟩ := hclaim sampleApp (login "<script>") (by decide +kernel) rfl _ rfl
    (by decide +kernel)
  rw [hrouted] at hrefused
  cases hrefused

end Samples

end AppState

end SentinelADC
