import SentinelADC.CacheService
import SentinelADC.ApiRoutes
import SentinelADC.Lib.KeyedList

/-!
# Cache middleware

`cache/cacheMiddleware.js` and what `createApp` puts behind it.  A request that
may be cached waits for a lookup; a hit is replayed and a miss is handed on
with `res.write` and `res.end` replaced, so that a complete response with
status 200 is stored under the request's URL.

The middlewares in front of the cache answer a request themselves or pass it
on; they appear here through the response headers they have set.  A stored
response carries a mark of who produced it, which the code does not have.
-/

namespace SentinelADC

/-- `res.getHeaders()`: values under lower-case names. -/
abbrev Headers := List (String × String)

/-- `toLowerCase` on a header name. -/
def lowerName (name : String) : String :=
  String.ofList (Router.lower name.toList)

/-- `res.setHeader(name, value)`. -/
def setHeader (name value : String) (headers : Headers) : Headers :=
  if ∃ entry ∈ headers, entry.1 = lowerName name then
    headers.map (fun entry => if entry.1 = lowerName name then (entry.1, value) else entry)
  else headers ++ [(lowerName name, value)]

/-- What the cache keeps of a response. -/
structure CachedResponse where
  status : Nat
  headers : Headers
  body : String
deriving DecidableEq, Repr

/-- The producer of a response. -/
inductive Origin where
  | backend
  | handler (handler : Handler) (guarded : Bool)
  /-- The gateway's own answers besides those of the API handlers. -/
  | gateway
deriving DecidableEq, Repr

/-- Produced by a handler of the gateway API. -/
def Origin.isApi : Origin → Bool
  | .handler _ _ => true
  | _ => false

/-- Produced by a handler behind `jwtMiddleware`. -/
def Origin.isGuarded : Origin → Bool
  | .handler _ guarded => guarded
  | _ => false

/-- The producer of what a target answers. -/
def Target.origin : Target → Origin
  | .handler h guarded => .handler h guarded
  | .proxy => .backend
  | _ => .gateway

@[simp] theorem isApi_origin (target : Target) :
    target.origin.isApi = target.isApi := by
  cases target <;> rfl

/-- A stored response with its producer. -/
structure Traced where
  response : CachedResponse
  origin : Origin
deriving DecidableEq, Repr

/-- Where a request stands. -/
inductive Stage where
  /-- Waiting for Redis. -/
  | looking
  /-- The lookup has a result that the middleware has not seen yet. -/
  | found (cached : Option Traced)
  /-- Handed on; `intercepted` tells whether the response is being buffered. -/
  | answering (target : Target) (intercepted : Bool)
  | ended
deriving DecidableEq, Repr

/-- The stage after the call of `cacheService.get`. -/
def Stage.ofLookup : Option (Option Traced) → Stage
  | none => .looking
  | some cached => .found cached

/-- A request with its response. -/
structure Cycle where
  rid : Nat
  request : HttpRequest
  /-- Response headers set so far. -/
  headers : Headers
  stage : Stage
  /-- The buffer of the interceptor. -/
  chunks : List (List UInt8)
  /-- Status of the response that has ended. -/
  status : Option Nat
  /-- What the client has received, with its producer. -/
  received : List (Origin × List UInt8)

/-- The cache and the requests that have reached it. -/
structure Pipeline where
  cache : CacheService Traced
  cycles : List Cycle

/-- `hasNoCacheHeader`. -/
def HttpRequest.hasNoCacheHeader (req : HttpRequest) : Bool :=
  req.headers "cache-control" = some "no-cache" ∨ req.headers "pragma" = some "no-cache"

/-- `isApi`. -/
def HttpRequest.isApi (req : HttpRequest) : Bool :=
  startsWith req.originalUrl.toList "/api".toList

/-- The middleware does not bypass the cache. -/
def cacheable (cache : CacheService Traced) (req : HttpRequest) : Bool :=
  cache.isActive && req.method = "GET" && !req.isApi && !req.hasNoCacheHeader

/-- `cacheKey`. -/
def cacheKey (req : HttpRequest) : String :=
  "sentinel:cache:" ++ req.originalUrl

namespace Cycle

/-- A request as it enters the middleware. -/
def start (rid : Nat) (request : HttpRequest) (headers : Headers) (stage : Stage) : Cycle where
  rid := rid
  request := request
  headers := headers
  stage := stage
  chunks := []
  status := none
  received := []

/-- The lookup of a waiting request is answered. -/
def onAnswer (cached : Option Traced) (c : Cycle) : Cycle :=
  match c.stage with
  | .looking => { c with stage := .found cached }
  | _ => c

/-- `next()` without interception. -/
def bypass (libs : Libraries) (c : Cycle) : Cycle :=
  { c with
    headers := setHeader "x-cache" "BYPASS" c.headers
    stage := .answering (target libs c.request) false }

/-- The cached headers that a hit sets. -/
def replayedHeaders (cached : Traced) : Headers :=
  cached.response.headers.filter (fun entry =>
    lowerName entry.1 ≠ "connection" ∧ lowerName entry.1 ≠ "content-length")

/-- A hit. -/
def replay (libs : Libraries) (cached : Traced) (latency : Rat) (c : Cycle) : Cycle :=
  let headers := (replayedHeaders cached).foldl (fun hs entry => setHeader entry.1 entry.2 hs)
    c.headers
  { c with
    headers :=
      setHeader "X-Cache-Latency" (libs.formatMs latency) (setHeader "x-cache" "HIT" headers)
    stage := .ended
    status := some (if cached.response.status = 0 then 200 else cached.response.status)
    received := c.received ++ [(cached.origin, libs.encode cached.response.body)] }

/-- A hit of which `setHeader` refuses the header with number `fault`. -/
def replayFails (libs : Libraries) (cached : Traced) (fault : Nat) (c : Cycle) : Cycle :=
  let headers := ((replayedHeaders cached).take fault).foldl
    (fun hs entry => setHeader entry.1 entry.2 hs) c.headers
  ({ c with headers := headers } : Cycle).bypass libs

/-- A miss. -/
def intercept (libs : Libraries) (c : Cycle) : Cycle :=
  { c with
    headers := setHeader "x-cache" "MISS" c.headers
    stage := .answering (target libs c.request) true }

/-- Whoever answers sets a response header. -/
def onSetHeader (name value : String) (c : Cycle) : Cycle :=
  match c.stage with
  | .answering _ _ => { c with headers := setHeader name value c.headers }
  | _ => c

/-- `res.write(chunk)`. -/
def onWrite (chunk : List UInt8) (c : Cycle) : Cycle :=
  match c.stage with
  | .answering target intercepted =>
      { c with
        chunks := if intercepted then c.chunks ++ [chunk] else c.chunks
        received := c.received ++ [(target.origin, chunk)] }
  | _ => c

/-- `res.end(chunk)` with `res.statusCode = status`. -/
def onEnd (status : Nat) (chunk : List UInt8) (c : Cycle) : Cycle :=
  match c.stage with
  | .answering target intercepted =>
      { c with
        chunks := if intercepted then c.chunks ++ [chunk] else c.chunks
        status := some (target.status?.getD status)
        stage := .ended
        received := c.received ++ [(target.origin, chunk)] }
  | _ => c

/-- What an intercepted `res.end` stores. -/
def snapshot (libs : Libraries) (target : Target) (status : Nat) (chunk : List UInt8)
    (c : Cycle) : Traced where
  response :=
    { status := status
      headers := c.headers.filter (fun entry => entry.1 ≠ "x-cache")
      body := libs.decode (c.chunks ++ [chunk]).flatten }
  origin := target.origin

end Cycle

namespace Pipeline

/-- Request found by its number. -/
def cycle (rid : Nat) (p : Pipeline) : Option Cycle :=
  KeyedList.findKey Cycle.rid rid p.cycles

/-- Write one request. -/
def modifyCycle (rid : Nat) (f : Cycle → Cycle) (p : Pipeline) : Pipeline :=
  { p with cycles := KeyedList.updateKey Cycle.rid rid f p.cycles }

/-- `cacheMiddleware` up to the lookup. -/
def arrive (libs : Libraries) (now : Int) (rid : Nat) (req : HttpRequest) (headers : Headers)
    (p : Pipeline) : Pipeline :=
  match p.cycle rid with
  | some _ => p
  | none =>
      if cacheable p.cache req then
        let (answer, cache) := p.cache.get now rid (cacheKey req)
        { cache := cache
          cycles := p.cycles ++ [Cycle.start rid req headers (.ofLookup answer)] }
      else
        { cache := p.cache.recordBypass
          cycles := p.cycles ++ [(Cycle.start rid req headers .looking).bypass libs] }

/-- Redis answers its oldest command. -/
def redisAnswer (now : Int) (ok : Bool) (p : Pipeline) : Pipeline :=
  let (reply, cache) := p.cache.answer now ok
  match reply with
  | none => { p with cache := cache }
  | some (rid, cached) =>
      ({ p with cache := cache } : Pipeline).modifyCycle rid (Cycle.onAnswer cached)

/-- `cacheMiddleware` after the lookup; `fault` is the position of a cached
header that `setHeader` refuses. -/
def resume (libs : Libraries) (rid : Nat) (latency : Rat) (fault : Option Nat) (p : Pipeline) :
    Pipeline :=
  match p.cycle rid with
  | none => p
  | some c =>
      match c.stage with
      | .found none => p.modifyCycle rid (Cycle.intercept libs)
      | .found (some cached) =>
          match fault with
          | none =>
              ({ p with cache := p.cache.recordHit latency } : Pipeline).modifyCycle rid
                (Cycle.replay libs cached latency)
          | some n =>
              ({ p with cache := (p.cache.recordHit latency).recordBypass } : Pipeline).modifyCycle
                rid (Cycle.replayFails libs cached n)
      | _ => p

/-- `res.end(chunk)`, replaced on a miss. -/
def endResponse (libs : Libraries) (now : Int) (rid : Nat) (status : Nat) (chunk : List UInt8)
    (latency : Rat) (p : Pipeline) : Pipeline :=
  match p.cycle rid with
  | none => p
  | some c =>
      match c.stage with
      | .answering target true =>
          let status := target.status?.getD status
          let cache :=
            if status = 200 then
              p.cache.set now (cacheKey c.request) (c.snapshot libs target status chunk)
            else p.cache
          ({ p with cache := cache.recordMiss latency } : Pipeline).modifyCycle rid
            (Cycle.onEnd status chunk)
      | _ => p.modifyCycle rid (Cycle.onEnd status chunk)

/-- What can happen to the pipeline. -/
inductive Op where
  | arrive (rid : Nat) (req : HttpRequest) (headers : Headers)
  | redisAnswer (ok : Bool)
  | resume (rid : Nat) (latency : Rat) (fault : Option Nat)
  | setHeader (rid : Nat) (name value : String)
  | write (rid : Nat) (chunk : List UInt8)
  | endResponse (rid : Nat) (status : Nat) (chunk : List UInt8) (latency : Rat)
  | delete (key : String)
  | invalidatePattern (pattern : String → Bool)
  | flushAll
  | clientConnect
  | clientError
  | clientStatus (status : String)

/-- Something happens at a time. -/
structure Event where
  now : Int
  op : Op

/-- One event. -/
def step (libs : Libraries) (p : Pipeline) (e : Event) : Pipeline :=
  match e.op with
  | .arrive rid req headers => p.arrive libs e.now rid req headers
  | .redisAnswer ok => p.redisAnswer e.now ok
  | .resume rid latency fault => p.resume libs rid latency fault
  | .setHeader rid name value => p.modifyCycle rid (Cycle.onSetHeader name value)
  | .write rid chunk => p.modifyCycle rid (Cycle.onWrite chunk)
  | .endResponse rid status chunk latency => p.endResponse libs e.now rid status chunk latency
  | .delete key => { p with cache := p.cache.delete key }
  | .invalidatePattern pattern => { p with cache := p.cache.invalidatePattern pattern }
  | .flushAll => { p with cache := p.cache.flushAll }
  | .clientConnect => { p with cache := p.cache.onConnect }
  | .clientError => { p with cache := p.cache.onError }
  | .clientStatus status => { p with cache := p.cache.onStatus status }

/-- A pipeline that has seen no request, with nothing in either store. -/
structure Booted (p : Pipeline) : Prop where
  cycles : p.cycles = []
  memory : p.cache.memoryCache = []
  redis : p.cache.redis = []
  queue : p.cache.queue = []

end Pipeline

end SentinelADC
