import SentinelADC.Helpers
import SentinelADC.Lib.TokenBucket
import Mathlib.Logic.Function.Basic

/-!
# Rate limiter

`security/rateLimiter.js` without Redis: a token bucket for each client in a
map in memory, penalties that lower a client's capacity for a while, and the
task that throws stale buckets away.  Tokens and rates are exact rationals here,
doubles in the source; where rounding decides, the evaluation is read again in
doubles.  What a timer or a late answer of Redis does to the same maps is an
event like any other.
-/

namespace SentinelADC

/-- `config.security.rateLimit`. -/
structure RateLimitConfig where
  windowMs : Int
  maxRequests : Int
deriving DecidableEq, Repr

/-- `refillRate`, in tokens for each millisecond. -/
def RateLimitConfig.refillRate (cfg : RateLimitConfig) (capacity : Int) : Rat :=
  capacity / cfg.windowMs

/-- An entry of `memoryBuckets`. -/
structure MemoryBucket where
  tokens : Rat
  lastRefill : Int
deriving DecidableEq, Repr

/-- An entry of `penalizedIps`. -/
structure Penalty where
  maxRequests : Int
  expiresAt : Int
  reason : String
deriving DecidableEq, Repr

/-- The fields of the rate limiter. -/
structure RateLimiter where
  memoryBuckets : String → Option MemoryBucket
  penalizedIps : String → Option Penalty

/-- The result of a bucket evaluation. -/
structure Evaluation where
  allowed : Bool
  remaining : Int
  /-- Absent for `Infinity`, which division by a rate of zero gives. -/
  retryAfterMs : Option Int
deriving DecidableEq, Repr

/-- The rate limit headers of a response. -/
structure RateLimitHeaders where
  limit : Int
  remaining : Int
  /-- Time of `X-RateLimit-Reset`. -/
  reset : Int
deriving DecidableEq, Repr

/-- How the middleware goes on. -/
inductive LimiterReply where
  | next (headers : RateLimitHeaders)
  /-- Status 429 with `Retry-After` in seconds. -/
  | tooManyRequests (headers : RateLimitHeaders) (retryAfter : Int) (message : String)
  /-- `toISOString` throws. -/
  | invalidTime
deriving DecidableEq, Repr

namespace RateLimiter

/-- `constructor`. -/
def initial : RateLimiter where
  memoryBuckets _ := none
  penalizedIps _ := none

/-- `applyPenalty`; the source's defaults are 10, 300000 and
`statistical-anomaly`. -/
def applyPenalty (now : Int) (ip : String) (maxRequests durationMs : Int) (reason : String)
    (l : RateLimiter) : RateLimiter :=
  { l with
    penalizedIps :=
      Function.update l.penalizedIps ip (some ⟨maxRequests, now + durationMs, reason⟩) }

@[simp] theorem penalizedIps_applyPenalty (now : Int) (ip : String) (maxRequests durationMs : Int)
    (reason : String) (l : RateLimiter) :
    (l.applyPenalty now ip maxRequests durationMs reason).penalizedIps =
      Function.update l.penalizedIps ip (some ⟨maxRequests, now + durationMs, reason⟩) := by
  rfl

/-- `removePenalty`. -/
def removePenalty (ip : String) (l : RateLimiter) : RateLimiter :=
  { l with penalizedIps := Function.update l.penalizedIps ip none }

/-- Idle time after which a bucket is stale, in milliseconds. -/
def staleAfter : Int := 300000

/-- `cleanupMemoryStore`. -/
def cleanupMemoryStore (now : Int) (l : RateLimiter) : RateLimiter where
  memoryBuckets ip :=
    (l.memoryBuckets ip).filter (fun bucket => ¬ staleAfter < now - bucket.lastRefill)
  penalizedIps ip := (l.penalizedIps ip).filter (fun item => ¬ item.expiresAt < now)

/-- Tokens of a client when its bucket is evaluated. -/
def refilled (ip : String) (capacity refillRate : Rat) (now : Int) (l : RateLimiter) : Rat :=
  match l.memoryBuckets ip with
  | none => capacity
  | some bucket =>
      let elapsed := max 0 (now - bucket.lastRefill)
      min capacity (bucket.tokens + elapsed * refillRate)

/-- `Math.ceil(x / y)`, unless the quotient is not finite. -/
def ceilDiv? (x y : Rat) : Option Int :=
  if y = 0 then none else some ⌈x / y⌉

/-- `evalTokenBucketMemory`. -/
def evalTokenBucketMemory (ip : String) (capacity refillRate : Rat) (now : Int) (cost : Rat)
    (l : RateLimiter) : Evaluation × RateLimiter :=
  let tokens := l.refilled ip capacity refillRate now
  let write (tokens : Rat) : RateLimiter :=
    { l with memoryBuckets := Function.update l.memoryBuckets ip (some ⟨tokens, now⟩) }
  if cost ≤ tokens then
    ({ allowed := true, remaining := ⌊tokens - cost⌋, retryAfterMs := some 0 },
      write (tokens - cost))
  else
    ({ allowed := false
       remaining := ⌊tokens⌋
       retryAfterMs := ceilDiv? (cost - tokens) refillRate },
      write tokens)

/-- The capacity in force for a client; an expired penalty is deleted. -/
def currentCapacity (cfg : RateLimitConfig) (now : Int) (ip : String) (l : RateLimiter) :
    Int × RateLimiter :=
  match l.penalizedIps ip with
  | none => (cfg.maxRequests, l)
  | some penalized =>
      if now < penalized.expiresAt then (penalized.maxRequests, l)
      else (cfg.maxRequests, l.removePenalty ip)

/-- Largest time value of a `Date`. -/
def maxDate : Int := 8640000000000000

/-- The time of `X-RateLimit-Reset`, if it is a valid date. -/
def resetTime (now capacity : Int) (refillRate : Rat) (remaining : Int) : Option Int :=
  (ceilDiv? (capacity - remaining) refillRate).bind (fun wait =>
    if |now + wait| ≤ maxDate then some (now + wait) else none)

/-- The response to an evaluation. -/
def reply (now capacity : Int) (refillRate : Rat) (result : Evaluation) : LimiterReply :=
  match resetTime now capacity refillRate result.remaining, result.retryAfterMs with
  | some reset, some retryAfterMs =>
      if result.allowed then .next ⟨capacity, result.remaining, reset⟩
      else
        .tooManyRequests ⟨capacity, result.remaining, reset⟩
          (max 1 ⌈(retryAfterMs : Rat) / 1000⌉)
          "Too Many Requests — Rate limit bucket exhausted. Please try again later."
  | _, _ => .invalidTime

/-- `middleware` while Redis is not in use.  The clock is read once for the
penalty and once for the bucket. -/
def middleware (cfg : RateLimitConfig) (checkedAt now : Int) (req : ClientRequest)
    (l : RateLimiter) : (LimiterReply × Int × Evaluation) × RateLimiter :=
  let clientIp := getClientIp req
  let (capacity, l) := l.currentCapacity cfg checkedAt clientIp
  let (result, l) := l.evalTokenBucketMemory clientIp capacity (cfg.refillRate capacity) now 1
  ((reply now capacity (cfg.refillRate capacity) result, capacity, result), l)

/-- What can happen to the rate limiter. -/
inductive Op where
  | request (req : ClientRequest) (checkedAt : Int)
  | applyPenalty (ip : String) (maxRequests durationMs : Int) (reason : String)
  | removePenalty (ip : String)
  | cleanup

/-- Something happens at a time. -/
structure Event where
  now : Int
  op : Op

/-- One event. -/
def step (cfg : RateLimitConfig) (l : RateLimiter) (e : Event) : RateLimiter :=
  match e.op with
  | .request req checkedAt => (l.middleware cfg checkedAt e.now req).2
  | .applyPenalty ip maxRequests durationMs reason =>
      l.applyPenalty e.now ip maxRequests durationMs reason
  | .removePenalty ip => l.removePenalty ip
  | .cleanup => l.cleanupMemoryStore e.now

/-- A request with the capacity that it was evaluated with and the verdict. -/
structure Decision where
  ip : String
  now : Int
  capacity : Int
  allowed : Bool
deriving DecidableEq, Repr

/-- The decision of an event on a state, if it is a request. -/
def decision (cfg : RateLimitConfig) (l : RateLimiter) (e : Event) : Option Decision :=
  match e.op with
  | .request req checkedAt =>
      let ((_, capacity, result), _) := l.middleware cfg checkedAt e.now req
      some ⟨getClientIp req, e.now, capacity, result.allowed⟩
  | _ => none

section Buckets

variable {ip : String} {capacity refillRate cost : Rat} {now : Int} {l : RateLimiter}

/-- The bucket of a client as a token bucket of the library. -/
def bucket (ip : String) (l : RateLimiter) : Option (TokenBucket.Bucket Rat) :=
  (l.memoryBuckets ip).map (fun b => ⟨b.tokens, b.lastRefill⟩)

theorem refilled_eq_level :
    l.refilled ip capacity refillRate now =
      TokenBucket.level capacity refillRate now (l.bucket ip) := by
  simp only [refilled, bucket]
  cases l.memoryBuckets ip with
  | none => rfl
  | some b => simp [TokenBucket.level, Int.cast_max]

theorem allowed_eval :
    (l.evalTokenBucketMemory ip capacity refillRate now cost).1.allowed = true ↔
      cost ≤ TokenBucket.level capacity refillRate now (l.bucket ip) := by
  rw [← refilled_eq_level]
  unfold evalTokenBucketMemory
  dsimp only
  split_ifs with h <;> simp [h]

/-- An evaluation uses the client's bucket as the library does. -/
theorem bucket_eval :
    (l.evalTokenBucketMemory ip capacity refillRate now cost).2.bucket ip =
      some (TokenBucket.take capacity refillRate cost now (l.bucket ip)) := by
  unfold evalTokenBucketMemory TokenBucket.take
  rw [← refilled_eq_level]
  dsimp only
  split_ifs <;> simp [bucket]

/-- An evaluation leaves the other buckets alone. -/
theorem memoryBuckets_eval_ne {ip' : String} (hne : ip' ≠ ip) :
    (l.evalTokenBucketMemory ip capacity refillRate now cost).2.memoryBuckets ip' =
      l.memoryBuckets ip' := by
  simp only [evalTokenBucketMemory]
  split_ifs <;> simp [hne]

theorem bucket_eval_ne {ip' : String} (hne : ip' ≠ ip) :
    (l.evalTokenBucketMemory ip capacity refillRate now cost).2.bucket ip' = l.bucket ip' := by
  rw [bucket, bucket, memoryBuckets_eval_ne hne]

theorem penalizedIps_eval (ip : String) (capacity refillRate : Rat) (now : Int) (cost : Rat) :
    (l.evalTokenBucketMemory ip capacity refillRate now cost).2.penalizedIps = l.penalizedIps := by
  simp only [evalTokenBucketMemory]
  split_ifs <;> rfl

@[simp] theorem bucket_currentCapacity (cfg : RateLimitConfig) (ip' : String) :
    (l.currentCapacity cfg now ip).2.bucket ip' = l.bucket ip' := by
  simp only [currentCapacity]
  split
  · rfl
  · split_ifs <;> rfl

/-- The cleanup keeps a bucket or drops one that is stale. -/
theorem bucket_cleanup (now : Int) (ip : String) :
    (l.cleanupMemoryStore now).bucket ip = l.bucket ip ∨
      ∃ b, l.bucket ip = some b ∧ ((staleAfter + 1 : Int) : Rat) ≤ now - b.last ∧
        (l.cleanupMemoryStore now).bucket ip = none := by
  unfold bucket cleanupMemoryStore
  dsimp only
  cases l.memoryBuckets ip with
  | none => exact Or.inl rfl
  | some b =>
      by_cases hstale : staleAfter + 1 ≤ now - b.lastRefill
      · refine Or.inr ⟨_, rfl, ?_, ?_⟩
        · dsimp only
          exact_mod_cast hstale
        · rw [Option.filter_some_neg] <;> simp
          omega
      · refine Or.inl ?_
        rw [Option.filter_some_pos]
        simp
        omega

end Buckets

/-- The decisions of a run. -/
def decisions (cfg : RateLimitConfig) : RateLimiter → List Event → List Decision
  | _, [] => []
  | l, e :: es => (l.decision cfg e).toList ++ decisions cfg (l.step cfg e) es

end RateLimiter

end SentinelADC
