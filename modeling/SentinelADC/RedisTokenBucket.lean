import SentinelADC.RateLimiter

/-!
# Token buckets in Redis

The script of `security/rateLimiter.js` that Redis runs for a shared bucket,
and the keys that it leaves there.  The server has a clock of its own, which
only decides when keys expire; the script works with the time that the gateway
passes in.

Under one clock that does not go back, the script and the buckets in memory
give the same answers.  A bucket that expires on the server has had more than
a window to fill up, whatever its capacity was, so a new bucket with the
capacity of the moment makes no difference.
-/

namespace SentinelADC

/-- What `HMGET` reads of a bucket. -/
structure BucketHash where
  tokens : Option Rat
  lastRefill : Option Int
deriving DecidableEq, Repr

/-- A key of a bucket in Redis. -/
structure BucketKey where
  hash : BucketHash
  /-- Time of the server at which the key is removed, if it expires. -/
  expiresAt : Option Int
deriving DecidableEq, Repr

/-- The buckets in Redis, by key. -/
abbrev BucketStore := String → Option BucketKey

/-- The writes and the reply of one run of the script. -/
structure ScriptRun where
  hash : BucketHash
  /-- Absent when the quotient is not a number that `EXPIRE` takes. -/
  ttlSeconds : Option Int
  allowed : Int
  remaining : Int
  retryAfterMs : Option Int
deriving DecidableEq, Repr

namespace BucketHash

/-- A key that does not exist. -/
def missing : BucketHash where
  tokens := none
  lastRefill := none

/-- Tokens that the script works with. -/
def refilled (capacity refillRate : Rat) (now : Int) (data : BucketHash) : Rat :=
  match data.tokens, data.lastRefill with
  | some tokens, some lastRefill =>
      let elapsed := max 0 (now - lastRefill)
      min capacity (tokens + elapsed * refillRate)
  | _, _ => capacity

/-- `TOKEN_BUCKET_LUA`. -/
def tokenBucketLua (capacity refillRate : Rat) (now : Int) (cost : Rat) (data : BucketHash) :
    ScriptRun :=
  let tokens := data.refilled capacity refillRate now
  let ttlSeconds := (RateLimiter.ceilDiv? capacity (refillRate * 1000)).map (· + 60)
  if cost ≤ tokens then
    { hash := ⟨some (tokens - cost), some now⟩
      ttlSeconds := ttlSeconds
      allowed := 1
      remaining := ⌊tokens - cost⌋
      retryAfterMs := some 0 }
  else
    { hash := ⟨some tokens, some now⟩
      ttlSeconds := ttlSeconds
      allowed := 0
      remaining := ⌊tokens⌋
      retryAfterMs := RateLimiter.ceilDiv? (cost - tokens) refillRate }

/-- The bucket of the library that a hash holds. -/
def bucket (data : BucketHash) : Option (TokenBucket.Bucket Rat) :=
  match data.tokens, data.lastRefill with
  | some tokens, some lastRefill => some ⟨tokens, lastRefill⟩
  | _, _ => none

variable {capacity refillRate cost : Rat} {now : Int} {data : BucketHash}

theorem refilled_eq_level :
    data.refilled capacity refillRate now =
      TokenBucket.level capacity refillRate now data.bucket := by
  obtain ⟨tokens, lastRefill⟩ := data
  cases tokens with
  | none => rfl
  | some tokens =>
      cases lastRefill with
      | none => rfl
      | some lastRefill => simp [refilled, bucket, TokenBucket.level, Int.cast_max]

theorem allowed_tokenBucketLua :
    (data.tokenBucketLua capacity refillRate now cost).allowed = 1 ↔
      cost ≤ TokenBucket.level capacity refillRate now data.bucket := by
  rw [← refilled_eq_level]
  simp only [tokenBucketLua]
  split_ifs with h <;> simp [h]

theorem ttlSeconds_tokenBucketLua :
    (data.tokenBucketLua capacity refillRate now cost).ttlSeconds =
      (RateLimiter.ceilDiv? capacity (refillRate * 1000)).map (· + 60) := by
  simp only [tokenBucketLua]
  split_ifs <;> rfl

/-- The script uses the bucket as the library does. -/
theorem bucket_tokenBucketLua :
    (data.tokenBucketLua capacity refillRate now cost).hash.bucket =
      some (TokenBucket.take capacity refillRate cost now data.bucket) := by
  simp only [tokenBucketLua, TokenBucket.take, ← refilled_eq_level]
  split_ifs <;> rfl

end BucketHash

namespace BucketStore

/-- A key that has not expired.  It counts as gone from the moment of its deadline
on, which is the assumption under which both stores are shown to agree. -/
def live (serverNow : Int) (key : String) (s : BucketStore) : Option BucketKey :=
  (s key).filter (fun k => k.expiresAt.all (fun t => serverNow < t))

/-- `HMGET key tokens lastRefill`. -/
def hmget (serverNow : Int) (key : String) (s : BucketStore) : BucketHash :=
  ((s.live serverNow key).map BucketKey.hash).getD BucketHash.missing

/-- `HMSET key …`, which keeps the expiry time of a live key. -/
def hmset (serverNow : Int) (key : String) (hash : BucketHash) (s : BucketStore) : BucketStore :=
  Function.update s key (some ⟨hash, (s.live serverNow key).bind BucketKey.expiresAt⟩)

/-- `EXPIRE key ttlSeconds`; a key with no time left is deleted. -/
def expire (serverNow : Int) (key : String) (ttlSeconds : Int) (s : BucketStore) : BucketStore :=
  Function.update s key
    (if ttlSeconds ≤ 0 then none
      else (s key).map (fun k => { k with expiresAt := some (serverNow + ttlSeconds * 1000) }))

/-- The key of a client's bucket. -/
def bucketKey (ip : String) : String :=
  "sentinel:tokenbucket:" ++ ip

/-- `evalTokenBucketRedis`; there is no result when the script fails on its
`EXPIRE`, after its `HMSET`. -/
def evalTokenBucketRedis (serverNow : Int) (ip : String) (capacity refillRate : Rat) (now : Int)
    (cost : Rat) (s : BucketStore) : Option Evaluation × BucketStore :=
  let key := bucketKey ip
  let res := (s.hmget serverNow key).tokenBucketLua capacity refillRate now cost
  let s := s.hmset serverNow key res.hash
  match res.ttlSeconds with
  | none => (none, s)
  | some ttlSeconds =>
      (some
        { allowed := res.allowed ≠ 0
          remaining := res.remaining
          retryAfterMs := res.retryAfterMs },
        s.expire serverNow key ttlSeconds)

theorem hmset_of_ne {serverNow : Int} {key key' : String} {hash : BucketHash} {s : BucketStore}
    (hne : key' ≠ key) :
    s.hmset serverNow key hash key' = s key' :=
  Function.update_of_ne hne _ _

theorem expire_of_ne {serverNow ttlSeconds : Int} {key key' : String} {s : BucketStore}
    (hne : key' ≠ key) :
    s.expire serverNow key ttlSeconds key' = s key' :=
  Function.update_of_ne hne _ _

theorem expire_hmset {serverNow ttlSeconds : Int} {key : String} {hash : BucketHash}
    {s : BucketStore} (httl : 0 < ttlSeconds) :
    (s.hmset serverNow key hash).expire serverNow key ttlSeconds key =
      some ⟨hash, some (serverNow + ttlSeconds * 1000)⟩ := by
  simp [expire, hmset, not_le.mpr httl]

/-- An evaluation whose `EXPIRE` is given a lifetime. -/
theorem evalTokenBucketRedis_of_ttl {serverNow now ttlSeconds : Int} {ip : String}
    {capacity refillRate cost : Rat} {s : BucketStore} {res : ScriptRun}
    (hres : (s.hmget serverNow (bucketKey ip)).tokenBucketLua capacity refillRate now cost = res)
    (httl : res.ttlSeconds = some ttlSeconds) (hpos : 0 < ttlSeconds) :
    (s.evalTokenBucketRedis serverNow ip capacity refillRate now cost).1 =
        some ⟨res.allowed ≠ 0, res.remaining, res.retryAfterMs⟩ ∧
      (s.evalTokenBucketRedis serverNow ip capacity refillRate now cost).2 (bucketKey ip) =
        some ⟨res.hash, some (serverNow + ttlSeconds * 1000)⟩ := by
  simp only [evalTokenBucketRedis, hres, httl]
  exact ⟨trivial, expire_hmset hpos⟩

theorem bucketKey_injective : Function.Injective bucketKey :=
  fun _ _ h => (String.append_right_inj _).mp h

theorem evalTokenBucketRedis_ne {serverNow now : Int} {ip key : String}
    {capacity refillRate cost : Rat} {s : BucketStore} (hne : key ≠ bucketKey ip) :
    (s.evalTokenBucketRedis serverNow ip capacity refillRate now cost).2 key = s key := by
  simp only [evalTokenBucketRedis]
  split
  · exact hmset_of_ne hne
  · exact (expire_of_ne hne).trans (hmset_of_ne hne)

end BucketStore

/-- How Redis answers to one call of `eval`. -/
inductive RedisCall where
  /-- Redis is not in use. -/
  | inactive
  /-- The script runs at this time of the server. -/
  | runs (serverNow : Int)
  /-- The script runs but its answer is lost. -/
  | lost (serverNow : Int)
  /-- The call fails before the script runs. -/
  | fails
deriving DecidableEq, Repr

/-- The rate limiter together with the buckets that it keeps in Redis. -/
structure SharedLimiter where
  limiter : RateLimiter
  store : BucketStore

namespace SharedLimiter

/-- The evaluation of the middleware, which falls back to memory. -/
def evaluate (redis : RedisCall) (ip : String) (capacity refillRate : Rat) (now : Int)
    (s : SharedLimiter) : Evaluation × SharedLimiter :=
  let inMemory (store : BucketStore) : Evaluation × SharedLimiter :=
    let (result, limiter) := s.limiter.evalTokenBucketMemory ip capacity refillRate now 1
    (result, ⟨limiter, store⟩)
  match redis with
  | .inactive => inMemory s.store
  | .fails => inMemory s.store
  | .lost serverNow =>
      inMemory (s.store.evalTokenBucketRedis serverNow ip capacity refillRate now 1).2
  | .runs serverNow =>
      match s.store.evalTokenBucketRedis serverNow ip capacity refillRate now 1 with
      | (some result, store) => (result, ⟨s.limiter, store⟩)
      | (none, store) => inMemory store

/-- `middleware`, with the capacity that it evaluates the request with. -/
def middleware (cfg : RateLimitConfig) (checkedAt now : Int) (redis : RedisCall)
    (req : ClientRequest) (s : SharedLimiter) :
    (LimiterReply × Int × Evaluation) × SharedLimiter :=
  let clientIp := getClientIp req
  let (capacity, limiter) := s.limiter.currentCapacity cfg checkedAt clientIp
  let (result, s) :=
    (⟨limiter, s.store⟩ : SharedLimiter).evaluate redis clientIp capacity (cfg.refillRate capacity)
      now
  ((RateLimiter.reply now capacity (cfg.refillRate capacity) result, capacity, result), s)

variable {redis : RedisCall} {ip : String} {capacity refillRate : Rat} {now : Int}
  {s : SharedLimiter}

/-- An evaluation leaves the penalties alone. -/
theorem penalizedIps_evaluate :
    (s.evaluate redis ip capacity refillRate now).2.limiter.penalizedIps =
      s.limiter.penalizedIps := by
  have hmemory := RateLimiter.penalizedIps_eval (l := s.limiter) ip capacity refillRate now 1
  cases redis with
  | inactive => exact hmemory
  | fails => exact hmemory
  | lost serverNow => exact hmemory
  | runs serverNow =>
      simp only [evaluate]
      split
      · rfl
      · exact hmemory

/-- The middleware changes penalties only by its check. -/
theorem penalizedIps_middleware (cfg : RateLimitConfig) (checkedAt now : Int) (redis : RedisCall)
    (req : ClientRequest) (s : SharedLimiter) :
    (s.middleware cfg checkedAt now redis req).2.limiter.penalizedIps =
      (s.limiter.currentCapacity cfg checkedAt (getClientIp req)).2.penalizedIps :=
  penalizedIps_evaluate

end SharedLimiter

end SentinelADC
