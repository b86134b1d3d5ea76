import SentinelADC.RedisTokenBucket
import SentinelADC.Lib.Runs

/-!
# Redis and memory agree on buckets

The same evaluations, once by the script in Redis and once by the buckets in
memory, under one clock that does not go back.  The two agree as long as the
key lives, and an expired key stands for a bucket that is full again: it is
removed `⌈windowMs / 1000⌉ + 60` seconds after its last use, and a bucket of any
capacity fills up within `windowMs`.
-/

namespace SentinelADC

open Runs

/-- An evaluation of a client's bucket with the capacity in force. -/
structure BucketCall where
  ip : String
  capacity : Rat
  now : Int

namespace BucketCall

/-- `refillRate`, in tokens for each millisecond. -/
def refillRate (windowMs : Rat) (call : BucketCall) : Rat :=
  call.capacity / windowMs

/-- The evaluation in Redis. -/
def evalRedis (windowMs : Rat) (s : BucketStore) (call : BucketCall) :
    Option Evaluation × BucketStore :=
  s.evalTokenBucketRedis call.now call.ip call.capacity (call.refillRate windowMs) call.now 1

/-- The evaluation in memory. -/
def evalMemory (windowMs : Rat) (l : RateLimiter) (call : BucketCall) :
    Evaluation × RateLimiter :=
  l.evalTokenBucketMemory call.ip call.capacity (call.refillRate windowMs) call.now 1

end BucketCall

/-- Lifetime of a bucket's key, in seconds. -/
def keyLifetime (windowMs : Rat) : Int :=
  ⌈windowMs / 1000⌉ + 60

/-- A client's bucket in Redis and in memory, at a time. -/
inductive SameBucket (windowMs : Rat) (t : Int) : Option BucketKey → Option MemoryBucket → Prop
  | unused : SameBucket windowMs t none none
  | used {tokens : Rat} {lastRefill : Int} (htokens : 0 ≤ tokens) (hlast : lastRefill ≤ t) :
      SameBucket windowMs t
        (some ⟨⟨some tokens, some lastRefill⟩, some (lastRefill + keyLifetime windowMs * 1000)⟩)
        (some ⟨tokens, lastRefill⟩)

/-- The buckets of all clients are the same. -/
def SameBuckets (windowMs : Rat) (t : Int) (s : BucketStore) (l : RateLimiter) : Prop :=
  ∀ ip, SameBucket windowMs t (s (BucketStore.bucketKey ip)) (l.memoryBuckets ip)

theorem keyLifetime_pos {windowMs : Rat} (hwindow : 0 < windowMs) : 0 < keyLifetime windowMs := by
  have hceil : 0 < ⌈windowMs / 1000⌉ := Int.ceil_pos.mpr (by positivity)
  rw [keyLifetime]
  omega

section Agreement

variable {windowMs : Rat} {t : Int} {s : BucketStore} {l : RateLimiter} {call : BucketCall}

/-- The script's lifetime does not depend on the capacity. -/
theorem ceilDiv_lifetime (hwindow : 0 < windowMs) (hcap : 0 < call.capacity) :
    (RateLimiter.ceilDiv? call.capacity (call.refillRate windowMs * 1000)).map (· + 60) =
      some (keyLifetime windowMs) := by
  have hquot : call.capacity / (call.refillRate windowMs * 1000) = windowMs / 1000 := by
    rw [BucketCall.refillRate]
    field_simp
  have hne : call.refillRate windowMs * 1000 ≠ 0 := by
    rw [BucketCall.refillRate]
    positivity
  rw [RateLimiter.ceilDiv?, if_neg hne, hquot]
  rfl

/-- A bucket whose key has expired is full again. -/
theorem full_of_expired {tokens : Rat} {lastRefill : Int} (hwindow : 0 < windowMs)
    (hcap : 0 < call.capacity) (htokens : 0 ≤ tokens)
    (hexpired : lastRefill + keyLifetime windowMs * 1000 ≤ call.now) :
    min call.capacity
      (tokens + ((max 0 (call.now - lastRefill) : Int) : Rat) * call.refillRate windowMs) =
        call.capacity := by
  have hceil : windowMs / 1000 ≤ ⌈windowMs / 1000⌉ := Int.le_ceil _
  have helapsed : windowMs ≤ ((max 0 (call.now - lastRefill) : Int) : Rat) := by
    have hint : keyLifetime windowMs * 1000 ≤ max 0 (call.now - lastRefill) := by omega
    have hcast : ((keyLifetime windowMs * 1000 : Int) : Rat) ≤
        ((max 0 (call.now - lastRefill) : Int) : Rat) := Int.cast_le.mpr hint
    have hlife : ((keyLifetime windowMs * 1000 : Int) : Rat) =
        (⌈windowMs / 1000⌉ + 60) * 1000 := by
      rw [keyLifetime]
      push_cast
      ring
    linarith
  have hgain : call.capacity ≤
      ((max 0 (call.now - lastRefill) : Int) : Rat) * call.refillRate windowMs := by
    calc call.capacity = windowMs * call.refillRate windowMs := by
          rw [BucketCall.refillRate]
          field_simp
      _ ≤ _ := by
          refine mul_le_mul_of_nonneg_right helapsed ?_
          rw [BucketCall.refillRate]
          positivity
  exact min_eq_left (by linarith)

/-- Both sides start from the same number of tokens. -/
theorem refilled_eq (hwindow : 0 < windowMs) (hcap : 0 < call.capacity)
    (hsame : SameBuckets windowMs t s l) :
    (s.hmget call.now (BucketStore.bucketKey call.ip)).refilled call.capacity
        (call.refillRate windowMs) call.now =
      l.refilled call.ip call.capacity (call.refillRate windowMs) call.now := by
  have hbucket := hsame call.ip
  rw [BucketStore.hmget, BucketStore.live, RateLimiter.refilled]
  generalize s (BucketStore.bucketKey call.ip) = key at hbucket ⊢
  generalize l.memoryBuckets call.ip = bucket at hbucket ⊢
  cases hbucket with
  | unused => rfl
  | @used tokens lastRefill htokens hlast =>
      by_cases hlive : call.now < lastRefill + keyLifetime windowMs * 1000
      · rw [Option.filter_some_pos (by simpa using hlive)]
        rfl
      · rw [Option.filter_some_neg (by simpa using hlive)]
        exact (full_of_expired hwindow hcap htokens (not_lt.mp hlive)).symm

/-- Tokens of a bucket are not negative. -/
theorem refilled_nonneg (hwindow : 0 < windowMs) (hcap : 0 < call.capacity)
    (hsame : SameBuckets windowMs t s l) :
    0 ≤ l.refilled call.ip call.capacity (call.refillRate windowMs) call.now := by
  have hbucket := hsame call.ip
  have hrate : 0 ≤ call.refillRate windowMs := by
    rw [BucketCall.refillRate]
    positivity
  rw [RateLimiter.refilled]
  generalize s (BucketStore.bucketKey call.ip) = key at hbucket
  generalize l.memoryBuckets call.ip = bucket at hbucket ⊢
  cases hbucket with
  | unused => exact hcap.le
  | @used tokens lastRefill htokens hlast =>
      have helapsed : (0 : Rat) ≤ ((max 0 (call.now - lastRefill) : Int) : Rat) :=
        Int.cast_nonneg (le_max_left _ _)
      exact le_min hcap.le (add_nonneg htokens (mul_nonneg helapsed hrate))

/-- The same tokens give the same answer and leave the same bucket. -/
theorem evalRedis_eq (hwindow : 0 < windowMs) (hcap : 0 < call.capacity)
    (hsame : SameBuckets windowMs t s l) :
    (call.evalRedis windowMs s).1 = some (call.evalMemory windowMs l).1 ∧
      SameBucket windowMs call.now
        ((call.evalRedis windowMs s).2 (BucketStore.bucketKey call.ip))
        ((call.evalMemory windowMs l).2.memoryBuckets call.ip) := by
  have htokens := refilled_eq hwindow hcap hsame
  have hnonneg := refilled_nonneg hwindow hcap hsame
  have httl : ((s.hmget call.now (BucketStore.bucketKey call.ip)).tokenBucketLua call.capacity
      (call.refillRate windowMs) call.now 1).ttlSeconds = some (keyLifetime windowMs) := by
    rw [BucketHash.ttlSeconds_tokenBucketLua, ceilDiv_lifetime hwindow hcap]
  obtain ⟨hanswer, hkey⟩ :=
    BucketStore.evalTokenBucketRedis_of_ttl rfl httl (keyLifetime_pos hwindow)
  rw [BucketCall.evalRedis, hanswer, hkey]
  simp only [BucketCall.evalMemory, BucketHash.tokenBucketLua, RateLimiter.evalTokenBucketMemory,
    htokens]
  split_ifs with hpaid
  · refine ⟨by simp, ?_⟩
    dsimp only
    rw [Function.update_self]
    exact .used (by linarith) le_rfl
  · refine ⟨by simp, ?_⟩
    dsimp only
    rw [Function.update_self]
    exact .used hnonneg le_rfl

/-- Time passes without an evaluation. -/
theorem SameBucket.mono {t' : Int} {key : Option BucketKey} {bucket : Option MemoryBucket}
    (h : SameBucket windowMs t key bucket) (ht : t ≤ t') :
    SameBucket windowMs t' key bucket := by
  cases h with
  | unused => exact .unused
  | used htokens hlast => exact .used htokens (hlast.trans ht)

/-- One evaluation, for all clients. -/
theorem SameBuckets.eval (hwindow : 0 < windowMs) (hcap : 0 < call.capacity)
    (ht : t ≤ call.now) (hsame : SameBuckets windowMs t s l) :
    SameBuckets windowMs call.now (call.evalRedis windowMs s).2
      (call.evalMemory windowMs l).2 := by
  intro ip
  by_cases hip : ip = call.ip
  · rw [hip]
    exact (evalRedis_eq hwindow hcap hsame).2
  · have hkey : BucketStore.bucketKey ip ≠ BucketStore.bucketKey call.ip :=
      fun heq => hip (BucketStore.bucketKey_injective heq)
    rw [BucketCall.evalRedis, BucketStore.evalTokenBucketRedis_ne hkey, BucketCall.evalMemory,
      RateLimiter.memoryBuckets_eval_ne hip]
    exact (hsame ip).mono ht

/-- Answers in Redis and in memory are equal at every step, with any capacities
from 1 on. -/
theorem evalRedis_agrees {calls : List BucketCall} (hwindow : 0 < windowMs)
    (hsorted : (calls.map BucketCall.now).Pairwise (· ≤ ·))
    (hcap : ∀ call ∈ calls, 1 ≤ call.capacity) :
    outputs (BucketCall.evalRedis windowMs) (fun _ => none) calls =
      (outputs (BucketCall.evalMemory windowMs) RateLimiter.initial calls).map some := by
  cases calls with
  | nil => rfl
  | cons call calls =>
      have hstart : SameBuckets windowMs call.now (fun _ => none) RateLimiter.initial :=
        fun _ => .unused
      refine outputs_eq_of_clock (Q := fun call => 1 ≤ call.capacity) some BucketCall.now ?_ hstart
        ?_ hsorted hcap
      · intro t s l call hsame ht hcap
        have hpos : 0 < call.capacity := lt_of_lt_of_le one_pos hcap
        exact ⟨(evalRedis_eq hwindow hpos hsame).1, hsame.eval hwindow hpos ht⟩
      · intro call' hcall'
        rw [List.map_cons, List.pairwise_cons] at hsorted
        rcases List.mem_cons.mp hcall' with rfl | hcall'
        · exact le_rfl
        · exact hsorted.1 _ (List.mem_map_of_mem hcall')

/-- A penalty is applied and lifted, and the key expires in between. -/
def penaltyLifted : List BucketCall :=
  [⟨"10.0.0.1", 100, 0⟩, ⟨"10.0.0.1", 2, 10⟩, ⟨"10.0.0.1", 2, 20⟩, ⟨"10.0.0.1", 2, 30⟩,
    ⟨"10.0.0.1", 100, 200000⟩]

theorem evalRedis_agrees_sample :
    outputs (BucketCall.evalRedis 60000) (fun _ => none) penaltyLifted =
      (outputs (BucketCall.evalMemory 60000) RateLimiter.initial penaltyLifted).map some :=
  evalRedis_agrees (by norm_num) (by decide) (by decide)

end Agreement

end SentinelADC
