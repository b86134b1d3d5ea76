import SentinelADC.RedisTokenBucket

/-!
# Buckets under clocks that go back

One bucket is evaluated at readings of several clocks, or of one that is set
back.  An evaluation at an earlier time refills nothing but moves `lastRefill`
back all the same, so the time up to the next reading is refilled twice.  What
counts is therefore how far the readings run forward in total, and the bound
holds for every capacity and rate exactly when that is no more than the
distance from the earliest reading to the latest.
-/

namespace SentinelADC

open TokenBucket

/-- Evaluations by the script that are allowed. -/
def scriptAllowed (capacity refillRate : Rat) : BucketHash → List Int → Nat
  | _, [] => 0
  | data, now :: nows =>
      let res := data.tokenBucketLua capacity refillRate now 1
      (if res.allowed = 1 then 1 else 0) + scriptAllowed capacity refillRate res.hash nows

/-- Evaluations of a client's bucket in memory that are allowed. -/
def memoryAllowed (ip : String) (capacity refillRate : Rat) : RateLimiter → List Int → Nat
  | _, [] => 0
  | l, now :: nows =>
      let (result, l) := l.evalTokenBucketMemory ip capacity refillRate now 1
      (if result.allowed = true then 1 else 0) + memoryAllowed ip capacity refillRate l nows

/-- From the earliest reading to the latest. -/
def clockSpan (nows : List Int) : Int :=
  nows.max?.getD 0 - nows.min?.getD 0

/-- Total of the forward steps from each reading to the next. -/
def clockForward : List Int → Int
  | [] => 0
  | now :: nows => forward now nows

/-- The bound for the script, whatever the capacity, the rate and the bucket at
the start. -/
def ScriptBound (nows : List Int) : Prop :=
  ∀ (capacity refillRate : Rat) (data : BucketHash), 0 ≤ capacity → 0 < refillRate →
    (scriptAllowed capacity refillRate data nows : Rat) ≤
      capacity + refillRate * clockSpan nows

/-- The bound for a client's bucket in memory. -/
def MemoryBound (ip : String) (nows : List Int) : Prop :=
  ∀ (capacity refillRate : Rat) (l : RateLimiter), 0 ≤ capacity → 0 < refillRate →
    (memoryAllowed ip capacity refillRate l nows : Rat) ≤
      capacity + refillRate * clockSpan nows

section Skew

variable {capacity refillRate : Rat} {nows : List Int}

theorem scriptAllowed_eq_granted (data : BucketHash) (nows : List Int) :
    scriptAllowed capacity refillRate data nows =
      granted capacity refillRate 1 data.bucket (nows.map (Int.cast : Int → Rat)) := by
  induction nows generalizing data with
  | nil => rfl
  | cons now nows ih =>
      simp only [scriptAllowed, List.map_cons, granted, ih, BucketHash.allowed_tokenBucketLua,
        BucketHash.bucket_tokenBucketLua]

theorem memoryAllowed_eq_granted (ip : String) (l : RateLimiter) (nows : List Int) :
    memoryAllowed ip capacity refillRate l nows =
      granted capacity refillRate 1 (l.bucket ip) (nows.map (Int.cast : Int → Rat)) := by
  induction nows generalizing l with
  | nil => rfl
  | cons now nows ih =>
      simp only [memoryAllowed, List.map_cons, granted, ih, RateLimiter.allowed_eval,
        RateLimiter.bucket_eval]

theorem cast_forward (now : Int) (nows : List Int) :
    ((forward now nows : Int) : Rat) = forward (now : Rat) (nows.map (Int.cast : Int → Rat)) := by
  induction nows generalizing now with
  | nil => rfl
  | cons next nows ih => simp [forward, ih, Int.cast_max]

/-- The span of readings lies between bounds that they reach. -/
theorem clockSpan_cons (now : Int) (nows : List Int) :
    ∃ earliest latest, clockSpan (now :: nows) = latest - earliest ∧
      ∀ t ∈ now :: nows, earliest ≤ t ∧ t ≤ latest := by
  obtain ⟨latest, hlatest⟩ : ∃ m, (now :: nows).max? = some m := by simp [List.max?]
  obtain ⟨earliest, hearliest⟩ : ∃ m, (now :: nows).min? = some m := by simp [List.min?]
  refine ⟨earliest, latest, by rw [clockSpan, hlatest, hearliest]; rfl, fun t ht => ⟨?_, ?_⟩⟩
  · exact (List.min?_eq_some_iff.mp hearliest).2 t ht
  · exact (List.max?_eq_some_iff.mp hlatest).2 t ht

theorem clockSpan_nonneg (nows : List Int) :
    0 ≤ clockSpan nows := by
  cases nows with
  | nil => exact le_rfl
  | cons now nows =>
      obtain ⟨earliest, latest, hspan, hbetween⟩ := clockSpan_cons now nows
      obtain ⟨hge, hle⟩ := hbetween now List.mem_cons_self
      omega

/-- A bucket lets through no more than the clock's forward steps refill. -/
theorem granted_le_clockForward (b : Option (Bucket Rat)) (hcap : 0 ≤ capacity)
    (hrate : 0 ≤ refillRate) (nows : List Int) :
    (granted capacity refillRate 1 b (nows.map (Int.cast : Int → Rat)) : Rat) ≤
      capacity + refillRate * clockForward nows := by
  cases nows with
  | nil => simpa [granted, clockForward] using hcap
  | cons now nows =>
      have hle := granted_le (now : Rat) (nows.map (Int.cast : Int → Rat)) b hcap hrate zero_le_one
      rw [← cast_forward, one_mul] at hle
      rw [List.map_cons, clockForward, mul_comm refillRate]
      exact hle

/-- Some capacity and rate let through all that the clock's forward steps
refill. -/
theorem granted_eq_clockForward (nows : List Int) (hpos : 0 < clockForward nows) :
    ∃ capacity refillRate : Rat, 0 ≤ capacity ∧ 0 < refillRate ∧
      (granted capacity refillRate 1 none (nows.map (Int.cast : Int → Rat)) : Rat) =
        capacity + refillRate * clockForward nows := by
  cases nows with
  | nil => simp [clockForward] at hpos
  | cons now nows =>
      rw [clockForward] at hpos ⊢
      have hposr : (0 : Rat) < ((forward now nows : Int) : Rat) := by exact_mod_cast hpos
      have hne : nows.map (Int.cast : Int → Rat) ≠ [] := by
        rintro hnil
        obtain rfl := List.map_eq_nil_iff.mp hnil
        simp [forward] at hpos
      have hgain : forward (now : Rat) (nows.map (Int.cast : Int → Rat)) *
          (1 / ((forward now nows : Int) : Rat)) = 1 := by
        rw [← cast_forward, mul_one_div_cancel hposr.ne']
      have hall := granted_of_full (by positivity) hgain hne
      refine ⟨((nows.map (Int.cast : Int → Rat)).length : Rat), _, Nat.cast_nonneg _,
        one_div_pos.mpr hposr, ?_⟩
      rw [List.map_cons, hall, one_div_mul_cancel hposr.ne']
      push_cast
      rfl

/-- The bound of one implementation, given that it counts as the library does
and that its bucket may be unused. -/
theorem bound_iff {S : Type*} {allowed : Rat → Rat → S → Nat} {bucket : S → Option (Bucket Rat)}
    (hallowed : ∀ capacity refillRate s, allowed capacity refillRate s =
      granted capacity refillRate 1 (bucket s) (nows.map (Int.cast : Int → Rat)))
    (hunused : ∃ s, bucket s = none) :
    (∀ (capacity refillRate : Rat) (s : S), 0 ≤ capacity → 0 < refillRate →
      (allowed capacity refillRate s : Rat) ≤ capacity + refillRate * clockSpan nows) ↔
        clockForward nows ≤ clockSpan nows := by
  constructor
  · intro hbound
    by_contra hover
    have hspan := clockSpan_nonneg nows
    obtain ⟨capacity, refillRate, hcap, hrate, hall⟩ :=
      granted_eq_clockForward nows (by omega)
    obtain ⟨s, hs⟩ := hunused
    have hle := hbound capacity refillRate s hcap hrate
    rw [hallowed, hs, hall] at hle
    have hlt : (clockSpan nows : Rat) < clockForward nows := by exact_mod_cast not_le.mp hover
    have hmul := mul_lt_mul_of_pos_left hlt hrate
    linarith
  · intro hle capacity refillRate s hcap hrate
    have hbound := granted_le_clockForward (bucket s) hcap hrate.le nows
    have hcast : (clockForward nows : Rat) ≤ clockSpan nows := by exact_mod_cast hle
    have hmul := mul_le_mul_of_nonneg_left hcast hrate.le
    rw [hallowed]
    linarith

/-- The bound holds exactly for the clock readings whose forward steps add up
to no more than their span. -/
theorem clockBounds_iff (ip : String) (nows : List Int) :
    (ScriptBound nows ↔ clockForward nows ≤ clockSpan nows) ∧
      (MemoryBound ip nows ↔ clockForward nows ≤ clockSpan nows) := by
  constructor
  · exact bound_iff (fun _ _ data => scriptAllowed_eq_granted data nows)
      ⟨BucketHash.missing, rfl⟩
  · exact bound_iff (fun _ _ l => memoryAllowed_eq_granted ip l nows) ⟨RateLimiter.initial, rfl⟩

theorem forward_le_sub {now latest : Int} (hsorted : (now :: nows).Pairwise (· ≤ ·))
    (hlatest : ∀ t ∈ now :: nows, t ≤ latest) :
    forward now nows ≤ latest - now := by
  induction nows generalizing now with
  | nil =>
      have := hlatest now List.mem_cons_self
      simpa [forward]
  | cons next nows ih =>
      rw [List.pairwise_cons] at hsorted
      have hrest := ih hsorted.2 (fun t ht => hlatest t (List.mem_cons_of_mem _ ht))
      have hnext := hsorted.1 next List.mem_cons_self
      rw [forward, max_eq_right (by omega)]
      omega

/-- Readings that never go back meet the condition. -/
theorem clockForward_of_sorted (hsorted : nows.Pairwise (· ≤ ·)) :
    clockForward nows ≤ clockSpan nows := by
  cases nows with
  | nil => exact le_rfl
  | cons now nows =>
      obtain ⟨earliest, latest, hspan, hbetween⟩ := clockSpan_cons now nows
      have hforward := forward_le_sub hsorted (fun t ht => (hbetween t ht).2)
      have hge := (hbetween now List.mem_cons_self).1
      rw [hspan, clockForward]
      omega

/-- Two gateways a second apart take turns. -/
def alternating : List Int :=
  [0, 1000, 0, 1000]

/-- One token a second, and three requests in one second. -/
theorem clockBounds_exceeded :
    ¬ ∀ (ip : String) (nows : List Int), ScriptBound nows ∧ MemoryBound ip nows := by
  intro hclaim
  have hle := (hclaim "10.0.0.1" alternating).1 1 (1 / 1000) BucketHash.missing
    (by norm_num) (by norm_num)
  revert hle
  decide +kernel

end Skew

end SentinelADC
