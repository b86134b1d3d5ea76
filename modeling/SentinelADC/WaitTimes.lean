import SentinelADC.RateLimiter
import SentinelADC.Lib.Binary64
import SentinelADC.Lib.Runs

/-!
# Advertised wait times

What `retryAfterMs` and the reset time of an evaluation promise.  A refused
attempt refills the bucket and takes nothing, so the promise rests on the
refills of any number of refused attempts adding up to one.  In doubles they do
not have to, so the evaluation is read here with the result of each operation
rounded.
-/

namespace SentinelADC

/-- Tokens of a bucket at a time without a limit, in exact arithmetic. -/
def MemoryBucket.held (refillRate : Rat) (now : Int) (bucket : MemoryBucket) : Rat :=
  bucket.tokens + (max 0 (now - bucket.lastRefill) : Int) * refillRate

/-- No operation of a refused evaluation is rounded: the gain, the sum and the
missing tokens are doubles. -/
def MemoryBucket.Unrounded (refillRate : Rat) (now : Int) (bucket : MemoryBucket) : Prop :=
  Double.IsDouble ((max 0 (now - bucket.lastRefill) : Int) * refillRate) ∧
    Double.IsDouble (bucket.held refillRate now) ∧
    Double.IsDouble (1 - bucket.held refillRate now)

namespace RateLimiter

open Runs

/-- `refilled`, the results of its operations rounded. -/
def refilledRounded (fl : Rat → Rat) (ip : String) (capacity refillRate : Rat) (now : Int)
    (l : RateLimiter) : Rat :=
  match l.memoryBuckets ip with
  | none => capacity
  | some bucket =>
      let elapsed := max 0 (now - bucket.lastRefill)
      min capacity (fl (bucket.tokens + fl (elapsed * refillRate)))

/-- `ceilDiv?`, the quotient rounded. -/
def ceilDivRounded? (fl : Rat → Rat) (x y : Rat) : Option Int :=
  if y = 0 then none else some ⌈fl (x / y)⌉

/-- `evalTokenBucketMemory`, the results of its operations rounded. -/
def evalRounded (fl : Rat → Rat) (ip : String) (capacity refillRate : Rat) (now : Int) (cost : Rat)
    (l : RateLimiter) : Evaluation × RateLimiter :=
  let tokens := l.refilledRounded fl ip capacity refillRate now
  let write (tokens : Rat) : RateLimiter :=
    { l with memoryBuckets := Function.update l.memoryBuckets ip (some ⟨tokens, now⟩) }
  if cost ≤ tokens then
    ({ allowed := true, remaining := ⌊fl (tokens - cost)⌋, retryAfterMs := some 0 },
      write (fl (tokens - cost)))
  else
    ({ allowed := false
       remaining := ⌊tokens⌋
       retryAfterMs := ceilDivRounded? fl (fl (cost - tokens)) refillRate },
      write tokens)

/-- The wait until `X-RateLimit-Reset`, the results of its operations rounded. -/
def resetWait? (fl : Rat → Rat) (capacity refillRate : Rat) (remaining : Int) : Option Int :=
  ceilDivRounded? fl (fl (capacity - remaining)) refillRate

/-- Without rounding this is the evaluation of the rate limiter. -/
theorem evalRounded_id :
    evalRounded id = evalTokenBucketMemory := by
  rfl

/-- An attempt of a client at a time, in doubles. -/
def attempt (capacity refillRate : Rat) (l : RateLimiter) (a : String × Int) : RateLimiter :=
  (l.evalRounded Double.nearest a.1 capacity refillRate a.2 1).2

/-- The verdict on an attempt. -/
def admits (capacity refillRate : Rat) (l : RateLimiter) (a : String × Int) : Bool :=
  (l.evalRounded Double.nearest a.1 capacity refillRate a.2 1).1.allowed

/-- Every attempt of a client before `due` is refused, and the first one from
then on is admitted. -/
def AdmittedFrom (capacity refillRate : Rat) (ip : String) (due : Int) (l : RateLimiter)
    (attempts : List (String × Int)) : Prop :=
  ∀ before t after, attempts = before ++ (ip, t) :: after →
    (t < due →
      (run (attempt capacity refillRate) l before).admits capacity refillRate (ip, t) = false) ∧
    (due ≤ t → (∀ a ∈ before, a.1 = ip → a.2 < due) →
      (run (attempt capacity refillRate) l before).admits capacity refillRate (ip, t) = true)

/-- An attempt of the client that comes before there is a token is evaluated
without rounding. -/
def UnroundedAttempt (refillRate : Rat) (ip : String) (l : RateLimiter) (a : String × Int) : Prop :=
  a.1 = ip → ∀ bucket ∈ l.memoryBuckets ip, bucket.held refillRate a.2 < 1 →
    bucket.Unrounded refillRate a.2

/-- A refusal of the client is evaluated without rounding, and no rounded
quotient has a ceiling of its own. -/
def UnroundedRefusal (capacity refillRate : Rat) (ip : String) (now : Int) (l : RateLimiter) :
    Prop :=
  ∀ bucket ∈ l.memoryBuckets ip,
    bucket.Unrounded refillRate now ∧
    Double.CeilsExactly (1 - bucket.held refillRate now) refillRate ∧
    Double.IsDouble (capacity - ⌊bucket.held refillRate now⌋) ∧
    Double.CeilsExactly (capacity - ⌊bucket.held refillRate now⌋) refillRate

section Decidable

variable (capacity refillRate : Rat) (ip : String) (now : Int) (l : RateLimiter)

instance decidableUnrounded (bucket : MemoryBucket) :
    Decidable (bucket.Unrounded refillRate now) :=
  inferInstanceAs (Decidable (_ ∧ _ ∧ _))

instance decidableUnroundedAttempt (a : String × Int) :
    Decidable (l.UnroundedAttempt refillRate ip a) :=
  inferInstanceAs (Decidable (_ → ∀ _ ∈ l.memoryBuckets ip, _ → _))

instance decidableUnroundedRefusal :
    Decidable (l.UnroundedRefusal capacity refillRate ip now) :=
  inferInstanceAs (Decidable (∀ _ ∈ l.memoryBuckets ip, _ ∧ _ ∧ _ ∧ _))

end Decidable

section Waits

variable {capacity refillRate tokens : Rat} {l : RateLimiter} {ip : String} {now s t : Int}
  {bucket : MemoryBucket}

theorem held_of_le (hst : s ≤ t) :
    MemoryBucket.held refillRate t ⟨tokens + ((s - now : Int) : Rat) * refillRate, s⟩ =
      tokens + ((t - now : Int) : Rat) * refillRate := by
  rw [MemoryBucket.held, max_eq_right (sub_nonneg.mpr hst)]
  push_cast
  ring

/-- A bucket has a token again after the exact wait. -/
theorem one_le_held_iff (hr : 0 < refillRate) :
    1 ≤ tokens + ((t - now : Int) : Rat) * refillRate ↔
      now + ⌈(1 - tokens) / refillRate⌉ ≤ t := by
  have hquotient : 1 ≤ tokens + ((t - now : Int) : Rat) * refillRate ↔
      (1 - tokens) / refillRate ≤ ((t - now : Int) : Rat) := by
    rw [div_le_iff₀ hr]
    constructor <;> intro h <;> linarith
  rw [hquotient, ← Int.ceil_le]
  omega

theorem memoryBuckets_attempt_ne {a : String × Int} (hne : a.1 ≠ ip) :
    (l.attempt capacity refillRate a).memoryBuckets ip = l.memoryBuckets ip := by
  simp only [attempt, evalRounded]
  split_ifs <;> simp [Ne.symm hne]

theorem admits_iff :
    l.admits capacity refillRate (ip, t) = true ↔
      1 ≤ l.refilledRounded Double.nearest ip capacity refillRate t := by
  simp only [admits, evalRounded]
  split_ifs with h <;> simp [h]

/-- Without rounding the refill is the exact one. -/
theorem refilledRounded_of_unrounded (hb : l.memoryBuckets ip = some bucket)
    (hexact : bucket.Unrounded refillRate t) :
    l.refilledRounded Double.nearest ip capacity refillRate t =
      min capacity (bucket.held refillRate t) := by
  obtain ⟨hgain, hsum, -⟩ := hexact
  simp only [refilledRounded, hb]
  rw [hgain]
  exact congrArg (min capacity) hsum

/-- A refused attempt that is not rounded leaves what the bucket held. -/
theorem memoryBuckets_attempt_of_refused (hb : l.memoryBuckets ip = some bucket)
    (hexact : bucket.Unrounded refillRate t) (hC : 1 ≤ capacity)
    (hlow : bucket.held refillRate t < 1) :
    (l.attempt capacity refillRate (ip, t)).memoryBuckets ip =
      some ⟨bucket.held refillRate t, t⟩ := by
  have hrefill : l.refilledRounded Double.nearest ip capacity refillRate t =
      min capacity (bucket.held refillRate t) :=
    refilledRounded_of_unrounded hb hexact
  rw [min_eq_right (hlow.le.trans hC)] at hrefill
  simp [attempt, evalRounded, hrefill, not_le.mpr hlow]

/-- Rounding does not take back the token that a bucket has by then. -/
theorem admits_of_one_le (hb : l.memoryBuckets ip = some bucket) (hC : 1 ≤ capacity)
    (hmissing : Double.IsDouble (1 - bucket.tokens)) (hheld : 1 ≤ bucket.held refillRate t) :
    l.admits capacity refillRate (ip, t) = true := by
  have hgain : 1 - bucket.tokens ≤
      Double.nearest ((max 0 (t - bucket.lastRefill) : Int) * refillRate) := by
    apply hmissing.le_nearest
    rw [MemoryBucket.held] at hheld
    linarith
  rw [admits_iff]
  simp only [refilledRounded, hb]
  refine le_min hC (Double.isDouble_one.le_nearest ?_)
  push_cast at hgain ⊢
  linarith

/-- A client that comes before there is a token only refills its bucket. -/
theorem memoryBuckets_run_of_refused {attempts : List (String × Int)} (hC : 1 ≤ capacity)
    (hb : l.memoryBuckets ip = some ⟨tokens + ((s - now : Int) : Rat) * refillRate, s⟩)
    (hmissing : Double.IsDouble (1 - (tokens + ((s - now : Int) : Rat) * refillRate)))
    (hclock : (s :: attempts.map Prod.snd).Pairwise (· ≤ ·))
    (hexact : EachStep (attempt capacity refillRate) (UnroundedAttempt refillRate ip) l attempts)
    (hearly : ∀ a ∈ attempts, a.1 = ip → tokens + ((a.2 - now : Int) : Rat) * refillRate < 1) :
    ∃ s' ∈ s :: attempts.map Prod.snd,
      (run (attempt capacity refillRate) l attempts).memoryBuckets ip =
          some ⟨tokens + ((s' - now : Int) : Rat) * refillRate, s'⟩ ∧
        Double.IsDouble (1 - (tokens + ((s' - now : Int) : Rat) * refillRate)) := by
  induction attempts generalizing l s with
  | nil => exact ⟨s, by simp, hb, hmissing⟩
  | cons a attempts ih =>
      obtain ⟨ip', t⟩ := a
      rw [List.map_cons, List.pairwise_cons, List.pairwise_cons] at hclock
      obtain ⟨hlater, hrest⟩ := hclock
      have hst : s ≤ t := hlater t (by simp)
      rw [run_cons]
      by_cases hip : ip' = ip
      · subst hip
        have hlow := hearly (ip', t) (by simp) rfl
        have hsteps := hexact.1 rfl _ hb
        rw [held_of_le hst] at hsteps
        obtain ⟨-, -, hmissing'⟩ := hsteps hlow
        have hb' := memoryBuckets_attempt_of_refused hb (hsteps hlow) hC
          (by rwa [held_of_le hst])
        rw [held_of_le hst] at hb' hmissing'
        obtain ⟨s', hs', hrun⟩ := ih hb' hmissing' (List.pairwise_cons.mpr hrest) hexact.2
          (fun a ha => hearly a (by simp [ha]))
        exact ⟨s', List.mem_cons_of_mem _ hs', hrun⟩
      · have hb' : (l.attempt capacity refillRate (ip', t)).memoryBuckets ip =
            l.memoryBuckets ip :=
          memoryBuckets_attempt_ne hip
        obtain ⟨s', hs', hrun⟩ := ih (hb'.trans hb) hmissing
          (List.pairwise_cons.mpr ⟨fun u hu => hlater u (by simp [hu]), hrest.2⟩) hexact.2
          (fun a ha => hearly a (by simp [ha]))
        refine ⟨s', ?_, hrun⟩
        rw [List.map_cons]
        rcases List.mem_cons.mp hs' with rfl | hs'
        · exact List.mem_cons_self
        · exact List.mem_cons_of_mem _ (List.mem_cons_of_mem _ hs')

/-- The attempts after a refusal, when nothing else touches the bucket. -/
theorem admittedFrom_of_refused {attempts : List (String × Int)} (hC : 1 ≤ capacity)
    (hr : 0 < refillRate) (hb : l.memoryBuckets ip = some ⟨tokens, now⟩)
    (hmissing : Double.IsDouble (1 - tokens))
    (hclock : (now :: attempts.map Prod.snd).Pairwise (· ≤ ·))
    (hexact : EachStep (attempt capacity refillRate) (UnroundedAttempt refillRate ip) l attempts) :
    l.AdmittedFrom capacity refillRate ip (now + ⌈(1 - tokens) / refillRate⌉) attempts := by
  rintro before t after rfl
  rw [eachStep_append] at hexact
  obtain ⟨hbefore, hstep, -⟩ := hexact
  rw [List.map_append, List.map_cons, ← List.cons_append, List.pairwise_append] at hclock
  obtain ⟨hclock, -, hlast⟩ := hclock
  -- as long as the client came before the due time, its bucket has only been refilled
  have hbucket : (∀ a ∈ before, a.1 = ip → a.2 < now + ⌈(1 - tokens) / refillRate⌉) →
      ∃ s ≤ t, (run (attempt capacity refillRate) l before).memoryBuckets ip =
          some ⟨tokens + ((s - now : Int) : Rat) * refillRate, s⟩ ∧
        Double.IsDouble (1 - (tokens + ((s - now : Int) : Rat) * refillRate)) := by
    intro hearly
    have hnow : tokens + ((now - now : Int) : Rat) * refillRate = tokens := by
      rw [sub_self, Int.cast_zero, zero_mul, add_zero]
    have hlow : ∀ a ∈ before, a.1 = ip → tokens + ((a.2 - now : Int) : Rat) * refillRate < 1 := by
      intro a ha hip
      rw [← not_le, one_le_held_iff hr, not_le]
      exact hearly a ha hip
    obtain ⟨s, hs, hrun⟩ := memoryBuckets_run_of_refused hC (hnow.symm ▸ hb)
      (hnow.symm ▸ hmissing) hclock hbefore hlow
    exact ⟨s, hlast s hs t (by simp), hrun⟩
  constructor
  · intro hdue
    obtain ⟨s, hst, hb', -⟩ := hbucket (fun a ha _ => by
      have := hlast a.2 (List.mem_cons_of_mem _ (List.mem_map_of_mem ha)) t (by simp)
      omega)
    have hlow : tokens + ((t - now : Int) : Rat) * refillRate < 1 := by
      rwa [← not_le, one_le_held_iff hr, not_le]
    rw [← held_of_le hst] at hlow
    rw [← Bool.not_eq_true, admits_iff,
      refilledRounded_of_unrounded hb' (hstep rfl _ hb' hlow), le_min_iff, not_and]
    exact fun _ => not_le.mpr hlow
  · intro hdue hearly
    obtain ⟨s, hst, hb', hmissing'⟩ := hbucket hearly
    apply admits_of_one_le hb' hC hmissing'
    rwa [held_of_le hst, one_le_held_iff hr]

/-- When the reset time has come, the bucket is full, though its refill is
rounded. -/
theorem refilledRounded_reset (hr : 0 < refillRate) (hcapacity : Double.IsDouble capacity)
    (hb : l.memoryBuckets ip = some ⟨tokens, now⟩) (htokens : tokens ≤ capacity)
    (hroom : Double.IsDouble (capacity - ⌊tokens⌋)) :
    l.refilledRounded Double.nearest ip capacity refillRate
      (now + ⌈(capacity - ⌊tokens⌋) / refillRate⌉) = capacity := by
  have hfloor : (⌊tokens⌋ : Rat) ≤ tokens := Int.floor_le tokens
  have hwait : (0 : Int) ≤ ⌈(capacity - ⌊tokens⌋) / refillRate⌉ :=
    Int.ceil_nonneg (div_nonneg (by linarith) hr.le)
  have hgain : capacity - ⌊tokens⌋ ≤
      Double.nearest (⌈(capacity - ⌊tokens⌋) / refillRate⌉ * refillRate) := by
    apply hroom.le_nearest
    rw [← div_le_iff₀ hr]
    exact Int.le_ceil _
  simp only [refilledRounded, hb, add_sub_cancel_left, max_eq_right hwait]
  exact min_eq_left (hcapacity.le_nearest (by linarith))

/-- The result of a refusal that is not rounded, and the bucket that it leaves. -/
theorem evalRounded_of_refused (hC : 1 ≤ capacity) (hr : 0 < refillRate)
    (hrefused :
      (l.evalRounded Double.nearest ip capacity refillRate now 1).1.allowed = false)
    (hexact : l.UnroundedRefusal capacity refillRate ip now) :
    ∃ tokens < 1, Double.IsDouble (1 - tokens) ∧
      Double.IsDouble (capacity - ⌊tokens⌋) ∧
      Double.CeilsExactly (capacity - ⌊tokens⌋) refillRate ∧
      (l.evalRounded Double.nearest ip capacity refillRate now 1).1 =
        ⟨false, ⌊tokens⌋, some ⌈(1 - tokens) / refillRate⌉⟩ ∧
      (l.attempt capacity refillRate (ip, now)).memoryBuckets ip = some ⟨tokens, now⟩ := by
  have hverdict : ¬ 1 ≤ l.refilledRounded Double.nearest ip capacity refillRate now := by
    rw [← admits_iff, admits, hrefused]
    simp
  cases hb : l.memoryBuckets ip with
  | none => simp [refilledRounded, hb, hC] at hverdict
  | some bucket =>
      obtain ⟨hunrounded, hwait, hroom, hreset⟩ := hexact bucket hb
      have hrefill : l.refilledRounded Double.nearest ip capacity refillRate now =
          min capacity (bucket.held refillRate now) :=
        refilledRounded_of_unrounded hb hunrounded
      have hlow : bucket.held refillRate now < 1 := by
        rw [hrefill, le_min_iff, not_and, not_le] at hverdict
        exact hverdict hC
      rw [min_eq_right (hlow.le.trans hC)] at hrefill
      have hmissing := hunrounded.2.2
      refine ⟨bucket.held refillRate now, hlow, hmissing, hroom, hreset, ?_,
        memoryBuckets_attempt_of_refused hb hunrounded hC hlow⟩
      have hceil : ceilDivRounded? Double.nearest
          (Double.nearest (1 - bucket.held refillRate now)) refillRate =
            some ⌈(1 - bucket.held refillRate now) / refillRate⌉ := by
        rw [ceilDivRounded?, if_neg hr.ne', hmissing, hmissing.ceil_nearest_div hr hwait]
      simp [evalRounded, hrefill, not_le.mpr hlow, hceil]

/-- After a refusal at `now` that is not rounded the advertised wait is exact in
every run whose later refusals are not rounded either: the client is refused
until it is over, and the first attempt from then on is admitted.  At the
advertised reset time the bucket is full, if nobody uses it before. -/
theorem waits_exact_of_unrounded (capacity refillRate : Rat) (l : RateLimiter) (ip : String)
    (now : Int) (hcapacity : Double.IsDouble capacity) (hC : 1 ≤ capacity) (hr : 0 < refillRate)
    (hrefused :
      (l.evalRounded Double.nearest ip capacity refillRate now 1).1.allowed = false)
    (hexact : l.UnroundedRefusal capacity refillRate ip now) :
    (∃ wait,
      (l.evalRounded Double.nearest ip capacity refillRate now 1).1.retryAfterMs = some wait ∧
      ∀ attempts : List (String × Int), (now :: attempts.map Prod.snd).Pairwise (· ≤ ·) →
        EachStep (attempt capacity refillRate) (UnroundedAttempt refillRate ip)
          (l.attempt capacity refillRate (ip, now)) attempts →
        (l.attempt capacity refillRate (ip, now)).AdmittedFrom capacity refillRate ip (now + wait)
          attempts) ∧
    ∃ wait,
      resetWait? Double.nearest capacity refillRate
        (l.evalRounded Double.nearest ip capacity refillRate now 1).1.remaining = some wait ∧
      (l.attempt capacity refillRate (ip, now)).refilledRounded Double.nearest ip capacity
        refillRate (now + wait) = capacity := by
  obtain ⟨tokens, hlow, hmissing, hroom, hreset, heval, hb⟩ :=
    evalRounded_of_refused hC hr hrefused hexact
  rw [heval]
  refine ⟨⟨_, rfl, fun attempts hclock hsteps => ?_⟩,
    ⌈(capacity - ⌊tokens⌋) / refillRate⌉, ?_, ?_⟩
  · exact admittedFrom_of_refused hC hr hb hmissing hclock hsteps
  · rw [resetWait?, ceilDivRounded?, if_neg hr.ne', hroom, hroom.ceil_nearest_div hr hreset]
  · exact refilledRounded_reset hr hcapacity hb (hlow.le.trans hC) hroom

/-- One token for every 512 milliseconds: after two attempts the third has to
wait for as long, whatever is tried meanwhile. -/
theorem waits_exact_of_unrounded_sample :
    ((run (attempt 2 (1 / 512)) initial (List.replicate 2 ("10.0.0.1", 0))).evalRounded
        Double.nearest "10.0.0.1" 2 (1 / 512) 0 1).1.retryAfterMs = some 512 ∧
      (run (attempt 2 (1 / 512)) initial (List.replicate 3 ("10.0.0.1", 0))).AdmittedFrom 2
        (1 / 512) "10.0.0.1" (0 + 512)
        [("10.0.0.1", 250), ("10.0.0.2", 400), ("10.0.0.1", 511), ("10.0.0.1", 512)] := by
  obtain ⟨⟨wait, hwait, hattempts⟩, -⟩ :=
    waits_exact_of_unrounded 2 (1 / 512)
      (run (attempt 2 (1 / 512)) initial (List.replicate 2 ("10.0.0.1", 0))) "10.0.0.1" 0
      (by decide +kernel) (by decide +kernel) (by decide +kernel) (by decide +kernel)
      (by decide +kernel)
  have hadvertised : ((run (attempt 2 (1 / 512)) initial
      (List.replicate 2 ("10.0.0.1", 0))).evalRounded Double.nearest "10.0.0.1" 2 (1 / 512) 0
        1).1.retryAfterMs = some 512 := by
    decide +kernel
  rw [hadvertised] at hwait
  obtain rfl := Option.some_inj.mp hwait
  exact ⟨hadvertised, hattempts _ (by decide) (by decide +kernel)⟩

end Waits

/-- The wait of the default penalty in the default window: the refills at 2 and
at 6000 add up to less than a token. -/
theorem waits_inexact :
    ¬ ∀ (capacity refillRate : Rat) (l : RateLimiter) (ip : String) (now : Int),
      Double.IsDouble capacity → Double.IsDouble refillRate →
      (∀ bucket ∈ l.memoryBuckets ip, Double.IsDouble bucket.tokens) →
      1 ≤ capacity → 0 < refillRate →
      (l.evalRounded Double.nearest ip capacity refillRate now 1).1.allowed = false →
      (∃ wait,
        (l.evalRounded Double.nearest ip capacity refillRate now 1).1.retryAfterMs = some wait ∧
        ∀ attempts : List (String × Int), (now :: attempts.map Prod.snd).Pairwise (· ≤ ·) →
          (l.attempt capacity refillRate (ip, now)).AdmittedFrom capacity refillRate ip (now + wait)
            attempts) ∧
      ∃ wait,
        resetWait? Double.nearest capacity refillRate
          (l.evalRounded Double.nearest ip capacity refillRate now 1).1.remaining = some wait ∧
        (l.attempt capacity refillRate (ip, now)).refilledRounded Double.nearest ip capacity
          refillRate (now + wait) = capacity := by
  intro hexact
  obtain ⟨⟨wait, hwait, hattempts⟩, -⟩ :=
    hexact 10 (Double.nearest (10 / 60000))
      (run (attempt 10 (Double.nearest (10 / 60000))) initial
        (List.replicate 10 ("203.0.113.7", 0))) "203.0.113.7" 2
      (by decide +kernel) (by decide +kernel) (by decide +kernel) (by decide +kernel)
      (by decide +kernel) (by decide +kernel)
  have hadvertised : ((run (attempt 10 (Double.nearest (10 / 60000))) initial
      (List.replicate 10 ("203.0.113.7", 0))).evalRounded Double.nearest "203.0.113.7" 10
        (Double.nearest (10 / 60000)) 2 1).1.retryAfterMs = some 5998 := by
    decide +kernel
  rw [hadvertised] at hwait
  obtain rfl := Option.some_inj.mp hwait
  have hadmitted := (hattempts [("203.0.113.7", 6000)] (by decide) [] 6000 [] rfl).2
    (by decide) (by simp)
  revert hadmitted
  decide +kernel

end RateLimiter
end SentinelADC
