import SentinelADC.BreakerCalls
import SentinelADC.HalfOpenProbes
import Mathlib.Data.List.Dedup

/-!
# Failed attempts and the failure counter

The breaker counts reports, not attempts.  An attempt whose response starts
with a status below 400 has its success reported when the headers arrive, and
when the transfer breaks off later, its failure as well; the first report has
cleared the counter by then.  So what trips the breaker is the number of
failures reported since the last such header.
-/

namespace SentinelADC

open Runs

namespace Cell

/-- The breaker is closed exactly below the failure threshold. -/
def ClosedBelow (cfg : Config) (c : Cell) : Prop :=
  c.breaker.state = .closed ↔ (c.breaker.consecutiveFailures : Int) < cfg.failureThreshold

section Counter

variable {cfg : Config} {now : Int} {c : Cell}

theorem consecutiveFailures_recordSuccess (hen : cfg.enabled = true) :
    (c.recordSuccess cfg now).breaker.consecutiveFailures = 0 := by
  rw [recordSuccess_of_enabled hen]
  simp only [transitionTo]
  split_ifs <;> rfl

theorem consecutiveFailures_recordFailure (hen : cfg.enabled = true) (error : String) :
    (c.recordFailure cfg now error).breaker.consecutiveFailures =
      c.breaker.consecutiveFailures + 1 := by
  cases htrip : c.breaker.trips cfg with
  | true =>
      rw [recordFailure_of_trips htrip]
      simp only [transitionTo]
      split_ifs <;> rfl
  | false => rw [recordFailure_of_not_trips hen htrip, countFailure]

/-- Only the breaker's own reports and resets touch the counter. -/
theorem consecutiveFailures_step {op : CellOp}
    (hsuccess : ∀ now, op ≠ .recordSuccess now)
    (hfailure : ∀ now error, op ≠ .recordFailure now error)
    (hreset : ∀ now, op ≠ .resetBreaker now) :
    (c.step cfg op).breaker.consecutiveFailures = c.breaker.consecutiveFailures := by
  cases op with
  | consult now =>
      rcases consult_cases cfg now c with hc | ⟨-, -, hc⟩ | ⟨-, -, hc⟩ <;> rw [step, hc] <;> rfl
  | recordSuccess now => exact absurd rfl (hsuccess now)
  | recordFailure now error => exact absurd rfl (hfailure now error)
  | resetBreaker now => exact absurd rfl (hreset now)
  | _ => rw [breaker_step rfl]

/-- Failure counter and state stay in step. -/
theorem closedBelow_step (hen : cfg.enabled = true) (hT : 1 ≤ cfg.failureThreshold)
    (op : CellOp) (h : c.ClosedBelow cfg) :
    (c.step cfg op).ClosedBelow cfg := by
  simp only [ClosedBelow] at h ⊢
  cases op with
  | consult now =>
      rcases consult_cases cfg now c with hc | ⟨-, hs, hc⟩ | ⟨-, -, hc⟩ <;> rw [step, hc]
      · exact h
      · simpa [hs, enterHalfOpen] using h
      · exact h
  | recordSuccess now =>
      simp only [step, state_recordSuccess hen, consecutiveFailures_recordSuccess hen,
        true_iff]
      omega
  | recordFailure now error =>
      simp only [step, state_recordFailure, consecutiveFailures_recordFailure hen]
      cases htrip : c.breaker.trips cfg with
      | true =>
          obtain ⟨-, hs | ⟨-, hcount⟩⟩ := trips_eq_true_iff.mp htrip
          · rw [hs] at h
            simp only [if_true, reduceCtorEq, false_iff] at h ⊢
            omega
          · simp only [if_true, reduceCtorEq, false_iff]
            omega
      | false =>
          simp only [Bool.false_eq_true, if_false]
          constructor
          · intro hs
            by_contra hcount
            rw [trips_eq_true_iff.mpr ⟨hen, Or.inr ⟨hs, by omega⟩⟩] at htrip
            simp at htrip
          · intro hcount
            exact h.mpr (by omega)
  | resetBreaker now =>
      rw [step]
      simp only [state_resetBreaker, true_iff]
      simp only [resetBreaker]
      omega
  | _ => rwa [breaker_step rfl]

end Counter

end Cell

namespace Gateway

section Attempts

variable {cfg : Config} {b : String} {g : Gateway} {c : Cell}

theorem Reachable.closedBelow (h : Reachable cfg g) (hen : cfg.enabled = true)
    (hT : 1 ≤ cfg.failureThreshold) (hc : g.cell b = some c) :
    c.ClosedBelow cfg := by
  refine h.cell_invariant (P := fun c : Cell => c.ClosedBelow cfg) ?_
    (fun c op hP => Cell.closedBelow_step hen hT op hP) hc
  intro g hboot id c hc
  obtain ⟨hs, hcount, -⟩ := hboot.cell_eq hc
  simp only [Cell.ClosedBelow, hs, hcount, true_iff]
  omega

/-- Response headers below 400 for an attempt at `b`. -/
def okHeader (b : String) (g : Gateway) (e : Event) : Bool :=
  match e.op with
  | .proxyRes rid status _ => g.awaitsResponse b rid ∧ status < 400
  | _ => false

/-- The attempt at `b` that fails with this event, as request and number. -/
def failedAttempt (b : String) (g : Gateway) (e : Event) : Option (Nat × Nat) :=
  if g.liveFailure b e then
    e.op.rid?.bind (fun rid => (g.exchange rid).map (fun x => (rid, x.attempts)))
  else none

/-- The attempts at `b` that fail in a run. -/
def failedAttempts (cfg : Config) (b : String) : Gateway → List Event → List (Nat × Nat)
  | _, [] => []
  | g, e :: es => (g.failedAttempt b e).toList ++ failedAttempts cfg b (g.step cfg e) es

/-- Failures of `b` reported in a run since the last header below 400, on top
of `n` failures before it. -/
def failuresSinceHeader (cfg : Config) (b : String) : Nat → Gateway → List Event → Nat
  | n, _, [] => n
  | n, g, e :: es =>
      failuresSinceHeader cfg b
        (if g.okHeader b e then 0 else if g.liveFailure b e then n + 1 else n)
        (g.step cfg e) es

/-- Neither a health check result nor a breaker reset for `b`. -/
def liveReportsOnly (b : String) (e : Event) : Bool :=
  match e.op with
  | .healthCheck id _ => id ≠ b
  | .resetBreaker backendId => truthy backendId ≠ some b
  | .resetAllBreakers => false
  | _ => true

/-- The counter of `b` after one event of live traffic. -/
theorem consecutiveFailures_effects {e : Event} (hen : cfg.enabled = true)
    (hlive : liveReportsOnly b e = true) :
    (run (Cell.step cfg) c (effects cfg g e b)).breaker.consecutiveFailures =
      if g.okHeader b e then 0
      else if g.liveFailure b e then c.breaker.consecutiveFailures + 1
      else c.breaker.consecutiveFailures := by
  cases hok : g.okHeader b e with
  | true =>
      obtain ⟨now, op⟩ := e
      cases op with
      | proxyRes rid status latency =>
          simp only [okHeader, decide_eq_true_eq] at hok
          rw [effects_of_awaitsResponse hok.1, if_neg (by omega), if_pos hok.2]
          simp [Cell.step, Cell.consecutiveFailures_recordSuccess hen]
      | _ => simp [okHeader] at hok
  | false =>
      cases hfail : g.liveFailure b e with
      | true =>
          obtain ⟨error, hops⟩ := effects_of_liveFailure cfg hfail
          simp [hops, Cell.step, Cell.consecutiveFailures_recordFailure hen]
      | false =>
          simp only [Bool.false_eq_true, if_false]
          refine run_preserves
            (P := fun c' : Cell =>
              c'.breaker.consecutiveFailures = c.breaker.consecutiveFailures) rfl ?_
          intro op hop c' hc'
          have hcause := causes_of_mem_effects hop
          rw [Cell.consecutiveFailures_step, hc']
          · rintro now rfl
            obtain ⟨-, ⟨elapsed, hop⟩ | ⟨rid, status, latency, hop, hawait, h400⟩⟩ := hcause
            · simp [liveReportsOnly, hop] at hlive
            · simp [okHeader, hop, hawait, h400] at hok
          · rintro now error rfl
            obtain ⟨-, ⟨status, elapsed, hop⟩ | ⟨isTimeout, message, elapsed, hop⟩ |
              ⟨rid, status, latency, hop, hawait, h500⟩ |
              ⟨rid, err, latency, random, hop, hawait⟩⟩ := hcause
            · simp [liveReportsOnly, hop] at hlive
            · simp [liveReportsOnly, hop] at hlive
            · simp [liveFailure, hop, hawait, h500] at hfail
            · simp [liveFailure, hop, hawait] at hfail
          · rintro now rfl
            obtain ⟨-, hop | ⟨backendId, hop, hid⟩⟩ := hcause
            · simp [liveReportsOnly, hop] at hlive
            · simp [liveReportsOnly, hop, hid] at hlive

/-- The counter of `b` after a run of live traffic. -/
theorem consecutiveFailures_run {es : List Event} (hen : cfg.enabled = true)
    (hg : g.Complete) (hc : g.cell b = some c) (hes : ∀ e ∈ es, liveReportsOnly b e = true) :
    ∃ c', (run (step cfg) g es).cell b = some c' ∧
      c'.breaker.consecutiveFailures =
        failuresSinceHeader cfg b c.breaker.consecutiveFailures g es := by
  induction es generalizing g c with
  | nil => exact ⟨c, hc, rfl⟩
  | cons e es ih =>
      obtain ⟨c', hc', hcount⟩ := ih (complete_step e hg) (cell_step _ e hg hc)
        (fun e' he' => hes e' (by simp [he']))
      refine ⟨c', hc', ?_⟩
      rw [hcount, consecutiveFailures_effects hen (hes e (by simp))]
      rfl

/-- What the run adds to the failures counted before it. -/
theorem failuresSinceHeader_mono {m n : Nat} (h : m ≤ n) (g : Gateway) (es : List Event) :
    failuresSinceHeader cfg b m g es ≤ failuresSinceHeader cfg b n g es := by
  induction es generalizing g m n with
  | nil => exact h
  | cons e es ih =>
      apply ih
      split_ifs <;> omega

/-- Without a header below 400 every failed attempt counts; after one, the
failures before the run do not. -/
theorem failuresSinceHeader_cases (cfg : Config) (b : String) (m n : Nat) (g : Gateway)
    (es : List Event) :
    failuresSinceHeader cfg b m g es = failuresSinceHeader cfg b n g es ∨
      m + (failedAttempts cfg b g es).length ≤ failuresSinceHeader cfg b m g es := by
  induction es generalizing g m n with
  | nil => exact Or.inr (by simp [failuresSinceHeader, failedAttempts])
  | cons e es ih =>
      simp only [failuresSinceHeader, failedAttempts, List.length_append]
      cases hok : g.okHeader b e with
      | true => exact Or.inl rfl
      | false =>
          cases hfail : g.liveFailure b e with
          | true =>
              have hone : (g.failedAttempt b e).toList.length ≤ 1 := by
                cases g.failedAttempt b e <;> simp
              refine (ih (m + 1) (n + 1) (g.step cfg e)).imp id (fun h => ?_)
              simp only [Bool.false_eq_true, if_false, if_true] at h ⊢
              omega
          | false =>
              have hzero : (g.failedAttempt b e).toList.length = 0 := by
                simp [failedAttempt, hfail]
              refine (ih m n (g.step cfg e)).imp id (fun h => ?_)
              simp only [Bool.false_eq_true, if_false] at h ⊢
              omega

/--
Take any run of live traffic in which at least as many attempts at `b` fail as
the threshold demands.  Its breaker ends up not closed exactly when that many
failures were reported after the last response header below 400.
-/
theorem failed_attempts_trip_iff {es : List Event} (hen : cfg.enabled = true)
    (hT : 1 ≤ cfg.failureThreshold) (hg : Reachable cfg g) (hb : b ∈ g.pool.ids)
    (hes : ∀ e ∈ es, liveReportsOnly b e = true)
    (hfailed : cfg.failureThreshold ≤ ((failedAttempts cfg b g es).dedup.length : Int)) :
    (run (step cfg) g es).breakerState b ≠ some .closed ↔
      cfg.failureThreshold ≤ (failuresSinceHeader cfg b 0 g es : Int) := by
  obtain ⟨c, hc⟩ := Option.isSome_iff_exists.mp (hg.complete b hb)
  obtain ⟨c', hc', hcount⟩ := consecutiveFailures_run hen hg.complete hc hes
  have hbelow : c'.ClosedBelow cfg :=
    (hg.run_step es).closedBelow hen hT hc'
  have hmono : failuresSinceHeader cfg b 0 g es ≤
      failuresSinceHeader cfg b c.breaker.consecutiveFailures g es :=
    failuresSinceHeader_mono (Nat.zero_le _) g es
  have hdedup : (failedAttempts cfg b g es).dedup.length ≤ (failedAttempts cfg b g es).length :=
    (List.dedup_sublist _).length_le
  rw [breakerState_of_cell hc', Ne, Option.some.injEq, show _ ↔ _ from hbelow, hcount, not_lt]
  rcases failuresSinceHeader_cases cfg b 0
    c.breaker.consecutiveFailures g es with heq | hall
  · rw [heq]
  · constructor <;> intro <;> omega

/-- Five attempts at the first backend are answered with 500. -/
theorem failed_attempts_trip_sample :
    (run (step (Config.default (fun _ => 0))) sampleGateway
      (answeredRequests 13 1 500)).breakerState "backend-1" ≠ some .closed :=
  (failed_attempts_trip_iff rfl (by decide) reachable_sampleGateway (by decide +kernel)
    (by decide) (by decide +kernel)).mpr (by decide +kernel)

/-- Requests whose attempts all break off after a response header 200. -/
def brokenTransfers (n : Nat) : List Event :=
  (List.range n).flatMap (fun rid =>
    [⟨1, .request rid ⟨"POST", "/", none, none, none, none⟩⟩, ⟨1, .route rid⟩,
      ⟨2, .proxyRes rid 200 1⟩, ⟨3, .proxyError rid ⟨some "ECONNRESET", "aborted"⟩ 2 0⟩])

/-- Five attempts at the first backend break off and none completes, but each
header 200 clears the count of the one before. -/
theorem failed_attempts_ignored :
    ¬ ∀ (cfg : Config) (b : String) (g : Gateway) (es : List Event),
      cfg.enabled = true → 1 ≤ cfg.failureThreshold → Reachable cfg g → b ∈ g.pool.ids →
      (∀ e ∈ es, liveReportsOnly b e = true) →
      (∀ e ∈ es, ∀ rid, e.op ≠ .finish rid) →
      cfg.failureThreshold ≤ ((failedAttempts cfg b g es).dedup.length : Int) →
      (run (step cfg) g es).breakerState b ≠ some .closed := by
  intro hclaim
  have hopen := hclaim (Config.default (fun _ => 0)) "backend-1" sampleGateway
    (brokenTransfers 13) rfl (by decide) reachable_sampleGateway (by decide +kernel)
    (by decide)
    (by
      intro e he rid hop
      obtain ⟨n, -, hmem⟩ := List.mem_flatMap.mp he
      simp only [List.mem_cons, List.not_mem_nil, or_false] at hmem
      rcases hmem with rfl | rfl | rfl | rfl <;> simp at hop)
    (by decide +kernel)
  revert hopen
  decide +kernel

end Attempts

end Gateway

end SentinelADC
