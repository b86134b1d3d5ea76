import SentinelADC.Enforcement

/-!
# Steady traffic

A client whose rate stays within an interval.  Each window rounds the moving
average to two decimals, and smoothing takes a part of the old error away: the
average never falls further below the interval than one rounding error divided
by the smoothing factor.  The standard deviation counts as one at least, so a
z-score is hardly more than the width of the interval.
-/

namespace SentinelADC

open Runs

/-- Rounding to two decimals changes a number by half a hundredth at most. -/
theorem round2_near (x : Rat) :
    x - 1 / 200 ≤ round2 x ∧ round2 x ≤ x + 1 / 200 := by
  have hle : ((jsRound (x * 100) : Int) : Rat) ≤ x * 100 + 1 / 2 := Int.floor_le _
  have hlt : x * 100 + 1 / 2 < (jsRound (x * 100) : Int) + 1 := Int.lt_floor_add_one _
  rw [round2]
  constructor <;> linarith

/-- Smoothing with an error `ε` keeps an average above `m - ε / α`. -/
theorem smoothing_lower {α ε m x average next : Rat} (hα : 0 < α) (hα' : α ≤ 1) (hx : m ≤ x)
    (haverage : m - ε / α ≤ average) (hnext : α * x + (1 - α) * average - ε ≤ next) :
    m - ε / α ≤ next := by
  have hnew : α * m ≤ α * x := mul_le_mul_of_nonneg_left hx hα.le
  have hold : (1 - α) * (m - ε / α) ≤ (1 - α) * average :=
    mul_le_mul_of_nonneg_left haverage (by linarith)
  calc m - ε / α = α * m + (1 - α) * (m - ε / α) - ε := by field_simp; ring
    _ ≤ α * x + (1 - α) * average - ε := by linarith
    _ ≤ next := hnext

namespace AnomalyDetector

/-- The rate that `evaluateWindows` computes for a client whose window is over. -/
def computedRate (now : Int) (stats : IpStats) : Option Rat :=
  let elapsed := now - stats.windowStart
  if elapsed < windowMs then none
  else some ((stats.windowCount / ((elapsed : Rat) / 1000)) * 60)

/-- There is no average yet, or it has not drifted away from rates of `m` and more. -/
def Anchored (m : Rat) (stats : IpStats) : Prop :=
  stats.ewma = 0 ∨ m - 1 / 60 ≤ stats.ewma

section Windows

variable {sqrt : Rat → Rat} {now : Int} {ip : String} {stats : IpStats} {d : AnomalyDetector}
  {m M rate : Rat}

theorem evaluateWindow_of_none (h : computedRate now stats = none) :
    d.evaluateWindow sqrt now ip stats = (stats, none) := by
  simp only [computedRate] at h
  split_ifs at h with hopen
  simp only [evaluateWindow, hopen, if_true]

/-- An anomaly is about the client whose window it was found in. -/
theorem ip_evaluateWindow {event : AnomalyEvent}
    (h : (d.evaluateWindow sqrt now ip stats).2 = some event) :
    ip = event.ip := by
  simp only [evaluateWindow] at h
  split_ifs at h
  exact congrArg AnomalyEvent.ip (Option.some.inj h)

/-- A z-score is at most the distance from the average, apart from rounding. -/
theorem zScore_le (hsqrt : ∀ x, 1 ≤ x → 1 ≤ sqrt x) (variance : Rat) {diff bound : Rat}
    (hdiff : diff ≤ bound) (hbound : 0 ≤ bound) :
    round2 (diff / sqrt (max 1 variance)) ≤ bound + 1 / 200 := by
  have hstddev : 1 ≤ sqrt (max 1 variance) := hsqrt _ (le_max_left _ _)
  have hratio : diff / sqrt (max 1 variance) ≤ bound := by
    rw [div_le_iff₀ (by linarith)]
    calc diff ≤ bound := hdiff
      _ = bound * 1 := by ring
      _ ≤ bound * sqrt (max 1 variance) := mul_le_mul_of_nonneg_left hstddev hbound
  have hround := (round2_near (diff / sqrt (max 1 variance))).2
  linarith

/-- A window with a steady rate is not flagged and leaves the average anchored. -/
theorem evaluateWindow_steady (hsqrt : ∀ x, 1 ≤ x → 1 ≤ sqrt x)
    (hz : M - m + 3 / 100 < d.zThreshold)
    (hrate : ∀ rate ∈ computedRate now stats, m ≤ rate ∧ rate ≤ M) (h : Anchored m stats) :
    (d.evaluateWindow sqrt now ip stats).2 = none ∧
      Anchored m (d.evaluateWindow sqrt now ip stats).1 := by
  cases hcomputed : computedRate now stats with
  | none =>
      rw [evaluateWindow_of_none hcomputed]
      exact ⟨rfl, h⟩
  | some rate =>
      obtain ⟨hlow, hhigh⟩ := hrate rate hcomputed
      simp only [computedRate] at hcomputed
      split_ifs at hcomputed with hopen
      simp only [evaluateWindow, hopen, if_false, Option.some.inj hcomputed]
      by_cases hfirst : stats.ewma = 0
      · simp only [hfirst, if_true]
        exact ⟨trivial, Or.inr (by simp only; linarith)⟩
      · have hbase : m - 1 / 60 ≤ stats.ewma := h.resolve_left hfirst
        have hscore : round2 ((rate - stats.ewma) / sqrt (max 1 stats.variance)) <
            d.zThreshold := by
          have hbound := zScore_le hsqrt stats.variance
            (show rate - stats.ewma ≤ M - m + 1 / 60 by linarith) (by linarith)
          linarith
        have hanchored : m - 1 / 60 ≤ round2 (alpha * rate + (1 - alpha) * stats.ewma) := by
          have hdrift : (1 / 200 : Rat) / alpha = 1 / 60 := by norm_num [alpha]
          rw [← hdrift] at hbase ⊢
          exact smoothing_lower (by norm_num [alpha]) (by norm_num [alpha]) hlow hbase
            (round2_near (alpha * rate + (1 - alpha) * stats.ewma)).1
        simp only [hfirst, if_false, not_le.mpr hscore, false_and]
        exact ⟨trivial, Or.inr hanchored⟩

/-- Another request leaves the averages alone, and a new client has none. -/
theorem anchored_recordRequest {client : String}
    (h : ∀ stats, (ip, stats) ∈ d.ipStats → Anchored m stats) :
    ∀ stats, (ip, stats) ∈ (d.recordRequest now client).ipStats → Anchored m stats := by
  intro stats hmem
  simp only [recordRequest] at hmem
  split_ifs at hmem
  · exact h stats hmem
  · simp only [KeyedList.updateKey, List.mem_map] at hmem
    obtain ⟨entry, hentry, heq⟩ := hmem
    split_ifs at heq
    · obtain ⟨rfl, rfl⟩ := Prod.mk.inj heq
      exact h entry.2 hentry
    · exact h stats (heq ▸ hentry)
  · rcases List.mem_append.mp hmem with hold | hnew
    · exact h stats hold
    · obtain ⟨-, rfl⟩ := Prod.mk.inj (List.mem_singleton.mp hnew)
      exact Or.inl rfl

end Windows

end AnomalyDetector

namespace Defence

section Steady

variable {cfg : RateLimitConfig} {sqrt : Rat → Rat} {s : Defence} {ip : String} {m M : Rat}

/-- The event is no evaluation, or all rates it computes for the client are in the
interval and the threshold is above its width. -/
def Steady (m M : Rat) (ip : String) (s : Defence) (e : Event) : Prop :=
  ∀ penalizedAt, e.op = .evaluateWindows penalizedAt →
    M - m + 3 / 100 < s.detector.zThreshold ∧
      ∀ entry ∈ s.detector.ipStats, entry.1 = ip →
        ∀ rate ∈ AnomalyDetector.computedRate e.now entry.2, m ≤ rate ∧ rate ≤ M

/-- An evaluation does not flag the client and does not touch its penalty. -/
def Spared (cfg : RateLimitConfig) (sqrt : Rat → Rat) (ip : String) (s : Defence) (e : Event) :
    Prop :=
  ∀ penalizedAt, e.op = .evaluateWindows penalizedAt →
    (∀ event ∈ s.detector.found sqrt e.now, event.ip ≠ ip) ∧
      (s.step cfg sqrt e).shared.limiter.penalizedIps ip = s.shared.limiter.penalizedIps ip

/-- All averages of the client are anchored. -/
def AnchoredAt (m : Rat) (ip : String) (s : Defence) : Prop :=
  ∀ stats, (ip, stats) ∈ s.detector.ipStats → AnomalyDetector.Anchored m stats

theorem anchoredAt_step (hsqrt : ∀ x, 1 ≤ x → 1 ≤ sqrt x) {e : Event} (h : s.AnchoredAt m ip)
    (hsteady : Steady m M ip s e) :
    (s.step cfg sqrt e).AnchoredAt m ip := by
  obtain ⟨now, op⟩ := e
  cases op with
  | request req checkedAt redis =>
      simp only [step, request]
      split
      · simp only [AnchoredAt, AnomalyDetector.middleware]
        split_ifs
        · exact AnomalyDetector.anchored_recordRequest h
        · exact h
      · exact h
  | evaluateWindows penalizedAt =>
      obtain ⟨hz, hrate⟩ := hsteady penalizedAt rfl
      intro stats hmem
      simp only [step, AnomalyDetector.evaluateWindows, List.mem_map] at hmem
      obtain ⟨entry, hentry, heq⟩ := hmem
      obtain ⟨rfl, rfl⟩ := Prod.mk.inj heq
      exact (AnomalyDetector.evaluateWindow_steady hsqrt hz (hrate entry hentry rfl)
        (h entry.2 hentry)).2
  | cleanup => exact h
  | removePenalty ip' => exact h
  | setAutoEnforce enabled => exact h
  | setZThreshold threshold => exact h
  | clearAnomalies =>
      intro stats hmem
      cases hmem

theorem spared_of_anchoredAt (hsqrt : ∀ x, 1 ≤ x → 1 ≤ sqrt x) {e : Event}
    (h : s.AnchoredAt m ip) (hsteady : Steady m M ip s e) :
    Spared cfg sqrt ip s e := by
  intro penalizedAt hop
  obtain ⟨hz, hrate⟩ := hsteady penalizedAt hop
  have hfound : ∀ event ∈ s.detector.found sqrt e.now, event.ip ≠ ip := by
    intro event hevent hip
    obtain ⟨entry, hentry, hflagged⟩ := List.mem_filterMap.mp hevent
    have hname : entry.1 = event.ip := AnomalyDetector.ip_evaluateWindow hflagged
    obtain ⟨client, stats⟩ := entry
    obtain rfl : client = ip := hname.trans hip
    have hnone : (s.detector.evaluateWindow sqrt e.now client stats).2 = none :=
      (AnomalyDetector.evaluateWindow_steady hsqrt hz (hrate (client, stats) hentry rfl)
        (h stats hentry)).1
    rw [hnone] at hflagged
    cases hflagged
  refine ⟨hfound, ?_⟩
  obtain ⟨now, op⟩ := e
  obtain rfl : op = .evaluateWindows penalizedAt := hop
  refine (AnomalyDetector.penalizedIps_evaluateWindows now penalizedAt _).trans (if_neg ?_)
  rintro ⟨-, event, hevent, hip⟩
  exact hfound event hevent hip

/-- However many windows are evaluated, a client with steady traffic is never flagged
and never penalised. -/
theorem steady_never_flagged (hsqrt : ∀ x, 1 ≤ x → 1 ≤ sqrt x) {es : List Event}
    (hnew : ∀ stats, (ip, stats) ∉ s.detector.ipStats)
    (hsteady : EachStep (step cfg sqrt) (Steady m M ip) s es) :
    EachStep (step cfg sqrt) (Spared cfg sqrt ip) s es :=
  eachStep_of_invariant (I := AnchoredAt m ip) (fun _ _ h hQ => anchoredAt_step hsqrt h hQ)
    (fun _ _ h hQ => spared_of_anchoredAt hsqrt h hQ) (fun stats hmem => absurd hmem (hnew stats))
    hsteady

theorem one_le_ratSqrt {x : Rat} (h : 1 ≤ x) :
    1 ≤ ratSqrt x := by
  have hle : x.den ≤ x.num.natAbs := by
    have hnum : (x.den : Rat) ≤ x.num := by
      calc (x.den : Rat) = 1 * x.den := by ring
        _ ≤ x * x.den := by gcongr
        _ = x.num := Rat.mul_den_eq_num x
    have hint : (x.den : Int) ≤ x.num := by exact_mod_cast hnum
    omega
  have hden : 0 < Nat.sqrt x.den := Nat.sqrt_pos.mpr x.den_pos
  rw [ratSqrt, one_le_div₀ (by exact_mod_cast hden)]
  exact_mod_cast Nat.sqrt_le_sqrt hle

/-- A client that sends so many requests in a minute, and the evaluation after it. -/
def steadyMinute (count : Nat) (start : Int) : List Event :=
  let req : ClientRequest := ⟨"GET", "/", none, none, some "10.0.0.9", some "10.0.0.9"⟩
  List.replicate count ⟨start, .request req start .inactive⟩ ++
    [⟨start + 60000, .evaluateWindows (start + 60000)⟩]

/-- Only the evaluation after a minute has to be looked at. -/
theorem steady_steadyMinute {count : Nat} {start : Int}
    (h : Steady m M ip (run (step cfg sqrt) s (List.replicate count
        ⟨start, .request ⟨"GET", "/", none, none, some "10.0.0.9", some "10.0.0.9"⟩ start
          .inactive⟩))
      ⟨start + 60000, .evaluateWindows (start + 60000)⟩) :
    EachStep (step cfg sqrt) (Steady m M ip) s (steadyMinute count start) := by
  rw [steadyMinute, eachStep_append]
  refine ⟨?_, h, trivial⟩
  clear h
  induction count generalizing s with
  | zero => trivial
  | succ count ih =>
      refine ⟨fun penalizedAt hop => ?_, ih⟩
      cases hop

/-- More than fifteen requests a minute, so that deviations would count. -/
theorem steady_never_flagged_sample :
    EachStep (step ⟨60000, 100⟩ ratSqrt) (Spared ⟨60000, 100⟩ ratSqrt "10.0.0.9")
      sampleDefence (steadyMinute 20 0 ++ (steadyMinute 22 60000 ++ steadyMinute 21 120000)) := by
  refine steady_never_flagged (m := 20) (M := 22) (fun _ => one_le_ratSqrt)
    (fun stats hmem => by cases hmem) ?_
  rw [eachStep_append, eachStep_append]
  refine ⟨steady_steadyMinute ?_, steady_steadyMinute ?_, steady_steadyMinute ?_⟩
  · rintro - -
    decide +kernel
  · rintro - -
    decide +kernel
  · rintro - -
    decide +kernel

end Steady

end Defence

end SentinelADC
