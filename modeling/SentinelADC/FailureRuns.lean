import SentinelADC.AttemptOutcomes

/-!
# Failure runs and recovery traffic

Two facts about any order of calls of the circuit breaker manager.  The failure
counter and the state are functions of the calls made for the backend: the
breaker is closed exactly while the failures since the last success or reset
are fewer than the threshold.  And while nobody reports a success, an open
breaker lets through no more than the probes of one half-open phase before it
opens again.
-/

namespace SentinelADC

open Runs

namespace ManagerCall

variable {b : String}

/-- The call clears the failure counter of `b`. -/
def clears (b : String) (m : ManagerCall) : Bool :=
  m.backendId = b ∧ (m.call = .recordSuccess ∨ m.call = .reset)

/-- The call records a failure of `b`. -/
def fails (b : String) (m : ManagerCall) : Bool :=
  m.backendId = b &&
    match m.call with
    | .recordFailure _ => true
    | _ => false

/-- The call asks for admission to `b`. -/
def asks (b : String) (m : ManagerCall) : Bool :=
  m.backendId = b ∧ m.call = .canExecute

/-- Failures of `b` recorded after the last call that clears its counter. -/
def failureRun (b : String) (calls : List ManagerCall) : Nat :=
  (calls.reverse.takeWhile (fun m => !m.clears b)).countP (fun m => m.fails b)

theorem failureRun_concat (calls : List ManagerCall) (m : ManagerCall) :
    failureRun b (calls ++ [m]) =
      if m.clears b then 0 else failureRun b calls + if m.fails b then 1 else 0 := by
  simp only [failureRun, List.reverse_append, List.reverse_cons, List.reverse_nil,
    List.nil_append, List.singleton_append, List.takeWhile_cons]
  cases hclears : m.clears b with
  | true => simp
  | false => simp [List.countP_cons]

end ManagerCall

namespace Cell

section Calls

variable {cfg : Config} {c : Cell} {now : Int}

/-- Asking for admission leaves the counter alone. -/
theorem consecutiveFailures_canExecute :
    (c.canExecute cfg now).2.breaker.consecutiveFailures = c.breaker.consecutiveFailures := by
  rcases canExecute_cases cfg now c with hc | ⟨-, -, -, hc⟩ | ⟨-, -, -, hc⟩ <;> rw [hc] <;> rfl

theorem closedBelow_canExecute (h : c.ClosedBelow cfg) :
    (c.canExecute cfg now).2.ClosedBelow cfg := by
  simp only [ClosedBelow] at h ⊢
  rcases canExecute_cases cfg now c with hc | ⟨-, hs, -, hc⟩ | ⟨-, -, -, hc⟩ <;> rw [hc]
  · exact h
  · simpa [hs, enterHalfOpen] using h
  · exact h

/-- Every call keeps counter and state in step. -/
theorem closedBelow_call (hen : cfg.enabled = true) (hT : 1 ≤ cfg.failureThreshold)
    (call : BreakerCall) (h : c.ClosedBelow cfg) :
    (c.call cfg now call).ClosedBelow cfg := by
  cases call with
  | canExecute => exact closedBelow_canExecute h
  | recordSuccess => exact closedBelow_step hen hT (.recordSuccess now) h
  | recordFailure error => exact closedBelow_step hen hT (.recordFailure now error) h
  | reset => exact closedBelow_step hen hT (.resetBreaker now) h

/-- A phase that began with `OPEN` at time `t`, seen at the time `now`: it is
still waiting, or the cooldown is over. -/
def Recovering (cfg : Config) (t now : Int) (c : Cell) : Prop :=
  (c.breaker.state = .opened ∧ t ≤ c.breaker.lastStateChange) ∨
    (c.breaker.state = .halfOpen ∧ t + cfg.cooldownMs ≤ now)

/-- A phase that began with `OPEN` and has admitted `n` calls. -/
def Probing (cfg : Config) (n : Nat) (c : Cell) : Prop :=
  (c.breaker.state = .opened ∧ n = 0) ∨
    (c.breaker.state = .halfOpen ∧ n = c.breaker.probeCount ∧
      (n : Int) ≤ max 1 cfg.halfOpenMaxProbes)

/-- The phase goes on with every call but a success or a reset, and before the
cooldown is over nobody is admitted. -/
theorem Recovering.call {t last : Int} (h : c.Recovering cfg t last) (hlast : last ≤ now)
    (ht : t ≤ now) (call : BreakerCall) (hsuccess : call ≠ .recordSuccess)
    (hreset : call ≠ .reset) (hen : cfg.enabled = true) :
    (c.call cfg now call).Recovering cfg t now ∧
      (call = .canExecute → now < t + cfg.cooldownMs → (c.canExecute cfg now).1 = false) := by
  cases call with
  | recordSuccess => exact absurd rfl hsuccess
  | reset => exact absurd rfl hreset
  | canExecute =>
      simp only [Cell.call, true_implies]
      rcases h with ⟨hs, hentered⟩ | ⟨hs, hcool⟩
      · rw [canExecute_of_opened hen hs]
        split_ifs with hover
        · refine ⟨Or.inr ⟨rfl, by omega⟩, fun hearly => ?_⟩
          omega
        · exact ⟨Or.inl ⟨hs, hentered⟩, fun _ => rfl⟩
      · rw [canExecute_of_halfOpen hen hs]
        split_ifs
        · refine ⟨Or.inr ⟨hs, by omega⟩, fun hearly => ?_⟩
          omega
        · exact ⟨Or.inr ⟨hs, by omega⟩, fun _ => rfl⟩
  | recordFailure error =>
      refine ⟨?_, fun hcall => by cases hcall⟩
      rcases h with ⟨hs, hentered⟩ | ⟨hs, hcool⟩
      · refine Or.inl ?_
        simp only [Cell.call, recordFailure_of_not_trips hen (not_trips_of_opened cfg hs)]
        exact ⟨hs, hentered⟩
      · have htrip : c.breaker.trips cfg = true := trips_eq_true_iff.mpr ⟨hen, Or.inl hs⟩
        have hne : (c.countFailure error).breaker.state ≠ .opened := by simp [countFailure, hs]
        refine Or.inl ?_
        simp only [Cell.call, recordFailure_of_trips htrip, transitionTo, if_neg hne]
        exact ⟨trivial, ht⟩

/-- The count goes up with each admission, and stays within the bound until the
breaker opens again. -/
theorem Probing.call {n : Nat} (h : c.Probing cfg n) (call : BreakerCall)
    (hsuccess : call ≠ .recordSuccess) (hreset : call ≠ .reset) (hen : cfg.enabled = true)
    (hopens : c.breaker.state ≠ .opened → (c.call cfg now call).breaker.state ≠ .opened) :
    (c.call cfg now call).Probing cfg
      (n + if call = .canExecute ∧ (c.canExecute cfg now).1 = true then 1 else 0) := by
  cases call with
  | recordSuccess => exact absurd rfl hsuccess
  | reset => exact absurd rfl hreset
  | canExecute =>
      simp only [Cell.call, true_and]
      rcases h with ⟨hs, rfl⟩ | ⟨hs, rfl, hle⟩
      · rw [canExecute_of_opened hen hs]
        by_cases hover : cfg.cooldownMs ≤ now - c.breaker.lastStateChange
        · simp only [hover, if_true]
          exact Or.inr ⟨rfl, rfl, by simp⟩
        · simp only [hover, if_false, Bool.false_eq_true]
          exact Or.inl ⟨hs, rfl⟩
      · rw [canExecute_of_halfOpen hen hs]
        by_cases hfree : (c.breaker.probeCount : Int) < cfg.halfOpenMaxProbes
        · simp only [hfree, if_true]
          refine Or.inr ⟨hs, rfl, ?_⟩
          push_cast
          omega
        · simp only [hfree, if_false, Bool.false_eq_true]
          exact Or.inr ⟨hs, rfl, by simpa using hle⟩
  | recordFailure error =>
      simp only [reduceCtorEq, false_and, if_false, Nat.add_zero]
      rcases h with ⟨hs, rfl⟩ | ⟨hs, rfl, hle⟩
      · refine Or.inl ?_
        simp only [Cell.call, recordFailure_of_not_trips hen (not_trips_of_opened cfg hs)]
        exact ⟨hs, trivial⟩
      · -- a failed probe opens the breaker again
        have htrip : c.breaker.trips cfg = true := trips_eq_true_iff.mpr ⟨hen, Or.inl hs⟩
        refine absurd ?_ (hopens (by simp [hs]))
        simp [Cell.call, state_recordFailure, htrip]

end Calls

end Cell

namespace Gateway

section FailureRun

variable {cfg : Config} {b : String} {g : Gateway} {c : Cell}

/-- The counter after a call, on the cell of the backend. -/
theorem consecutiveFailures_call (hen : cfg.enabled = true) (m : ManagerCall)
    (hid : m.backendId = b) :
    (c.call cfg m.now m.call).breaker.consecutiveFailures =
      if m.clears b then 0
      else c.breaker.consecutiveFailures + if m.fails b then 1 else 0 := by
  obtain ⟨now, id, call⟩ := m
  obtain rfl : id = b := hid
  cases call with
  | canExecute =>
      simpa [ManagerCall.clears, ManagerCall.fails, Cell.call] using
        Cell.consecutiveFailures_canExecute (c := c)
  | recordSuccess =>
      simpa [ManagerCall.clears, Cell.call] using
        Cell.consecutiveFailures_recordSuccess (c := c) hen
  | recordFailure error =>
      simpa [ManagerCall.clears, ManagerCall.fails, Cell.call] using
        Cell.consecutiveFailures_recordFailure (c := c) hen error
  | reset => simp [ManagerCall.clears, Cell.call, Cell.resetBreaker]

/--
After any calls, the counter of a backend is the number of failures recorded
since the last success or reset, and its breaker is closed exactly while that
number is below the threshold.
-/
theorem breaker_follows_failures (hboot : Booted cfg g) (hen : cfg.enabled = true)
    (hT : 1 ≤ cfg.failureThreshold) (hb : b ∈ g.pool.ids) (calls : List ManagerCall) :
    ∃ breaker, (run (call cfg) g calls).breakers b = some breaker ∧
      breaker.consecutiveFailures = ManagerCall.failureRun b calls ∧
      (breaker.state = .closed ↔
        (ManagerCall.failureRun b calls : Int) < cfg.failureThreshold) := by
  suffices hcell : ∃ c, (run (call cfg) g calls).cell b = some c ∧
      c.breaker.consecutiveFailures = ManagerCall.failureRun b calls ∧ c.ClosedBelow cfg by
    obtain ⟨c, hc, hcount, hstate⟩ := hcell
    refine ⟨c.breaker, (cell_eq_some_iff.mp hc).2.1, hcount, ?_⟩
    rw [← hcount]
    exact hstate
  -- from the last call backwards
  induction calls using List.reverseRecOn with
  | nil =>
      obtain ⟨c, hc⟩ := Option.isSome_iff_exists.mp (hboot.complete b hb)
      obtain ⟨hs, hcount, -⟩ := hboot.cell_eq hc
      refine ⟨c, hc, hcount, ?_⟩
      simp only [Cell.ClosedBelow, hs, hcount, true_iff]
      omega
  | append_singleton calls m ih =>
      obtain ⟨c, hc, hcount, hstate⟩ := ih
      have hg : ManagerReachable cfg (run (call cfg) g calls) :=
        (Runs.Reachable.start hboot).run (eachStep_of_forall (by simp))
      have hc' := (moves_call cfg m hg.complete).cell_some hc
      rw [run_append, run_cons, run_nil]
      refine ⟨_, hc', ?_⟩
      rw [ManagerCall.failureRun_concat]
      by_cases hid : b = m.backendId
      · subst hid
        rw [onlyAt_self]
        refine ⟨?_, Cell.closedBelow_call hen hT m.call hstate⟩
        rw [consecutiveFailures_call hen m rfl, hcount]
      · rw [onlyAt_ne hid]
        have hne : m.backendId ≠ b := fun heq => hid heq.symm
        simpa [ManagerCall.clears, ManagerCall.fails, hne] using ⟨hcount, hstate⟩

/-- Four failures, a success, and five failures. -/
theorem breaker_follows_failures_sample :
    ∃ breaker,
      (run (call (Config.default (fun _ => 0))) sampleGateway
        (List.replicate 4 ⟨0, "backend-1", .recordFailure "HTTP 500"⟩ ++
          ⟨1, "backend-1", .recordSuccess⟩ ::
            List.replicate 5 ⟨2, "backend-1", .recordFailure "HTTP 500"⟩)).breakers
        "backend-1" = some breaker ∧
      breaker.consecutiveFailures = 5 ∧ (breaker.state = .closed ↔ (5 : Int) < 5) := by
  have hboot : Booted (Config.default (fun _ => 0)) sampleGateway := ⟨0, rfl⟩
  exact breaker_follows_failures hboot rfl (by decide) (by decide) _

end FailureRun

section Recovery

variable {cfg : Config} {b : String} {g : Gateway} {c : Cell}

/-- The call moves the breaker of `b` to `OPEN`. -/
def opens (cfg : Config) (b : String) (g : Gateway) (m : ManagerCall) : Bool :=
  g.breakerState b ≠ some .opened ∧ (g.call cfg m).breakerState b = some .opened

/-- The call asks for admission to `b` and is answered with `true`. -/
def answersTrue (cfg : Config) (b : String) (g : Gateway) (m : ManagerCall) : Bool :=
  m.asks b && (g.canExecute cfg m.now b).1

/-- Number of calls in a run that are admitted to `b`. -/
def admissions (cfg : Config) (b : String) : Gateway → List ManagerCall → Nat
  | _, [] => 0
  | g, m :: calls =>
      (if g.answersTrue cfg b m then 1 else 0) + admissions cfg b (g.call cfg m) calls

/-- What reaches `b` in a run that begins when its breaker has opened at `t`. -/
structure Throttled (cfg : Config) (b : String) (t : Int) (g : Gateway)
    (calls : List ManagerCall) : Prop where
  /-- Until the cooldown is over, nothing. -/
  refused : ∀ before m after, calls = before ++ m :: after → m.asks b = true →
    m.now < t + cfg.cooldownMs →
    ((run (call cfg) g before).canExecute cfg m.now b).1 = false
  /-- Until the breaker opens again, the probes of one half-open phase. -/
  bounded : ∀ before after, calls = before ++ after →
    EachStep (call cfg) (fun g m => g.opens cfg b m = false) g before →
    (admissions cfg b g before : Int) ≤ max 1 cfg.halfOpenMaxProbes

/-- A call for `b` that clears nothing, on the cell of `b`. -/
theorem call_of_not_clears {m : ManagerCall} (hid : m.backendId = b)
    (hclears : m.clears b = false) :
    m.call ≠ .recordSuccess ∧ m.call ≠ .reset := by
  simp only [ManagerCall.clears, hid, true_and, decide_eq_false_iff_not, not_or] at hclears
  exact hclears

theorem refused_of_recovering {t last : Int} {calls : List ManagerCall} (hg : g.Complete)
    (hc : g.cell b = some c) (h : c.Recovering cfg t last) (hen : cfg.enabled = true)
    (htime : ∀ m ∈ calls, t ≤ m.now ∧ last ≤ m.now)
    (hclock : calls.Pairwise (fun m m' => m.now ≤ m'.now))
    (hquiet : ∀ m ∈ calls, m.clears b = false) {before after : List ManagerCall}
    {m : ManagerCall} (hsplit : calls = before ++ m :: after) (hasks : m.asks b = true)
    (hearly : m.now < t + cfg.cooldownMs) :
    ((run (call cfg) g before).canExecute cfg m.now b).1 = false := by
  subst hsplit
  induction before generalizing g c last with
  | nil =>
      obtain ⟨ht, hlast⟩ := htime m (by simp)
      obtain ⟨rfl, hcall⟩ : m.backendId = b ∧ m.call = .canExecute := by
        simpa [ManagerCall.asks] using hasks
      obtain ⟨hsuccess, hreset⟩ := call_of_not_clears rfl (hquiet m (by simp))
      rw [run_nil, canExecute_fst hc]
      exact (h.call hlast ht m.call hsuccess hreset hen).2 hcall hearly
  | cons m' before ih =>
      obtain ⟨ht, hlast⟩ := htime m' (by simp)
      rw [List.cons_append, List.pairwise_cons] at hclock
      have hmove := moves_call cfg m' hg
      have hc' := hmove.cell_some hc
      have hnext : (onlyAt m'.backendId (fun c => c.call cfg m'.now m'.call) b c).Recovering
          cfg t m'.now := by
        by_cases hid : b = m'.backendId
        · subst hid
          obtain ⟨hsuccess, hreset⟩ := call_of_not_clears rfl (hquiet m' (by simp))
          rw [onlyAt_self]
          exact (h.call hlast ht m'.call hsuccess hreset hen).1
        · rw [onlyAt_ne hid]
          exact h.imp_right (fun ⟨hs, hcool⟩ => ⟨hs, by omega⟩)
      exact ih (hmove.complete hg) hc' hnext
        (fun m hm => ⟨(htime m (by simp [hm])).1, hclock.1 m hm⟩) hclock.2
        (fun m hm => hquiet m (by simp [hm]))

theorem admissions_of_probing {n : Nat} {calls : List ManagerCall} (hg : g.Complete)
    (hc : g.cell b = some c) (h : c.Probing cfg n) (hen : cfg.enabled = true)
    (hquiet : ∀ m ∈ calls, m.clears b = false)
    (hphase : EachStep (call cfg) (fun g m => g.opens cfg b m = false) g calls) :
    ((n + admissions cfg b g calls : Nat) : Int) ≤ max 1 cfg.halfOpenMaxProbes := by
  induction calls generalizing g c n with
  | nil =>
      rcases h with ⟨-, rfl⟩ | ⟨-, -, hle⟩
      · simp [admissions]
      · simpa [admissions] using hle
  | cons m calls ih =>
      have hmove := moves_call cfg m hg
      have hc' := hmove.cell_some hc
      have hlater : ∀ m' ∈ calls, m'.clears b = false := fun m' hm' => hquiet m' (by simp [hm'])
      rw [admissions, ← Nat.add_assoc]
      refine ih (hmove.complete hg) hc' ?_ hlater hphase.2
      by_cases hid : b = m.backendId
      · subst hid
        obtain ⟨hsuccess, hreset⟩ := call_of_not_clears rfl (hquiet m (by simp))
        have hstays : c.breaker.state ≠ .opened →
            (c.call cfg m.now m.call).breaker.state ≠ .opened := by
          have hopens := hphase.1
          rw [onlyAt_self] at hc'
          simpa [opens, breakerState_of_cell hc, breakerState_of_cell hc'] using hopens
        have hprobe := h.call m.call hsuccess hreset hen hstays
        rw [onlyAt_self]
        simpa [answersTrue, ManagerCall.asks, canExecute_fst hc] using hprobe
      · have hne : m.backendId ≠ b := fun heq => hid heq.symm
        rw [onlyAt_ne hid]
        simpa [answersTrue, ManagerCall.asks, hne] using h

/-- No call changes which backends there are. -/
theorem mem_ids_run_call (hg : g.Complete) (hb : b ∈ g.pool.ids) (calls : List ManagerCall) :
    b ∈ (run (call cfg) g calls).pool.ids := by
  refine (run_preserves (P := fun g : Gateway => g.Complete ∧ b ∈ g.pool.ids) ⟨hg, hb⟩ ?_).2
  rintro m - g ⟨hg, hb⟩
  have hmove := moves_call cfg m hg
  exact ⟨hmove.complete hg, by rwa [hmove.ids]⟩

theorem throttled_of_opens {m₀ : ManagerCall} {calls : List ManagerCall}
    (hg : ManagerReachable cfg g) (hen : cfg.enabled = true) (hb : b ∈ g.pool.ids)
    (hopens : g.opens cfg b m₀ = true)
    (hclock : (m₀ :: calls).Pairwise (fun m m' => m.now ≤ m'.now))
    (hquiet : ∀ m ∈ calls, m.clears b = false) :
    Throttled cfg b m₀.now (g.call cfg m₀) calls := by
  obtain ⟨c, hc⟩ := Option.isSome_iff_exists.mp (hg.complete b hb)
  have hmove := moves_call cfg m₀ hg.complete
  have hc₀ := hmove.cell_some hc
  obtain ⟨hbefore, hafter⟩ : c.breaker.state ≠ .opened ∧
      (onlyAt m₀.backendId (fun c => c.call cfg m₀.now m₀.call) b c).breaker.state = .opened := by
    simpa [opens, breakerState_of_cell hc, breakerState_of_cell hc₀] using hopens
  have hid : b = m₀.backendId := by
    by_contra hid
    rw [onlyAt_ne hid] at hafter
    exact hbefore hafter
  subst hid
  rw [onlyAt_self] at hc₀ hafter
  have hentered := lastStateChange_of_opened m₀.now m₀.call hbefore hafter
  rw [List.pairwise_cons] at hclock
  constructor
  · intro before m after hsplit
    exact refused_of_recovering (hmove.complete hg.complete) hc₀
      (Or.inl ⟨hafter, hentered.ge⟩) hen (fun m hm => ⟨hclock.1 m hm, hclock.1 m hm⟩)
      hclock.2 hquiet hsplit
  · intro before after hsplit hphase
    have hbound := admissions_of_probing (hmove.complete hg.complete) hc₀
      (Or.inl ⟨hafter, rfl⟩) hen (fun m hm => hquiet m (by simp [hsplit, hm])) hphase
    simpa using hbound

/--
From every call that opens a breaker on, and until a success or a reset, no call
is admitted before the cooldown is over, and no more than the probes of one
half-open phase are before the breaker opens again; from then on the same holds
with the new time.
-/
theorem recovery_throttled (hg : ManagerReachable cfg g) (hen : cfg.enabled = true)
    (hb : b ∈ g.pool.ids) {m₀ : ManagerCall} (hopens : g.opens cfg b m₀ = true)
    {calls : List ManagerCall}
    (hclock : (m₀ :: calls).Pairwise (fun m m' => m.now ≤ m'.now))
    (hquiet : ∀ m ∈ calls, m.clears b = false) :
    Throttled cfg b m₀.now (g.call cfg m₀) calls ∧
      ∀ before m after, calls = before ++ m :: after →
        (run (call cfg) (g.call cfg m₀) before).opens cfg b m = true →
        Throttled cfg b m.now (run (call cfg) (g.call cfg m₀) (before ++ [m])) after := by
  refine ⟨throttled_of_opens hg hen hb hopens hclock hquiet, ?_⟩
  rintro before m after rfl hagain
  have hreach : ManagerReachable cfg (run (call cfg) g (m₀ :: before)) :=
    hg.run (eachStep_of_forall (by simp))
  have hb' : b ∈ (run (call cfg) g (m₀ :: before)).pool.ids :=
    mem_ids_run_call hg.complete hb (m₀ :: before)
  rw [List.pairwise_cons, List.pairwise_append] at hclock
  rw [run_append]
  exact throttled_of_opens hreach hen hb' hagain hclock.2.2.1
    (fun m hm => hquiet m (by simp [hm]))

/-- The default breaker after its fifth failure: one probe at the end of the
cooldown, which fails. -/
theorem recovery_throttled_sample :
    (admissions (Config.default (fun _ => 0)) "backend-1"
      (run (call (Config.default (fun _ => 0))) sampleGateway
        (List.replicate 5 ⟨1, "backend-1", .recordFailure "HTTP 500"⟩))
      [⟨15000, "backend-1", .canExecute⟩, ⟨15001, "backend-1", .canExecute⟩,
        ⟨15002, "backend-1", .canExecute⟩] : Int) ≤ max 1 1 := by
  have hboot : Booted (Config.default (fun _ => 0)) sampleGateway := ⟨0, rfl⟩
  have hreach : ManagerReachable (Config.default (fun _ => 0))
      (run (call (Config.default (fun _ => 0))) sampleGateway
        (List.replicate 4 ⟨1, "backend-1", .recordFailure "HTTP 500"⟩)) :=
    (Runs.Reachable.start hboot).run (eachStep_of_forall (by simp))
  have hthrottled := (recovery_throttled hreach rfl (by decide)
    (show opens _ "backend-1" _ ⟨1, "backend-1", .recordFailure "HTTP 500"⟩ = true by
      decide)
    (show List.Pairwise _ [_, ⟨15000, "backend-1", .canExecute⟩,
      ⟨15001, "backend-1", .canExecute⟩, ⟨15002, "backend-1", .canExecute⟩] by decide)
    (by decide)).1
  exact hthrottled.bounded _ [] (List.append_nil _).symm (by decide)

end Recovery

end Gateway

end SentinelADC
