import SentinelADC.BreakerSync

/-!
# Runs of the circuit breaker manager

The manager by itself: any order of `canExecute`, `recordSuccess`,
`recordFailure` and `reset` calls for any backends at any times, as live
traffic, late responses and health checks produce them.  An open breaker leaves
`OPEN` through the cooldown, through a reset, or through a success, which the
code accepts in every state.
-/

namespace SentinelADC

open Runs

/-- A call of the manager for one backend. -/
inductive BreakerCall where
  | canExecute
  | recordSuccess
  | recordFailure (error : String)
  | reset
deriving DecidableEq, Repr

/-- A call, the backend it is for and the time at which it is made. -/
structure ManagerCall where
  now : Int
  backendId : String
  call : BreakerCall
deriving DecidableEq, Repr

/-- A call on the cell of its backend. -/
def Cell.call (cfg : Config) (now : Int) (c : Cell) : BreakerCall → Cell
  | .canExecute => (c.canExecute cfg now).2
  | .recordSuccess => c.recordSuccess cfg now
  | .recordFailure error => c.recordFailure cfg now error
  | .reset => c.resetBreaker now

namespace Gateway

/-- The state after a call. -/
def call (cfg : Config) (g : Gateway) (m : ManagerCall) : Gateway :=
  match m.call with
  | .canExecute => (g.canExecute cfg m.now m.backendId).2
  | .recordSuccess => g.recordSuccess cfg m.now m.backendId
  | .recordFailure error => g.recordFailure cfg m.now m.backendId error
  | .reset => g.resetBreaker m.now m.backendId

/-- States after start-up and any calls. -/
def ManagerReachable (cfg : Config) : Gateway → Prop :=
  Runs.Reachable (Booted cfg) (call cfg) (fun _ _ => True)

/-- State of the breaker of a backend. -/
def breakerState (b : String) (g : Gateway) : Option CircuitState :=
  (g.breakers b).map Breaker.state

/-- The call ends an open phase of `b` without the cooldown: a reset, or a
success recorded while the breaker is open. -/
def closesOpen (b : String) (g : Gateway) (m : ManagerCall) : Bool :=
  m.backendId = b ∧
    (m.call = .reset ∨ (m.call = .recordSuccess ∧ g.breakerState b = some .opened))

section Calls

variable {cfg : Config} {b : String} {g : Gateway} {c : Cell}

theorem moves_call (cfg : Config) (m : ManagerCall) (hg : g.Complete) :
    Moves g (g.call cfg m) (onlyAt m.backendId (fun c => c.call cfg m.now m.call)) := by
  obtain ⟨now, id, call⟩ := m
  cases call with
  | canExecute => exact moves_canExecute hg
  | recordSuccess => exact moves_recordSuccess hg
  | recordFailure error => exact moves_recordFailure error hg
  | reset => exact moves_resetBreaker hg

theorem ManagerReachable.complete (h : ManagerReachable cfg g) :
    g.Complete :=
  Runs.Reachable.invariant (P := Complete) (fun _ hs => hs.complete)
    (fun _ m hs _ => (moves_call _ m hs).complete hs) h

theorem breakerState_of_cell (hc : g.cell b = some c) :
    g.breakerState b = some c.breaker.state := by
  simp [breakerState, (cell_eq_some_iff.mp hc).2.1]

/-- What a call can do to an open breaker. -/
theorem call_of_opened (cfg : Config) (now : Int) (call : BreakerCall)
    (hs : c.breaker.state = .opened) :
    ((c.call cfg now call).breaker.state = .opened ∧
        (c.call cfg now call).breaker.lastStateChange = c.breaker.lastStateChange) ∨
      ((c.call cfg now call).breaker.state = .halfOpen ∧
        cfg.cooldownMs ≤ now - c.breaker.lastStateChange) ∨
      call = .reset ∨ call = .recordSuccess := by
  cases call with
  | canExecute =>
      rcases Cell.canExecute_cases cfg now c with
        hc | ⟨-, -, hcool, hc⟩ | ⟨-, hhalf, -, -⟩
      · exact Or.inl (by simp [Cell.call, hc, hs])
      · exact Or.inr (Or.inl ⟨by simp [Cell.call, hc, Cell.enterHalfOpen], hcool⟩)
      · simp [hs] at hhalf
  | recordSuccess => exact Or.inr (Or.inr (Or.inr rfl))
  | recordFailure error =>
      have hno := Cell.not_trips_of_opened cfg hs
      refine Or.inl ?_
      cases hen : cfg.enabled with
      | false => simp [Cell.call, Cell.recordFailure_of_disabled hen, hs]
      | true =>
          simp [Cell.call, Cell.recordFailure_of_not_trips hen hno, Cell.countFailure, hs]
  | reset => exact Or.inr (Or.inr (Or.inl rfl))

/-- A call that opens a breaker stamps it with its time. -/
theorem lastStateChange_of_opened (now : Int) (call : BreakerCall)
    (hbefore : c.breaker.state ≠ .opened)
    (hafter : (c.call cfg now call).breaker.state = .opened) :
    (c.call cfg now call).breaker.lastStateChange = now := by
  cases call with
  | canExecute =>
      rcases Cell.canExecute_cases cfg now c with
        hc | ⟨-, hs, -, -⟩ | ⟨-, hs, -, hc⟩
      · simp [Cell.call, hc, hbefore] at hafter
      · exact absurd hs hbefore
      · simp [Cell.call, hc, Cell.takePermit, hs] at hafter
  | recordSuccess =>
      cases hen : cfg.enabled with
      | false => simp [Cell.call, Cell.recordSuccess_of_disabled hen, hbefore] at hafter
      | true => simp [Cell.call, Cell.state_recordSuccess hen] at hafter
  | recordFailure error =>
      cases htrip : c.breaker.trips cfg with
      | true =>
          have hs : (c.countFailure error).breaker.state ≠ .opened := hbefore
          simp [Cell.call, Cell.recordFailure_of_trips htrip, Cell.transitionTo, hs]
      | false => simp [Cell.call, Cell.state_recordFailure, htrip, hbefore] at hafter
  | reset => simp [Cell.call] at hafter

/-- An open phase that began at time `t` and is not ended by a reset or a
success: before the breaker is found closed, it is half-open at a time when
the cooldown is over. -/
theorem halfOpen_before_closed {t : Int} {es : List ManagerCall} (hg : g.Complete)
    (hc : g.cell b = some c) (hs : c.breaker.state = .opened)
    (ht : c.breaker.lastStateChange = t)
    (hes : EachStep (call cfg) (fun g m => closesOpen b g m = false) g es)
    {before after : List ManagerCall} (hsplit : es = before ++ after)
    (hclosed : (run (call cfg) g before).breakerState b = some .closed) :
    ∃ first m rest, before = first ++ m :: rest ∧
      (run (call cfg) g (first ++ [m])).breakerState b = some .halfOpen ∧
      t + cfg.cooldownMs ≤ m.now := by
  induction es generalizing g c before with
  | nil =>
      obtain rfl : before = [] := (List.append_eq_nil_iff.mp hsplit.symm).1
      simp [breakerState_of_cell hc, hs] at hclosed
  | cons m es ih =>
      cases before with
      | nil => simp [breakerState_of_cell hc, hs] at hclosed
      | cons m' before =>
          obtain ⟨rfl, hsplit'⟩ := List.cons_eq_cons.mp hsplit
          have hmove := moves_call cfg m hg
          have hg' := hmove.complete hg
          have hc' := hmove.cell_some hc
          have hnext : ∀ {c'}, (g.call cfg m).cell b = some c' → c'.breaker.state = .opened →
              c'.breaker.lastStateChange = t →
              ∃ first n rest, m :: before = first ++ n :: rest ∧
                (run (call cfg) g (first ++ [n])).breakerState b = some .halfOpen ∧
                t + cfg.cooldownMs ≤ n.now := by
            intro c' hc' hs' ht'
            obtain ⟨first, n, rest, hbefore, hhalf, hcool⟩ :=
              ih hg' hc' hs' ht' hes.2 hsplit' hclosed
            exact ⟨m :: first, n, rest, by rw [hbefore]; rfl, hhalf, hcool⟩
          by_cases hid : b = m.backendId
          · subst hid
            rw [onlyAt_self] at hc'
            rcases call_of_opened cfg m.now m.call hs with
              ⟨hs', ht'⟩ | ⟨hs', hcool⟩ | hreset | hsuccess
            · exact hnext hc' hs' (ht'.trans ht)
            · refine ⟨[], m, before, rfl, ?_, by omega⟩
              simpa [hs'] using breakerState_of_cell hc'
            · have hcloses := hes.1
              simp [closesOpen, hreset] at hcloses
            · have hcloses := hes.1
              simp [closesOpen, hsuccess, breakerState_of_cell hc, hs] at hcloses
          · rw [onlyAt_ne hid] at hc'
            exact hnext hc' hs ht

/--
A breaker that entered `OPEN` with the call `m₀` is not found `CLOSED` again
before it was `HALF_OPEN` at a time past the cooldown, in any run in which it
is neither reset nor told of a success while it is `OPEN`; and such a success
closes it at once, wherever in the run it comes.
-/
theorem open_phase_respects_cooldown (m₀ : ManagerCall) (es : List ManagerCall)
    (hg : ManagerReachable cfg g) (hb : b ∈ g.pool.ids)
    (hbefore : g.breakerState b ≠ some .opened)
    (hopen : (g.call cfg m₀).breakerState b = some .opened)
    (hes : EachStep (call cfg) (fun g m => closesOpen b g m = false) (g.call cfg m₀) es) :
    (∀ before after, es = before ++ after →
      (run (call cfg) (g.call cfg m₀) before).breakerState b = some .closed →
      ∃ first m rest, before = first ++ m :: rest ∧
        (run (call cfg) (g.call cfg m₀) (first ++ [m])).breakerState b = some .halfOpen ∧
        m₀.now + cfg.cooldownMs ≤ m.now) ∧
    (cfg.enabled = true → ∀ before after, es = before ++ after →
      (run (call cfg) (g.call cfg m₀) before).breakerState b = some .opened → ∀ now,
        ((run (call cfg) (g.call cfg m₀) before).call cfg
          ⟨now, b, .recordSuccess⟩).breakerState b = some .closed) := by
  have hcomplete := hg.complete
  have hmove := moves_call cfg m₀ hcomplete
  obtain ⟨c, hc⟩ := Option.isSome_iff_exists.mp (hcomplete b hb)
  have hc₀ := hmove.cell_some hc
  rw [breakerState_of_cell hc, Ne, Option.some.injEq] at hbefore
  rw [breakerState_of_cell hc₀, Option.some.injEq] at hopen
  constructor
  · intro before after hsplit hclosed
    have hid : b = m₀.backendId := by
      by_contra hid
      rw [onlyAt_ne hid] at hopen
      exact hbefore hopen
    subst hid
    rw [onlyAt_self] at hc₀ hopen
    exact halfOpen_before_closed (hmove.complete hcomplete) hc₀ hopen
      (lastStateChange_of_opened m₀.now m₀.call hbefore hopen) hes hsplit hclosed
  · intro hen before after _ _ now
    have hreached : (run (call cfg) (g.call cfg m₀) before).Complete ∧
        b ∈ (run (call cfg) (g.call cfg m₀) before).pool.ids := by
      refine run_preserves (P := fun g : Gateway => g.Complete ∧ b ∈ g.pool.ids)
        ⟨hmove.complete hcomplete, hmove.ids ▸ hb⟩ ?_
      intro m _ g hg
      exact ⟨(moves_call cfg m hg.1).complete hg.1, (moves_call cfg m hg.1).ids ▸ hg.2⟩
    obtain ⟨c', hc'⟩ := Option.isSome_iff_exists.mp (hreached.1 b hreached.2)
    have hcall := moves_call cfg ⟨now, b, .recordSuccess⟩ hreached.1
    rw [breakerState_of_cell (hcall.cell_some hc'), onlyAt_self]
    simp [Cell.call, Cell.state_recordSuccess hen]

/-- One failure before the trip. -/
theorem managerReachable_fourFailures : ManagerReachable (Config.default (fun _ => 0))
    (run (call (Config.default (fun _ => 0))) sampleGateway
      (List.replicate 4 ⟨0, "backend-1", .recordFailure "HTTP 500"⟩)) :=
  (Runs.Reachable.start ⟨0, rfl⟩).run (eachStep_of_forall (by simp))

/-- Five failures open the breaker; a call past the cooldown makes it half-open
and a success then closes it. -/
theorem open_phase_respects_cooldown_sample :
    ∃ first m rest,
      ([⟨15001, "backend-1", .canExecute⟩, ⟨15002, "backend-1", .recordSuccess⟩] :
        List ManagerCall) = first ++ m :: rest ∧ (1 : Int) + 15000 ≤ m.now := by
  obtain ⟨first, m, rest, hsplit, -, hcool⟩ :=
    (open_phase_respects_cooldown (b := "backend-1")
      ⟨1, "backend-1", .recordFailure "HTTP 500"⟩
      [⟨15001, "backend-1", .canExecute⟩, ⟨15002, "backend-1", .recordSuccess⟩]
      managerReachable_fourFailures (by decide) (by decide) (by decide)
      (by decide)).1 _ [] (List.append_nil _).symm (by decide)
  exact ⟨first, m, rest, hsplit, hcool⟩

/-- A success recorded one millisecond after the trip closes the breaker. -/
theorem open_phase_cut_short :
    ¬ ∀ (cfg : Config) (b : String) (g : Gateway) (m₀ : ManagerCall) (es : List ManagerCall),
      ManagerReachable cfg g → b ∈ g.pool.ids →
      g.breakerState b ≠ some .opened →
      (g.call cfg m₀).breakerState b = some .opened →
      (m₀ :: es).Pairwise (fun m m' => m.now ≤ m'.now) →
      (∀ m ∈ es, m.call ≠ .reset) →
      ∀ before after, es = before ++ after →
        (run (call cfg) (g.call cfg m₀) before).breakerState b = some .closed →
        ∃ first m rest, before = first ++ m :: rest ∧
          (run (call cfg) (g.call cfg m₀) (first ++ [m])).breakerState b = some .halfOpen ∧
          m₀.now + cfg.cooldownMs ≤ m.now := by
  intro hclaim
  obtain ⟨first, m, rest, hsplit, -, hcool⟩ :=
    hclaim _ "backend-1" _ ⟨0, "backend-1", .recordFailure "HTTP 500"⟩
      [⟨1, "backend-1", .recordSuccess⟩] managerReachable_fourFailures (by decide)
      (by decide) (by decide) (by decide) (by decide) _ [] (List.append_nil _).symm
      (by decide)
  have hm : m ∈ [(⟨1, "backend-1", .recordSuccess⟩ : ManagerCall)] := by
    rw [hsplit]
    simp
  obtain rfl := List.mem_singleton.mp hm
  simp [Config.default] at hcool

end Calls

end Gateway

end SentinelADC
