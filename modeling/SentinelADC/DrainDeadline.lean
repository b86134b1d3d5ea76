import SentinelADC.DrainTimers
import SentinelADC.Connections
import SentinelADC.Lib.Double
import Mathlib.Data.List.TakeWhile

/-!
# When a drain is forced

A draining backend goes offline when its last connection ends or when the timer
of its drain runs.  `setTimeout` keeps the delay only up to 2147483647
milliseconds, and the drain route sets no bound on the timeout: a longer one is
replaced by one millisecond.
-/

namespace SentinelADC

open Runs TimerTable

section Route

/-- The number that the leading digits stand for, as a double. -/
def leadingNumber (cs : List Char) : Option Int :=
  if cs.takeWhile Char.isDigit = [] then none
  else some (Double.round (Nat.ofDigitChars 10 (cs.takeWhile Char.isDigit) 0))

/-- `parseInt(text, 10)`, with `none` for `NaN`. -/
def parseInt (text : String) : Option Int :=
  match text.toList.dropWhile isJsSpace with
  | '-' :: cs => (leadingNumber cs).map (fun n => -n)
  | '+' :: cs => leadingNumber cs
  | cs => leadingNumber cs

/-- `parseInt(req.body.timeoutSec || req.query.timeoutSec, 10) || 30` in the drain
route.  A number in the body stands for its text, except that 0 counts as absent. -/
def drainTimeout (body query : Option String) : Int :=
  match ((truthy body).or query).bind parseInt with
  | none => 30
  | some timeoutSec => if timeoutSec = 0 then 30 else timeoutSec

/-- The digits of a number are read back. -/
theorem parseInt_repr (n : Nat) :
    parseInt n.repr = some (Double.round n) := by
  have hlist : n.repr.toList = Nat.toDigits 10 n := by
    rw [Nat.repr, String.toList_ofList]
  have hdigits : ∀ c ∈ Nat.toDigits 10 n, c.isDigit = true :=
    fun c hc => Nat.isDigit_of_mem_toDigits (by decide) (by decide) hc
  have hnumber : leadingNumber (Nat.toDigits 10 n) = some (Double.round n) := by
    rw [leadingNumber, List.takeWhile_eq_self_iff.mpr hdigits, if_neg Nat.toDigits_ne_nil,
      Nat.ofDigitChars_ten_toDigits]
  obtain ⟨c, cs, hcons⟩ := List.exists_cons_of_ne_nil (Nat.toDigits_ne_nil (n := n) (b := 10))
  have hc : c.isDigit = true := hdigits c (by simp [hcons])
  have hrange : 48 ≤ c.toNat ∧ c.toNat ≤ 57 := by
    simpa [Char.isDigit, UInt32.le_iff_toNat_le] using hc
  have hspace : isJsSpace c = false := by
    simp [isJsSpace]
    omega
  have hminus : c ≠ '-' := by
    rintro rfl
    cases hc
  have hplus : c ≠ '+' := by
    rintro rfl
    cases hc
  rw [parseInt, hlist, hcons, List.dropWhile_cons_of_neg (by simp [hspace])]
  split
  · next heq => exact absurd (List.cons.inj heq).1 hminus
  · next heq => exact absurd (List.cons.inj heq).1 hplus
  · rw [← hcons, hnumber]

/-- A timeout that is a positive number is the timeout of the drain. -/
theorem drainTimeout_repr {body query : Option String} {n : Nat}
    (hfield : (truthy body).or query = some n.repr) (hpos : 0 < n) :
    drainTimeout body query = Double.round n := by
  have hround : 0 < Double.round n := by
    have hmono : Double.round 1 ≤ Double.round n :=
      Double.round_mono_of_nonneg (by decide) (by exact_mod_cast hpos)
    have hone : Double.round 1 = 1 := by decide
    omega
  simp only [drainTimeout, hfield, Option.bind_some, parseInt_repr, hround.ne', if_false]

end Route

namespace Cell

variable {cfg : Config} {c : Cell} {op : CellOp}

theorem not_offline_syncBreaker (s : CircuitState) (b : Backend) :
    (b.syncBreaker s).status ≠ .offline := by
  cases s <;> simp [Backend.syncBreaker]

theorem status_transitionTo {now : Int} {s : CircuitState} (h : c.backend.status ≠ .offline) :
    (c.transitionTo now s).backend.status ≠ .offline := by
  simp only [transitionTo]
  split_ifs
  · exact h
  · exact not_offline_syncBreaker s c.backend

/-- Only the drain manager sets the status `offline`, and while there are
connections it needs a deadline or a decrement for it. -/
theorem not_offline_step (hdisconnect : op ≠ .disconnect) (hdeadline : op ≠ .drainDeadline)
    (hactive : 0 < c.backend.activeConnections) (h : c.backend.status ≠ .offline) :
    (c.step cfg op).backend.status ≠ .offline := by
  cases op with
  | consult now =>
      rcases consult_cases cfg now c with hc | ⟨-, -, hc⟩ | ⟨-, -, hc⟩ <;> rw [step, hc]
      · exact h
      · exact not_offline_syncBreaker .halfOpen c.backend
      · exact h
  | recordSuccess now =>
      simp only [step, recordSuccess]
      split_ifs
      · exact h
      · exact status_transitionTo h
  | recordFailure now error =>
      simp only [step, recordFailure]
      split_ifs
      · exact h
      · exact status_transitionTo h
      · exact h
  | resetBreaker now => exact status_transitionTo h
  | recordResult now success latency =>
      simp only [step, recordResult, updateBackendHealthState]
      split_ifs <;> simp
  | override healthy => cases healthy <;> simp [step, Cell.override, Backend.override]
  | setWeight weight => exact h
  | drain now =>
      simp only [step, drain, not_le.mpr hactive, if_false]
      split_ifs
      · exact h
      · simp [Backend.startDrain, Backend.attachDrainCallback]
  | drainDeadline => exact absurd rfl hdeadline
  | undrain => simp [step, undrain, Backend.undrain]
  | connect => exact h
  | disconnect => exact absurd rfl hdisconnect

theorem not_offline_run {ops : List CellOp} (hdisconnect : .disconnect ∉ ops)
    (hdeadline : .drainDeadline ∉ ops) (hactive : 0 < c.backend.activeConnections)
    (h : c.backend.status ≠ .offline) :
    (run (Cell.step cfg) c ops).backend.status ≠ .offline := by
  have hrun : 0 < (run (Cell.step cfg) c ops).backend.activeConnections ∧
      (run (Cell.step cfg) c ops).backend.status ≠ .offline := by
    refine run_preserves (P := fun c : Cell => 0 < c.backend.activeConnections ∧
      c.backend.status ≠ .offline) ⟨hactive, h⟩ ?_
    rintro op hop c ⟨hc, hstatus⟩
    have hne : op ≠ .disconnect := fun heq => hdisconnect (heq ▸ hop)
    exact ⟨activeConnections_pos_step hne hc,
      not_offline_step hne (fun heq => hdeadline (heq ▸ hop)) hc hstatus⟩
  exact hrun.2

/-- The decrement that completes a drain is the one of the last connection. -/
theorem idle_of_offline_step
    (h : c.backend.status = .offline → c.backend.activeConnections ≤ 0)
    (hoffline : (c.step cfg .disconnect).backend.status = .offline) :
    (c.step cfg .disconnect).backend.activeConnections ≤ 0 := by
  simp only [step, disconnect] at hoffline ⊢
  split_ifs at hoffline ⊢ with hlast
  · exact hlast.2.1.le
  · have hbefore : c.backend.activeConnections ≤ 0 := h hoffline
    simp only [Backend.disconnect]
    omega

theorem idle_of_offline_run {ops : List CellOp} (hops : ∀ op ∈ ops, op = .disconnect)
    (h : c.backend.status = .offline → c.backend.activeConnections ≤ 0) :
    (run (Cell.step cfg) c ops).backend.status = .offline →
      (run (Cell.step cfg) c ops).backend.activeConnections ≤ 0 := by
  refine run_preserves (P := fun c : Cell => c.backend.status = .offline →
    c.backend.activeConnections ≤ 0) h ?_
  intro op hop c hc
  obtain rfl := hops op hop
  exact idle_of_offline_step hc

end Cell

namespace Gateway

section Deadlines

variable {cfg : Config} {g g₀ : Gateway} {b : String} {timeoutSec : Int}

/-- A deadline timer acts only on the backend it was set for. -/
theorem due_of_drainDeadline {e : Event} (h : .drainDeadline ∈ effects cfg g e b) :
    ∃ timer ∈ g.timers.pendingOf DrainTimer.backendId b, timer.fireAt ≤ e.now := by
  obtain ⟨handle, hop⟩ := causes_of_mem_effects h
  obtain ⟨now, op⟩ := e
  obtain rfl : op = .drainTimer handle := hop
  simp only [effects] at h
  cases hdue : g.dueTimer now handle with
  | none => simp [hdue] at h
  | some timer =>
      simp only [hdue] at h
      obtain ⟨hid, -⟩ := eq_and_mem_of_mem_opsAt h
      have hfound := List.find?_some hdue
      simp only [decide_eq_true_eq] at hfound
      refine ⟨timer, List.mem_filter.mpr ⟨List.mem_of_find?_eq_some hdue, ?_⟩, hfound.2⟩
      simp [hid]

/-- What takes a draining backend offline. -/
theorem idle_or_due_of_offline {e : Event} {backend : Backend} (hg : Reachable cfg g)
    (hdraining : g.DrainingAt b) (hfind : (g.step cfg e).pool.find b = some backend)
    (hoffline : backend.status = .offline) :
    backend.activeConnections ≤ 0 ∨
      ∃ timer ∈ g.timers.pendingOf DrainTimer.backendId b, timer.fireAt ≤ e.now := by
  obtain ⟨c, hc⟩ := hdraining.exists_cell hg.complete
  have hstatus := (drainingAt_iff hc).mp hdraining
  obtain rfl : (run (Cell.step cfg) c (effects cfg g e b)).backend = backend :=
    Option.some.inj ((cell_eq_some_iff.mp (cell_step cfg e hg.complete hc)).1.symm.trans hfind)
  by_cases hdeadline : .drainDeadline ∈ effects cfg g e b
  · exact Or.inr (due_of_drainDeadline hdeadline)
  · left
    rcases effects_disconnect cfg g e b with hnone | honly
    · exact absurd hoffline (Cell.not_offline_run hnone hdeadline (hg.armed hc hstatus).1
        (by simp [hstatus]))
    · exact Cell.idle_of_offline_run honly (by simp [hstatus]) hoffline

/-- From the drain call on, and while its drain goes on, the one timer that is
pending for the backend is the one that the call set. -/
theorem pendingOf_since_drain {e : Event} (post : List Event) (hg : Reachable cfg g)
    (hop : e.op = .drain b timeoutSec) (hbefore : ¬ g.DrainingAt b)
    (hsince : ∀ later, later <+: post → (run (step cfg) g (e :: later)).DrainingAt b) :
    (run (step cfg) g (e :: post)).timers.pendingOf DrainTimer.backendId b =
      [g.deadlineTimer b e timeoutSec] := by
  induction post using List.reverseRecOn with
  | nil =>
      have hstart : g.startsDrain b e = true := by
        by_contra hno
        have hkeeps := keepsDrain_step cfg hg.complete (Bool.eq_false_iff.mpr hno)
        exact hbefore (hkeeps.keeps hg.timersConsistent (hsince [] (List.nil_prefix))).1
      obtain ⟨-, -, -, timeoutSec', hop', hpending⟩ :=
        timers_step_of_startsDrain cfg hg.timersConsistent hstart
      obtain rfl : timeoutSec = timeoutSec' := by
        rw [hop] at hop'
        exact (Op.drain.inj hop').2
      exact hpending
  | append_singleton post e' ih =>
      have hinit : ∀ later, later <+: post → (run (step cfg) g (e :: later)).DrainingAt b :=
        fun later h => hsince later (h.trans (List.prefix_append post [e']))
      have hreach : Reachable cfg (run (step cfg) g (e :: post)) := hg.run_step (e :: post)
      have hrun : run (step cfg) g (e :: (post ++ [e'])) =
          (run (step cfg) g (e :: post)).step cfg e' := by
        rw [← List.cons_append, run_append, run_cons, run_nil]
      have hnostart : (run (step cfg) g (e :: post)).startsDrain b e' = false := by
        by_contra hyes
        obtain ⟨-, -, hnot, -⟩ := timers_step_of_startsDrain cfg hreach.timersConsistent
          (Bool.eq_true_of_not_eq_false hyes)
        exact hnot (hinit post (List.prefix_refl post))
      have hdraining := hsince (post ++ [e']) (List.prefix_refl _)
      have hkeeps := keepsDrain_step cfg hreach.complete hnostart
      rw [hrun] at hdraining ⊢
      rw [(hkeeps.keeps hreach.timersConsistent hdraining).2]
      exact ih hinit

/-- `setTimeout` does not run a timer early, as long as the delay fits. -/
theorem le_timerDelay {ms : Int} (h : ms ≤ 2147483647) :
    ms ≤ timerDelay ms := by
  simp only [timerDelay]
  split_ifs <;> omega

/--
A drain call with this timeout puts `b` in the status `draining`, and the last
event after it leaves `b` offline; then `b` has no connection any more, or the
timeout is over.  When there is no event after the call, it was the call itself.
-/
def OfflineWhenDue (timeoutSec : Nat) : Prop :=
  ∀ (cfg : Config) (g₀ : Gateway) (pre : List Event) (e : Event) (post : List Event) (b : String)
    (body query : Option String) (backend : Backend), Booted cfg g₀ →
    (truthy body).or query = some timeoutSec.repr → e.op = .drain b (drainTimeout body query) →
    ¬ (run (step cfg) g₀ pre).DrainingAt b →
    (∀ later, later <+: post → later ≠ post →
      (run (step cfg) g₀ (pre ++ e :: later)).DrainingAt b) →
    (run (step cfg) g₀ (pre ++ e :: post)).pool.find b = some backend →
    backend.status = .offline →
    backend.activeConnections = 0 ∨
      e.now + timeoutSec * 1000 ≤ ((e :: post).getLast (List.cons_ne_nil e post)).now

/-- A drain call that leaves a backend offline found no connection. -/
theorem idle_of_drain {e : Event} {backend : Backend} (hg : Reachable cfg g)
    (hop : e.op = .drain b timeoutSec) (hfind : (g.step cfg e).pool.find b = some backend)
    (hoffline : backend.status = .offline) :
    backend.activeConnections ≤ 0 := by
  obtain ⟨c, hc, rfl⟩ := (complete_step e hg.complete).exists_cell hfind
  have hmem : b ∈ g.pool.ids := ids_step cfg e hg.complete ▸ mem_ids_of_cell hc
  obtain ⟨c₀, hc₀⟩ := Option.isSome_iff_exists.mp (hg.complete b hmem)
  have hafter := (cell_step cfg e hg.complete hc₀).symm.trans hc
  simp only [effects, hop, opsAt_self, run_cons, run_nil, Option.some.injEq] at hafter
  subst hafter
  simp only [Cell.step, Cell.drain] at hoffline ⊢
  split_ifs at hoffline ⊢ with hdraining hidle
  · rw [hdraining] at hoffline
    cases hoffline
  · exact hidle
  · cases hoffline

theorem offlineWhenDue_of_le {timeoutSec : Nat} (hpos : 0 < timeoutSec)
    (hle : timeoutSec ≤ 2147483) :
    OfflineWhenDue timeoutSec := by
  intro cfg g₀ pre e post b body query backend hboot hfield hop hbefore hsince hfind hoffline
  have hreach : ∀ es, Reachable cfg (run (step cfg) g₀ es) :=
    Reachable.run_step (.start hboot)
  rw [drainTimeout_repr hfield hpos, Double.round_natCast,
    Double.roundNat_of_le (by omega)] at hop
  suffices hcases : backend.activeConnections ≤ 0 ∨ e.now + timeoutSec * 1000 ≤
      ((e :: post).getLast (List.cons_ne_nil e post)).now by
    refine hcases.imp_left (fun hidle => ?_)
    obtain ⟨c, hc, rfl⟩ := (hreach _).complete.exists_cell hfind
    have hcount := (hreach _).activeConnections_eq hc
    omega
  rcases List.eq_nil_or_concat' post with rfl | ⟨post, e', rfl⟩
  · left
    rw [run_append] at hfind
    exact idle_of_drain (hreach pre) hop hfind hoffline
  · have hdraining : ∀ later, later <+: post →
        (run (step cfg) (run (step cfg) g₀ pre) (e :: later)).DrainingAt b := by
      intro later hlater
      rw [← run_append]
      refine hsince later (hlater.trans (List.prefix_append post [e'])) (fun heq => ?_)
      have := hlater.length_le
      simp [heq] at this
    have hpending := pendingOf_since_drain post (hreach pre) hop hbefore hdraining
    have hrun : run (step cfg) g₀ (pre ++ e :: (post ++ [e'])) =
        (run (step cfg) (run (step cfg) g₀ pre) (e :: post)).step cfg e' := by
      rw [run_append, ← List.cons_append, run_append _ (e :: post), run_cons, run_nil]
    have hstate : Reachable cfg (run (step cfg) (run (step cfg) g₀ pre) (e :: post)) :=
      (hreach pre).run_step (e :: post)
    rw [hrun] at hfind
    refine (idle_or_due_of_offline hstate (hdraining post (List.prefix_refl post)) hfind
      hoffline).imp_right ?_
    rintro ⟨timer, hmem, hdue⟩
    rw [hpending, List.mem_singleton] at hmem
    subst hmem
    have hlast : ((e :: (post ++ [e'])).getLast (List.cons_ne_nil e _)) = e' := by simp
    have hdelay : (timeoutSec : Int) * 1000 ≤ timerDelay (timeoutSec * 1000) :=
      le_timerDelay (by omega)
    rw [hlast]
    simp only [deadlineTimer] at hdue
    omega

/-- A timer that is due takes a draining backend offline. -/
theorem effects_of_due {timer : DrainTimer} {now : Int} (hg : Reachable cfg g)
    (hmem : timer ∈ g.timers.pendingOf DrainTimer.backendId b) (hdue : timer.fireAt ≤ now) :
    effects cfg g ⟨now, .drainTimer timer.handle⟩ b = [.drainDeadline] := by
  obtain ⟨hpending, hid⟩ := List.mem_filter.mp hmem
  have hfound : (g.dueTimer now timer.handle).isSome :=
    List.find?_isSome.mpr ⟨timer, hpending, by simp [hdue]⟩
  obtain ⟨t, ht⟩ := Option.isSome_iff_exists.mp hfound
  have hhandle : t.handle = timer.handle := by
    have hdue := List.find?_some ht
    simp only [decide_eq_true_eq] at hdue
    exact hdue.1
  -- timers with one handle have one owner
  have howner : t.backendId = timer.backendId := by
    have hstored := hg.timersConsistent.stored_of_mem t (List.mem_of_find?_eq_some ht)
    have hstored' := hg.timersConsistent.stored_of_mem timer hpending
    rw [hhandle] at hstored
    exact hg.timersConsistent.owner_unique _ _ _ hstored hstored'
  simp only [decide_eq_true_eq] at hid
  simp [effects, ht, howner, hid]

/-- A timeout that does not fit into a timer takes one millisecond. -/
theorem timerDelay_of_lt {n : Nat} (h : 2147483 < n) :
    timerDelay (Double.round n * 1000) = 1 := by
  have hmono : Double.round 2147484 ≤ Double.round n :=
    Double.round_mono_of_nonneg (by decide) (by exact_mod_cast h)
  have hround : Double.round 2147484 = 2147484 := by decide
  simp only [timerDelay]
  rw [if_pos (Or.inl (by omega))]

/-- A drain with such a timeout is over after one millisecond, whatever the backend
still serves. -/
theorem forced_of_delay_one {e : Event} {c : Cell} (hg : Reachable cfg g)
    (hc : g.cell b = some c) (hstatus : c.backend.status ≠ .draining)
    (hactive : 0 < c.backend.activeConnections) (hop : e.op = .drain b timeoutSec)
    (hdelay : timerDelay (timeoutSec * 1000) = 1) :
    (g.step cfg e).DrainingAt b ∧
      ∃ backend, ((g.step cfg e).step cfg ⟨e.now + 1, .drainTimer g.timers.next⟩).pool.find b =
          some backend ∧ backend.status = .offline ∧
        backend.activeConnections = c.backend.activeConnections := by
  have hdrained : (g.step cfg e).cell b =
      some { c with backend := (c.backend.startDrain e.now).attachDrainCallback } := by
    rw [cell_step cfg e hg.complete hc]
    simp [effects, hop, Cell.step, Cell.drain, hstatus, not_le.mpr hactive]
  have hdraining : (g.step cfg e).DrainingAt b := by
    rw [drainingAt_iff hdrained]
    rfl
  have hpending := pendingOf_since_drain [] hg hop
    (fun h => hstatus ((drainingAt_iff hc).mp h))
    (fun later hlater => by rwa [List.prefix_nil.mp hlater])
  have hnext : Reachable cfg (g.step cfg e) := hg.run_step [e]
  have hdue : effects cfg (g.step cfg e) ⟨e.now + 1, .drainTimer g.timers.next⟩ b =
      [.drainDeadline] := by
    rw [run_cons, run_nil] at hpending
    have hmem : g.deadlineTimer b e timeoutSec ∈
        (g.step cfg e).timers.pendingOf DrainTimer.backendId b := by simp [hpending]
    have hover : (g.deadlineTimer b e timeoutSec).fireAt ≤ e.now + 1 := by
      simp [deadlineTimer, hdelay]
    exact effects_of_due hnext hmem hover
  have hforced := cell_step cfg ⟨e.now + 1, .drainTimer g.timers.next⟩ hnext.complete hdrained
  rw [hdue] at hforced
  exact ⟨hdraining, _, (cell_eq_some_iff.mp hforced).1, rfl, rfl⟩

theorem eq_nil_of_strict_prefix {e : Event} {later : List Event} (h : later <+: [e])
    (hne : later ≠ [e]) :
    later = [] := by
  rcases List.prefix_concat_iff.mp (show later <+: [] ++ [e] from h) with heq | hnil
  · exact absurd heq hne
  · exact List.prefix_nil.mp hnil

/-- The first backend serves one request. -/
def busyRun : List Event :=
  [⟨0, .request 0 ⟨"GET", "/", none, none, none, none⟩⟩, ⟨0, .route 0⟩]

theorem not_offlineWhenDue {timeoutSec : Nat} (h : 2147483 < timeoutSec) :
    ¬ OfflineWhenDue timeoutSec := by
  intro hwhen
  have hboot : Booted (Config.default (fun _ => 0)) sampleGateway := ⟨0, rfl⟩
  have hreach : Reachable (Config.default (fun _ => 0))
      (run (step (Config.default (fun _ => 0))) sampleGateway busyRun) :=
    Reachable.run_step (.start hboot) busyRun
  have hbusy : ((run (step (Config.default (fun _ => 0))) sampleGateway busyRun).pool.find
      "backend-1").map (fun b => (b.status, b.activeConnections)) = some (.healthy, 1) := by
    decide
  obtain ⟨backend, hfind, hfields⟩ := Option.map_eq_some_iff.mp hbusy
  obtain ⟨c, hc, rfl⟩ := hreach.complete.exists_cell hfind
  obtain ⟨hhealthy, hone⟩ := Prod.mk.inj hfields
  have hnot : c.backend.status ≠ .draining := by
    rw [hhealthy]
    decide
  have hdelay : timerDelay (drainTimeout none (some timeoutSec.repr) * 1000) = 1 := by
    rw [drainTimeout_repr rfl (by omega), timerDelay_of_lt h]
  obtain ⟨hdraining, backend, hfind', hoffline, hactive⟩ :=
    forced_of_delay_one (e := ⟨5, .drain "backend-1" (drainTimeout none (some timeoutSec.repr))⟩)
      hreach hc hnot (by omega) rfl hdelay
  have hend := hwhen (Config.default (fun _ => 0)) sampleGateway busyRun
    ⟨5, .drain "backend-1" (drainTimeout none (some timeoutSec.repr))⟩
    [⟨6, .drainTimer (run (step (Config.default (fun _ => 0))) sampleGateway
      busyRun).timers.next⟩] "backend-1" none (some timeoutSec.repr) backend hboot rfl rfl
    (fun hdrains => hnot ((drainingAt_iff hc).mp hdrains)) ?_ (by rwa [run_append]) hoffline
  · rcases hend with hidle | hover
    · omega
    · simp only [List.getLast_cons_cons, List.getLast_singleton] at hover
      omega
  · intro later hlater hne
    obtain rfl := eq_nil_of_strict_prefix hlater hne
    rw [run_append]
    exact hdraining

/-- In every run, every drain with this timeout keeps to its deadline, exactly when the
timeout fits into a timer. -/
theorem drain_deadline_iff {timeoutSec : Nat} (hpos : 0 < timeoutSec) :
    OfflineWhenDue timeoutSec ↔ timeoutSec ≤ 2147483 :=
  ⟨fun h => not_lt.mp (fun hlt => not_offlineWhenDue hlt h), offlineWhenDue_of_le hpos⟩

theorem drain_deadline_iff_day :
    OfflineWhenDue 86400 ↔ 86400 ≤ 2147483 :=
  drain_deadline_iff (by decide)

/-- The backend that still serves a request goes offline 1 millisecond after the drain
call with a timeout of 2147484 seconds. -/
theorem drain_forced_early :
    ¬ OfflineWhenDue 2147484 := by
  intro hwhen
  have hend := hwhen (Config.default (fun _ => 0)) sampleGateway busyRun
    ⟨5, .drain "backend-1" (drainTimeout (some "2147484") none)⟩ [⟨6, .drainTimer 0⟩] "backend-1"
    (some "2147484") none
    { createBackend 0 "http://localhost:4001" with
      healthy := false
      status := .offline
      activeConnections := 1
      drainStartTime := some 5 }
    ⟨0, rfl⟩ rfl rfl (by unfold DrainingAt; decide) ?_ (by decide) rfl
  · revert hend
    decide
  · intro later hlater hne
    obtain rfl := eq_nil_of_strict_prefix hlater hne
    unfold DrainingAt
    decide

end Deadlines

end Gateway

end SentinelADC
