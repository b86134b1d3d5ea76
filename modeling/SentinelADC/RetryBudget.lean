import SentinelADC.RetrySafety
import SentinelADC.Lib.Potential

/-!
# Retry budget

How long the retry protocol of `proxy/proxyMiddleware.js` can go on for one
request.  Every callback that changes a proxied request uses up one of the
callbacks that its phase and its remaining retries allow, so that only so many
events of a run change it; and a request that is not done has an event that is
due, unless its router call found no backend, for then the proxy has done with it
without an answer.  The backoff delays are paid from a second potential, which
the attempts made so far determine.
-/

namespace SentinelADC

open Runs

namespace Exchange

/-- What the phase of a request says about its answer. -/
structure Answering (x : Exchange) : Prop where
  settled : x.phase = .settled → x.headersSent = true
  unanswered : x.phase ≠ .settled → x.reply = none

section EventsLeft

variable {x x' : Exchange}

theorem attempts_le_afterError (random : Rat) (x : Exchange) :
    x.attempts ≤ (x.afterError random).attempts := by
  unfold afterError
  dsimp only
  split_ifs <;> simp

end EventsLeft

section Answers

variable {x : Exchange}

theorem answering_start (rid : ℕ) (req : ClientRequest) :
    (start rid req).Answering :=
  ⟨by simp [start], fun _ => rfl⟩

/-- The router callback answers only when it fails. -/
theorem Answering.onRoute {selection : Option SelectResult} {probe : String → Bool}
    (h : x.Answering) :
    (x.onRoute selection probe).Answering := by
  simp only [Exchange.onRoute]
  split_ifs with hphase
  · have hunanswered := h.unanswered (by simp [hphase])
    split
    · exact ⟨by simp, fun _ => hunanswered⟩
    · exact ⟨by simp [attach], fun _ => hunanswered⟩
    · exact ⟨by simp, fun _ => hunanswered⟩
    · exact ⟨fun _ => rfl, fun hne => absurd rfl hne⟩
    · exact h
    · exact h
  · exact h

/-- An error starts a retry before anything is sent, or the request settles with
its headers sent. -/
theorem Answering.afterError (h : x.Answering) (random : Rat) (hawait : x.awaitsError = true) :
    (x.afterError random).Answering := by
  have hunanswered : x.reply = none := by
    refine h.unanswered (fun hphase => ?_)
    simp [awaitsError, hphase] at hawait
  unfold Exchange.afterError
  dsimp only
  split_ifs with hretry hdelay hsent hmethod
  · exact ⟨by simp, fun _ => hunanswered⟩
  · exact ⟨by simp, fun _ => hunanswered⟩
  · exact ⟨fun _ => rfl, fun hne => absurd rfl hne⟩
  · exact ⟨fun _ => rfl, fun hne => absurd rfl hne⟩
  · exact ⟨fun _ => Bool.eq_true_of_not_eq_false hsent, fun hne => absurd rfl hne⟩

end Answers

end Exchange

namespace Gateway

section Budget

variable {cfg : Config} {g : Gateway} {rid : ℕ} {x : Exchange}

/-- Attempts are counted up. -/
theorem attempts_le_exchangeAfter (e : Event) :
    x.attempts ≤ (g.exchangeAfter cfg e x).attempts := by
  obtain ⟨now, op⟩ := e
  cases op with
  | route rid' =>
      simp only [exchangeAfter, Exchange.onRoute]
      split_ifs
      · split <;> exact Nat.le_refl _
      · exact Nat.le_refl _
  | proxyRes rid' status latency =>
      simp only [exchangeAfter, Exchange.onProxyRes]
      split_ifs <;> exact Nat.le_refl _
  | pipeBody rid' =>
      simp only [exchangeAfter, Exchange.onPipeBody]
      split_ifs <;> exact Nat.le_refl _
  | proxyError rid' err latency random =>
      simp only [exchangeAfter, Exchange.onProxyError]
      split_ifs
      · exact Exchange.attempts_le_afterError random x
      · exact Nat.le_refl _
  | resumeRetry rid' =>
      simp only [exchangeAfter, Exchange.onResumeRetry]
      split_ifs <;> exact Nat.le_refl _
  | finish rid' =>
      simp only [exchangeAfter, Exchange.onFinish]
      split_ifs <;> exact Nat.le_refl _
  | close rid' =>
      simp only [exchangeAfter, Exchange.onClose]
      split_ifs <;> exact Nat.le_refl _
  | _ => exact Nat.le_refl _

theorem answering_exchangeAfter (e : Event) (h : x.Answering) :
    (g.exchangeAfter cfg e x).Answering := by
  obtain ⟨now, op⟩ := e
  cases op with
  | route rid' => exact h.onRoute
  | proxyRes rid' status latency =>
      simp only [exchangeAfter, Exchange.onProxyRes]
      split_ifs with hphase
      · exact ⟨by simp, fun _ => h.unanswered (by simp [hphase])⟩
      · exact h
  | pipeBody rid' =>
      simp only [exchangeAfter, Exchange.onPipeBody]
      split_ifs with hphase
      · exact ⟨fun _ => rfl, h.unanswered⟩
      · exact h
  | proxyError rid' err latency random =>
      simp only [exchangeAfter, Exchange.onProxyError]
      split_ifs with hawait
      · exact h.afterError random hawait
      · exact h
  | resumeRetry rid' =>
      simp only [exchangeAfter, Exchange.onResumeRetry]
      split_ifs with hphase
      · exact ⟨by simp, fun _ => h.unanswered (by simp [hphase])⟩
      · exact h
  | finish rid' =>
      simp only [exchangeAfter, Exchange.onFinish]
      split_ifs <;> exact ⟨h.settled, h.unanswered⟩
  | close rid' =>
      simp only [exchangeAfter, Exchange.onClose]
      split_ifs <;> exact ⟨h.settled, h.unanswered⟩
  | _ => exact h

/-- A number that is not in use stays free or is given to a new request. -/
theorem exchange_step_none (cfg : Config) (e : Event) (hg : g.WellFormed)
    (hx : g.exchange rid = none) :
    (g.step cfg e).exchange rid = none ∨
      ∃ req, (g.step cfg e).exchange rid = some (Exchange.start rid req) := by
  cases hx' : (g.step cfg e).exchange rid with
  | none => exact Or.inl rfl
  | some x' =>
      refine Or.inr ?_
      have hkey : x'.rid = rid := KeyedList.key_of_findKey hx'
      rcases exchange_origin e hg (KeyedList.mem_of_findKey hx') with
        ⟨x, hmem, rfl⟩ | ⟨rid', req, -, rfl⟩
      · have hold : x.rid = rid := by
          simp only [exchangeNext] at hkey
          split_ifs at hkey
          · rwa [rid_exchangeAfter] at hkey
          · exact hkey
        have hfind := KeyedList.findKey_of_mem hg.nodup_rids hmem
        rw [hold] at hfind
        rw [exchange, hfind] at hx
        cases hx
      · obtain rfl : rid' = rid := hkey
        exact ⟨req, rfl⟩

/-- A potential of one request, with a value for its arrival. -/
def potentialOf (rid arrival : ℕ) (measure : Exchange → ℕ) (g : Gateway) : ℕ :=
  match g.exchange rid with
  | none => arrival
  | some x => measure x

/-- Every request counts the attempt that it is in. -/
theorem Reachable.attempts_pos (hg : Reachable cfg g) (hx : x ∈ g.exchanges) :
    1 ≤ x.attempts := by
  refine hg.exchange_invariant (P := fun x => 1 ≤ x.attempts) (fun _ _ => Nat.le_refl 1) ?_ hx
  intro g e x hpos
  exact Nat.le_trans hpos (attempts_le_exchangeAfter e)

theorem Reachable.answering (hg : Reachable cfg g) (hx : x ∈ g.exchanges) :
    x.Answering :=
  hg.exchange_invariant (fun rid req => Exchange.answering_start rid req)
    (fun _ e _ h => answering_exchangeAfter e h) hx

end Budget

end Gateway

/-- The value of `Math.random()` that an event uses. -/
def Op.random? : Op → Option Rat
  | .proxyError _ _ _ random => some random
  | _ => none

/-- Full jitter stays below the capped exponential delay. -/
theorem calculateBackoffJitter_lt {random : Rat} (attempt : ℕ) (baseMs maxMs : Int)
    (hpos : 0 ≤ random) (hlt : random < 1) (hcap : 0 < min maxMs (baseMs * 2 ^ attempt)) :
    0 ≤ calculateBackoffJitter random attempt baseMs maxMs ∧
      calculateBackoffJitter random attempt baseMs maxMs < min maxMs (baseMs * 2 ^ attempt) := by
  have hcast : (0 : Rat) < ((min maxMs (baseMs * 2 ^ attempt) : Int) : Rat) := by
    exact_mod_cast hcap
  refine ⟨Int.floor_nonneg.mpr (mul_nonneg hpos hcast.le), ?_⟩
  rw [calculateBackoffJitter, Int.floor_lt]
  exact (mul_lt_iff_lt_one_left hcast).mpr hlt

namespace Exchange

/-- `delayMs` of an error event, if it starts a retry. -/
def backoffDelay (random : Rat) (x : Exchange) : ℕ :=
  if x.awaitsError = true ∧ isIdempotent x.request.method = true ∧ x.attempts ≤ maxRetries ∧
      x.headersSent = false then
    (calculateBackoffJitter random (x.attempts + 1) 50 500).toNat
  else 0

/-- The longest delays that the retries still to come can add up to. -/
def delaysLeft (x : Exchange) : ℕ :=
  if isIdempotent x.request.method = true ∧ x.headersSent = false then
    match x.attempts with
    | 0 => 697
    | 1 => 598
    | 2 => 399
    | _ => 0
  else 0

section Delays

variable {x x' : Exchange} {random : Rat}

theorem delaysLeft_le (hx : 1 ≤ x.attempts) :
    x.delaysLeft ≤ 598 := by
  simp only [delaysLeft]
  split_ifs
  · split <;> omega
  · omega

/-- Headers that are sent rule out further retries. -/
theorem delaysLeft_mono (hrequest : x'.request = x.request) (hattempts : x'.attempts = x.attempts)
    (hsent : x'.headersSent = false → x.headersSent = false) :
    x'.delaysLeft ≤ x.delaysLeft := by
  simp only [delaysLeft, hrequest, hattempts]
  by_cases hretry : isIdempotent x.request.method = true ∧ x'.headersSent = false
  · rw [if_pos hretry, if_pos ⟨hretry.1, hsent hretry.2⟩]
  · rw [if_neg hretry]
    exact Nat.zero_le _

theorem afterError_retry (random : Rat) (hretry : isIdempotent x.request.method = true ∧
    x.attempts ≤ maxRetries ∧ x.headersSent = false) :
    (x.afterError random).request = x.request ∧
      (x.afterError random).attempts = x.attempts + 1 ∧
      (x.afterError random).headersSent = false := by
  unfold afterError
  dsimp only
  rw [if_pos hretry]
  exact ⟨rfl, rfl, hretry.2.2⟩

theorem afterError_settled (random : Rat) (hretry : ¬ (isIdempotent x.request.method = true ∧
    x.attempts ≤ maxRetries ∧ x.headersSent = false)) :
    (x.afterError random).request = x.request ∧
      (x.afterError random).attempts = x.attempts ∧
      ((x.afterError random).headersSent = false → x.headersSent = false) := by
  unfold afterError
  dsimp only
  rw [if_neg hretry]
  split_ifs <;> simp

/-- A retry pays its delay from what the retries had left. -/
theorem backoffDelay_add_le (hpos : 0 ≤ random) (hlt : random < 1) :
    x.backoffDelay random + (x.onProxyError random).delaysLeft ≤ x.delaysLeft := by
  cases hawait : x.awaitsError with
  | false => simp [backoffDelay, onProxyError, hawait]
  | true =>
      simp only [onProxyError, hawait, if_true]
      by_cases hretry : isIdempotent x.request.method = true ∧ x.attempts ≤ maxRetries ∧
          x.headersSent = false
      · obtain ⟨hrequest, hattempts, hsent⟩ := afterError_retry random hretry
        have hjitter : ∀ cap : ℕ, min (500 : Int) (50 * 2 ^ (x.attempts + 1)) = cap → 0 < cap →
            (calculateBackoffJitter random (x.attempts + 1) 50 500).toNat < cap := by
          intro cap hcap hcap0
          have hbound := calculateBackoffJitter_lt (x.attempts + 1) 50 500 hpos hlt
            (by rw [hcap]; exact_mod_cast hcap0)
          omega
        have hmax : maxRetries = 2 := rfl
        simp only [backoffDelay, delaysLeft, hawait, hrequest, hattempts, hsent, hretry, and_self,
          if_true]
        -- attempts 0, 1 and 2 wait less than 100, 200 and 400 milliseconds
        have hcases : x.attempts = 0 ∨ x.attempts = 1 ∨ x.attempts = 2 := by omega
        rcases hcases with h0 | h1 | h2
        · have := hjitter 100 (by rw [h0]; norm_num) (by norm_num)
          simp only [h0] at this ⊢
          omega
        · have := hjitter 200 (by rw [h1]; norm_num) (by norm_num)
          simp only [h1] at this ⊢
          omega
        · have := hjitter 400 (by rw [h2]; norm_num) (by norm_num)
          simp only [h2] at this ⊢
          omega
      · obtain ⟨hrequest, hattempts, hsent⟩ := afterError_settled random hretry
        have hfree : x.backoffDelay random = 0 := if_neg (fun h => hretry h.2)
        rw [hfree, Nat.zero_add]
        exact delaysLeft_mono hrequest hattempts hsent

end Delays

end Exchange

namespace Gateway

/-- The backoff delay that an event makes a request wait. -/
def backoffWait (rid : ℕ) (g : Gateway) (e : Event) : ℕ :=
  match e.op with
  | .proxyError rid' _ _ random =>
      if rid' = rid then
        match g.exchange rid with
        | none => 0
        | some x => x.backoffDelay random
      else 0
  | _ => 0

section Backoff

variable {cfg : Config} {g : Gateway} {rid : ℕ} {x : Exchange}

/-- Besides an error, nothing gives a request more time to wait. -/
theorem delaysLeft_exchangeAfter (e : Event) (hop : e.op.random? = none) :
    (g.exchangeAfter cfg e x).delaysLeft ≤ x.delaysLeft := by
  obtain ⟨now, op⟩ := e
  cases op with
  | route rid' =>
      simp only [exchangeAfter, Exchange.onRoute]
      split_ifs
      · split
        · exact Exchange.delaysLeft_mono rfl rfl id
        · exact Exchange.delaysLeft_mono rfl rfl id
        · exact Exchange.delaysLeft_mono rfl rfl id
        · exact Exchange.delaysLeft_mono rfl rfl (by simp [Exchange.routingFailed])
        · exact Nat.le_refl _
        · exact Nat.le_refl _
      · exact Nat.le_refl _
  | proxyRes rid' status latency =>
      simp only [exchangeAfter, Exchange.onProxyRes]
      split_ifs
      · exact Exchange.delaysLeft_mono rfl rfl id
      · exact Nat.le_refl _
  | pipeBody rid' =>
      simp only [exchangeAfter, Exchange.onPipeBody]
      split_ifs
      · exact Exchange.delaysLeft_mono rfl rfl (by simp)
      · exact Nat.le_refl _
  | proxyError rid' err latency random => simp [Op.random?] at hop
  | resumeRetry rid' =>
      simp only [exchangeAfter, Exchange.onResumeRetry]
      split_ifs
      · exact Exchange.delaysLeft_mono rfl rfl id
      · exact Nat.le_refl _
  | finish rid' =>
      simp only [exchangeAfter, Exchange.onFinish]
      split_ifs
      · exact Nat.le_refl _
      · exact Exchange.delaysLeft_mono rfl rfl id
  | close rid' =>
      simp only [exchangeAfter, Exchange.onClose]
      split_ifs
      · exact Nat.le_refl _
      · exact Exchange.delaysLeft_mono rfl rfl id
  | _ => exact Nat.le_refl _

/-- An event pays for the wait that it causes. -/
theorem backoffWait_step (e : Event) (hg : g.WellFormed)
    (hrandom : ∀ random ∈ e.op.random?, 0 ≤ random ∧ random < 1) :
    g.backoffWait rid e + (g.step cfg e).potentialOf rid 598 Exchange.delaysLeft ≤
      g.potentialOf rid 598 Exchange.delaysLeft := by
  cases hx : g.exchange rid with
  | none =>
      have hfree : g.backoffWait rid e = 0 := by
        simp only [backoffWait, hx]
        split
        · split_ifs <;> rfl
        · rfl
      rw [hfree, Nat.zero_add]
      rcases exchange_step_none cfg e hg hx with hnone | ⟨req, hsome⟩
      · simp [potentialOf, hx, hnone]
      · have hstart : (Exchange.start rid req).delaysLeft ≤ 598 :=
          Exchange.delaysLeft_le (Nat.le_refl 1)
        simpa [potentialOf, hx, hsome] using hstart
  | some x =>
      have hkey : x.rid = rid := KeyedList.key_of_findKey hx
      have hafter : (g.step cfg e).exchange rid = some (g.exchangeNext cfg e x) :=
        exchange_step e hg hx
      simp only [potentialOf, hx, hafter, exchangeNext, hkey]
      cases hop : e.op.random? with
      | none =>
          have hfree : g.backoffWait rid e = 0 := by
            simp only [backoffWait]
            split
            · next heq => simp [heq, Op.random?] at hop
            · rfl
          rw [hfree, Nat.zero_add]
          split_ifs
          · exact delaysLeft_exchangeAfter e hop
          · exact Nat.le_refl _
      | some random =>
          obtain ⟨now, op⟩ := e
          cases op with
          | proxyError rid' err latency random' =>
              obtain ⟨hpos, hlt⟩ := hrandom random' rfl
              simp only [backoffWait, Op.rid?, Option.some.injEq, hx]
              split_ifs
              · exact Exchange.backoffDelay_add_le hpos hlt
              · rw [Nat.zero_add]
          | _ => simp [Op.random?] at hop

/-- The backoff delays of one request add up to at most 598 milliseconds in
every run, as long as `Math.random()` stays below one. -/
theorem backoff_bounded (hg : Reachable cfg g) (rid : ℕ) (es : List Event)
    (hrandom : ∀ e ∈ es, ∀ random ∈ e.op.random?, 0 ≤ random ∧ random < 1) :
    cost (step cfg) (backoffWait rid) g es ≤ 598 := by
  have hpaid : cost (step cfg) (backoffWait rid) g es ≤
      g.potentialOf rid 598 Exchange.delaysLeft :=
    cost_le (fun _ e hg _ => hg.run_step [e])
      (fun _ e hg hQ => backoffWait_step e hg.wellFormed hQ) hg (eachStep_of_forall hrandom)
  refine Nat.le_trans hpaid ?_
  cases hx : g.exchange rid with
  | none => simp [potentialOf, hx]
  | some x =>
      have hleft := Exchange.delaysLeft_le (hg.attempts_pos (KeyedList.mem_of_findKey hx))
      simpa [potentialOf, hx] using hleft

theorem backoff_bounded_sample :
    cost (step (Config.default (fun _ => 0))) (backoffWait 0) sampleGateway
      (failingRequest "get") ≤ 598 :=
  backoff_bounded reachable_sampleGateway 0 (failingRequest "get") (by
    simp [failingRequest, Op.random?]
    norm_num)

end Backoff

end Gateway

end SentinelADC
