import SentinelADC.RateLimiter
import SentinelADC.Lib.Runs

/-!
# The rate bound

While a client's capacity is `C`, an interval of length `d` should let through
at most `C + C / windowMs * d` of its requests.  The credit of the client's
bucket is the potential that proves it.  Only the cleanup can add credit: it
drops a bucket after 300001 idle milliseconds, whatever the window, and a
bucket of a longer window is not full by then.
-/

namespace SentinelADC
namespace RateLimiter

open TokenBucket Runs

/-- Requests of a client that were allowed in a time interval. -/
def allowedIn (ip : String) (t1 t2 : Int) (ds : List Decision) : Nat :=
  ds.countP (fun d => d.ip = ip ∧ t1 ≤ d.now ∧ d.now ≤ t2 ∧ d.allowed = true)

/-- Every run from start-up under a clock that does not go back keeps the bound
in every interval in which the client is held to the capacity `C`. -/
def RateBound (cfg : RateLimitConfig) (C : Int) : Prop :=
  ∀ (es : List Event) (ip : String) (t1 t2 : Int),
    (es.map Event.now).Pairwise (· ≤ ·) → t1 ≤ t2 →
    (∀ d ∈ decisions cfg initial es, d.ip = ip → t1 ≤ d.now → d.now ≤ t2 → d.capacity = C) →
    (allowedIn ip t1 t2 (decisions cfg initial es) : Rat) ≤
      C + (C : Rat) / cfg.windowMs * (t2 - t1)

/-- The credit of a client's bucket at a time, for a capacity. -/
def creditAt (cfg : RateLimitConfig) (C : Int) (ip : String) (now : Int) (l : RateLimiter) :
    Rat :=
  credit (C : Rat) (cfg.refillRate C) (now : Rat) (l.bucket ip)

section Potential

variable {cfg : RateLimitConfig} {C : Int} {ip : String} {t1 t2 now : Int} {l : RateLimiter}

@[simp] theorem allowedIn_append (ds ds' : List Decision) :
    allowedIn ip t1 t2 (ds ++ ds') = allowedIn ip t1 t2 ds + allowedIn ip t1 t2 ds' := by
  simp [allowedIn]

theorem now_of_decision {e : Event} {d : Decision} (h : l.decision cfg e = some d) :
    d.now = e.now := by
  simp only [decision] at h
  split at h
  · simp only [Option.some.injEq] at h
    rw [← h]
  · simp at h

/-- Decisions of a run are made at the times of its events. -/
theorem mem_decisions {es : List Event} {d : Decision} (h : d ∈ decisions cfg l es) :
    ∃ e ∈ es, d.now = e.now := by
  induction es generalizing l with
  | nil => simp [decisions] at h
  | cons e es ih =>
      rcases List.mem_append.mp h with h | h
      · exact ⟨e, List.mem_cons_self, now_of_decision (Option.mem_toList.mp h)⟩
      · obtain ⟨e', he', hnow⟩ := ih h
        exact ⟨e', List.mem_cons_of_mem _ he', hnow⟩

/-- Nothing is allowed outside the interval. -/
theorem allowedIn_eq_zero {ds : List Decision} (h : ∀ d ∈ ds, d.now < t1 ∨ t2 < d.now) :
    allowedIn ip t1 t2 ds = 0 := by
  apply List.countP_eq_zero.mpr
  intro d hd
  have hout := h d hd
  simp only [decide_eq_true_eq, not_and]
  omega

/-- A request is allowed exactly when its bucket pays for it. -/
theorem decision_request {checkedAt : Int} {req : ClientRequest} {d : Decision}
    (h : l.decision cfg ⟨now, .request req checkedAt⟩ = some d) :
    d.ip = getClientIp req ∧
      (d.allowed = true ↔ 1 ≤ level (d.capacity : Rat) (cfg.refillRate d.capacity) (now : Rat)
        (l.bucket (getClientIp req))) ∧
      (l.step cfg ⟨now, .request req checkedAt⟩).bucket (getClientIp req) =
        some (take (d.capacity : Rat) (cfg.refillRate d.capacity) 1 (now : Rat)
          (l.bucket (getClientIp req))) := by
  simp only [decision, Option.some.injEq] at h
  subst h
  refine ⟨rfl, ?_, ?_⟩
  · simp [middleware, allowed_eval]
  · simp [step, middleware, bucket_eval]

/-- A request touches its own bucket only. -/
theorem bucket_request_ne {checkedAt : Int} {req : ClientRequest} (hne : ip ≠ getClientIp req) :
    (l.step cfg ⟨now, .request req checkedAt⟩).bucket ip = l.bucket ip := by
  simp [step, middleware, bucket_eval_ne hne]

/-- When the cleanup does no harm: a bucket that it drops is full. -/
def CleanupSafe (cfg : RateLimitConfig) (C : Int) : Prop :=
  0 ≤ C ∧ (C = 0 ∨ cfg.windowMs ≤ staleAfter + 1)

theorem refillRate_nonneg (hC : 0 ≤ C) (hW : 0 < cfg.windowMs) :
    0 ≤ cfg.refillRate C := by
  simp only [RateLimitConfig.refillRate]
  have hCr : (0 : Rat) ≤ C := by exact_mod_cast hC
  have hWr : (0 : Rat) < cfg.windowMs := by exact_mod_cast hW
  positivity

theorem creditAt_nonneg (hC : 0 ≤ C) (hW : 0 < cfg.windowMs) :
    0 ≤ creditAt cfg C ip now l :=
  credit_nonneg (by exact_mod_cast hC) (refillRate_nonneg hC hW)

/-- The cleanup adds no credit. -/
theorem creditAt_cleanup (hW : 0 < cfg.windowMs) (hsafe : CleanupSafe cfg C) :
    creditAt cfg C ip now (l.cleanupMemoryStore now) ≤ creditAt cfg C ip now l := by
  have hr := refillRate_nonneg hsafe.1 hW
  simp only [creditAt]
  rcases l.bucket_cleanup now ip with hkeep | ⟨b, hb, hidle, hdrop⟩
  · rw [hkeep]
  · rw [hdrop, hb]
    refine credit_drop ?_ hr
    rcases hsafe.2 with rfl | hwindow
    · simp [RateLimitConfig.refillRate]
    · have hfull : (cfg.windowMs : Rat) ≤ now - b.last :=
        le_trans (by exact_mod_cast hwindow) hidle
      have hWr : (cfg.windowMs : Rat) ≠ 0 := by exact_mod_cast hW.ne'
      calc (C : Rat) = cfg.windowMs * cfg.refillRate C := by
            simp only [RateLimitConfig.refillRate]
            field_simp
        _ ≤ (now - b.last) * cfg.refillRate C := mul_le_mul_of_nonneg_right hfull hr

/-- A request evaluated with the capacity `C` is paid for by the credit. -/
theorem creditAt_request {checkedAt : Int} {req : ClientRequest} (hW : 0 < cfg.windowMs)
    (hC : 0 ≤ C) (hforce : ∀ d ∈ l.decision cfg ⟨now, .request req checkedAt⟩,
      d.ip = ip → d.capacity = C) :
    (allowedIn ip t1 t2 (l.decision cfg ⟨now, .request req checkedAt⟩).toList : Rat) +
        creditAt cfg C ip now (l.step cfg ⟨now, .request req checkedAt⟩) ≤
      creditAt cfg C ip now l := by
  cases hd : l.decision cfg ⟨now, .request req checkedAt⟩ with
  | none => simp [decision] at hd
  | some d =>
      obtain ⟨hip, hallowed, hbucket⟩ := decision_request hd
      by_cases hmine : d.ip = ip
      · have hcap := hforce d hd hmine
        obtain rfl : ip = getClientIp req := hmine.symm.trans hip
        have hpay := spent_add_credit_take (l.bucket (getClientIp req)) (now : Rat)
          (show (0 : Rat) ≤ C by exact_mod_cast hC) (refillRate_nonneg hC hW) zero_le_one
        have hcount : (allowedIn (getClientIp req) t1 t2 (some d).toList : Rat) ≤
            spent (C : Rat) (cfg.refillRate C) 1 (now : Rat) (l.bucket (getClientIp req)) := by
          rw [hcap] at hallowed
          simp only [allowedIn, spent, Option.toList_some, List.countP_singleton, hallowed,
            decide_eq_true_eq]
          split_ifs <;> simp_all
        rw [creditAt, hbucket, hcap]
        exact le_trans (add_le_add_left hcount _) hpay
      · have hne : ip ≠ getClientIp req := fun heq => hmine (hip.trans heq.symm)
        rw [creditAt, creditAt, bucket_request_ne hne]
        simp [allowedIn, hmine]

/-- One event pays for the request it lets through, if any. -/
theorem creditAt_step (t1 : Int) (t2 : Int) (e : Event) (hW : 0 < cfg.windowMs)
    (hsafe : CleanupSafe cfg C)
    (hforce : ∀ d ∈ l.decision cfg e, d.ip = ip → d.capacity = C) :
    (allowedIn ip t1 t2 (l.decision cfg e).toList : Rat) +
        creditAt cfg C ip e.now (l.step cfg e) ≤
      creditAt cfg C ip e.now l := by
  obtain ⟨now, op⟩ := e
  cases op with
  | request req checkedAt => exact creditAt_request hW hsafe.1 hforce
  | applyPenalty ip' maxRequests durationMs reason =>
      simp [decision, allowedIn, creditAt, step, applyPenalty, bucket]
  | removePenalty ip' =>
      simp [decision, allowedIn, creditAt, step, removePenalty, bucket]
  | cleanup => simpa [decision, allowedIn, step] using creditAt_cleanup hW hsafe

/-- From a time inside the interval on, the credit and the rate bound what is
let through. -/
theorem allowedIn_le_creditAt {es : List Event} {τ : Int} (hW : 0 < cfg.windowMs)
    (hsafe : CleanupSafe cfg C) (hτ1 : t1 ≤ τ) (hτ2 : τ ≤ t2)
    (hfrom : ∀ e ∈ es, τ ≤ e.now) (hsorted : (es.map Event.now).Pairwise (· ≤ ·))
    (hforce : ∀ d ∈ decisions cfg l es, d.ip = ip → t1 ≤ d.now → d.now ≤ t2 → d.capacity = C) :
    (allowedIn ip t1 t2 (decisions cfg l es) : Rat) ≤
      creditAt cfg C ip τ l + (t2 - τ) * cfg.refillRate C := by
  have hr := refillRate_nonneg hsafe.1 hW
  have hroom : ∀ {τ : Int} {l : RateLimiter}, τ ≤ t2 →
      (0 : Rat) ≤ creditAt cfg C ip τ l + (t2 - τ) * cfg.refillRate C := by
    intro τ l hτ
    have hsub : (0 : Rat) ≤ t2 - τ := by exact_mod_cast sub_nonneg.mpr hτ
    exact add_nonneg (creditAt_nonneg hsafe.1 hW) (mul_nonneg hsub hr)
  induction es generalizing l τ with
  | nil => simpa [decisions, allowedIn] using hroom hτ2
  | cons e es ih =>
      rw [List.map_cons, List.pairwise_cons] at hsorted
      have hnow : τ ≤ e.now := hfrom e List.mem_cons_self
      have hlater : ∀ e' ∈ es, e.now ≤ e'.now :=
        fun e' he' => hsorted.1 e'.now (List.mem_map_of_mem he')
      by_cases hlast : e.now ≤ t2
      · have hhead : ∀ d ∈ l.decision cfg e, d.ip = ip → d.capacity = C := by
          intro d hd hip
          have htime := now_of_decision hd
          exact hforce d (List.mem_append_left _ (Option.mem_toList.mpr hd)) hip
            (by omega) (by omega)
        have hstep := creditAt_step t1 t2 e hW hsafe hhead
        have hrest := ih (l := l.step cfg e) (le_trans hτ1 hnow) hlast hlater hsorted.2
          (fun d hd => hforce d (List.mem_append_right _ hd))
        have hadvance : creditAt cfg C ip e.now l ≤
            creditAt cfg C ip τ l + (e.now - τ) * cfg.refillRate C :=
          credit_advance hr (by exact_mod_cast hnow)
        rw [decisions, allowedIn_append]
        push_cast
        linarith
      · rw [allowedIn_eq_zero, Nat.cast_zero]
        · exact hroom hτ2
        · intro d hd
          obtain ⟨e', he', htime⟩ := mem_decisions hd
          rcases List.mem_cons.mp he' with rfl | he'
          · omega
          · have := hlater e' he'
            omega

/-- What comes before the interval does not matter. -/
theorem allowedIn_le {es : List Event} (hW : 0 < cfg.windowMs) (hsafe : CleanupSafe cfg C)
    (h12 : t1 ≤ t2) (hsorted : (es.map Event.now).Pairwise (· ≤ ·))
    (hforce : ∀ d ∈ decisions cfg l es, d.ip = ip → t1 ≤ d.now → d.now ≤ t2 → d.capacity = C) :
    (allowedIn ip t1 t2 (decisions cfg l es) : Rat) ≤ C + (t2 - t1) * cfg.refillRate C := by
  induction es generalizing l with
  | nil =>
      have hfrom := allowedIn_le_creditAt hW hsafe le_rfl h12 (by simp) List.Pairwise.nil hforce
      exact le_trans hfrom (add_le_add_left credit_le_capacity _)
  | cons e es ih =>
      by_cases hearly : e.now < t1
      · have hhead : allowedIn ip t1 t2 (l.decision cfg e).toList = 0 := by
          refine allowedIn_eq_zero (fun d hd => Or.inl ?_)
          rw [now_of_decision (Option.mem_toList.mp hd)]
          exact hearly
        rw [List.map_cons, List.pairwise_cons] at hsorted
        rw [decisions, allowedIn_append, hhead, zero_add]
        exact ih hsorted.2 (fun d hd => hforce d (List.mem_append_right _ hd))
      · have hfrom : ∀ e' ∈ e :: es, t1 ≤ e'.now := by
          intro e' he'
          rw [List.map_cons, List.pairwise_cons] at hsorted
          rcases List.mem_cons.mp he' with rfl | he'
          · omega
          · have := hsorted.1 e'.now (List.mem_map_of_mem he')
            omega
        have hcredit := allowedIn_le_creditAt (l := l) hW hsafe le_rfl h12 hfrom hsorted hforce
        exact le_trans hcredit (add_le_add_left credit_le_capacity _)

end Potential

section Burst

variable {cfg : RateLimitConfig} {C : Int} {t : Int} {l : RateLimiter} {req : ClientRequest}

theorem decisions_append (es fs : List Event) :
    decisions cfg l (es ++ fs) = decisions cfg l es ++ decisions cfg (run (step cfg) l es) fs := by
  induction es generalizing l with
  | nil => rfl
  | cons e es ih => simp [decisions, ih]

/-- The client is held to `C` at time `t`. -/
def HeldTo (C : Int) (ip : String) (t : Int) (l : RateLimiter) : Prop :=
  ∃ item, l.penalizedIps ip = some item ∧ item.maxRequests = C ∧ t < item.expiresAt

theorem currentCapacity_of_heldTo {ip : String} (h : HeldTo C ip t l) :
    l.currentCapacity cfg t ip = (C, l) := by
  obtain ⟨item, hitem, hmax, hexp⟩ := h
  simp [currentCapacity, hitem, hmax, hexp]

theorem HeldTo.congr {ip : String} {l' : RateLimiter} (h : HeldTo C ip t l)
    (hsame : l'.penalizedIps ip = l.penalizedIps ip) :
    HeldTo C ip t l' := by
  obtain ⟨item, hitem, hrest⟩ := h
  exact ⟨item, by rw [hsame, hitem], hrest⟩

theorem penalizedIps_request (cfg : RateLimitConfig) (h : HeldTo C (getClientIp req) t l) :
    (l.step cfg ⟨t, .request req t⟩).penalizedIps = l.penalizedIps := by
  simp only [step, middleware, currentCapacity_of_heldTo h]
  exact penalizedIps_eval _ _ _ _ _

/-- The cleanup keeps penalties that still count. -/
theorem HeldTo.cleanup {ip : String} {now : Int} (h : HeldTo C ip t l) (hnow : now ≤ t) :
    HeldTo C ip t (l.cleanupMemoryStore now) := by
  obtain ⟨item, hitem, hmax, hexp⟩ := h
  refine ⟨item, ?_, hmax, hexp⟩
  simp [cleanupMemoryStore, hitem]
  omega

/-- A check of any client at an earlier time keeps it. -/
theorem HeldTo.currentCapacity {ip ip' : String} {checkedAt : Int} (h : HeldTo C ip t l)
    (hcheck : checkedAt ≤ t) :
    HeldTo C ip t (l.currentCapacity cfg checkedAt ip').2 := by
  obtain ⟨item, hitem, hmax, hexp⟩ := h
  by_cases hip : ip' = ip
  · subst hip
    have hlive : checkedAt < item.expiresAt := by omega
    exact ⟨item, by simp [RateLimiter.currentCapacity, hitem, hlive], hmax, hexp⟩
  · refine ⟨item, ?_, hmax, hexp⟩
    simp only [RateLimiter.currentCapacity]
    split
    · exact hitem
    · split_ifs
      · exact hitem
      · exact (Function.update_of_ne (fun heq => hip heq.symm) _ _).trans hitem

/-- So does the removal of another client's penalty. -/
theorem HeldTo.removePenalty {ip ip' : String} (h : HeldTo C ip t l) (hne : ip ≠ ip') :
    HeldTo C ip t (l.removePenalty ip') := by
  obtain ⟨item, hitem, hrest⟩ := h
  exact ⟨item, (Function.update_of_ne hne _ _).trans hitem, hrest⟩

/-- A request of a client whose bucket holds a token. -/
theorem decision_of_level (cfg : RateLimitConfig) (h : HeldTo C (getClientIp req) t l)
    (hlevel : 1 ≤ level (C : Rat) (cfg.refillRate C) (t : Rat) (l.bucket (getClientIp req))) :
    l.decision cfg ⟨t, .request req t⟩ = some ⟨getClientIp req, t, C, true⟩ := by
  have hallowed : (l.evalTokenBucketMemory (getClientIp req) C (cfg.refillRate C) t 1).1.allowed =
      true := allowed_eval.mpr hlevel
  simp [decision, middleware, currentCapacity_of_heldTo h, hallowed]

/-- As many requests at one moment as the bucket holds tokens are all allowed. -/
theorem decisions_burst (cfg : RateLimitConfig) (n : Nat) (h : HeldTo C (getClientIp req) t l)
    (hlevel : (n : Rat) ≤
      level (C : Rat) (cfg.refillRate C) (t : Rat) (l.bucket (getClientIp req))) :
    decisions cfg l (List.replicate n ⟨t, .request req t⟩) =
        List.replicate n ⟨getClientIp req, t, C, true⟩ ∧
      (run (step cfg) l (List.replicate n ⟨t, .request req t⟩)).penalizedIps =
        l.penalizedIps := by
  induction n generalizing l with
  | zero => exact ⟨rfl, rfl⟩
  | succ n ih =>
      push_cast at hlevel
      have hn : (0 : Rat) ≤ n := Nat.cast_nonneg n
      have hone : 1 ≤ level (C : Rat) (cfg.refillRate C) (t : Rat)
          (l.bucket (getClientIp req)) := by linarith
      have hd := decision_of_level cfg h hone
      obtain ⟨-, -, hbucket⟩ := decision_request hd
      have hle : level (C : Rat) (cfg.refillRate C) (t : Rat) (l.bucket (getClientIp req)) ≤ C :=
        level_le_capacity
      have hnext : (n : Rat) ≤ level (C : Rat) (cfg.refillRate C) (t : Rat)
          ((l.step cfg ⟨t, .request req t⟩).bucket (getClientIp req)) := by
        rw [hbucket, take, if_pos hone]
        refine le_min (by linarith) ?_
        dsimp only
        rw [sub_self, max_self]
        linarith
      have hsame := penalizedIps_request cfg h
      obtain ⟨hrest, hpenalties⟩ := ih (h.congr (congrFun hsame _)) hnext
      rw [List.replicate_succ, decisions, hd, hrest, run_cons, hpenalties, hsame]
      exact ⟨rfl, rfl⟩

/-- The cleanup drops a bucket that has been idle for long enough. -/
theorem bucket_cleanup_stale {ip : String} {now : Int}
    (h : ∀ b ∈ l.bucket ip, b.last ≤ ((now - (staleAfter + 1) : Int) : Rat)) :
    (l.cleanupMemoryStore now).bucket ip = none := by
  unfold bucket at h ⊢
  unfold cleanupMemoryStore
  cases hb : l.memoryBuckets ip with
  | none => simp [hb]
  | some b =>
      have hlast : b.lastRefill ≤ now - (staleAfter + 1) := by
        have hrat : (b.lastRefill : Rat) ≤ ((now - (staleAfter + 1) : Int) : Rat) :=
          h ⟨b.tokens, b.lastRefill⟩ (by simp [hb])
        exact_mod_cast hrat
      simp [hb]
      omega

/-- Requests at one moment leave a bucket of that moment. -/
theorem last_burst (cfg : RateLimitConfig) (t : Int) (n : Nat)
    (hstart : l.bucket (getClientIp req) = none) :
    ∀ b ∈ (run (step cfg) l (List.replicate n ⟨t, .request req t⟩)).bucket (getClientIp req),
      b.last ≤ (t : Rat) := by
  refine run_preserves (P := fun l : RateLimiter =>
    ∀ b ∈ l.bucket (getClientIp req), b.last ≤ (t : Rat)) (by simp [hstart]) ?_
  intro e he l _ b hb
  obtain rfl := List.eq_of_mem_replicate he
  cases hd : l.decision cfg ⟨t, .request req t⟩ with
  | none => simp [decision] at hd
  | some d =>
      obtain ⟨-, -, hbucket⟩ := decision_request hd
      rw [hbucket, Option.mem_some_iff] at hb
      subst hb
      simp only [take]
      split_ifs <;> exact le_refl _

/-- A penalised client uses up its bucket, waits until it is dropped, and uses
it up again. -/
def doubleBurst (C : Int) (req : ClientRequest) : List Event :=
  ⟨0, .applyPenalty (getClientIp req) C 600000 "statistical-anomaly"⟩ ::
    (List.replicate C.toNat ⟨0, .request req 0⟩ ++
      ⟨staleAfter + 1, .cleanup⟩ ::
        List.replicate C.toNat ⟨staleAfter + 1, .request req (staleAfter + 1)⟩)

theorem decisions_doubleBurst (hC : 0 ≤ C) :
    decisions cfg initial (doubleBurst C req) =
      List.replicate C.toNat ⟨getClientIp req, 0, C, true⟩ ++
        List.replicate C.toNat ⟨getClientIp req, staleAfter + 1, C, true⟩ := by
  have hn : ((C.toNat : Nat) : Rat) = C := by exact_mod_cast Int.toNat_of_nonneg hC
  let l1 := initial.step cfg ⟨0, .applyPenalty (getClientIp req) C 600000 "statistical-anomaly"⟩
  let l2 := run (step cfg) l1 (List.replicate C.toNat ⟨0, .request req 0⟩)
  let l3 := l2.step cfg ⟨staleAfter + 1, .cleanup⟩
  have hheld : ∀ t : Int, t < 600000 → HeldTo C (getClientIp req) t l1 := by
    intro t ht
    exact ⟨⟨C, 600000, "statistical-anomaly"⟩, by simp [l1, step, applyPenalty], rfl, ht⟩
  have hfresh : l1.bucket (getClientIp req) = none := rfl
  obtain ⟨hfirst, hsame⟩ := decisions_burst cfg C.toNat (hheld 0 (by decide))
    (by rw [hfresh, hn]; exact le_refl _)
  have hdropped : l3.bucket (getClientIp req) = none := by
    refine bucket_cleanup_stale ?_
    simpa using last_burst cfg 0 C.toNat hfresh
  have hlater : HeldTo C (getClientIp req) (staleAfter + 1) l3 :=
    ((hheld (staleAfter + 1) (by decide)).congr (congrFun hsame _)).cleanup le_rfl
  obtain ⟨hsecond, -⟩ := decisions_burst cfg C.toNat hlater
    (by rw [hdropped, hn]; exact le_refl _)
  -- neither the penalty nor the cleanup is a request
  change decisions cfg l1 (_ ++ _) = _
  rw [decisions_append, hfirst]
  exact congrArg _ hsecond

theorem sorted_doubleBurst :
    ((doubleBurst C req).map Event.now).Pairwise (· ≤ ·) := by
  simp [doubleBurst, List.pairwise_append, List.pairwise_replicate, staleAfter]
  omega

/-- With a longer window both bursts are allowed, but the bucket has not earned
the second one. -/
theorem not_rateBound_of_long_window (hC : 1 ≤ C) (hlong : staleAfter + 1 < cfg.windowMs) :
    ¬ RateBound cfg C := by
  intro hbound
  let req : ClientRequest := ⟨"GET", "/", none, none, some "10.0.0.1", none⟩
  have hruns := hbound (doubleBurst C req) (getClientIp req) 0 (staleAfter + 1)
    sorted_doubleBurst (by decide) (by
      intro d hd _ _ _
      rw [decisions_doubleBurst (by omega)] at hd
      rcases List.mem_append.mp hd with hd | hd <;> rw [List.eq_of_mem_replicate hd])
  have hcount : allowedIn (getClientIp req) 0 (staleAfter + 1)
      (decisions cfg initial (doubleBurst C req)) = C.toNat + C.toNat := by
    rw [decisions_doubleBurst (by omega)]
    simp [allowedIn, List.countP_replicate, staleAfter]
  have hn : ((C.toNat : Nat) : Rat) = C := by
    exact_mod_cast Int.toNat_of_nonneg (show 0 ≤ C by omega)
  have hCr : (1 : Rat) ≤ C := by exact_mod_cast hC
  have hlongr : ((staleAfter + 1 : Int) : Rat) < cfg.windowMs := by exact_mod_cast hlong
  have hpos : (0 : Rat) < cfg.windowMs := lt_trans (by norm_num [staleAfter]) hlongr
  have hgain : (C : Rat) / cfg.windowMs * ((staleAfter + 1 : Int) : Rat) < C := by
    rw [div_mul_eq_mul_div, div_lt_iff₀ hpos]
    exact mul_lt_mul_of_pos_left hlongr (by linarith)
  rw [hcount] at hruns
  push_cast at hruns hgain
  rw [hn] at hruns
  linarith

/-- For an integer capacity `C` the bound holds in every run exactly when `C`
is not negative and a bucket that the cleanup drops is full. -/
theorem rate_bound_iff (hW : 0 < cfg.windowMs) :
    RateBound cfg C ↔ CleanupSafe cfg C := by
  constructor
  · intro hbound
    have hC : 0 ≤ C := by
      have hempty := hbound [] "" 0 0 List.Pairwise.nil le_rfl (by simp [decisions])
      simpa [decisions, allowedIn] using hempty
    refine ⟨hC, ?_⟩
    by_contra hunsafe
    rw [not_or, not_le] at hunsafe
    exact not_rateBound_of_long_window (by omega) hunsafe.2 hbound
  · intro hsafe es ip t1 t2 hsorted h12 hforce
    have hle := allowedIn_le hW hsafe h12 hsorted hforce
    rwa [mul_comm] at hle

/-- The default settings. -/
theorem rate_bound_sample : RateBound ⟨60000, 100⟩ 100 :=
  (rate_bound_iff (by decide)).mpr ⟨by decide, by decide⟩

/-- A request, a cleanup 300001 ms later, and a request again, for a window of
fifteen minutes with one request. -/
def twoRequests : List Event :=
  let req : ClientRequest := ⟨"GET", "/", none, none, some "10.0.0.1", none⟩
  [⟨0, .request req 0⟩, ⟨300001, .cleanup⟩, ⟨300001, .request req 300001⟩]

theorem rate_bound_exceeded :
    ¬ ∀ (cfg : RateLimitConfig) (C : Int),
      1 ≤ cfg.maxRequests → 0 < cfg.windowMs → 1 ≤ C → RateBound cfg C := by
  intro hclaim
  have hcount := hclaim ⟨900000, 1⟩ 1 (by decide) (by decide) (by decide) twoRequests "10.0.0.1"
    0 300001 (by decide) (by decide) (by decide)
  revert hcount
  decide +kernel

end Burst

end RateLimiter
end SentinelADC
