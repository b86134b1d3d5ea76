import Mathlib.Algebra.Order.Field.Basic
import Mathlib.Tactic.Linarith

/-!
# Token buckets

A bucket holds at most `C` tokens and gains `r` tokens for each unit of time;
a request takes `cost` tokens or is refused.  A bucket that has not been used
counts as full.  Buckets may be dropped, which fills them.

The credit of a bucket at a time bounds what it can still give out at that
time.  It never exceeds the capacity, grows with time no faster than the rate,
and pays for every request that is let through.  Dropping a bucket that has
had the time to fill up does not add to it.  Tokens may be negative after the
capacity was; such a bucket has the credit of a full one.

When the clock goes back, a bucket gains nothing, but it gains again what the
clock makes up for later.  What a bucket gives out is bounded by the time that
the clock runs forward, and for some capacity and rate it reaches the bound.
-/

namespace SentinelADC
namespace TokenBucket

universe u

variable {K : Type u} [Field K] [LinearOrder K]

/-- Tokens left after the last request, and its time. -/
structure Bucket (K : Type u) where
  tokens : K
  last : K

/-- Tokens at a time. -/
def level (C r now : K) : Option (Bucket K) → K
  | none => C
  | some b => min C (b.tokens + max 0 (now - b.last) * r)

/-- The bucket after a request. -/
def take (C r cost now : K) (b : Option (Bucket K)) : Bucket K :=
  if cost ≤ level C r now b then ⟨level C r now b - cost, now⟩ else ⟨level C r now b, now⟩

/-- Tokens that a request takes. -/
def spent (C r cost now : K) (b : Option (Bucket K)) : K :=
  if cost ≤ level C r now b then cost else 0

/-- Bound on what a bucket can give out at a time. -/
def credit (C r now : K) : Option (Bucket K) → K
  | none => C
  | some b => if b.tokens < 0 then C else level C r now (some b)

/-- Requests that are let through when there is one at each reading. -/
def granted (C r cost : K) : Option (Bucket K) → List K → Nat
  | _, [] => 0
  | b, t :: ts =>
      (if cost ≤ level C r t b then 1 else 0) + granted C r cost (some (take C r cost t b)) ts

/-- Time that a clock runs forward through its readings. -/
def forward {A : Type u} [AddGroup A] [LinearOrder A] : A → List A → A
  | _, [] => 0
  | last, t :: ts => max 0 (t - last) + forward t ts

variable {C r cost now t : K} {b : Option (Bucket K)}

theorem level_le_capacity : level C r now b ≤ C := by
  cases b with
  | none => exact le_refl C
  | some b => exact min_le_left _ _

theorem credit_le_capacity : credit C r now b ≤ C := by
  cases b with
  | none => exact le_refl C
  | some b =>
      simp only [credit]
      split_ifs
      · exact le_refl C
      · exact level_le_capacity

theorem level_le_credit : level C r now b ≤ credit C r now b := by
  cases b with
  | none => exact le_refl C
  | some b =>
      simp only [credit]
      split_ifs
      · exact level_le_capacity
      · exact le_refl _

/-- Credit of a bucket that has just been used. -/
theorem credit_of_used (tokens : K) (htokens : tokens ≤ C) :
    credit C r now (some ⟨tokens, now⟩) = if tokens < 0 then C else tokens := by
  simp [credit, level, htokens]

@[simp] theorem take_last : (take C r cost now b).last = now := by
  simp only [take]
  split_ifs <;> rfl

theorem cost_mul_granted (b : Option (Bucket K)) (t : K) (ts : List K) :
    cost * granted C r cost b (t :: ts) =
      spent C r cost t b + cost * granted C r cost (some (take C r cost t b)) ts := by
  simp only [granted, spent, Nat.cast_add, mul_add]
  split_ifs <;> simp

variable [IsStrictOrderedRing K]

theorem level_nonneg {b : Bucket K} (hC : 0 ≤ C) (hr : 0 ≤ r) (hb : 0 ≤ b.tokens) :
    0 ≤ level C r now (some b) :=
  le_min hC (add_nonneg hb (mul_nonneg (le_max_left _ _) hr))

theorem credit_nonneg (hC : 0 ≤ C) (hr : 0 ≤ r) : 0 ≤ credit C r now b := by
  cases b with
  | none => exact hC
  | some b =>
      simp only [credit]
      split_ifs with hneg
      · exact hC
      · exact level_nonneg hC hr (not_lt.mp hneg)

/-- Credit grows no faster than the rate. -/
theorem credit_advance (hr : 0 ≤ r) (ht : t ≤ now) :
    credit C r now b ≤ credit C r t b + (now - t) * r := by
  have hgain : 0 ≤ (now - t) * r := mul_nonneg (sub_nonneg.mpr ht) hr
  cases b with
  | none =>
      simp only [credit]
      linarith
  | some b =>
      simp only [credit]
      split_ifs
      · linarith
      · have hmax : max 0 (now - b.last) ≤ max 0 (t - b.last) + (now - t) := by
          refine max_le ?_ ?_
          · have := le_max_left 0 (t - b.last)
            linarith
          · have := le_max_right 0 (t - b.last)
            linarith
        have hmul : max 0 (now - b.last) * r ≤ max 0 (t - b.last) * r + (now - t) * r := by
          rw [← add_mul]
          exact mul_le_mul_of_nonneg_right hmax hr
        simp only [level]
        rw [← min_add_add_right]
        exact min_le_min (by linarith) (by linarith)

/-- Credit pays for what a request takes. -/
theorem spent_add_credit_take (b : Option (Bucket K)) (now : K) (hC : 0 ≤ C)
    (hr : 0 ≤ r) (hcost : 0 ≤ cost) :
    spent C r cost now b + credit C r now (some (take C r cost now b)) ≤ credit C r now b := by
  have hcap : level C r now b ≤ C := level_le_capacity
  have hcredit : level C r now b ≤ credit C r now b := level_le_credit
  simp only [spent, take]
  split_ifs with hallowed
  · rw [credit_of_used _ (by linarith), if_neg (by linarith)]
    linarith
  · rw [credit_of_used _ hcap]
    split_ifs with hneg
    · -- only a bucket with negative tokens has a negative level
      cases b with
      | none => exact absurd hneg (not_lt.mpr hC)
      | some b =>
          have hb : b.tokens < 0 := by
            by_contra hb
            exact absurd hneg (not_lt.mpr (level_nonneg hC hr (not_lt.mp hb)))
          simp [credit, hb]
    · linarith

/-- A bucket that has had the time to fill up may be dropped. -/
theorem credit_drop {b : Bucket K} (hfull : C ≤ (now - b.last) * r) (hr : 0 ≤ r) :
    credit C r now none ≤ credit C r now (some b) := by
  simp only [credit]
  split_ifs with hneg
  · exact le_refl C
  · have hmax : (now - b.last) * r ≤ max 0 (now - b.last) * r :=
      mul_le_mul_of_nonneg_right (le_max_right _ _) hr
    exact le_min (le_refl C) (by linarith [not_lt.mp hneg])

theorem take_tokens_le (r now : K) (b : Option (Bucket K)) (hcost : 0 ≤ cost) :
    (take C r cost now b).tokens ≤ C := by
  have hcap : level C r now b ≤ C := level_le_capacity
  simp only [take]
  split_ifs
  · dsimp only
    linarith
  · exact hcap

theorem forward_nonneg {A : Type u} [AddCommGroup A] [LinearOrder A] [IsOrderedAddMonoid A]
    (last : A) (ts : List A) :
    0 ≤ forward last ts := by
  induction ts generalizing last with
  | nil => exact le_refl 0
  | cons t ts ih => exact add_nonneg (le_max_left _ _) (ih t)

/-- Credit of a bucket at a reading of the clock after its last use. -/
theorem credit_next {b : Bucket K} (hr : 0 ≤ r) (htokens : b.tokens ≤ C) :
    credit C r t (some b) ≤ credit C r b.last (some b) + max 0 (t - b.last) * r := by
  have hgain : 0 ≤ max 0 (t - b.last) * r := mul_nonneg (le_max_left _ _) hr
  rw [credit_of_used b.tokens htokens]
  simp only [credit]
  split_ifs
  · linarith
  · exact min_le_right _ _

theorem granted_le_of_used (ts : List K) {b : Bucket K} (hC : 0 ≤ C) (hr : 0 ≤ r)
    (hcost : 0 ≤ cost) (htokens : b.tokens ≤ C) :
    cost * granted C r cost (some b) ts ≤ credit C r b.last (some b) + forward b.last ts * r := by
  induction ts generalizing b with
  | nil => simpa [granted, forward] using credit_nonneg hC hr
  | cons t ts ih =>
      have hrest := ih (take_tokens_le r t (some b) hcost)
      have hpay := spent_add_credit_take (some b) t hC hr hcost
      have hnext := credit_next (t := t) hr htokens
      rw [take_last] at hrest
      rw [cost_mul_granted, forward, add_mul]
      linarith

/-- A bucket gives out at most its capacity and what it gains while the clock
runs forward. -/
theorem granted_le (t : K) (ts : List K) (b : Option (Bucket K)) (hC : 0 ≤ C) (hr : 0 ≤ r)
    (hcost : 0 ≤ cost) :
    cost * granted C r cost b (t :: ts) ≤ C + forward t ts * r := by
  have hrest := granted_le_of_used ts hC hr hcost (take_tokens_le r t b hcost)
  have hpay := spent_add_credit_take b t hC hr hcost
  have hcap : credit C r t b ≤ C := credit_le_capacity
  rw [take_last] at hrest
  rw [cost_mul_granted]
  linarith

/-- A bucket that never overflows and never runs dry lets every request through. -/
theorem granted_eq_length {ts : List K} {tokens last : K} (hr : 0 ≤ r)
    (hroom : tokens + forward last ts * r ≤ C)
    (hlast : (ts.length : K) ≤ tokens + forward last ts * r)
    (hmore : (ts.length : K) ≤ tokens + 1) :
    granted C r 1 (some ⟨tokens, last⟩) ts = ts.length := by
  induction ts generalizing tokens last with
  | nil => rfl
  | cons t ts ih =>
      simp only [forward, add_mul, List.length_cons, Nat.cast_add, Nat.cast_one] at hroom hlast
      simp only [List.length_cons, Nat.cast_add, Nat.cast_one] at hmore
      have hlater : 0 ≤ forward t ts * r := mul_nonneg (forward_nonneg t ts) hr
      have hgain : 0 ≤ max 0 (t - last) * r := mul_nonneg (le_max_left _ _) hr
      have hlevel : level C r t (some ⟨tokens, last⟩) = tokens + max 0 (t - last) * r :=
        min_eq_right (by linarith)
      have hpaid : 1 ≤ level C r t (some ⟨tokens, last⟩) := by
        rw [hlevel]
        cases ts with
        | nil =>
            simp only [forward, List.length_nil, Nat.cast_zero] at hlast
            linarith
        | cons t' ts =>
            have hpos : (0 : K) ≤ (ts.length : K) := Nat.cast_nonneg _
            simp only [List.length_cons, Nat.cast_add, Nat.cast_one] at hmore
            linarith
      rw [granted, if_pos hpaid, take, if_pos hpaid, hlevel, ih]
      · simp [add_comm]
      · linarith
      · linarith
      · linarith

/-- A full bucket that gains one token while the clock runs forward lets one
request more through than its capacity. -/
theorem granted_of_full {ts : List K} (hr : 0 ≤ r) (hgain : forward t ts * r = 1)
    (hts : ts ≠ []) :
    granted (ts.length : K) r 1 none (t :: ts) = ts.length + 1 := by
  have hone : (1 : K) ≤ ts.length := by
    exact_mod_cast List.length_pos_iff.mpr hts
  have hfirst : take (ts.length : K) r 1 t none = ⟨ts.length - 1, t⟩ := if_pos hone
  have hrest : granted (ts.length : K) r 1 (some ⟨ts.length - 1, t⟩) ts = ts.length := by
    refine granted_eq_length hr ?_ ?_ (by linarith)
    · rw [hgain]
      linarith
    · rw [hgain]
      linarith
  rw [granted, hfirst, hrest, level, if_pos hone, add_comm]

end TokenBucket
end SentinelADC
