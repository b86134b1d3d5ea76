import Mathlib.Data.Nat.Log
import Mathlib.Data.Int.Order.Basic
import Mathlib.Tactic.Linarith

/-!
# Integers in double precision

A double has 53 significant bits.  Integers up to `2 ^ 53` are doubles; beyond
that the spacing doubles with every power of two, and the result of an
operation is rounded to the nearest double, a tie to the even one.  Overflow
is left out.
-/

namespace SentinelADC
namespace Double

/-- Distance of neighbouring doubles at `n`, or 1 where it is smaller. -/
def ulp (n : Nat) : Nat :=
  2 ^ (n.log2 - 52)

/-- The double nearest to a natural number, ties to even. -/
def roundNat (n : Nat) : Nat :=
  let below := n / ulp n
  let rest := n % ulp n
  if 2 * rest < ulp n ∨ (2 * rest = ulp n ∧ below % 2 = 0) then below * ulp n
  else (below + 1) * ulp n

/-- The double nearest to an integer. -/
def round (x : Int) : Int :=
  if 0 ≤ x then roundNat x.toNat else -roundNat (-x).toNat

section Naturals

variable {m n : Nat}

theorem ulp_pos (n : Nat) :
    0 < ulp n :=
  Nat.two_pow_pos _

theorem ulp_of_lt (h : n < 2 ^ 53) :
    ulp n = 1 := by
  have hlog : n.log2 ≤ 52 := by
    by_cases hn : n = 0
    · simp [hn]
    · exact Nat.le_of_lt_succ ((Nat.log2_lt hn).mpr h)
  simp [ulp, Nat.sub_eq_zero_of_le hlog]

/-- Multiples of the spacing are doubles. -/
theorem roundNat_of_dvd (h : ulp n ∣ n) :
    roundNat n = n := by
  have hrest : n % ulp n = 0 := Nat.mod_eq_zero_of_dvd h
  simp only [roundNat, hrest]
  rw [if_pos (Or.inl (by simpa using ulp_pos n)), Nat.div_mul_cancel h]

theorem roundNat_of_le (h : n ≤ 2 ^ 53) :
    roundNat n = n := by
  apply roundNat_of_dvd
  rcases Nat.lt_or_eq_of_le h with hlt | rfl
  · simp [ulp_of_lt hlt]
  · decide

/-- Rounding stays between the neighbouring multiples of the spacing. -/
theorem roundNat_cases (n : Nat) :
    roundNat n = n / ulp n * ulp n ∨ roundNat n = (n / ulp n + 1) * ulp n := by
  simp only [roundNat]
  split_ifs
  · exact Or.inl rfl
  · exact Or.inr rfl

/-- Above `2 ^ 53` a number has 53 bits before the last place of a double. -/
theorem ulp_spec (h : 2 ^ 53 ≤ n) :
    ∃ e, n.log2 = 52 + e ∧ ulp n = 2 ^ e ∧ 2 ^ 52 ≤ n / ulp n ∧ n / ulp n < 2 ^ 53 := by
  have hn : n ≠ 0 := by
    rintro rfl
    simp at h
  have hlog : 53 ≤ n.log2 := (Nat.le_log2 hn).mpr h
  obtain ⟨e, he⟩ := Nat.exists_eq_add_of_le (show 52 ≤ n.log2 by omega)
  have hulp : ulp n = 2 ^ e := by
    simp [ulp, he]
  have hlow := Nat.log2_self_le hn
  have hhigh := Nat.lt_log2_self (n := n)
  refine ⟨e, he, hulp, ?_, ?_⟩
  · rw [hulp, Nat.le_div_iff_mul_le (Nat.two_pow_pos e), ← pow_add, ← he]
    exact hlow
  · rw [hulp, Nat.div_lt_iff_lt_mul (Nat.two_pow_pos e), ← pow_add]
    rwa [he, show 52 + e + 1 = 53 + e by omega] at hhigh

/-- Rounding does not leave the binade, except for the power of two that
follows it. -/
theorem roundNat_mem_binade (h : 2 ^ 53 ≤ n) :
    2 ^ n.log2 ≤ roundNat n ∧ roundNat n ≤ 2 ^ (n.log2 + 1) := by
  obtain ⟨e, he, hulp, hlow, hhigh⟩ := ulp_spec h
  have hunit : 0 < 2 ^ e := Nat.two_pow_pos e
  have hfirst : 2 ^ n.log2 = 2 ^ 52 * 2 ^ e := by
    rw [he, pow_add]
  have hlast : 2 ^ (n.log2 + 1) = 2 ^ 53 * 2 ^ e := by
    rw [he, ← pow_add]
    congr 1
    omega
  rw [hfirst, hlast]
  rw [hulp] at hlow hhigh
  rcases roundNat_cases n with hn | hn <;> rw [hn, hulp]
  · exact ⟨Nat.mul_le_mul_right _ hlow, Nat.mul_le_mul_right _ (by omega)⟩
  · exact ⟨Nat.mul_le_mul_right _ (by omega), Nat.mul_le_mul_right _ (by omega)⟩

/-- A rounded number is a double. -/
theorem roundNat_roundNat (n : Nat) :
    roundNat (roundNat n) = roundNat n := by
  by_cases h : n < 2 ^ 53
  · rw [roundNat_of_le (by omega : n ≤ 2 ^ 53), roundNat_of_le (by omega : n ≤ 2 ^ 53)]
  · have hle : 2 ^ 53 ≤ n := Nat.le_of_not_lt h
    obtain ⟨e, he, hulp, -, -⟩ := ulp_spec hle
    obtain ⟨hlow, hhigh⟩ := roundNat_mem_binade hle
    have hdvd : 2 ^ e ∣ roundNat n := by
      rcases roundNat_cases n with hn | hn <;> rw [hn, hulp] <;> exact Nat.dvd_mul_left _ _
    apply roundNat_of_dvd
    have hpos : roundNat n ≠ 0 := by
      have := Nat.two_pow_pos n.log2
      omega
    rcases Nat.lt_or_eq_of_le hhigh with hlt | heq
    · -- still in the binade, so the spacing is the same
      have hlog : (roundNat n).log2 = n.log2 := by
        have h₁ := (Nat.le_log2 hpos).mpr hlow
        have h₂ := (Nat.log2_lt hpos).mpr hlt
        omega
      rw [ulp, hlog, he]
      simpa using hdvd
    · rw [heq, ulp, Nat.log2_two_pow]
      exact pow_dvd_pow 2 (by omega)

/-- Rounding is monotone. -/
theorem roundNat_mono (h : m ≤ n) :
    roundNat m ≤ roundNat n := by
  by_cases hm : m < 2 ^ 53
  · rw [roundNat_of_le (by omega : m ≤ 2 ^ 53)]
    by_cases hn : n < 2 ^ 53
    · rwa [roundNat_of_le (by omega : n ≤ 2 ^ 53)]
    · have hle : 2 ^ 53 ≤ n := Nat.le_of_not_lt hn
      have hlog : 53 ≤ n.log2 := (Nat.le_log2 (by omega)).mpr hle
      have hpow : 2 ^ 53 ≤ 2 ^ n.log2 := Nat.pow_le_pow_right (by decide) hlog
      have := (roundNat_mem_binade hle).1
      omega
  · have hm' : 2 ^ 53 ≤ m := Nat.le_of_not_lt hm
    have hn' : 2 ^ 53 ≤ n := hm'.trans h
    have hlogs : m.log2 ≤ n.log2 := by
      rw [Nat.le_log2 (by omega)]
      exact (Nat.log2_self_le (by omega)).trans h
    rcases Nat.lt_or_eq_of_le hlogs with hlt | heq
    · calc
        roundNat m ≤ 2 ^ (m.log2 + 1) := (roundNat_mem_binade hm').2
        _ ≤ 2 ^ n.log2 := Nat.pow_le_pow_right (by decide) hlt
        _ ≤ roundNat n := (roundNat_mem_binade hn').1
    · -- one binade: compare the multiples of the common spacing below
      have hulp : ulp m = ulp n := by
        rw [ulp, ulp, heq]
      have hbelow : m / ulp n ≤ n / ulp n := Nat.div_le_div_right h
      rcases Nat.lt_or_eq_of_le hbelow with hlt | hsame
      · calc
          roundNat m ≤ (m / ulp n + 1) * ulp n := by
            rcases roundNat_cases m with hm | hm <;> rw [hm, hulp]
            exact Nat.mul_le_mul_right _ (by omega)
          _ ≤ n / ulp n * ulp n := Nat.mul_le_mul_right _ hlt
          _ ≤ roundNat n := by
            rcases roundNat_cases n with hn | hn <;> rw [hn]
            exact Nat.mul_le_mul_right _ (by omega)
      · have hrest : m % ulp n ≤ n % ulp n := by
          have h₁ := Nat.div_add_mod m (ulp n)
          have h₂ := Nat.div_add_mod n (ulp n)
          rw [hsame] at h₁
          omega
        simp only [roundNat, hulp, hsame]
        split_ifs with hdown hup hup
        · exact Nat.le_refl _
        · exact Nat.mul_le_mul_right _ (by omega)
        · omega
        · exact Nat.le_refl _

theorem ulp_dvd_roundNat (n : Nat) :
    ulp n ∣ roundNat n := by
  rcases roundNat_cases n with h | h <;> rw [h] <;> exact Nat.dvd_mul_left _ _

theorem ulp_dvd_of_double (h : roundNat n = n) :
    ulp n ∣ n := by
  have hdvd := ulp_dvd_roundNat n
  rwa [h] at hdvd

theorem ulp_dvd_ulp (h : m ≤ n) :
    ulp m ∣ ulp n := by
  apply pow_dvd_pow
  by_cases hm : m = 0
  · simp [hm]
  · have hlogs : m.log2 ≤ n.log2 :=
      (Nat.le_log2 (by omega)).mpr ((Nat.log2_self_le hm).trans h)
    omega

/-- Rounding moves a number by at most half the spacing. -/
theorem roundNat_near (n : Nat) :
    2 * roundNat n ≤ 2 * n + ulp n ∧ 2 * n ≤ 2 * roundNat n + ulp n := by
  have hdiv := Nat.div_add_mod' n (ulp n)
  have hmod := Nat.mod_lt n (ulp_pos n)
  simp only [roundNat]
  split_ifs with hdown
  · omega
  · rw [Nat.add_mul]
    omega

/-- Between doubles, a multiple of the spacing at the minuend is subtracted
exactly. -/
theorem roundNat_sub_of_dvd {d : Nat} (hn : ulp n ∣ n) (hd : ulp n ∣ d) :
    roundNat (n - d) = n - d :=
  roundNat_of_dvd ((ulp_dvd_ulp (Nat.sub_le n d)).trans (Nat.dvd_sub hn hd))

/-- A difference that rounds below the minuend is at least half the
subtrahend below it. -/
theorem le_two_mul_sub_roundNat {d : Nat} (hn : roundNat n = n)
    (hlt : roundNat (n - d) < n) (hdn : d ≤ n) :
    d ≤ 2 * (n - roundNat (n - d)) := by
  have hnear := roundNat_near (n - d)
  by_cases hulp : ulp (n - d) ≤ d
  · omega
  · -- both numbers are multiples of the spacing at the difference
    have hdvd : ulp (n - d) ∣ n - roundNat (n - d) :=
      Nat.dvd_sub ((ulp_dvd_ulp (Nat.sub_le n d)).trans (ulp_dvd_of_double hn))
        (ulp_dvd_roundNat _)
    have hle := Nat.le_of_dvd (by omega) hdvd
    omega

end Naturals

section Integers

variable {x y : Int}

theorem round_of_nonneg (h : 0 ≤ x) :
    round x = roundNat x.toNat := by
  simp [round, h]

theorem round_nonneg (h : 0 ≤ x) :
    0 ≤ round x := by
  rw [round_of_nonneg h]
  omega

theorem round_nonpos (h : x ≤ 0) :
    round x ≤ 0 := by
  rcases Int.lt_or_eq_of_le h with hneg | rfl
  · rw [round, if_neg (by omega)]
    omega
  · decide

theorem nonneg_of_round_pos (h : 0 < round x) :
    0 < x := by
  by_contra hx
  have := round_nonpos (show x ≤ 0 by omega)
  omega

/-- A rounded integer is a double. -/
theorem round_round (h : 0 ≤ x) :
    round (round x) = round x := by
  rw [round_of_nonneg (round_nonneg h), round_of_nonneg h, Int.toNat_natCast,
    roundNat_roundNat]

/-- Rounding is monotone. -/
theorem round_mono_of_nonneg (hx : 0 ≤ x) (h : x ≤ y) :
    round x ≤ round y := by
  rw [round_of_nonneg hx, round_of_nonneg (hx.trans h)]
  exact_mod_cast roundNat_mono (Int.toNat_le_toNat h)

theorem round_natCast (n : Nat) :
    round n = roundNat n := by
  rw [round_of_nonneg (by omega), Int.toNat_natCast]

theorem nonpos_of_round_nonpos (h : round x ≤ 0) :
    x ≤ 0 := by
  by_contra hx
  have hone : round 1 = 1 := by decide
  have hmono := round_mono_of_nonneg (x := 1) (by omega) (show 1 ≤ x by omega)
  omega

/-- Subtracting from a double does not lead above it. -/
theorem round_sub_le {d : Int} (hdouble : round x = x) (h0 : 0 ≤ x) (hd : 0 ≤ d) :
    round (x - d) ≤ x := by
  by_cases hneg : x - d ≤ 0
  · exact (round_nonpos hneg).trans h0
  · calc
      round (x - d) ≤ round x := round_mono_of_nonneg (by omega) (by omega)
      _ = x := hdouble

/-- A subtraction never ends above a double and zero. -/
theorem round_sub_le_max {d : Int} (hdouble : round x = x) (hd : 0 ≤ d) :
    round (x - d) ≤ max 0 x := by
  by_cases h0 : 0 ≤ x
  · exact (round_sub_le hdouble h0 hd).trans (le_max_right _ _)
  · exact (round_nonpos (by omega)).trans (le_max_left _ _)

/-- A difference that rounds below the minuend is at least half the subtrahend
below it. -/
theorem le_two_mul_sub_round {d : Int} (hdouble : round x = x) (hd : 0 ≤ d)
    (hlt : round (x - d) < x) (hpos : 0 ≤ x - d) :
    d ≤ 2 * (x - round (x - d)) := by
  obtain ⟨n, rfl⟩ := Int.eq_ofNat_of_zero_le (show 0 ≤ x by omega)
  obtain ⟨k, rfl⟩ := Int.eq_ofNat_of_zero_le hd
  rw [round_natCast, Nat.cast_inj] at hdouble
  rw [← Nat.cast_sub (by omega), round_natCast] at hlt ⊢
  have hhalf := le_two_mul_sub_roundNat (d := k) hdouble (by omega) (by omega)
  omega

/-- Where a difference rounds back to the minuend, the subtrahend is finer than
the spacing of the doubles from there on. -/
theorem not_dvd_of_absorbed {n d : Nat} (hd : 0 < d) (hn : 0 < n)
    (habsorbed : round ((n : Int) - d) = n) :
    ¬ ulp n ∣ d := by
  have hdn : d ≤ n := by
    by_contra hlt
    have := round_nonpos (show (n : Int) - d ≤ 0 by omega)
    omega
  rw [← Nat.cast_sub hdn, round_natCast, Nat.cast_inj] at habsorbed
  intro hdvd
  have hdouble : roundNat n = n := by
    rw [← habsorbed, roundNat_roundNat]
  have hexact := roundNat_sub_of_dvd (ulp_dvd_of_double hdouble) hdvd
  omega

/-- Up to `2 ^ 53 + 2` the difference to a smaller positive number is below the
minuend; from `2 ^ 53 + 4` on it can round back to it. -/
theorem round_sub_lt {d : Int} (hpos : 0 < x) (hx : x ≤ 2 ^ 53 + 2) (hd : 1 ≤ d) :
    round (x - d) < x := by
  by_cases hneg : x - d ≤ 0
  · have := round_nonpos hneg
    omega
  · rw [round_of_nonneg (by omega)]
    by_cases hsmall : (x - d).toNat ≤ 2 ^ 53
    · rw [roundNat_of_le hsmall]
      omega
    · have htop : (x - d).toNat = 2 ^ 53 + 1 := by omega
      have htie : roundNat (2 ^ 53 + 1) = 2 ^ 53 := by decide
      rw [htop, htie]
      omega

end Integers

end Double
end SentinelADC
