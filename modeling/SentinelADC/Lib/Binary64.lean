import Mathlib.Data.Int.Log
import Mathlib.Data.Rat.Floor
import Mathlib.Tactic.Linarith
import Mathlib.Tactic.Ring
import Mathlib.Tactic.Positivity

/-!
# Double precision

A double is a whole number of at most 53 bits times a power of two.  The result
of an operation is the double nearest to the exact result, a tie to the even
one.  Results beyond the largest double are left out.

Rounding is monotone and leaves doubles alone.  A quotient of doubles that
rounds down to or below a whole number was that number already, as long as the
multiple of the divisor that belongs to it is a double as well.
-/

namespace SentinelADC
namespace Double

/-- Exponent of the last place of the doubles around a number. -/
def lastPlace (x : ℚ) : ℤ :=
  max (Int.log 2 |x| - 52) (-1074)

/-- Distance of neighbouring doubles at a number. -/
def spacing (x : ℚ) : ℚ :=
  2 ^ lastPlace x

/-- The nearest whole number, and the even one from half way. -/
def halfEven (x : ℚ) : ℤ :=
  if x - ⌊x⌋ < 1 / 2 ∨ (x - ⌊x⌋ = 1 / 2 ∧ ⌊x⌋ % 2 = 0) then ⌊x⌋ else ⌊x⌋ + 1

/-- The double nearest to a number. -/
def nearest (x : ℚ) : ℚ :=
  halfEven (x / spacing x) * spacing x

/-- The number is a double. -/
def IsDouble (x : ℚ) : Prop :=
  nearest x = x

instance decidableIsDouble (x : ℚ) : Decidable (IsDouble x) :=
  inferInstanceAs (Decidable (nearest x = x))

section Places

variable {x y d : ℚ} {m e : ℤ}

theorem spacing_pos (x : ℚ) :
    0 < spacing x :=
  zpow_pos two_pos _

theorem lt_two_zpow_log (x : ℚ) :
    |x| < 2 ^ (Int.log 2 |x| + 1) := by
  exact_mod_cast Int.lt_zpow_succ_log_self (b := 2) one_lt_two |x|

theorem two_zpow_log_le (hx : x ≠ 0) :
    (2 : ℚ) ^ Int.log 2 |x| ≤ |x| := by
  exact_mod_cast Int.zpow_log_le_self (b := 2) one_lt_two (abs_pos.mpr hx)

/-- A number has at most 53 bits before the last place. -/
theorem abs_lt_spacing (x : ℚ) :
    |x| < 2 ^ 53 * spacing x := by
  have hplace : Int.log 2 |x| + 1 ≤ 53 + lastPlace x := by
    have := le_max_left (Int.log 2 |x| - 52) (-1074)
    rw [lastPlace]
    omega
  calc |x|
    _ < 2 ^ (Int.log 2 |x| + 1) := lt_two_zpow_log x
    _ ≤ 2 ^ (53 + lastPlace x) := zpow_le_zpow_right₀ one_le_two hplace
    _ = 2 ^ 53 * spacing x := by rw [zpow_add₀ two_ne_zero, spacing]; norm_cast

/-- In the normal range a number has all its 53 bits. -/
theorem spacing_le (hx : 2 ^ (-1022 : ℤ) ≤ |x|) :
    spacing x = 2 ^ (Int.log 2 |x| - 52) := by
  have hpos : 0 < |x| := lt_of_lt_of_le (zpow_pos two_pos _) hx
  have hlog : -1022 ≤ Int.log 2 |x| := by
    rw [← Int.zpow_le_iff_le_log (b := 2) one_lt_two hpos]
    exact_mod_cast hx
  rw [spacing, lastPlace, max_eq_left (by omega)]

theorem lastPlace_mono (hx : 0 < x) (h : x ≤ y) :
    lastPlace x ≤ lastPlace y := by
  have hlog : Int.log 2 |x| ≤ Int.log 2 |y| := by
    rw [abs_of_pos hx, abs_of_pos (hx.trans_le h)]
    exact Int.log_mono_right hx h
  exact max_le_max (by omega) le_rfl

/-- A power of two is a multiple of the smaller ones. -/
theorem two_zpow_eq_mul {p : ℤ} (h : p ≤ e) :
    ∃ n : ℤ, (2 : ℚ) ^ e = n * 2 ^ p := by
  refine ⟨2 ^ (e - p).toNat, ?_⟩
  push_cast
  rw [← zpow_natCast, Int.toNat_of_nonneg (by omega), ← zpow_add₀ two_ne_zero]
  congr 1
  omega

end Places

section Rounding

variable {x y d : ℚ} {m e : ℤ}

theorem abs_halfEven_sub_le (x : ℚ) :
    |halfEven x - x| ≤ 1 / 2 := by
  have hlow := Int.floor_le x
  have hhigh := Int.lt_floor_add_one x
  rw [halfEven, abs_le]
  split_ifs with h
  · rcases h with h | ⟨h, -⟩ <;> constructor <;> linarith
  · push Not at h
    push_cast
    constructor <;> linarith [h.1]

theorem halfEven_eq {n : ℤ} (h : |n - x| < 1 / 2) :
    halfEven x = n := by
  have hround := abs_halfEven_sub_le x
  have hclose : |((halfEven x - n : ℤ) : ℚ)| < 1 := by
    push_cast
    calc |(halfEven x : ℚ) - n|
      _ = |(halfEven x - x) - (n - x)| := by ring_nf
      _ ≤ |halfEven x - x| + |n - x| := abs_sub _ _
      _ < 1 := by linarith
  have hzero : halfEven x - n = 0 := by
    rw [← Int.abs_lt_one_iff]
    exact_mod_cast hclose
  omega

theorem abs_nearest_sub_le (x : ℚ) :
    |nearest x - x| ≤ spacing x / 2 := by
  have hpos := spacing_pos x
  have hround := abs_halfEven_sub_le (x / spacing x)
  have hx : x = x / spacing x * spacing x := (div_mul_cancel₀ x hpos.ne').symm
  calc |nearest x - x|
    _ = |halfEven (x / spacing x) - x / spacing x| * spacing x := by
        rw [nearest, ← abs_of_pos hpos, ← abs_mul, abs_of_pos hpos, sub_mul, ← hx]
    _ ≤ 1 / 2 * spacing x := mul_le_mul_of_nonneg_right hround hpos.le
    _ = spacing x / 2 := by ring

theorem nearest_zero :
    nearest 0 = 0 := by
  simp [nearest, halfEven]

/-- A multiple of the spacing that is close is the nearest double. -/
theorem nearest_eq_of_close {n : ℤ} (hd : d = n * spacing x) (h : |d - x| < spacing x / 2) :
    nearest x = d := by
  have hpos := spacing_pos x
  have hclose : |n - x / spacing x| < 1 / 2 := by
    rw [← mul_lt_mul_iff_left₀ hpos, ← abs_of_pos hpos, ← abs_mul, abs_of_pos hpos, sub_mul,
      div_mul_cancel₀ x hpos.ne', ← hd]
    linarith
  rw [nearest, halfEven_eq hclose, hd]

/-- A double is a multiple of its spacing. -/
theorem IsDouble.exists_eq (hd : IsDouble d) :
    ∃ n : ℤ, d = n * spacing d ∧ |n| < 2 ^ 53 := by
  refine ⟨halfEven (d / spacing d), hd.symm, ?_⟩
  have hpos := spacing_pos d
  have hbound : |(halfEven (d / spacing d) : ℚ)| * spacing d < 2 ^ 53 * spacing d := by
    calc |(halfEven (d / spacing d) : ℚ)| * spacing d
      _ = |nearest d| := by rw [nearest, abs_mul, abs_of_pos hpos]
      _ = |d| := by rw [hd]
      _ < 2 ^ 53 * spacing d := abs_lt_spacing d
  exact_mod_cast lt_of_mul_lt_mul_right hbound hpos.le

theorem isDouble_of_lt (hm : |m| < 2 ^ 53) (he : -1074 ≤ e) :
    IsDouble (m * 2 ^ e) := by
  by_cases hzero : m = 0
  · subst hzero
    simp [IsDouble, nearest, halfEven]
  · have hne : (m : ℚ) * 2 ^ e ≠ 0 :=
      mul_ne_zero (by exact_mod_cast hzero) (zpow_pos two_pos _).ne'
    have hplace : lastPlace (m * 2 ^ e) ≤ e := by
      have hlog : Int.log 2 |(m : ℚ) * 2 ^ e| < 53 + e := by
        rw [← Int.lt_zpow_iff_log_lt (b := 2) one_lt_two (abs_pos.mpr hne), abs_mul,
          abs_of_pos (zpow_pos (two_pos : (0 : ℚ) < 2) e), Nat.cast_ofNat,
          zpow_add₀ two_ne_zero]
        exact mul_lt_mul_of_pos_right (by exact_mod_cast hm) (zpow_pos two_pos _)
      exact max_le (by omega) he
    obtain ⟨n, hn⟩ := two_zpow_eq_mul hplace
    refine nearest_eq_of_close (n := m * n) ?_ ?_
    · rw [spacing]
      nth_rewrite 1 [hn]
      push_cast
      ring
    · rw [sub_self, abs_zero]
      exact half_pos (spacing_pos _)

/-- Whole numbers of 53 bits times a power of two are doubles. -/
theorem isDouble_of_le (hm : |m| ≤ 2 ^ 53) (he : -1074 ≤ e) :
    IsDouble (m * 2 ^ e) := by
  rcases lt_or_eq_of_le hm with hlt | heq
  · exact isDouble_of_lt hlt he
  · -- the power of two that follows is half as many of the next unit
    have hhalf : ∃ n : ℤ, |n| < 2 ^ 53 ∧ m = 2 * n := by
      rcases abs_choice m with habs | habs
      · exact ⟨2 ^ 52, by norm_num, by omega⟩
      · exact ⟨-2 ^ 52, by norm_num, by omega⟩
    obtain ⟨n, hn, rfl⟩ := hhalf
    have hdouble := isDouble_of_lt (e := e + 1) hn (by omega)
    rw [zpow_add_one₀ two_ne_zero] at hdouble
    convert hdouble using 1
    push_cast
    ring

theorem isDouble_intCast {n : ℤ} (hn : |n| ≤ 2 ^ 53) :
    IsDouble n := by
  simpa using isDouble_of_le (e := 0) hn (by omega)

theorem isDouble_one :
    IsDouble 1 := by
  exact_mod_cast isDouble_intCast (n := 1) (by norm_num)

/-- What is rounded is a double. -/
theorem isDouble_nearest (x : ℚ) :
    IsDouble (nearest x) := by
  refine isDouble_of_le ?_ (le_max_right _ _)
  have hpos := spacing_pos x
  have hround := abs_halfEven_sub_le (x / spacing x)
  have hquotient : |x / spacing x| < 2 ^ 53 := by
    rw [abs_div, abs_of_pos hpos, div_lt_iff₀ hpos]
    exact abs_lt_spacing x
  have hbound : |((halfEven (x / spacing x) : ℤ) : ℚ)| < ((2 ^ 53 + 1 : ℤ) : ℚ) := by
    push_cast
    have htriangle := abs_sub_abs_le_abs_sub (halfEven (x / spacing x) : ℚ) (x / spacing x)
    linarith
  exact Int.lt_add_one_iff.mp (by exact_mod_cast hbound)

/-- A double that is closer than half the spacing is the nearest one. -/
theorem IsDouble.nearest_eq (hx : x ≠ 0) (hd : IsDouble d) (h : |d - x| < spacing x / 2) :
    nearest x = d := by
  obtain ⟨k, hk, hbits⟩ := hd.exists_eq
  by_cases hplace : lastPlace x ≤ lastPlace d
  · obtain ⟨n, hn⟩ := two_zpow_eq_mul hplace
    refine nearest_eq_of_close (n := k * n) ?_ h
    rw [hk, spacing, hn, spacing]
    push_cast
    ring
  · -- the doubles of a lower binade keep half the spacing as a distance
    exfalso
    have hpos : (0 : ℚ) < 2 ^ (lastPlace x - 1) := zpow_pos two_pos _
    have hplaces : lastPlace d ≤ lastPlace x - 1 := by omega
    have hsmall := le_max_right (Int.log 2 |d| - 52) (-1074)
    have hnormal : lastPlace x = Int.log 2 |x| - 52 := by
      rw [lastPlace] at hplace ⊢
      rw [lastPlace] at hplace
      rcases max_choice (Int.log 2 |x| - 52) (-1074) with hmax | hmax <;> omega
    have hhalf : spacing x / 2 = 2 ^ (lastPlace x - 1) := by
      rw [spacing, zpow_sub_one₀ two_ne_zero, div_eq_mul_inv]
    have hbinade : (2 : ℚ) ^ 53 * 2 ^ (lastPlace x - 1) ≤ |x| := by
      calc (2 : ℚ) ^ 53 * 2 ^ (lastPlace x - 1)
        _ = 2 ^ Int.log 2 |x| := by
            rw [hnormal, ← zpow_natCast, ← zpow_add₀ two_ne_zero]
            congr 1
            push_cast
            ring
        _ ≤ |x| := two_zpow_log_le hx
    have hd' : |d| ≤ (2 ^ 53 - 1) * 2 ^ (lastPlace x - 1) := by
      calc |d|
        _ = |(k : ℚ)| * 2 ^ lastPlace d := by
            nth_rewrite 1 [hk]
            rw [abs_mul, abs_of_pos (spacing_pos d), spacing]
        _ ≤ (2 ^ 53 - 1) * 2 ^ (lastPlace x - 1) := by
            have hk' : |(k : ℚ)| ≤ 2 ^ 53 - 1 := by
              have : |k| ≤ 2 ^ 53 - 1 := by omega
              exact_mod_cast this
            exact mul_le_mul hk' (zpow_le_zpow_right₀ one_le_two hplaces)
              (zpow_pos two_pos _).le (by norm_num)
    have hdistance := abs_sub_abs_le_abs_sub x d
    rw [abs_sub_comm, hhalf] at h
    linarith

/-- No double is closer than the nearest one. -/
theorem IsDouble.abs_nearest_sub_le (hd : IsDouble d) (x : ℚ) :
    |nearest x - x| ≤ |d - x| := by
  rcases eq_or_ne x 0 with rfl | hx
  · rw [nearest_zero, sub_self, abs_zero]
    exact abs_nonneg _
  · by_cases hclose : |d - x| < spacing x / 2
    · rw [hd.nearest_eq hx hclose]
    · exact (Double.abs_nearest_sub_le x).trans (not_lt.mp hclose)

/-- Rounding is monotone. -/
theorem nearest_mono (h : x ≤ y) :
    nearest x ≤ nearest y := by
  rcases h.eq_or_lt with rfl | hlt
  · exact le_rfl
  · by_contra hless
    rw [not_le] at hless
    -- each of the two is at least as close to its own number as to the other
    have hx := (isDouble_nearest y).abs_nearest_sub_le x
    have hy := (isDouble_nearest x).abs_nearest_sub_le y
    rw [abs_sub_le_iff] at hx hy
    rcases abs_cases (nearest y - x) with ⟨h₁, -⟩ | ⟨h₁, -⟩ <;>
      rcases abs_cases (nearest x - y) with ⟨h₂, -⟩ | ⟨h₂, -⟩ <;>
      rw [h₁] at hx <;> rw [h₂] at hy <;> linarith [hx.1, hx.2, hy.1, hy.2]

theorem IsDouble.le_nearest (hd : IsDouble d) (h : d ≤ x) :
    d ≤ nearest x := by
  rw [← hd]
  exact nearest_mono h

theorem IsDouble.nearest_le (hd : IsDouble d) (h : x ≤ d) :
    nearest x ≤ d := by
  rw [← hd]
  exact nearest_mono h

end Rounding

section Quotients

variable {a b r : ℚ} {j : ℤ}

/-- Two doubles are as far apart as the neighbours of the smaller one. -/
theorem IsDouble.spacing_le_sub (ha : IsDouble a) (hb : IsDouble b) (hpos : 0 < b) (h : b < a) :
    spacing b ≤ a - b := by
  obtain ⟨m, hm, -⟩ := ha.exists_eq
  obtain ⟨k, hk, -⟩ := hb.exists_eq
  obtain ⟨n, hn⟩ := two_zpow_eq_mul (lastPlace_mono hpos h.le)
  have hsub : a - b = ((m * n - k : ℤ) : ℚ) * spacing b := by
    push_cast
    rw [sub_mul, ← hk, mul_assoc, spacing, ← hn]
    exact congrArg (· - b) hm
  have hcount : (1 : ℤ) ≤ m * n - k := by
    have hdist : (0 : ℚ) < ((m * n - k : ℤ) : ℚ) * spacing b := by
      rw [← hsub]
      exact sub_pos.mpr h
    exact_mod_cast pos_of_mul_pos_left hdist (spacing_pos b).le
  rw [hsub]
  exact le_mul_of_one_le_left (spacing_pos b).le (by exact_mod_cast hcount)

/-- The distance of two doubles is at least the last of 53 bits of the larger
one. -/
theorem IsDouble.le_mul_sub (ha : IsDouble a) (hb : IsDouble b) (hpos : 0 < b) (h : b < a) :
    a ≤ 2 ^ 53 * (a - b) := by
  obtain ⟨k, hk, hbits⟩ := hb.exists_eq
  have hspacing := ha.spacing_le_sub hb hpos h
  have hbits' : (k : ℚ) ≤ 2 ^ 53 - 1 := by
    have : k ≤ 2 ^ 53 - 1 := by
      have := le_abs_self k
      omega
    exact_mod_cast this
  have hb' : b ≤ (2 ^ 53 - 1) * (a - b) := by
    calc b
      _ = k * spacing b := hk
      _ ≤ (2 ^ 53 - 1) * spacing b := mul_le_mul_of_nonneg_right hbits' (spacing_pos b).le
      _ ≤ (2 ^ 53 - 1) * (a - b) := mul_le_mul_of_nonneg_left hspacing (by norm_num)
  linarith

/-- A quotient of doubles is not rounded down to a whole number, when this
multiple of the divisor is a double. -/
theorem IsDouble.lt_nearest_div (ha : IsDouble a) (hr : 0 < r) (hj : 0 ≤ j)
    (hmultiple : IsDouble (j * r)) (hsize : 2 ^ (-1074 : ℤ) ≤ a / r) (h : j < a / r) :
    j < nearest (a / r) := by
  rcases hj.eq_or_lt with rfl | hpos
  · -- the least positive double is in between
    have hleast : IsDouble (2 ^ (-1074 : ℤ)) := by
      simpa using isDouble_of_le (m := 1) (e := -1074) (by norm_num) le_rfl
    rw [Int.cast_zero]
    exact (zpow_pos two_pos _).trans_le (hleast.le_nearest hsize)
  · set q := a / r with hq
    have hone : (1 : ℚ) ≤ j := by exact_mod_cast hpos
    have hq0 : 0 < q := by linarith
    have ha' : a = q * r := (div_mul_cancel₀ a hr.ne').symm
    by_contra hless
    rw [not_lt] at hless
    -- both roundings would have to be as large as they can be
    have hdouble : q ≤ 2 ^ 53 * (q - j) := by
      have hbits := ha.le_mul_sub hmultiple (mul_pos (by linarith) hr)
        (by rw [ha']; exact mul_lt_mul_of_pos_right h hr)
      rw [ha', ← sub_mul, ← mul_assoc] at hbits
      exact le_of_mul_le_mul_right hbits hr
    have hround : 2 ^ 53 * (q - j) ≤ 2 ^ Int.log 2 |q| := by
      have hnear := (abs_le.mp (Double.abs_nearest_sub_le q)).1
      have hspacing : 2 ^ 53 * (spacing q / 2) = 2 ^ Int.log 2 |q| := by
        rw [spacing_le, zpow_sub₀ two_ne_zero]
        · norm_num
          ring
        · rw [abs_of_pos hq0]
          exact (zpow_le_one_of_nonpos₀ one_le_two (by norm_num)).trans (by linarith)
      linarith
    have hlog := two_zpow_log_le hq0.ne'
    rw [abs_of_pos hq0] at hlog hround
    have hpower : q = 2 ^ Int.log 2 q := le_antisymm (hdouble.trans hround) hlog
    have hlognonneg : 0 ≤ Int.log 2 q := by
      have := Int.log_mono_right (b := 2) one_pos (show (1 : ℚ) ≤ q by linarith)
      simpa using this
    have hexact : IsDouble q := by
      rw [hpower]
      simpa using isDouble_of_le (m := 1) (e := Int.log 2 q) (by norm_num) (by omega)
    rw [hexact] at hless
    linarith

/-- The rounded quotient has the ceiling of the exact one, as far as this can
be told from the multiples of the divisor. -/
def CeilsExactly (a r : ℚ) : Prop :=
  IsDouble (a / r) ∨
    (2 ^ (-1074 : ℤ) ≤ a / r ∧ IsDouble ⌈a / r⌉ ∧ IsDouble ((⌈a / r⌉ - 1) * r))

instance decidableCeilsExactly (a r : ℚ) : Decidable (CeilsExactly a r) :=
  inferInstanceAs (Decidable (_ ∨ _))

theorem IsDouble.ceil_nearest_div (ha : IsDouble a) (hr : 0 < r) (h : CeilsExactly a r) :
    ⌈nearest (a / r)⌉ = ⌈a / r⌉ := by
  rcases h with hquotient | ⟨hsize, hceil, hmultiple⟩
  · rw [hquotient]
  · have hpos : 0 < ⌈a / r⌉ := Int.ceil_pos.mpr ((zpow_pos two_pos _).trans_le hsize)
    have hbelow : ((⌈a / r⌉ - 1 : ℤ) : ℚ) < a / r := Int.lt_ceil.mp (by omega)
    rw [Int.ceil_eq_iff]
    refine ⟨?_, hceil.nearest_le (Int.le_ceil _)⟩
    have := ha.lt_nearest_div hr (by omega) (by exact_mod_cast hmultiple) hsize hbelow
    exact_mod_cast this

end Quotients

end Double
end SentinelADC
