import SentinelADC.MetricsStore

/-!
# Figures

Percentages and averages that the gateway shows, rounded to two decimals.  A
percentage of a part stays between 0 and 100, and a rounded average between the
rounded bounds of what is averaged.
-/

namespace SentinelADC

theorem round2_mono {x y : Rat} (h : x ≤ y) :
    round2 x ≤ round2 y := by
  have hround : (jsRound (x * 100) : Rat) ≤ jsRound (y * 100) := by
    exact_mod_cast jsRound_mono (by linarith)
  rw [round2, round2]
  linarith

/-- Rounding an integer changes nothing. -/
theorem round2_intCast (n : Int) :
    round2 n = n := by
  have hround : jsRound ((n : Rat) * 100) = n * 100 := by
    rw [jsRound, Int.floor_eq_iff]
    push_cast
    constructor <;> linarith
  rw [round2, hround]
  push_cast
  linarith

theorem round2_le_of_le_intCast {x : Rat} {n : Int} (h : x ≤ n) :
    round2 x ≤ n := by
  have hround := round2_mono h
  rwa [round2_intCast] at hround

/-- `Math.round((part / whole) * 10000) / 100` rounds the percentage. -/
theorem percentage_eq_round2 (part whole : Rat) :
    (jsRound (part / whole * 10000) : Rat) / 100 = round2 (part / whole * 100) := by
  rw [round2]
  congr 3
  ring

/-- The percentage of a part. -/
theorem round2_percentage_mem {part whole : Nat} (h : part ≤ whole) :
    0 ≤ round2 ((part : Rat) / whole * 100) ∧ round2 ((part : Rat) / whole * 100) ≤ 100 := by
  have hpart : (part : Rat) ≤ whole := by exact_mod_cast h
  have hratio : (part : Rat) / whole ≤ 1 := div_le_one_of_le₀ hpart (by positivity)
  refine ⟨round2_nonneg (by positivity), ?_⟩
  exact_mod_cast round2_le_of_le_intCast (n := 100) (by push_cast; linarith)

/-- A sum of `n` numbers between two bounds. -/
def SumWithin (low high : Rat) (n : Nat) (total : Rat) : Prop :=
  n * low ≤ total ∧ total ≤ n * high

section SumWithin

variable {low high total x : Rat} {n : Nat}

theorem sumWithin_zero (low high : Rat) :
    SumWithin low high 0 0 := by
  simp [SumWithin]

/-- One more number. -/
theorem SumWithin.add (h : SumWithin low high n total) (hlow : low ≤ x) (hhigh : x ≤ high) :
    SumWithin low high (n + 1) (total + x) := by
  obtain ⟨hl, hh⟩ := h
  constructor
  · push_cast
    linarith
  · push_cast
    linarith

/-- A rounded average stays between the rounded bounds. -/
theorem SumWithin.round2_average (h : SumWithin low high n total) (hn : 0 < n) :
    round2 low ≤ round2 (total / n) ∧ round2 (total / n) ≤ round2 high := by
  have hpos : (0 : Rat) < n := by exact_mod_cast hn
  constructor
  · exact round2_mono ((le_div_iff₀' hpos).mpr h.1)
  · exact round2_mono ((div_le_iff₀' hpos).mpr h.2)

end SumWithin

end SentinelADC
