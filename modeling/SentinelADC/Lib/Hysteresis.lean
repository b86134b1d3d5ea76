import Mathlib.Data.List.Basic
import Mathlib.Data.List.Infix

/-!
# Switches with hysteresis

A switch follows a sequence of good and bad results.  A run of `down` bad ones
turns it off, a run of `up` good ones turns it on, and otherwise it stays as it
is.  With `up = 1` the switch shows whether the current run of bad results is
short.  A switch that asks for more good results differs from that one exactly
when a good result comes right after `down` bad ones.
-/

namespace SentinelADC

/-- A switch with the lengths of the current runs. -/
structure Switch where
  on : Bool
  failures : Nat
  successes : Nat
deriving DecidableEq, Repr

namespace Switch

/-- A switch that is on and has seen nothing. -/
def start : Switch where
  on := true
  failures := 0
  successes := 0

/-- One more result. -/
def step (down up : Nat) (s : Switch) (good : Bool) : Switch :=
  if good then
    { on := if up ≤ s.successes + 1 then true else s.on
      failures := 0
      successes := s.successes + 1 }
  else
    { on := if down ≤ s.failures + 1 then false else s.on
      failures := s.failures + 1
      successes := 0 }

/-- The switch after a sequence of results. -/
def after (down up : Nat) (results : List Bool) : Switch :=
  results.foldl (step down up) start

variable {down up : Nat} {results : List Bool}

@[simp] theorem after_nil :
    after down up [] = start := by
  rfl

@[simp] theorem after_concat (good : Bool) :
    after down up (results ++ [good]) = (after down up results).step down up good := by
  simp [after]

/-- The runs do not depend on the thresholds, and one of them is empty. -/
theorem counters_after (down up : Nat) (results : List Bool) :
    (after down up results).failures = (after down 1 results).failures ∧
      (after down up results).successes = (after down 1 results).successes ∧
      ((after down up results).failures = 0 ∨ (after down up results).successes = 0) := by
  induction results using List.reverseRecOn with
  | nil => exact ⟨rfl, rfl, Or.inl rfl⟩
  | append_singleton results good ih =>
      obtain ⟨hfailures, hsuccesses, -⟩ := ih
      simp only [after_concat]
      cases good with
      | true => exact ⟨rfl, congrArg Nat.succ hsuccesses, Or.inl rfl⟩
      | false => exact ⟨congrArg Nat.succ hfailures, rfl, Or.inr rfl⟩

/-- A run of bad results at the end. -/
theorem le_failures_after_iff (down up n : Nat) :
    n ≤ (after down up results).failures ↔ List.replicate n false <:+ results := by
  induction results using List.reverseRecOn generalizing n with
  | nil => simp [start]
  | append_singleton results good ih =>
      cases n with
      | zero => simp
      | succ n =>
          rw [after_concat, List.replicate_succ', List.suffix_concat_iff]
          cases good with
          | true => simp [step]
          | false => simp [step, ih]

/-- One good result turns the switch on. -/
theorem on_after_one (hdown : 0 < down) (results : List Bool) :
    (after down 1 results).on = decide ((after down 1 results).failures < down) := by
  induction results using List.reverseRecOn with
  | nil => simp [start, hdown]
  | append_singleton results good ih =>
      rw [after_concat]
      cases good with
      | true => simp [step, hdown]
      | false =>
          by_cases hlong : down ≤ (after down 1 results).failures + 1
          · simp [step, hlong]
          · simp [step, hlong, ih]
            omega

/-- One result more: the switches still agree unless it is a good one that ends
a long run of bad ones. -/
theorem agree_concat_iff (hdown : 0 < down) (hup : 1 < up) {results : List Bool} (good : Bool)
    (hagree : (after down 1 results).on = (after down up results).on) :
    (after down 1 (results ++ [good])).on = (after down up (results ++ [good])).on ↔
      ¬ (good = true ∧ List.replicate down false <:+ results) := by
  obtain ⟨hfailures, -, hshort⟩ := counters_after down up results
  rw [on_after_one hdown, ← hfailures] at hagree
  rw [on_after_one hdown, after_concat, after_concat, ← le_failures_after_iff down up]
  cases good with
  | false =>
      by_cases hlong : down ≤ (after down up results).failures + 1
      · simp [step, ← hfailures, hlong]
      · have hon : (after down up results).on = true := by
          rw [← hagree, decide_eq_true_iff]
          omega
        simp [step, ← hfailures, hlong, hon]
        omega
  | true =>
      by_cases hlong : down ≤ (after down up results).failures
      · have hquiet : (after down up results).successes = 0 := by omega
        have hoff : (after down up results).on = false := by
          rw [← hagree, decide_eq_false_iff_not, not_lt]
          exact hlong
        have hfirst : ¬ up ≤ 1 := by omega
        simp [step, hlong, hquiet, hoff, hdown, hfirst]
      · have hon : (after down up results).on = true := by
          simpa [not_le.mp hlong] using hagree.symm
        simp [step, hlong, hon, hdown]

/-- The two switches are alike for as long as no good result comes right after
`down` bad ones. -/
theorem agree_iff (hdown : 0 < down) (hup : 1 < up) (results : List Bool) :
    (∀ before, before <+: results → (after down 1 before).on = (after down up before).on) ↔
      ¬ List.replicate down false ++ [true] <:+: results := by
  induction results using List.reverseRecOn with
  | nil => simp
  | append_singleton results good ih =>
      rw [List.infix_concat_iff, not_or, ← ih, List.suffix_concat_iff]
      constructor
      · intro hall
        have hbefore : ∀ before, before <+: results →
            (after down 1 before).on = (after down up before).on :=
          fun before h => hall before (h.trans (List.prefix_append _ _))
        refine ⟨?_, hbefore⟩
        have hlast := (agree_concat_iff hdown hup good (hbefore results List.prefix_rfl)).mp
          (hall _ List.prefix_rfl)
        rintro (hnil | ⟨prior, heq, hsuffix⟩)
        · simp at hnil
        · obtain ⟨rfl, hgood⟩ := List.append_inj' heq rfl
          exact hlast ⟨(List.singleton_inj.mp hgood).symm, hsuffix⟩
      · rintro ⟨hlast, hbefore⟩ before hinit
        rcases List.prefix_concat_iff.mp hinit with rfl | hinit
        · refine (agree_concat_iff hdown hup good (hbefore results List.prefix_rfl)).mpr ?_
          rintro ⟨rfl, hsuffix⟩
          exact hlast (Or.inr ⟨_, rfl, hsuffix⟩)
        · exact hbefore before hinit

end Switch
end SentinelADC
