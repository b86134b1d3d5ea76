import Mathlib.Data.List.TakeWhile
import Mathlib.Order.Lattice

/-!
# Wildcard patterns

A wildcard stands for any sequence of symbols, or of those that are allowed;
every other symbol of a pattern stands for itself.  Whether the wildcards have
to take symbols that are not allowed can be told by counting these symbols.
-/

namespace SentinelADC
namespace Wildcard

universe u

variable {α : Type u} [DecidableEq α]

/-- The pattern covers the text, with wildcards for symbols that `ok` allows. -/
def covers (star : α) (ok : α → Bool) : List α → List α → Bool
  | [], text => text.isEmpty
  | c :: pattern, text =>
      if c = star then
        (List.range ((text.takeWhile ok).length + 1)).any
          (fun k => covers star ok pattern (text.drop k))
      else
        match text with
        | [] => false
        | d :: text => d = c && covers star ok pattern text

section Laws

variable {star c : α} {ok : α → Bool} {pattern text : List α}

theorem covers_star_iff :
    covers star ok (star :: pattern) text = true ↔
      ∃ taken rest, text = taken ++ rest ∧ (∀ x ∈ taken, ok x = true) ∧
        covers star ok pattern rest = true := by
  simp only [covers, if_true, List.any_eq_true, List.mem_range]
  constructor
  · rintro ⟨k, hk, hrest⟩
    refine ⟨text.take k, text.drop k, (List.take_append_drop k text).symm, ?_, hrest⟩
    intro x hx
    have hinit : text.take k <+: text.takeWhile ok := by
      have htake : text.take k = (text.takeWhile ok).take k := by
        conv_lhs => rw [← List.takeWhile_append_dropWhile (p := ok) (l := text)]
        rw [List.take_append_of_le_length (by omega)]
      rw [htake]
      exact List.take_prefix k _
    exact List.mem_takeWhile_imp (hinit.subset hx)
  · rintro ⟨taken, rest, rfl, hok, hrest⟩
    refine ⟨taken.length, ?_, by simpa using hrest⟩
    rw [List.takeWhile_append_of_pos hok, List.length_append]
    omega

theorem covers_cons_iff (hc : c ≠ star) :
    covers star ok (c :: pattern) text = true ↔
      ∃ rest, text = c :: rest ∧ covers star ok pattern rest = true := by
  cases text with
  | nil => simp [covers, hc]
  | cons d text => simp [covers, hc, and_assoc]

/-- Wildcards may take nothing. -/
theorem covers_filter (star : α) (ok : α → Bool) (pattern : List α) :
    covers star ok pattern (pattern.filter (fun c => c ≠ star)) = true := by
  induction pattern with
  | nil => rfl
  | cons c pattern ih =>
      by_cases hc : c = star
      · subst hc
        rw [List.filter_cons_of_neg (by simp), covers_star_iff]
        exact ⟨[], _, rfl, by simp, ih⟩
      · rw [List.filter_cons_of_pos (by simpa using hc), covers_cons_iff hc]
        exact ⟨_, rfl, ih⟩

/-- The symbols of the pattern are in the text. -/
theorem sublist_of_covers (h : covers star ok pattern text = true) :
    (pattern.filter (fun c => c ≠ star)).Sublist text := by
  induction pattern generalizing text with
  | nil => exact List.nil_sublist text
  | cons c pattern ih =>
      by_cases hc : c = star
      · subst hc
        obtain ⟨taken, rest, rfl, -, hrest⟩ := covers_star_iff.mp h
        rw [List.filter_cons_of_neg (by simp)]
        exact (ih hrest).trans (List.sublist_append_right taken rest)
      · obtain ⟨rest, rfl, hrest⟩ := (covers_cons_iff hc).mp h
        rw [List.filter_cons_of_pos (by simpa using hc)]
        exact (ih hrest).cons_cons c

/-- A text that is no longer than the symbols of the pattern consists of them. -/
theorem eq_filter_of_covers (h : covers star ok pattern text = true)
    (hlength : text.length ≤ (pattern.filter (fun c => c ≠ star)).length) :
    text = pattern.filter (fun c => c ≠ star) :=
  ((sublist_of_covers h).eq_of_length_le hlength).symm

/-- The wildcards keep to allowed symbols when no others are left for them. -/
theorem covers_iff_countP (hstar : ok star = true) :
    covers star ok pattern text = true ↔
      covers star (fun _ => true) pattern text = true ∧
        text.countP (fun x => !ok x) ≤ pattern.countP (fun x => !ok x) := by
  induction pattern generalizing text with
  | nil => cases text <;> simp [covers]
  | cons c pattern ih =>
      by_cases hc : c = star
      · subst hc
        have hcount : (c :: pattern).countP (fun x => !ok x) = pattern.countP (fun x => !ok x) :=
          List.countP_cons_of_neg (by simp [hstar])
        rw [hcount, covers_star_iff, covers_star_iff]
        constructor
        · rintro ⟨taken, rest, rfl, hok, hrest⟩
          obtain ⟨hcovers, hle⟩ := ih.mp hrest
          have hnone : taken.countP (fun x => !ok x) = 0 :=
            List.countP_eq_zero.mpr (fun x hx => by simp [hok x hx])
          exact ⟨⟨taken, rest, rfl, by simp, hcovers⟩, by rw [List.countP_append]; omega⟩
        · rintro ⟨⟨taken, rest, rfl, -, hcovers⟩, hle⟩
          have hsymbols : pattern.countP (fun x => !ok x) ≤ rest.countP (fun x => !ok x) := by
            have hfilter : (pattern.filter (fun d => d ≠ c)).countP (fun x => !ok x) =
                pattern.countP (fun x => !ok x) := by
              rw [List.countP_filter]
              refine List.countP_congr (fun x _ => ?_)
              by_cases hx : x = c <;> simp [hx, hstar]
            rw [← hfilter]
            exact (sublist_of_covers hcovers).countP_le
          rw [List.countP_append] at hle
          have hnone : taken.countP (fun x => !ok x) = 0 := by omega
          refine ⟨taken, rest, rfl, fun x hx => ?_, ih.mpr ⟨hcovers, by omega⟩⟩
          simpa using List.countP_eq_zero.mp hnone x hx
      · rw [covers_cons_iff hc, covers_cons_iff hc]
        constructor
        · rintro ⟨rest, rfl, hrest⟩
          obtain ⟨hcovers, hle⟩ := ih.mp hrest
          exact ⟨⟨rest, rfl, hcovers⟩, by simp only [List.countP_cons]; omega⟩
        · rintro ⟨⟨rest, rfl, hcovers⟩, hle⟩
          simp only [List.countP_cons] at hle
          exact ⟨rest, rfl, ih.mpr ⟨hcovers, by omega⟩⟩

end Laws

end Wildcard
end SentinelADC
