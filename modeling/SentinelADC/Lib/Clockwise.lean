import Mathlib.Data.List.Sort

/-!
# Rings of keyed items

Items sorted by a key form a ring, which is read clockwise from a given key on:
first the items at or after it, then, wrapping around, the others.  The sort is
stable, so leaving items out before sorting is the same as skipping them on the
walk, also where keys coincide.
-/

namespace SentinelADC
namespace Clockwise

universe u v

variable {α : Type u} {κ : Type v} [LinearOrder κ] {key : α → κ}

/-- The items in the order of their keys. -/
def sortBy (key : α → κ) (l : List α) : List α :=
  l.insertionSort (fun a b => key a ≤ key b)

/-- The items of a ring in the order in which they are met from `t` on. -/
def clockwise (key : α → κ) (t : κ) (ring : List α) : List α :=
  ring.filter (fun a => t ≤ key a) ++ ring.filter (fun a => key a < t)

section Sorting

variable {l : List α} {p : α → Bool}

theorem pairwise_sortBy (key : α → κ) (l : List α) :
    (sortBy key l).Pairwise (fun a b => key a ≤ key b) := by
  have htotal : Std.Total (fun a b : α => key a ≤ key b) := ⟨fun a b => le_total (key a) (key b)⟩
  have htrans : IsTrans α (fun a b => key a ≤ key b) := ⟨fun _ _ _ => le_trans⟩
  exact List.pairwise_insertionSort (fun a b => key a ≤ key b) l

@[simp] theorem mem_sortBy {a : α} :
    a ∈ sortBy key l ↔ a ∈ l :=
  List.mem_insertionSort _

/-- Inserting an item that is left out changes nothing. -/
theorem filter_orderedInsert_of_neg {a : α} (ha : p a = false) (l : List α) :
    (l.orderedInsert (fun a b => key a ≤ key b) a).filter p = l.filter p := by
  induction l with
  | nil => simp [ha]
  | cons b l ih =>
      rw [List.orderedInsert_cons]
      split_ifs
      · simp [ha]
      · simp only [List.filter_cons, ih]

/-- An item that is kept finds its place among those that are kept. -/
theorem filter_orderedInsert_of_pos {a : α} (ha : p a = true)
    (hl : l.Pairwise (fun a b => key a ≤ key b)) :
    (l.orderedInsert (fun a b => key a ≤ key b) a).filter p =
      (l.filter p).orderedInsert (fun a b => key a ≤ key b) a := by
  induction l with
  | nil => simp [ha]
  | cons b l ih =>
      rw [List.pairwise_cons] at hl
      rw [List.orderedInsert_cons]
      split_ifs with hab
      · -- `a` is not after any item of the list
        have hfirst : ∀ x ∈ (b :: l).filter p, key a ≤ key x := by
          intro x hx
          rcases List.mem_cons.mp (List.mem_of_mem_filter hx) with rfl | hx
          · exact hab
          · exact hab.trans (hl.1 x hx)
        rw [List.filter_cons_of_pos ha]
        cases hkept : (b :: l).filter p with
        | nil => rfl
        | cons x xs =>
            have hax := hfirst x (by rw [hkept]; exact List.mem_cons_self)
            rw [List.orderedInsert_cons, if_pos hax]
      · rw [List.filter_cons, List.filter_cons, ih hl.2]
        split_ifs
        · rw [List.orderedInsert_cons, if_neg hab]
        · rfl

/-- Leaving items out and sorting commute. -/
theorem filter_sortBy (key : α → κ) (p : α → Bool) (l : List α) :
    (sortBy key l).filter p = sortBy key (l.filter p) := by
  induction l with
  | nil => rfl
  | cons a l ih =>
      have hsort : sortBy key (a :: l) =
          (sortBy key l).orderedInsert (fun a b => key a ≤ key b) a := rfl
      cases ha : p a with
      | false =>
          rw [List.filter_cons_of_neg (by simp [ha]), hsort, filter_orderedInsert_of_neg ha, ih]
      | true =>
          rw [List.filter_cons_of_pos ha, hsort,
            filter_orderedInsert_of_pos ha (pairwise_sortBy key l), ih]
          rfl

end Sorting

section Walk

variable {t : κ} {ring : List α} {p : α → Bool}

@[simp] theorem mem_clockwise {a : α} :
    a ∈ clockwise key t ring ↔ a ∈ ring := by
  rw [clockwise, List.mem_append, List.mem_filter, List.mem_filter]
  rcases le_or_gt t (key a) with h | h
  · simp [h, not_lt.mpr h]
  · simp [h, not_le.mpr h]

/-- The walk around a ring from which items are left out skips them. -/
theorem clockwise_filter (key : α → κ) (t : κ) (ring : List α) (p : α → Bool) :
    clockwise key t (ring.filter p) = (clockwise key t ring).filter p := by
  simp only [clockwise, List.filter_append, List.filter_filter, Bool.and_comm]

/-- Leaving items out changes the first item met only if it is one of them. -/
theorem head?_clockwise_filter (key : α → κ) (t : κ) (ring : List α) (p : α → Bool) :
    (clockwise key t (ring.filter p)).head? = (clockwise key t ring).head? ∨
      ∃ a, (clockwise key t ring).head? = some a ∧ p a = false := by
  rw [clockwise_filter, List.head?_filter]
  cases hwalk : clockwise key t ring with
  | nil => exact Or.inl rfl
  | cons a walk =>
      cases ha : p a with
      | true => exact Or.inl (by simp [ha])
      | false => exact Or.inr ⟨a, rfl, ha⟩

/-- On a sorted ring the walk is a rotation: it begins with the first item at
or after `t`, or at the start of the ring if there is none. -/
theorem drop_append_take (hring : ring.Pairwise (fun a b => key a ≤ key b)) :
    ring.drop ((ring.findIdx? (fun a => t ≤ key a)).getD 0) ++
        ring.take ((ring.findIdx? (fun a => t ≤ key a)).getD 0) =
      clockwise key t ring := by
  cases hfind : ring.findIdx? (fun a => t ≤ key a) with
  | none =>
      have hbefore : ∀ a ∈ ring, key a < t := by
        simpa [List.findIdx?_eq_none_iff] using hfind
      have hnone : ring.filter (fun a => t ≤ key a) = [] := by
        simpa using hbefore
      have hall : ring.filter (fun a => key a < t) = ring := by
        simpa using hbefore
      simp [clockwise, hnone, hall]
  | some i =>
      obtain ⟨hi, hat, hbefore⟩ := List.findIdx?_eq_some_iff_getElem.mp hfind
      have htake : ∀ a ∈ ring.take i, key a < t := by
        intro a ha
        obtain ⟨j, hj, rfl⟩ := List.mem_take_iff_getElem.mp ha
        simpa using hbefore j (by omega)
      have hdrop : ∀ a ∈ ring.drop i, t ≤ key a := by
        intro a ha
        obtain ⟨j, hj, rfl⟩ := List.mem_drop_iff_getElem.mp ha
        have hle : key ring[i] ≤ key ring[i + j] := by
          rcases Nat.eq_zero_or_pos j with rfl | hpos
          · exact le_refl _
          · exact List.pairwise_iff_getElem.mp hring i (i + j) hi (by omega) (by omega)
        exact le_trans (by simpa using hat) hle
      have hsplit := List.take_append_drop i ring
      simp only [Option.getD_some, clockwise]
      conv_rhs => rw [← hsplit]
      rw [List.filter_append, List.filter_append,
        List.filter_eq_nil_iff.mpr (fun a ha => by simpa using htake a ha),
        List.filter_eq_self.mpr (fun a ha => by simpa using hdrop a ha),
        List.filter_eq_self.mpr (fun a ha => by simpa using htake a ha),
        List.filter_eq_nil_iff.mpr (fun a ha => by simpa using hdrop a ha)]
      simp

end Walk

end Clockwise
end SentinelADC
