import Mathlib.Data.List.DropRight
import Mathlib.Data.List.Basic
import Mathlib.Order.Lattice

/-!
# Lists that keep their last items

An array to which items are pushed and which drops its first item above a cap
holds the last items that were pushed, and one that is filled from the front
holds the first.  In an increasing list the last items
are those that few others exceed.  The last items that pass a test which, once
passed, all later items pass, are found among the last items.
-/

namespace SentinelADC

universe u

variable {α : Type u}

/-- `push` and, above the cap, `shift`. -/
def pushCapped (cap : Nat) (x : α) (l : List α) : List α :=
  if cap < (l ++ [x]).length then (l ++ [x]).tail else l ++ [x]

theorem pushCapped_of_lt {cap : Nat} {x : α} {l : List α} (h : l.length < cap) :
    pushCapped cap x l = l ++ [x] := by
  rw [pushCapped, if_neg]
  simp only [List.length_append, List.length_singleton]
  omega

/-- What was pushed is the last item, after items that were there before. -/
theorem exists_of_pushCapped {cap : Nat} (hcap : 0 < cap) (x : α) (l : List α) :
    ∃ kept, pushCapped cap x l = kept ++ [x] ∧ ∀ y ∈ kept, y ∈ l := by
  simp only [pushCapped, List.length_append, List.length_singleton]
  split_ifs with hlong
  · have hne : l ≠ [] := by
      rw [← List.length_pos_iff]
      omega
    exact ⟨l.tail, List.tail_append_of_ne_nil hne, fun _ => List.mem_of_mem_tail⟩
  · exact ⟨l, rfl, fun _ => id⟩

theorem map_pushCapped {β : Type*} (f : α → β) (cap : Nat) (x : α) (l : List α) :
    (pushCapped cap x l).map f = pushCapped cap (f x) (l.map f) := by
  simp only [pushCapped, List.length_append, List.length_map, List.length_singleton]
  split_ifs <;> simp

/-- The last items, after one more has been pushed. -/
theorem pushCapped_rtake {cap : Nat} (hcap : 0 < cap) (x : α) (l : List α) :
    pushCapped cap x (l.rtake cap) = (l ++ [x]).rtake cap := by
  obtain ⟨n, rfl⟩ : ∃ n, cap = n + 1 := ⟨cap - 1, by omega⟩
  rw [List.rtake_concat_succ]
  by_cases hlong : n + 1 ≤ l.length
  · have hlength : (l.rtake (n + 1)).length = n + 1 := by
      simp only [List.rtake, List.length_drop]
      omega
    have htail : (l.rtake (n + 1)).tail = l.rtake n := by
      simp only [List.rtake, List.tail_drop]
      congr 1
      omega
    have hne : l.rtake (n + 1) ≠ [] := by
      rw [← List.length_pos_iff]
      omega
    rw [pushCapped, if_pos (by simp [hlength]), List.tail_append_of_ne_nil hne, htail]
  · have hall : ∀ k, l.length ≤ k → l.rtake k = l := by
      intro k hk
      simp only [List.rtake, Nat.sub_eq_zero_of_le hk, List.drop_zero]
    rw [hall (n + 1) (by omega), hall n (by omega), pushCapped_of_lt (by omega)]

/-- `unshift` and, above the cap, `pop`. -/
def unshiftCapped (cap : Nat) (x : α) (l : List α) : List α :=
  if cap < (x :: l).length then (x :: l).dropLast else x :: l

theorem unshiftCapped_eq_take {cap : Nat} (x : α) {l : List α} (h : l.length ≤ cap) :
    unshiftCapped cap x l = (x :: l).take cap := by
  simp only [unshiftCapped]
  split_ifs with hlong
  · have hlength : l.length = cap := by
      simp only [List.length_cons] at hlong
      omega
    rw [List.dropLast_eq_take, List.length_cons, hlength, Nat.add_sub_cancel]
  · rw [List.take_of_length_le (by omega)]

theorem length_unshiftCapped_le {cap : Nat} (x : α) {l : List α} (h : l.length ≤ cap) :
    (unshiftCapped cap x l).length ≤ cap := by
  rw [unshiftCapped_eq_take x h]
  exact List.length_take_le cap _

/-- The first items, after others have been put in front of them. -/
theorem take_append_take (cap : Nat) (front l : List α) :
    (front ++ l.take cap).take cap = (front ++ l).take cap := by
  rw [List.take_append, List.take_append, List.take_take, Nat.min_eq_left (Nat.sub_le _ _)]

/-- Items put in front one after the other. -/
theorem foldl_unshiftCapped {cap : Nat} (front : List α) {l : List α} (h : l.length ≤ cap) :
    front.foldl (fun l x => unshiftCapped cap x l) l = (front.reverse ++ l).take cap := by
  induction front generalizing l with
  | nil => simp [List.take_of_length_le h]
  | cons x front ih =>
      rw [List.foldl_cons, ih (length_unshiftCapped_le x h), unshiftCapped_eq_take x h,
        take_append_take, List.reverse_cons, List.append_assoc, List.singleton_append]

/-- In an increasing list the last items are those that few others exceed. -/
theorem mem_rtake_iff [LinearOrder α] {l : List α} (hl : l.Pairwise (· < ·)) {x : α} (hx : x ∈ l)
    (n : Nat) :
    x ∈ l.rtake n ↔ l.countP (fun y => x < y) < n := by
  obtain ⟨before, after, rfl⟩ := List.append_of_mem hx
  rw [List.pairwise_append, List.pairwise_cons] at hl
  obtain ⟨_, ⟨hafter, _⟩, hbefore⟩ := hl
  have hcount : (before ++ x :: after).countP (fun y => x < y) = after.length := by
    have hlow : before.countP (fun y => x < y) = 0 := by
      rw [List.countP_eq_zero]
      intro y hy
      simpa using (hbefore y hy x List.mem_cons_self).le
    have hhigh : after.countP (fun y => x < y) = after.length := by
      rw [List.countP_eq_length]
      intro y hy
      simpa using hafter y hy
    simp [List.countP_append, hlow, hhigh]
  have hfresh : x ∉ after := fun hmem => lt_irrefl x (hafter x hmem)
  rw [hcount]
  constructor
  · intro hmem
    by_contra hn
    have hdrop : (before ++ x :: after).rtake n = after.drop (after.length - n) := by
      simp only [List.rtake, List.length_append, List.length_cons]
      rw [show before.length + (after.length + 1) - n =
        before.length + (1 + (after.length - n)) by omega, List.drop_append,
        List.drop_eq_nil_of_le (by omega)]
      simp [Nat.add_comm 1]
    rw [hdrop] at hmem
    exact hfresh (List.mem_of_mem_drop hmem)
  · intro hn
    have hdrop : (before ++ x :: after).length - n ≤ before.length := by
      simp only [List.length_append, List.length_cons]
      omega
    rw [List.rtake, List.drop_append_of_le_length hdrop]
    simp

/-- The last items that pass a test are among the last items, when items that fail
it come first. -/
theorem rtake_filter_rtake {q : α → Bool} {l : List α}
    (hl : l.Pairwise (fun x y => q x = true → q y = true)) (n : Nat) :
    ((l.rtake n).filter q).rtake n = (l.filter q).rtake n := by
  induction l using List.reverseRecOn generalizing n with
  | nil => simp
  | append_singleton l x ih =>
      obtain ⟨hl, -, hlast⟩ := List.pairwise_append.mp hl
      cases n with
      | zero => simp
      | succ n =>
          rw [List.rtake_concat_succ, List.filter_append, List.filter_append]
          cases hx : q x with
          | true =>
              rw [List.filter_cons_of_pos hx, List.filter_nil, List.rtake_concat_succ,
                List.rtake_concat_succ, ih hl]
          | false =>
              have hnone : ∀ y ∈ l, q y = false := by
                intro y hy
                by_contra hq
                rw [hlast y hy x (by simp) (by simpa using hq)] at hx
                cases hx
              have hall : l.filter q = [] := by simpa using hnone
              have hsome : (l.rtake n).filter q = [] := by
                rw [List.filter_eq_nil_iff]
                intro y hy
                simp [hnone y (List.mem_of_mem_drop hy)]
              rw [hall, hsome]

theorem rtake_of_length_le {l : List α} {n : Nat} (h : l.length ≤ n) :
    l.rtake n = l := by
  rw [List.rtake, Nat.sub_eq_zero_of_le h, List.drop_zero]

theorem length_rtake_le (l : List α) (n : Nat) :
    (l.rtake n).length ≤ n := by
  rw [List.rtake, List.length_drop]
  omega

/-- None of the items that pass such a test is lost while they are few. -/
theorem filter_rtake {q : α → Bool} {l : List α}
    (hl : l.Pairwise (fun x y => q x = true → q y = true)) {n : Nat}
    (hfew : (l.filter q).length ≤ n) :
    (l.rtake n).filter q = l.filter q := by
  have hshort : ((l.rtake n).filter q).length ≤ n :=
    ((List.drop_sublist _ _).filter q).length_le.trans hfew
  rw [← rtake_of_length_le hshort, rtake_filter_rtake hl, rtake_of_length_le hfew]

end SentinelADC
