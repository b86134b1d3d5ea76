import SentinelADC.Lib.KeyedList
import Mathlib.Data.List.Induction

/-!
# Grouping a list by a key

An accumulator loop that opens a group for the first element with a key and
adds the later ones to it.  The groups are a list of records with distinct keys
(`nodup_groups`), and a quantity that every element adds to is, in one group,
the sum over the elements with its key (`tally_group`) and, over all groups, the
sum over the whole list (`tally_groups`).
-/

namespace SentinelADC

open KeyedList

universe u v w

/-- Groups of elements, kept in records that have a key. -/
structure Grouping (α : Type u) (γ : Type v) (κ : Type w) where
  /-- Key of an element. -/
  id : α → κ
  /-- Key of a group. -/
  key : γ → κ
  /-- The group that an element opens, before it is added. -/
  start : α → γ
  add : γ → α → γ
  key_start : ∀ a, key (start a) = id a
  key_add : ∀ g a, key (add g a) = key g

namespace Grouping

variable {α : Type u} {γ : Type v} {κ : Type w} [DecidableEq κ] (G : Grouping α γ κ)

/-- One round of the loop. -/
def insert (groups : List γ) (a : α) : List γ :=
  match findKey G.key (G.id a) groups with
  | some _ => updateKey G.key (G.id a) (fun g => G.add g a) groups
  | none => groups ++ [G.add (G.start a) a]

/-- The groups after the loop. -/
def groups (l : List α) : List γ :=
  l.foldl G.insert []

/-- Groups start at zero in `weight`, and an element adds `amount` to it. -/
structure Tallies (weight : γ → ℕ) (amount : α → ℕ) : Prop where
  start : ∀ a, weight (G.start a) = 0
  add : ∀ g a, weight (G.add g a) = weight g + amount a

section Round

variable {G} {groups : List γ} {a : α} {weight : γ → ℕ} {amount : α → ℕ}

theorem insert_of_some {g : γ} (h : findKey G.key (G.id a) groups = some g) :
    G.insert groups a = updateKey G.key (G.id a) (fun g => G.add g a) groups := by
  rw [insert, h]

theorem insert_of_none (h : findKey G.key (G.id a) groups = none) :
    G.insert groups a = groups ++ [G.add (G.start a) a] := by
  rw [insert, h]

omit [DecidableEq κ] in
theorem key_add_start (a : α) : G.key (G.add (G.start a) a) = G.id a := by
  rw [G.key_add, G.key_start]

/-- A round adds the key of its element to the keys, unless it is there. -/
theorem keys_insert :
    (G.insert groups a).map G.key =
      if G.id a ∈ groups.map G.key then groups.map G.key else groups.map G.key ++ [G.id a] := by
  cases hfind : findKey G.key (G.id a) groups with
  | some g =>
      have hmem : G.id a ∈ groups.map G.key := findKey_isSome_iff.mp (by rw [hfind]; rfl)
      rw [insert_of_some hfind, map_key_updateKey (fun g => G.key_add g a), if_pos hmem]
  | none =>
      have hmem : G.id a ∉ groups.map G.key := by
        rw [← findKey_isSome_iff, hfind]
        simp
      rw [insert_of_none hfind, List.map_append, List.map_singleton, key_add_start, if_neg hmem]

theorem nodup_insert (h : (groups.map G.key).Nodup) : ((G.insert groups a).map G.key).Nodup := by
  rw [keys_insert]
  split
  · exact h
  · next hnew =>
      refine h.append (List.nodup_singleton _) ?_
      rw [List.disjoint_singleton]
      exact hnew

/-- The group of the element after a round. -/
theorem findKey_insert_self :
    findKey G.key (G.id a) (G.insert groups a) =
      some (G.add ((findKey G.key (G.id a) groups).getD (G.start a)) a) := by
  cases hfind : findKey G.key (G.id a) groups with
  | some g =>
      rw [insert_of_some hfind, findKey_updateKey_self (fun g => G.key_add g a), hfind]
      rfl
  | none =>
      have hkey : G.key (G.add (G.start a) a) = G.id a := key_add_start a
      rw [insert_of_none hfind, ← hkey]
      exact findKey_concat (by rw [hkey, hfind])

/-- The other groups. -/
theorem findKey_insert_ne {k : κ} (hne : k ≠ G.id a) :
    findKey G.key k (G.insert groups a) = findKey G.key k groups := by
  cases hfind : findKey G.key (G.id a) groups with
  | some g => rw [insert_of_some hfind, findKey_updateKey_ne (fun g => G.key_add g a) hne]
  | none =>
      have hkey : G.key (G.add (G.start a) a) ≠ k := by
        rw [key_add_start]
        exact hne.symm
      rw [insert_of_none hfind, findKey, List.find?_append]
      simp [findKey, hkey]

/-- A round adds what its element adds. -/
theorem tally_insert (ht : G.Tallies weight amount) (h : (groups.map G.key).Nodup) :
    ((G.insert groups a).map weight).sum = (groups.map weight).sum + amount a := by
  cases hfind : findKey G.key (G.id a) groups with
  | some g =>
      have hsum := sum_updateKey (w := weight) (f := fun g => G.add g a) h hfind
      rw [ht.add] at hsum
      rw [insert_of_some hfind]
      omega
  | none =>
      rw [insert_of_none hfind, List.map_append, List.sum_append, List.map_singleton,
        List.sum_singleton, ht.add, ht.start, Nat.zero_add]

end Round

section Loop

variable {G} {weight : γ → ℕ} {amount : α → ℕ}

theorem groups_concat (l : List α) (a : α) :
    G.groups (l ++ [a]) = G.insert (G.groups l) a := by
  simp [groups]

theorem nodup_groups (l : List α) : ((G.groups l).map G.key).Nodup := by
  induction l using List.reverseRecOn with
  | nil => exact List.nodup_nil
  | append_singleton l a ih =>
      rw [groups_concat]
      exact nodup_insert ih

/-- Every element has a group, and every group an element. -/
theorem mem_keys_groups {k : κ} (l : List α) :
    k ∈ (G.groups l).map G.key ↔ ∃ a ∈ l, G.id a = k := by
  induction l using List.reverseRecOn with
  | nil => simp [groups]
  | append_singleton l a ih =>
      rw [groups_concat, keys_insert]
      split
      · next hold =>
          rw [ih]
          constructor
          · rintro ⟨b, hb, rfl⟩
            exact ⟨b, List.mem_append_left _ hb, rfl⟩
          · rintro ⟨b, hb, rfl⟩
            rcases List.mem_append.mp hb with hb | hb
            · exact ⟨b, hb, rfl⟩
            · obtain rfl := List.mem_singleton.mp hb
              exact ih.mp hold
      · rw [List.mem_append, ih]
        simp [or_and_right, exists_or, eq_comm]

/-- The group of a key is opened by the first element with the key, and all of them are
added to it. -/
theorem findKey_groups (k : κ) (l : List α) :
    findKey G.key k (G.groups l) =
      (l.filter (fun a => G.id a = k)).head?.map
        (fun a => (l.filter (fun a => G.id a = k)).foldl G.add (G.start a)) := by
  induction l using List.reverseRecOn with
  | nil => rfl
  | append_singleton l a ih =>
      rw [groups_concat, List.filter_append]
      by_cases hk : G.id a = k
      · subst hk
        rw [findKey_insert_self, ih]
        cases l.filter (fun b => G.id b = G.id a) with
        | nil => simp
        | cons b bs => simp
      · rw [findKey_insert_ne (Ne.symm hk), ih]
        simp [hk]

/-- A group holds what the elements with its key have added. -/
theorem tally_findKey (ht : G.Tallies weight amount) (k : κ) (l : List α) :
    ((findKey G.key k (G.groups l)).map weight).getD 0 =
      ((l.filter (fun a => G.id a = k)).map amount).sum := by
  induction l using List.reverseRecOn with
  | nil => rfl
  | append_singleton l a ih =>
      rw [groups_concat, List.filter_append, List.map_append, List.sum_append, ← ih]
      by_cases hk : G.id a = k
      · subst hk
        rw [findKey_insert_self, Option.map_some, Option.getD_some, ht.add]
        cases findKey G.key (G.id a) (G.groups l) with
        | some g => simp
        | none => simp [ht.start]
      · rw [findKey_insert_ne (Ne.symm hk)]
        simp [hk]

theorem tally_group (ht : G.Tallies weight amount) {l : List α} {g : γ} (hg : g ∈ G.groups l) :
    weight g = ((l.filter (fun a => G.id a = G.key g)).map amount).sum := by
  rw [← tally_findKey ht, findKey_of_mem (nodup_groups l) hg]
  rfl

/-- All groups together hold what all elements have added. -/
theorem tally_groups (ht : G.Tallies weight amount) (l : List α) :
    ((G.groups l).map weight).sum = (l.map amount).sum := by
  induction l using List.reverseRecOn with
  | nil => rfl
  | append_singleton l a ih =>
      rw [groups_concat, tally_insert ht (nodup_groups l), ih, List.map_append, List.sum_append,
        List.map_singleton, List.sum_singleton]

end Loop

end Grouping

end SentinelADC
