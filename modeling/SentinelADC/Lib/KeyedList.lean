import Mathlib.Data.List.Basic
import Mathlib.Data.List.Nodup
import Mathlib.Algebra.BigOperators.Group.List.Basic
import Mathlib.Algebra.GroupWithZero.Nat

/-!
# Lists of records found and updated by a key

An array of mutable records is modelled by a list.  A record is looked up with
`findKey` and written in place with `updateKey`; an update keeps the record's
key, so the keys of the list never change.  When the keys are distinct, reading
after writing follows the usual two laws (`findKey_updateKey_self`,
`findKey_updateKey_ne`).
-/

namespace SentinelADC
namespace KeyedList

universe u v

variable {α : Type u} {κ : Type v} [DecidableEq κ]

/-- First record with the given key. -/
def findKey (key : α → κ) (k : κ) (l : List α) : Option α :=
  l.find? (fun a => key a = k)

/-- Write the records with the given key in place. -/
def updateKey (key : α → κ) (k : κ) (f : α → α) (l : List α) : List α :=
  l.map (fun a => if key a = k then f a else a)

variable {key : α → κ} {f : α → α}

theorem key_of_findKey {k : κ} {l : List α} {a : α}
    (h : findKey key k l = some a) :
    key a = k := by
  simpa using List.find?_some h

theorem mem_of_findKey {k : κ} {l : List α} {a : α}
    (h : findKey key k l = some a) :
    a ∈ l :=
  List.mem_of_find?_eq_some h

/-- With distinct keys, every record is the one found under its key. -/
theorem findKey_of_mem {l : List α} {a : α}
    (hnd : (l.map key).Nodup) (ha : a ∈ l) :
    findKey key (key a) l = some a := by
  induction l with
  | nil => simp at ha
  | cons b l ih =>
      rw [List.map_cons, List.nodup_cons] at hnd
      rcases List.mem_cons.mp ha with rfl | ha
      · simp [findKey]
      · have hne : key b ≠ key a := by
          intro heq
          exact hnd.1 (heq ▸ List.mem_map_of_mem ha)
        simpa [findKey, List.find?_cons, hne] using ih hnd.2 ha

theorem findKey_isSome_iff {k : κ} {l : List α} :
    (findKey key k l).isSome ↔ k ∈ l.map key := by
  simp [findKey, List.find?_isSome]

/-- In-place updates keep the list of keys. -/
theorem map_key_updateKey (hf : ∀ a, key (f a) = key a) (k : κ) (l : List α) :
    (updateKey key k f l).map key = l.map key := by
  rw [updateKey, List.map_map]
  apply List.map_congr_left
  intro a _
  by_cases h : key a = k <;> simp [h, hf]

theorem findKey_updateKey_self (hf : ∀ a, key (f a) = key a) (k : κ) (l : List α) :
    findKey key k (updateKey key k f l) = (findKey key k l).map f := by
  induction l with
  | nil => rfl
  | cons a l ih =>
      by_cases h : key a = k
      · simp [findKey, updateKey, h, hf]
      · simpa [findKey, updateKey, h] using ih

theorem findKey_updateKey_ne (hf : ∀ a, key (f a) = key a) {k k' : κ}
    (hne : k' ≠ k) (l : List α) :
    findKey key k' (updateKey key k f l) = findKey key k' l := by
  induction l with
  | nil => rfl
  | cons a l ih =>
      by_cases h : key a = k
      · have hk : k ≠ k' := fun heq => hne heq.symm
        simpa [findKey, updateKey, h, hf, hk] using ih
      · by_cases h' : key a = k'
        · simp [findKey, updateKey, h', hne]
        · simpa [findKey, updateKey, h, h'] using ih

/-- A record under a new key at the end of the list is the one found there. -/
theorem findKey_concat {l : List α} {a : α} (hnew : findKey key (key a) l = none) :
    findKey key (key a) (l ++ [a]) = some a := by
  rw [findKey] at hnew ⊢
  rw [List.find?_append, hnew]
  simp

/-- With distinct keys, the record found under a key is the only one there. -/
theorem eq_of_findKey {k : κ} {l : List α} {a b : α}
    (hnd : (l.map key).Nodup) (hfind : findKey key k l = some a)
    (hb : b ∈ l) (hk : key b = k) :
    b = a := by
  have h := findKey_of_mem hnd hb
  rw [hk, hfind] at h
  exact (Option.some.inj h).symm

theorem updateKey_congr {f f' : α → α} {k : κ} {l : List α}
    (h : ∀ a ∈ l, key a = k → f a = f' a) :
    updateKey key k f l = updateKey key k f' l := by
  apply List.map_congr_left
  intro a ha
  by_cases hk : key a = k
  · simp [hk, h a ha hk]
  · simp [hk]

/-- An update that changes no record under its key changes nothing. -/
theorem updateKey_eq_self {k : κ} {l : List α}
    (h : ∀ a ∈ l, key a = k → f a = a) :
    updateKey key k f l = l := by
  conv_rhs => rw [← List.map_id l]
  apply List.map_congr_left
  intro a ha
  by_cases hk : key a = k
  · simp [hk, h a ha hk]
  · simp [hk]

/-- An update that a filter does not notice commutes with it. -/
theorem filter_updateKey {p : α → Bool} (hp : ∀ a, p (f a) = p a) (k : κ) (l : List α) :
    (updateKey key k f l).filter p = updateKey key k f (l.filter p) := by
  rw [updateKey, updateKey, List.filter_map]
  congr 2
  funext a
  by_cases h : key a = k <;> simp [h, hp]

theorem updateKey_concat (f : α → α) {l : List α} {a : α} (hnew : findKey key (key a) l = none) :
    updateKey key (key a) f (l ++ [a]) = l ++ [f a] := by
  have hrest : updateKey key (key a) f l = l := by
    apply updateKey_eq_self
    intro b hb hk
    exact absurd hk (by simpa using List.find?_eq_none.mp hnew b hb)
  rw [updateKey] at hrest ⊢
  rw [List.map_append, hrest]
  simp

/-- A sum over the records changes by what the one updated record changes. -/
theorem sum_updateKey {w : α → ℕ} {k : κ} {l : List α} {a : α}
    (hnd : (l.map key).Nodup) (hfind : findKey key k l = some a) :
    ((updateKey key k f l).map w).sum + w a = (l.map w).sum + w (f a) := by
  induction l with
  | nil => simp [findKey] at hfind
  | cons b l ih =>
      rw [List.map_cons, List.nodup_cons] at hnd
      by_cases hb : key b = k
      · have hba : b = a := by
          simpa [findKey, hb] using hfind
        subst hba
        have hrest : updateKey key k f l = l := by
          apply updateKey_eq_self
          intro c hc hk
          exact absurd (hb.trans hk.symm ▸ List.mem_map_of_mem hc) hnd.1
        have hcons : updateKey key k f (b :: l) = f b :: l := by
          conv_rhs => rw [← hrest]
          simp [updateKey, hb]
        rw [hcons]
        simp only [List.map_cons, List.sum_cons]
        omega
      · have hfind' : findKey key k l = some a := by
          simpa [findKey, hb] using hfind
        have hcons : updateKey key k f (b :: l) = b :: updateKey key k f l := by
          simp [updateKey, hb]
        have hrest := ih hnd.2 hfind'
        rw [hcons]
        simp only [List.map_cons, List.sum_cons]
        omega

end KeyedList
end SentinelADC
