import Mathlib.Data.List.Basic
import Mathlib.Logic.Function.Basic

/-!
# One-shot timers kept by their owner

An event loop holds the timers that are still to run; each owner stores the
handle of the last timer it has set, so that it can be cancelled.  A timer that
has run leaves its handle behind in the store, where it does no harm: handles
are never used twice.  So the timer that is pending for an owner, if there is
one, is always the one whose handle is stored.
-/

namespace SentinelADC

universe u v

/-- Stored handles, pending timers and the next free handle. -/
structure TimerTable (κ : Type u) (τ : Type v) where
  stored : κ → Option Nat
  pending : List τ
  next : Nat

namespace TimerTable

variable {κ : Type u} {τ : Type v} {handle : τ → Nat} {owner : τ → κ}

/-- The timers with this handle are not pending any more. -/
def discard (handle : τ → Nat) (h : Nat) (t : TimerTable κ τ) : TimerTable κ τ :=
  { t with pending := t.pending.filter (fun x => handle x ≠ h) }

/-- Cancel the timer whose handle an owner has stored. -/
def cancel (handle : τ → Nat) (k : κ) (t : TimerTable κ τ) : TimerTable κ τ :=
  match t.stored k with
  | none => t
  | some h => t.discard handle h

/-- A pending timer is the last one its owner has set. -/
structure Consistent (handle : τ → Nat) (owner : τ → κ) (t : TimerTable κ τ) : Prop where
  stored_of_mem : ∀ x ∈ t.pending, t.stored (owner x) = some (handle x)
  owner_unique : ∀ k k' h, t.stored k = some h → t.stored k' = some h → k = k'
  lt_next : ∀ k h, t.stored k = some h → h < t.next

section Laws

variable {t : TimerTable κ τ} {k k' : κ} {h : Nat} {x : τ}

@[simp] theorem stored_cancel :
    (t.cancel handle k).stored = t.stored := by
  simp only [cancel]
  split <;> rfl

@[simp] theorem next_cancel :
    (t.cancel handle k).next = t.next := by
  simp only [cancel]
  split <;> rfl

theorem Consistent.handle_lt (ht : t.Consistent handle owner) (hx : x ∈ t.pending) :
    handle x < t.next :=
  ht.lt_next _ _ (ht.stored_of_mem x hx)

theorem consistent_empty (next : Nat) :
    (⟨fun _ => none, [], next⟩ : TimerTable κ τ).Consistent handle owner :=
  ⟨by simp, by simp, by simp⟩

theorem Consistent.discard (ht : t.Consistent handle owner) (h : Nat) :
    (t.discard handle h).Consistent handle owner :=
  ⟨fun x hx => ht.stored_of_mem x (List.mem_of_mem_filter hx), ht.owner_unique, ht.lt_next⟩

theorem Consistent.cancel (ht : t.Consistent handle owner) (k : κ) :
    (t.cancel handle k).Consistent handle owner := by
  simp only [TimerTable.cancel]
  split
  · exact ht
  · exact ht.discard _

end Laws

variable [DecidableEq κ]

/-- Cancel it and forget its handle. -/
def drop (handle : τ → Nat) (k : κ) (t : TimerTable κ τ) : TimerTable κ τ :=
  { t.cancel handle k with stored := Function.update t.stored k none }

/-- Set a timer under the next free handle and store the handle. -/
def start (k : κ) (x : τ) (t : TimerTable κ τ) : TimerTable κ τ where
  stored := Function.update t.stored k (some t.next)
  pending := t.pending ++ [x]
  next := t.next + 1

/-- The timers that are pending for an owner. -/
def pendingOf (owner : τ → κ) (k : κ) (t : TimerTable κ τ) : List τ :=
  t.pending.filter (fun x => owner x = k)

section Owners

variable {t : TimerTable κ τ} {k k' : κ} {h : Nat} {x : τ}

@[simp] theorem stored_drop :
    (t.drop handle k).stored = Function.update t.stored k none := by
  rfl

@[simp] theorem next_drop :
    (t.drop handle k).next = t.next :=
  next_cancel

@[simp] theorem stored_start :
    (t.start k x).stored = Function.update t.stored k (some t.next) := by
  rfl

@[simp] theorem next_start :
    (t.start k x).next = t.next + 1 := by
  rfl

/-- Nothing is pending for an owner that has cancelled its timer. -/
theorem Consistent.pendingOf_cancel_self (ht : t.Consistent handle owner) (k : κ) :
    (t.cancel handle k).pendingOf owner k = [] := by
  rw [pendingOf, List.filter_eq_nil_iff]
  intro x hx howner
  have hk : owner x = k := by simpa using howner
  simp only [TimerTable.cancel] at hx
  split at hx
  · next hnone =>
      have hstored := ht.stored_of_mem x hx
      rw [hk, hnone] at hstored
      cases hstored
  · next h hsome =>
      have hstored := ht.stored_of_mem x (List.mem_of_mem_filter hx)
      rw [hk, hsome, Option.some.injEq] at hstored
      have hne : handle x ≠ h := by simpa using List.of_mem_filter hx
      exact hne hstored.symm

/-- The timers of the other owners stay. -/
theorem Consistent.pendingOf_discard_ne (ht : t.Consistent handle owner)
    (hk : t.stored k = some h) (hne : k' ≠ k) :
    (t.discard handle h).pendingOf owner k' = t.pendingOf owner k' := by
  rw [pendingOf, TimerTable.discard, List.filter_filter, pendingOf]
  apply List.filter_congr
  intro x hx
  by_cases howner : owner x = k'
  · have hhandle : handle x ≠ h := by
      intro heq
      refine hne (ht.owner_unique k' k h ?_ hk)
      rw [← howner, ht.stored_of_mem x hx, heq]
    simp [howner, hhandle]
  · simp [howner]

theorem Consistent.pendingOf_cancel_ne (ht : t.Consistent handle owner) (hne : k' ≠ k) :
    (t.cancel handle k).pendingOf owner k' = t.pendingOf owner k' := by
  simp only [TimerTable.cancel]
  split
  · rfl
  · next h hsome => exact ht.pendingOf_discard_ne hsome hne

theorem Consistent.drop (ht : t.Consistent handle owner) (k : κ) :
    (t.drop handle k).Consistent handle owner := by
  have hcancel := ht.cancel k
  have hnone := ht.pendingOf_cancel_self k
  rw [pendingOf, List.filter_eq_nil_iff] at hnone
  refine ⟨?_, ?_, ?_⟩
  · intro x hx
    have howner : owner x ≠ k := by simpa using hnone x hx
    have hstored := hcancel.stored_of_mem x hx
    rw [stored_cancel] at hstored
    rw [stored_drop, Function.update_of_ne howner, hstored]
  · intro k₁ k₂ h h₁ h₂
    simp only [stored_drop, Function.update_apply] at h₁ h₂
    split_ifs at h₁ h₂
    exact ht.owner_unique k₁ k₂ h h₁ h₂
  · intro k₁ h h₁
    simp only [stored_drop, Function.update_apply] at h₁
    split_ifs at h₁
    rw [next_drop]
    exact ht.lt_next k₁ h h₁

theorem Consistent.pendingOf_drop_ne (ht : t.Consistent handle owner) (hne : k' ≠ k) :
    (t.drop handle k).pendingOf owner k' = t.pendingOf owner k' :=
  ht.pendingOf_cancel_ne hne

/-- A timer may be set once the last one is cancelled. -/
theorem Consistent.start (ht : t.Consistent handle owner) (hnone : t.pendingOf owner k = [])
    (howner : owner x = k) (hhandle : handle x = t.next) :
    (t.start k x).Consistent handle owner := by
  rw [pendingOf, List.filter_eq_nil_iff] at hnone
  refine ⟨?_, ?_, ?_⟩
  · intro y hy
    rcases List.mem_append.mp hy with hold | hnew
    · have hne : owner y ≠ k := by simpa using hnone y hold
      rw [stored_start, Function.update_of_ne hne, ht.stored_of_mem y hold]
    · obtain rfl := List.mem_singleton.mp hnew
      rw [stored_start, howner, Function.update_self, hhandle]
  · intro k₁ k₂ h h₁ h₂
    simp only [stored_start, Function.update_apply] at h₁ h₂
    split_ifs at h₁ h₂ with hk₁ hk₂ hk₂
    · rw [hk₁, hk₂]
    · have := ht.lt_next k₂ h h₂
      have := Option.some.inj h₁
      omega
    · have := ht.lt_next k₁ h h₁
      have := Option.some.inj h₂
      omega
    · exact ht.owner_unique k₁ k₂ h h₁ h₂
  · intro k₁ h h₁
    simp only [stored_start, next_start, Function.update_apply] at h₁ ⊢
    split_ifs at h₁
    · have := Option.some.inj h₁
      omega
    · exact Nat.lt_succ_of_lt (ht.lt_next k₁ h h₁)

theorem pendingOf_start_self (hnone : t.pendingOf owner k = []) (howner : owner x = k) :
    (t.start k x).pendingOf owner k = [x] := by
  rw [pendingOf, TimerTable.start, List.filter_append, ← pendingOf, hnone]
  simp [howner]

theorem pendingOf_start_ne (howner : owner x = k) (hne : k' ≠ k) :
    (t.start k x).pendingOf owner k' = t.pendingOf owner k' := by
  have hx : owner x ≠ k' := fun heq => hne (heq.symm.trans howner)
  rw [pendingOf, TimerTable.start, List.filter_append, ← pendingOf]
  simp [hx]

end Owners

end TimerTable
end SentinelADC
