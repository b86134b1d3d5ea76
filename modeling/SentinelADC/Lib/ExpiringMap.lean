import Mathlib.Logic.Function.Basic
import Mathlib.Order.Lattice
import Mathlib.Tactic.SplitIfs
import Mathlib.Data.List.Induction

/-!
# Maps whose entries expire

A key holds a value until a deadline.  What a map holds after a history of
writes is given by `contents`; `readAt_contents_eq_some_iff` says it in terms of
the history alone: the value of the last write to the key that was not followed
by a removal, while its deadline has not passed.

An implementation may drop entries that have expired.  Two maps `Agree` from a
time on when no later read tells them apart; writes keep them in agreement.
-/

namespace SentinelADC
namespace ExpiringMap

universe u v w

variable {κ : Type u} {ν : Type v} {τ : Type w}

/-- A write to the map. -/
inductive Write (κ : Type u) (ν : Type v) (τ : Type w) where
  | put (key : κ) (value : ν) (deadline : τ)
  | remove (matching : κ → Bool)
  /-- A request that writes nothing. -/
  | skip

/-- The write concerns the key. -/
def Write.touches [DecidableEq κ] (key : κ) : Write κ ν τ → Bool
  | .put key' _ _ => key' = key
  | .remove matching => matching key
  | .skip => false

/-- What the keys hold, with the deadlines. -/
abbrev Contents (κ : Type u) (ν : Type v) (τ : Type w) :=
  κ → Option (ν × τ)

/-- One write. -/
def apply [DecidableEq κ] (m : Contents κ ν τ) : Write κ ν τ → Contents κ ν τ
  | .put key value deadline => Function.update m key (some (value, deadline))
  | .remove matching => fun key => if matching key then none else m key
  | .skip => m

/-- What the map holds after a history of writes, oldest first. -/
def contents [DecidableEq κ] (history : List (Write κ ν τ)) : Contents κ ν τ :=
  history.foldl apply (fun _ => none)

section Histories

variable [DecidableEq κ] {m : Contents κ ν τ} {key : κ} {write : Write κ ν τ}

@[simp] theorem contents_nil :
    (contents ([] : List (Write κ ν τ))) = fun _ => none := by
  rfl

@[simp] theorem contents_concat (history : List (Write κ ν τ)) (write : Write κ ν τ) :
    contents (history ++ [write]) = apply (contents history) write := by
  simp [contents, List.foldl_append]

theorem apply_of_not_touches (h : write.touches key = false) :
    apply m write key = m key := by
  cases write with
  | put key' value deadline =>
      have hne : key ≠ key' := by
        rintro rfl
        simp [Write.touches] at h
      exact Function.update_of_ne hne _ _
  | remove matching =>
      have hkeep : matching key = false := h
      simp [apply, hkeep]
  | skip => rfl

/-- What a key holds was put there and not touched since. -/
theorem contents_eq_some_iff {history : List (Write κ ν τ)} {value : ν} {deadline : τ} :
    contents history key = some (value, deadline) ↔
      ∃ before after, history = before ++ .put key value deadline :: after ∧
        ∀ write ∈ after, write.touches key = false := by
  induction history using List.reverseRecOn with
  | nil => simp
  | append_singleton history write ih =>
      rw [contents_concat]
      cases htouch : write.touches key with
      | false =>
          rw [apply_of_not_touches htouch, ih]
          constructor
          · rintro ⟨before, after, rfl, hafter⟩
            refine ⟨before, after ++ [write], by simp, ?_⟩
            intro write' hmem
            rcases List.mem_append.mp hmem with hmem | hmem
            · exact hafter write' hmem
            · rwa [List.mem_singleton.mp hmem]
          · rintro ⟨before, after, heq, hafter⟩
            rcases List.eq_nil_or_concat after with rfl | ⟨after', last, rfl⟩
            · -- the last write would have touched the key
              obtain ⟨-, hlast⟩ := List.append_inj' heq rfl
              obtain rfl : write = .put key value deadline := by simpa using hlast
              simp [Write.touches] at htouch
            · have hlist : history ++ [write] =
                  (before ++ .put key value deadline :: after') ++ [last] := by
                simpa using heq
              obtain ⟨rfl, -⟩ := List.append_inj' hlist rfl
              exact ⟨before, after', rfl, fun write' hmem => hafter write' (by simp [hmem])⟩
      | true =>
          constructor
          · intro hsome
            cases write with
            | put key' value' deadline' =>
                obtain rfl : key' = key := by simpa [Write.touches] using htouch
                obtain ⟨rfl, rfl⟩ : value' = value ∧ deadline' = deadline := by
                  simpa [apply] using hsome
                exact ⟨history, [], rfl, by simp⟩
            | remove matching =>
                have hmatch : matching key = true := htouch
                simp [apply, hmatch] at hsome
            | skip => simp [Write.touches] at htouch
          · rintro ⟨before, after, heq, hafter⟩
            rcases List.eq_nil_or_concat after with rfl | ⟨after', last, rfl⟩
            · obtain ⟨-, hlast⟩ := List.append_inj' heq rfl
              obtain rfl : write = .put key value deadline := by simpa using hlast
              simp [apply]
            · have hlist : history ++ [write] =
                  (before ++ .put key value deadline :: after') ++ [last] := by
                simpa using heq
              obtain ⟨-, hlast⟩ := List.append_inj' hlist rfl
              obtain rfl : write = last := by simpa using hlast
              simp [hafter write (by simp)] at htouch

end Histories

section Reads

variable [LinearOrder τ] {m m' m'' : Contents κ ν τ} {now later : τ} {key : κ}

/-- The value of a key, unless its deadline has passed. -/
def readAt (now : τ) (key : κ) (m : Contents κ ν τ) : Option ν :=
  match m key with
  | none => none
  | some (value, deadline) => if now ≤ deadline then some value else none

theorem readAt_eq_some_iff {value : ν} :
    readAt now key m = some value ↔
      ∃ deadline, m key = some (value, deadline) ∧ now ≤ deadline := by
  simp only [readAt]
  cases m key with
  | none => simp
  | some entry =>
      obtain ⟨value', deadline⟩ := entry
      dsimp only
      split_ifs with hlive
      · simp [hlive]
      · simp [hlive]

/-- A read finds the last value put under the key, if nothing has touched the
key since and the deadline has not passed. -/
theorem readAt_contents_eq_some_iff [DecidableEq κ] {history : List (Write κ ν τ)} {value : ν} :
    readAt now key (contents history) = some value ↔
      ∃ before deadline after, history = before ++ .put key value deadline :: after ∧
        (∀ write ∈ after, write.touches key = false) ∧ now ≤ deadline := by
  simp only [readAt_eq_some_iff, contents_eq_some_iff]
  constructor
  · rintro ⟨deadline, ⟨before, after, heq, hafter⟩, hlive⟩
    exact ⟨before, deadline, after, heq, hafter, hlive⟩
  · rintro ⟨before, deadline, after, heq, hafter, hlive⟩
    exact ⟨deadline, ⟨before, after, heq, hafter⟩, hlive⟩

/-- No read from a time on tells two maps apart. -/
def Agree (now : τ) (m m' : Contents κ ν τ) : Prop :=
  ∀ later, now ≤ later → ∀ key, readAt later key m = readAt later key m'

theorem Agree.refl (now : τ) (m : Contents κ ν τ) :
    Agree now m m :=
  fun _ _ _ => rfl

theorem Agree.trans (h : Agree now m m') (h' : Agree now m' m'') :
    Agree now m m'' :=
  fun later hlater key => (h later hlater key).trans (h' later hlater key)

theorem Agree.mono (h : Agree now m m') (hlater : now ≤ later) :
    Agree later m m' :=
  fun t ht key => h t (le_trans hlater ht) key

/-- Writes keep maps in agreement. -/
theorem Agree.apply [DecidableEq κ] (h : Agree now m m') (write : Write κ ν τ) :
    Agree now (apply m write) (apply m' write) := by
  intro later hlater key
  have hkey := h later hlater key
  simp only [readAt] at hkey ⊢
  cases write with
  | put key' value deadline =>
      by_cases heq : key = key'
      · subst heq
        simp [ExpiringMap.apply]
      · simpa [ExpiringMap.apply, Function.update_of_ne heq] using hkey
  | remove matching =>
      cases hmatch : matching key with
      | true => simp [ExpiringMap.apply, hmatch]
      | false => simpa [ExpiringMap.apply, hmatch] using hkey
  | skip => exact hkey

/-- A key that has expired may be removed. -/
theorem agree_remove_expired [DecidableEq κ] (hexpired : readAt now key m = none) :
    Agree now (ExpiringMap.apply m (.remove (fun key' => key' = key))) m := by
  intro later hlater key'
  by_cases heq : key' = key
  · subst heq
    have hgone : readAt later key' m = none := by
      rw [Option.eq_none_iff_forall_ne_some] at hexpired ⊢
      intro value hread
      obtain ⟨deadline, hm, hlive⟩ := readAt_eq_some_iff.mp hread
      exact hexpired value (readAt_eq_some_iff.mpr ⟨deadline, hm, le_trans hlater hlive⟩)
    rw [hgone]
    simp [readAt, ExpiringMap.apply]
  · simp [readAt, ExpiringMap.apply, heq]

end Reads

end ExpiringMap
end SentinelADC
