import Mathlib.Data.List.Basic
import Mathlib.Order.Defs.PartialOrder

/-!
# Runs of a step function

A system is given here by a total step function `step : σ → ε → σ`.  Events
that are not enabled leave the state alone, so every list of events is a run.

Two predicates on runs are used throughout:

* `Always step P s es`: `P` holds in the start state `s` and in every state the
  run `es` passes through;
* `EachStep step Q s es`: every step satisfies `Q`, read on the state before
  the step and the event that is about to happen.

The rules below reduce a statement about runs to one about single steps.
`always_iff_eachStep` is the exact form: when a single step keeps `P` exactly
under a condition `R` on the state before it, a whole run keeps `P` exactly
when each of its steps meets `R`.
-/

namespace SentinelADC
namespace Runs

universe u v w

variable {σ : Type u} {ε : Type v}

/-- State reached after a list of events. -/
def run (step : σ → ε → σ) (s : σ) (es : List ε) : σ :=
  es.foldl step s

/-- `P` holds in the start state and after every event of the run. -/
def Always (step : σ → ε → σ) (P : σ → Prop) : σ → List ε → Prop
  | s, [] => P s
  | s, e :: es => P s ∧ Always step P (step s e) es

/-- Every step of the run satisfies `Q` on its pre-state and event. -/
def EachStep (step : σ → ε → σ) (Q : σ → ε → Prop) : σ → List ε → Prop
  | _, [] => True
  | s, e :: es => Q s e ∧ EachStep step Q (step s e) es

instance decidableEachStep (step : σ → ε → σ) (Q : σ → ε → Prop)
    [∀ s e, Decidable (Q s e)] : ∀ s es, Decidable (EachStep step Q s es)
  | _, [] => isTrue trivial
  | s, e :: es =>
      have := decidableEachStep step Q (step s e) es
      inferInstanceAs (Decidable (Q s e ∧ EachStep step Q (step s e) es))

section Rules

variable {step : σ → ε → σ}

@[simp] theorem run_nil (s : σ) :
    run step s [] = s := by
  rfl

@[simp] theorem run_cons (s : σ) (e : ε) (es : List ε) :
    run step s (e :: es) = run step (step s e) es := by
  rfl

theorem run_append (s : σ) (es fs : List ε) :
    run step s (es ++ fs) = run step (run step s es) fs := by
  simp [run, List.foldl_append]

/-- A property of a whole run holds in its first state. -/
theorem Always.head {P : σ → Prop} {s : σ} {es : List ε}
    (h : Always step P s es) :
    P s := by
  cases es with
  | nil => exact h
  | cons e es => exact h.1

/-- `Always` read through prefixes of the run. -/
theorem always_iff_prefixes (P : σ → Prop) (s : σ) (es : List ε) :
    Always step P s es ↔
      ∀ pre post, es = pre ++ post → P (run step s pre) := by
  induction es generalizing s with
  | nil =>
      constructor
      · intro h pre post heq
        have hpre : pre = [] := (List.append_eq_nil_iff.mp heq.symm).1
        subst hpre
        exact h
      · intro h
        exact h [] [] rfl
  | cons e es ih =>
      constructor
      · rintro ⟨hs, hrest⟩ pre post heq
        cases pre with
        | nil => exact hs
        | cons e' pre =>
            obtain ⟨rfl, heq'⟩ := List.cons_eq_cons.mp heq
            exact (ih (step s e)).mp hrest pre post heq'
      · intro h
        refine ⟨h [] (e :: es) rfl, (ih (step s e)).mpr ?_⟩
        intro pre post heq
        exact h (e :: pre) post (by rw [heq]; rfl)

/-- The last state of a run inherits what always holds. -/
theorem Always.last {P : σ → Prop} {s : σ} {es : List ε}
    (h : Always step P s es) :
    P (run step s es) :=
  (always_iff_prefixes P s es).mp h es [] (by simp)

/-- `Always` is monotone in the property. -/
theorem Always.mono {P R : σ → Prop} {s : σ} {es : List ε}
    (h : Always step P s es) (hPR : ∀ s, P s → R s) :
    Always step R s es := by
  induction es generalizing s with
  | nil => exact hPR s h
  | cons e es ih => exact ⟨hPR s h.1, ih h.2⟩

/-- A condition on events alone holds along a run when it holds of each event. -/
theorem eachStep_of_forall {Q : ε → Prop} {s : σ} {es : List ε}
    (h : ∀ e ∈ es, Q e) :
    EachStep step (fun _ e => Q e) s es := by
  induction es generalizing s with
  | nil => trivial
  | cons e es ih =>
      exact ⟨h e (by simp), ih (fun e' he' => h e' (by simp [he']))⟩

theorem eachStep_iff_forall {Q : ε → Prop} {s : σ} {es : List ε} :
    EachStep step (fun _ e => Q e) s es ↔ ∀ e ∈ es, Q e := by
  induction es generalizing s with
  | nil => exact iff_of_true trivial (by simp)
  | cons e es ih => rw [List.forall_mem_cons, ← ih (s := step s e), EachStep]

theorem eachStep_append {Q : σ → ε → Prop} {s : σ} {es fs : List ε} :
    EachStep step Q s (es ++ fs) ↔ EachStep step Q s es ∧ EachStep step Q (run step s es) fs := by
  induction es generalizing s with
  | nil => simp [EachStep]
  | cons e es ih => rw [List.cons_append, EachStep, EachStep, run_cons, ih, and_assoc]

/-- What each event of one run keeps holds after the run. -/
theorem run_preserves {P : σ → Prop} {s : σ} {es : List ε} (hs : P s)
    (h : ∀ e ∈ es, ∀ s, P s → P (step s e)) :
    P (run step s es) := by
  induction es generalizing s with
  | nil => exact hs
  | cons e es ih =>
      exact ih (h e (by simp) s hs) (fun e' he' => h e' (by simp [he']))

/-- Invariant rule: what each permitted step keeps, every run keeps. -/
theorem always_of_step {P : σ → Prop} {Q : σ → ε → Prop}
    (hstep : ∀ s e, P s → Q s e → P (step s e))
    {s : σ} {es : List ε}
    (hs : P s) (hQ : EachStep step Q s es) :
    Always step P s es := by
  induction es generalizing s with
  | nil => exact hs
  | cons e es ih => exact ⟨hs, ih (hstep s e hs hQ.1) hQ.2⟩

/--
Exact run rule.  If, under an invariant `I`, a permitted step keeps `P`
exactly when `R` holds before it, then a permitted run keeps `P` exactly when
each of its steps satisfies `R`.
-/
theorem always_iff_eachStep {I P : σ → Prop} {Q R : σ → ε → Prop}
    (hI : ∀ s e, I s → Q s e → I (step s e))
    (hstep : ∀ s e, I s → P s → Q s e → (P (step s e) ↔ R s e))
    {s : σ} {es : List ε}
    (hIs : I s) (hPs : P s) (hQ : EachStep step Q s es) :
    Always step P s es ↔ EachStep step R s es := by
  induction es generalizing s with
  | nil => exact ⟨fun _ => trivial, fun _ => hPs⟩
  | cons e es ih =>
      have hone := hstep s e hIs hPs hQ.1
      have hI' := hI s e hIs hQ.1
      constructor
      · rintro ⟨_, hrest⟩
        have hP' : P (step s e) := hrest.head
        exact ⟨hone.mp hP', (ih hI' hP' hQ.2).mp hrest⟩
      · rintro ⟨hR, hrest⟩
        have hP' : P (step s e) := hone.mpr hR
        exact ⟨hPs, (ih hI' hP' hQ.2).mpr hrest⟩

/-- A step condition that an invariant grants holds along every permitted run. -/
theorem eachStep_of_invariant {I : σ → Prop} {Q R : σ → ε → Prop}
    (hI : ∀ s e, I s → Q s e → I (step s e))
    (hR : ∀ s e, I s → Q s e → R s e)
    {s : σ} {es : List ε}
    (hIs : I s) (hQ : EachStep step Q s es) :
    EachStep step R s es := by
  induction es generalizing s with
  | nil => trivial
  | cons e es ih =>
      exact ⟨hR s e hIs hQ.1, ih (hI s e hIs hQ.1) hQ.2⟩

/-- Events that leave the state alone wherever they occur can be left out. -/
theorem run_filter_of_stutter {keep : ε → Bool} {s : σ} {es : List ε}
    (h : EachStep step (fun s e => keep e = false → step s e = s) s es) :
    run step s (es.filter keep) = run step s es := by
  induction es generalizing s with
  | nil => rfl
  | cons e es ih =>
      cases hkeep : keep e with
      | true =>
          rw [List.filter_cons_of_pos hkeep]
          exact ih h.2
      | false =>
          have hrest := ih h.2
          rw [h.1 hkeep] at hrest
          rw [List.filter_cons_of_neg (by simp [hkeep]), run_cons, h.1 hkeep]
          exact hrest

/--
Refinement rule.  If under an invariant an event changes a view of the state as
the abstract event that it projects to, or not at all, then the view of a run is
the abstract run of the projected events.
-/
theorem view_run {τ : Type w} {α : Type*} {view : σ → τ} {apply : τ → α → τ}
    {project : ε → Option α} {I : σ → Prop} (hI : ∀ s e, I s → I (step s e))
    (hview : ∀ s e, I s → view (step s e) = (project e).elim (view s) (apply (view s)))
    {s : σ} (hs : I s) (es : List ε) :
    view (run step s es) = run apply (view s) (es.filterMap project) := by
  induction es generalizing s with
  | nil => rfl
  | cons e es ih =>
      rw [run_cons, ih (hI s e hs), hview s e hs, List.filterMap_cons]
      cases project e <;> rfl

/-- Two step conditions that agree under an invariant hold of the same runs. -/
theorem eachStep_congr {I : σ → Prop} {Q R S : σ → ε → Prop}
    (hI : ∀ s e, I s → Q s e → I (step s e))
    (hRS : ∀ s e, I s → Q s e → (R s e ↔ S s e))
    {s : σ} {es : List ε}
    (hIs : I s) (hQ : EachStep step Q s es) :
    EachStep step R s es ↔ EachStep step S s es := by
  induction es generalizing s with
  | nil => exact Iff.rfl
  | cons e es ih =>
      exact and_congr (hRS s e hIs hQ.1) (ih (hI s e hIs hQ.1) hQ.2)

end Rules

section Reachable

/-- States reached from an initial state by permitted events. -/
inductive Reachable (init : σ → Prop) (step : σ → ε → σ)
    (Q : σ → ε → Prop) : σ → Prop
  | start {s : σ} (hs : init s) : Reachable init step Q s
  | next {s : σ} (e : ε) (hs : Reachable init step Q s) (hQ : Q s e) :
      Reachable init step Q (step s e)

variable {init : σ → Prop} {step : σ → ε → σ} {Q : σ → ε → Prop}

/-- Invariant rule for reachable states. -/
theorem Reachable.invariant {P : σ → Prop}
    (hinit : ∀ s, init s → P s)
    (hstep : ∀ s e, P s → Q s e → P (step s e))
    {s : σ} (h : Reachable init step Q s) :
    P s := by
  induction h with
  | start hs => exact hinit _ hs
  | next e _ hQ ih => exact hstep _ e ih hQ

/-- Permitted runs from a reachable state stay reachable. -/
theorem Reachable.run {s : σ} {es : List ε}
    (h : Reachable init step Q s) (hQ : EachStep step Q s es) :
    Reachable init step Q (run step s es) := by
  induction es generalizing s with
  | nil => exact h
  | cons e es ih => exact ih (h.next e hQ.1) hQ.2

end Reachable

section Logs

variable {ω : Type*} {step : σ → ε → σ} {acts : σ → ε → List ω}

/-- What the steps of a run did, in order. -/
def log (step : σ → ε → σ) (acts : σ → ε → List ω) : σ → List ε → List ω
  | _, [] => []
  | s, e :: es => acts s e ++ log step acts (step s e) es

/-- Invariant rule for a state together with the log so far. -/
theorem log_invariant {P : σ → List ω → Prop}
    (hstep : ∀ s l e, P s l → P (step s e) (l ++ acts s e))
    {s : σ} {l : List ω} (h : P s l) (es : List ε) :
    P (run step s es) (l ++ log step acts s es) := by
  induction es generalizing s l with
  | nil => simpa [log] using h
  | cons e es ih =>
      rw [run_cons, log, ← List.append_assoc]
      exact ih (hstep s l e h)

/-- Every entry of a log satisfies `P` with the entries before it. -/
def EachEntry (P : List ω → ω → Prop) (l : List ω) : Prop :=
  ∀ before a after, l = before ++ a :: after → P before a

theorem eachEntry_nil (P : List ω → ω → Prop) :
    EachEntry P [] := by
  intro before a after h
  simp at h

/-- A log grows by entries that satisfy `P` at that moment. -/
theorem eachEntry_concat {P : List ω → ω → Prop} {l : List ω} {a : ω} :
    EachEntry P (l ++ [a]) ↔ EachEntry P l ∧ P l a := by
  constructor
  · intro h
    refine ⟨?_, h l a [] rfl⟩
    intro before a' after heq
    exact h before a' (after ++ [a]) (by simp [heq])
  · rintro ⟨h, ha⟩ before a' after heq
    rcases List.eq_nil_or_concat after with rfl | ⟨after', b, rfl⟩
    · obtain ⟨rfl, hlast⟩ := List.append_inj' heq rfl
      obtain rfl : a = a' := by simpa using hlast
      exact ha
    · have hlist : l ++ [a] = (before ++ a' :: after') ++ [b] := by
        simpa using heq
      obtain ⟨hl, -⟩ := List.append_inj' hlist rfl
      exact h before a' after' hl

end Logs

section Outputs

variable {τ : Type w} {ω χ : Type*}

/-- Answers of a step function that answers each event. -/
def outputs (step : σ → ε → ω × σ) : σ → List ε → List ω
  | _, [] => []
  | s, e :: es => (step s e).1 :: outputs step (step s e).2 es

/--
Simulation rule for answers under a clock that does not go back.  `R a` relates
two states as they are at the time `a`; a step at a later time gives matching
answers and related states.
-/
theorem outputs_eq_of_clock {α : Type*} [Preorder α] {f : σ → ε → ω × σ} {g : τ → ε → χ × τ}
    {R : α → σ → τ → Prop} {Q : ε → Prop} (out : χ → ω) (clock : ε → α)
    (hstep : ∀ a s t e, R a s t → a ≤ clock e → Q e →
      (f s e).1 = out (g t e).1 ∧ R (clock e) (f s e).2 (g t e).2)
    {a : α} {s : σ} {t : τ} {es : List ε} (hR : R a s t) (hfrom : ∀ e ∈ es, a ≤ clock e)
    (hsorted : (es.map clock).Pairwise (· ≤ ·)) (hQ : ∀ e ∈ es, Q e) :
    outputs f s es = (outputs g t es).map out := by
  induction es generalizing a s t with
  | nil => rfl
  | cons e es ih =>
      rw [List.map_cons, List.pairwise_cons] at hsorted
      obtain ⟨hanswer, hR'⟩ := hstep a s t e hR (hfrom e (by simp)) (hQ e (by simp))
      have hlater : ∀ e' ∈ es, clock e ≤ clock e' :=
        fun e' he' => hsorted.1 (clock e') (List.mem_map_of_mem he')
      have hrest := ih hR' hlater hsorted.2 (fun e' he' => hQ e' (by simp [he']))
      simp only [outputs, List.map_cons, hanswer, hrest]

end Outputs

end Runs
end SentinelADC
