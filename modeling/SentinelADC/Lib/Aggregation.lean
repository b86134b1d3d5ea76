import Mathlib.Data.List.Nodup
import Mathlib.Data.List.Perm.Basic
import Mathlib.Data.String.Basic
import Mathlib.Data.List.Forall2
import Mathlib.Algebra.BigOperators.Group.List.Basic
import Mathlib.Data.Rat.Floor
import Mathlib.Algebra.Order.Floor.Ring

/-!
# Aggregation pipelines

A document store evaluates a pipeline of stages over a collection.  It may take
the documents in any order and list the groups in any order, so the meaning of a
pipeline is a relation between a collection and an answer (`Evaluates`).

The rules below reduce a pipeline to its first stage: a selection works on the
collection (`evaluates_matching_iff`), one group for everything is the group of
the documents in some order (`evaluates_groupAll_iff`), and a sort of documents
with distinct dates has one answer (`evaluates_sort_iff`).
-/

namespace SentinelADC
namespace Aggregation

/-- A value in a document. -/
inductive Value where
  | null
  | num (x : Rat)
  | str (s : String)
  | bool (b : Bool)
  | date (t : Int)
deriving DecidableEq, Repr

namespace Value

/-- Place of a type in the comparison order. -/
def rank : Value → Nat
  | null => 0
  | num _ => 1
  | str _ => 2
  | bool _ => 3
  | date _ => 4

/-- The comparison order: by type, then by value. -/
def lt : Value → Value → Bool
  | num x, num y => x < y
  | str s, str t => s < t
  | bool a, bool b => !a && b
  | date t, date u => t < u
  | v, w => v.rank < w.rank

theorem lt_asymm {v w : Value} (h : v.lt w = true) :
    w.lt v = false := by
  cases v with
  | bool a =>
      cases w with
      | bool b => cases a <;> cases b <;> simp [lt] at h ⊢
      | _ =>
          simp only [lt, decide_eq_true_eq, decide_eq_false_iff_not] at h ⊢
          exact not_lt_of_gt h
  | _ =>
      cases w <;>
        (simp only [lt, decide_eq_true_eq, decide_eq_false_iff_not] at h ⊢; exact not_lt_of_gt h)

/-- A text that may be absent, which null stands for. -/
def ofText : Option String → Value
  | some s => str s
  | none => null

theorem ofText_eq_str {s : Option String} {t : String} :
    ofText s = str t ↔ s = some t := by
  cases s <;> simp [ofText]

theorem ofText_eq_null {s : Option String} :
    ofText s = null ↔ s = none := by
  cases s <;> simp [ofText]

/-- A number that may be absent. -/
def ofNumber : Option Rat → Value
  | some x => num x
  | none => null

/-- The number in a value. -/
def number? : Value → Option Rat
  | num x => some x
  | _ => none

end Value

/-- A document is its fields. -/
abbrev Document := List (String × Value)

/-- The value of a field; `none` for a field that is missing. -/
def Document.get (name : String) (doc : Document) : Option Value :=
  (doc.find? (fun entry => entry.1 = name)).map Prod.snd

/-- A missing value comes before every other one. -/
def below : Option Value → Option Value → Bool
  | none, some _ => true
  | some v, some w => v.lt w
  | _, none => false

/-- To `places` decimals, and to the even digit from half way. -/
def roundEven (places : Nat) (x : Rat) : Rat :=
  let scaled := x * 10 ^ places
  let low := ⌊scaled⌋
  let nearest :=
    if scaled - low < 1 / 2 then low
    else if 1 / 2 < scaled - low then low + 1
    else if low % 2 = 0 then low else low + 1
  nearest / 10 ^ places

/-- Expressions over one document. -/
inductive Expr where
  | field (name : String)
  | const (v : Value)
  | lt (a b : Expr)
  | gte (a b : Expr)
  | eq (a b : Expr)
  | cond (test a b : Expr)
  | divide (a b : Expr)
  | round (a : Expr) (places : Nat)
deriving DecidableEq, Repr

namespace Expr

/-- Not false, null, zero or missing. -/
def holds : Option Value → Bool
  | none | some .null | some (.bool false) => false
  | some (.num x) => x ≠ 0
  | _ => true

@[simp] theorem holds_bool (b : Bool) :
    holds (some (.bool b)) = b := by
  cases b <;> rfl

/-- Arithmetic on what is no number has no result. -/
def eval (doc : Document) : Expr → Option Value
  | field name => doc.get name
  | const v => some v
  | lt a b => some (.bool (below (a.eval doc) (b.eval doc)))
  | gte a b => some (.bool (!below (a.eval doc) (b.eval doc)))
  | eq a b => some (.bool (a.eval doc = b.eval doc))
  | cond test a b => if holds (test.eval doc) then a.eval doc else b.eval doc
  | divide a b =>
      match a.eval doc, b.eval doc with
      | some (.num x), some (.num y) => if y = 0 then none else some (.num (x / y))
      | _, _ => none
  | round a places =>
      match a.eval doc with
      | some (.num x) => some (.num (roundEven places x))
      | _ => none

end Expr

/-- A condition of a selection.  A bound is met by values of its own type only. -/
inductive Condition where
  | gte (name : String) (v : Value)
  | lt (name : String) (v : Value)
  | ne (name : String) (v : Value)
deriving DecidableEq, Repr

/-- A document meets a condition. -/
def Condition.holds (doc : Document) : Condition → Bool
  | gte name v => (doc.get name).any (fun w => w.rank = v.rank && !w.lt v)
  | lt name v => (doc.get name).any (fun w => w.rank = v.rank && w.lt v)
  | ne name v => (doc.get name).getD .null ≠ v

section Dates

variable {doc : Document} {name : String} {t : Int}

/-- Bounds on a date. -/
theorem Condition.holds_gte_date (h : doc.get name = some (.date t)) (bound : Int) :
    (Condition.gte name (.date bound)).holds doc = decide (bound ≤ t) := by
  rw [holds, h, Option.any_some, Value.lt, ← decide_not]
  simp only [not_lt]
  exact Bool.true_and _

theorem Condition.holds_lt_date (h : doc.get name = some (.date t)) (bound : Int) :
    (Condition.lt name (.date bound)).holds doc = decide (t < bound) := by
  rw [holds, h, Option.any_some]
  exact Bool.true_and _

end Dates

/-- What a group keeps of its documents. -/
inductive Accumulator where
  | sum (e : Expr)
  | min (e : Expr)
  | max (e : Expr)
  | first (e : Expr)
deriving DecidableEq, Repr

namespace Accumulator

/-- One more value for the least or greatest one.  Missing values and nulls do not count. -/
def better (before : Value → Value → Bool) (best : Value) : Option Value → Value
  | none | some .null => best
  | some v => if best = .null ∨ before v best then v else best

/-- The value over the documents of a group, in the order of the collection. -/
def accumulate (docs : List Document) : Accumulator → Value
  | sum e => .num (docs.map (fun doc => ((e.eval doc).bind Value.number?).getD 0)).sum
  | min e => docs.foldl (fun best doc => better Value.lt best (e.eval doc)) .null
  | max e => docs.foldl (fun best doc => better (fun v w => w.lt v) best (e.eval doc)) .null
  | first e => (docs.head?.bind (fun doc => e.eval doc)).getD .null

end Accumulator

/-- A field of a projection. -/
inductive Projection where
  | keep (name : String)
  | compute (name : String) (e : Expr)
deriving DecidableEq, Repr

/-- The field of the result; a value that is missing leaves it out. -/
def Projection.apply (doc : Document) : Projection → Option (String × Value)
  | keep name => (doc.get name).map (Prod.mk name)
  | compute name e => (e.eval doc).map (Prod.mk name)

/-- A stage of a pipeline. -/
inductive PipelineStage where
  | matching (conditions : List Condition)
  | group (key : Expr) (fields : List (String × Accumulator))
  | project (fields : List Projection)
  | sort (name : String)
deriving DecidableEq, Repr

/-- The documents that a selection keeps. -/
def select (conditions : List Condition) (docs : List Document) : List Document :=
  docs.filter (fun doc => conditions.all (fun c => c.holds doc))

/-- Documents without the key are in the group of null. -/
def groupKey (key : Expr) (doc : Document) : Value :=
  (key.eval doc).getD .null

/-- The document of a group. -/
def groupDocument (fields : List (String × Accumulator)) (key : Value) (docs : List Document) :
    Document :=
  ("_id", key) :: fields.map (fun field => (field.1, field.2.accumulate docs))

/-- A projection keeps the key. -/
def projectDocument (fields : List Projection) (doc : Document) : Document :=
  (Projection.keep "_id" :: fields).filterMap (fun field => field.apply doc)

/-- What a stage makes of documents that come in an order. -/
def PipelineStage.Yields (docs out : List Document) : PipelineStage → Prop
  | matching conditions => out = select conditions docs
  | group key fields =>
      ∃ keys : List Value, keys.Nodup ∧ (∀ k, k ∈ keys ↔ ∃ doc ∈ docs, groupKey key doc = k) ∧
        out = keys.map (fun k =>
          groupDocument fields k (docs.filter (fun doc => groupKey key doc = k)))
  | project fields => out = docs.map (projectDocument fields)
  | sort name =>
      out.Perm docs ∧ out.Pairwise (fun doc doc' => below (doc'.get name) (doc.get name) = false)

/-- The stages one after the other. -/
def Chain : List PipelineStage → List Document → List Document → Prop
  | [], docs, out => out = docs
  | stage :: stages, docs, out => ∃ between, stage.Yields docs between ∧ Chain stages between out

/-- An answer that a store may give to a pipeline. -/
def Evaluates (stages : List PipelineStage) (docs out : List Document) : Prop :=
  ∃ scan : List Document, scan.Perm docs ∧ Chain stages scan out

theorem below_asymm {v w : Option Value} (h : below v w = true) :
    below w v = false := by
  cases v with
  | none => cases w <;> rfl
  | some v =>
      cases w with
      | none => cases h
      | some w =>
          exact Value.lt_asymm h

/-- A sum over documents that hold numbers. -/
theorem accumulate_sum_map {α : Type*} {f : α → Document} {e : Expr} {w : α → Rat}
    (h : ∀ a, e.eval (f a) = some (.num (w a))) (l : List α) :
    (Accumulator.sum e).accumulate (l.map f) = .num (l.map w).sum := by
  simp [Accumulator.accumulate, h, Value.number?, Function.comp_def]

/-- A sum of ones and zeros counts. -/
theorem accumulate_countIf (test : Expr) (docs : List Document) :
    (Accumulator.sum (.cond test (.const (.num 1)) (.const (.num 0)))).accumulate docs =
      .num (docs.countP (fun doc => Expr.holds (test.eval doc)) : Nat) := by
  induction docs with
  | nil => rfl
  | cons doc docs ih =>
      simp only [Accumulator.accumulate, Value.num.injEq, List.map_cons, List.sum_cons] at ih ⊢
      rw [ih, List.countP_cons]
      by_cases htest : Expr.holds (test.eval doc) = true <;>
        simp [Expr.eval, htest, Value.number?, add_comm]

section Rules

variable {stages : List PipelineStage} {conditions : List Condition} {docs out : List Document}
  {fields : List (String × Accumulator)}

/-- A selection in front works on the collection. -/
theorem evaluates_matching_iff :
    Evaluates (.matching conditions :: stages) docs out ↔
      Evaluates stages (select conditions docs) out := by
  constructor
  · rintro ⟨scan, hscan, between, rfl, hchain⟩
    exact ⟨_, hscan.filter _, hchain⟩
  · rintro ⟨scan, hscan, hchain⟩
    -- what the selection leaves out may come last
    let kept := fun doc : Document => conditions.all (fun c => c.holds doc)
    have hkept : scan.filter kept = scan := by
      refine List.filter_eq_self.mpr (fun doc hdoc => ?_)
      exact (List.mem_filter.mp (hscan.mem_iff.mp hdoc)).2
    refine ⟨scan ++ docs.filter (fun doc => !kept doc), ?_, scan, ?_, hchain⟩
    · exact (hscan.append_right _).trans (List.filter_append_perm kept docs)
    · have hrest : (docs.filter (fun doc => !kept doc)).filter kept = [] := by
        simp [List.filter_filter]
      calc scan
        _ = scan.filter kept ++ (docs.filter (fun doc => !kept doc)).filter kept := by
            rw [hkept, hrest, List.append_nil]
        _ = select conditions (scan ++ docs.filter (fun doc => !kept doc)) :=
            (List.filter_append _ _).symm

/-- One group for everything: no document without input, and one otherwise. -/
theorem evaluates_groupAll_iff {key : Value} :
    Evaluates [.group (.const key) fields] docs out ↔
      docs = [] ∧ out = [] ∨
        docs ≠ [] ∧ ∃ scan : List Document, scan.Perm docs ∧
          out = [groupDocument fields key scan] := by
  have hkey : ∀ doc, groupKey (.const key) doc = key := fun _ => rfl
  constructor
  · rintro ⟨scan, hscan, between, ⟨keys, hnodup, hkeys, rfl⟩, rfl⟩
    rcases eq_or_ne docs [] with rfl | hne
    · have hempty : scan = [] := List.perm_nil.mp hscan
      have hnone : keys = [] := by
        refine List.eq_nil_iff_forall_not_mem.mpr (fun k hk => ?_)
        obtain ⟨doc, hdoc, -⟩ := (hkeys k).mp hk
        simp [hempty] at hdoc
      exact Or.inl ⟨rfl, by rw [hnone]; rfl⟩
    · have hone : keys = [key] := by
        obtain ⟨doc, hdoc⟩ := List.exists_mem_of_ne_nil docs hne
        have hmem : ∀ k, k ∈ keys ↔ k = key := by
          intro k
          rw [hkeys]
          constructor
          · rintro ⟨-, -, rfl⟩
            rfl
          · rintro rfl
            exact ⟨doc, hscan.mem_iff.mpr hdoc, rfl⟩
        refine List.perm_singleton.mp ?_
        exact (List.perm_ext_iff_of_nodup hnodup (List.nodup_singleton key)).mpr (by simp [hmem])
      refine Or.inr ⟨hne, scan, hscan, ?_⟩
      simp [hone, hkey]
  · rintro (⟨rfl, rfl⟩ | ⟨hne, scan, hscan, rfl⟩)
    · exact ⟨[], List.Perm.nil, [], ⟨[], by simp⟩, rfl⟩
    · obtain ⟨doc, hdoc⟩ := List.exists_mem_of_ne_nil docs hne
      refine ⟨scan, hscan, _, ⟨[key], List.nodup_singleton key, ?_, rfl⟩, ?_⟩
      · intro k
        rw [List.mem_singleton]
        exact ⟨fun heq => ⟨doc, hscan.mem_iff.mpr hdoc, heq.symm⟩, fun ⟨_, _, heq⟩ => heq.symm⟩
      · simp [Chain, hkey]

/-- A sort of documents that come in strict order gives them as they are. -/
theorem evaluates_sort_iff {name : String}
    (hdocs : docs.Pairwise (fun doc doc' => below (doc.get name) (doc'.get name) = true)) :
    Evaluates [.sort name] docs out ↔ out = docs := by
  constructor
  · rintro ⟨scan, hscan, between, ⟨hperm, hsorted⟩, rfl⟩
    refine List.Perm.eq_of_pairwise ?_ hsorted (hdocs.imp (fun h => below_asymm h))
      (hperm.trans hscan)
    intro doc doc' hdoc hdoc' hle hle'
    have hordered : docs.Pairwise (fun d d' : Document => d ≠ d' →
        below (d.get name) (d'.get name) = true ∨ below (d'.get name) (d.get name) = true) :=
      hdocs.imp (fun h _ => Or.inl h)
    have hflip : docs.Pairwise (flip (fun d d' : Document => d ≠ d' →
        below (d.get name) (d'.get name) = true ∨ below (d'.get name) (d.get name) = true)) :=
      hdocs.imp (fun h _ => Or.inr h)
    by_contra hne
    have hmem := (hperm.trans hscan).mem_iff.mp hdoc
    rcases hordered.forall_of_forall_of_flip (fun _ _ hne => absurd rfl hne) hflip hmem hdoc'
      hne with h | h
    · rw [hle'] at h
      cases h
    · rw [hle] at h
      cases h
  · rintro rfl
    refine ⟨out, List.Perm.refl out, out, ⟨List.Perm.refl out, ?_⟩, rfl⟩
    exact hdocs.imp (fun h => below_asymm h)

/-- Images in another order are those of a list in another order. -/
theorem exists_map_of_perm {α β : Type*} {f : α → β} {l : List α} {scan : List β}
    (h : scan.Perm (l.map f)) :
    ∃ l' : List α, l'.Perm l ∧ scan = l'.map f := by
  have hmap : List.Forall₂ (fun b a => b = f a) (l.map f) l := by
    rw [List.forall₂_map_left_iff]
    exact List.forall₂_same.mpr (fun a _ => rfl)
  obtain ⟨l', hscan, hperm⟩ := List.perm_comp_forall₂ h hmap
  refine ⟨l', hperm, ?_⟩
  clear h hmap hperm
  induction hscan with
  | nil => rfl
  | cons heq _ ih => rw [heq, ih, List.map_cons]

end Rules

end Aggregation
end SentinelADC
