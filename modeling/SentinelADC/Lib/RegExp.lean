import Mathlib.Data.List.TakeWhile
import Mathlib.Order.Lattice

/-!
# Regular expressions

Matching of regular expressions without flags, as ECMAScript defines it.  The
characters are code units.  A match in progress is a position with what the
groups have captured, and `exec` lists the ways to go on in the order in which
backtracking tries them.

`exec_map` says that a renaming of code units that an expression cannot tell
apart changes nothing.
-/

namespace SentinelADC
namespace RegExp

/-- Code units that `.` does not match. -/
def isLineTerminator (u : Nat) : Bool :=
  u ∈ [0xA, 0xD, 0x2028, 0x2029]

/-- A code unit within one of the ranges. -/
def inRanges (ranges : List (Nat × Nat)) (u : Nat) : Bool :=
  ranges.any (fun r => r.1 ≤ u ∧ u ≤ r.2)

def digitRanges : List (Nat × Nat) := [(0x30, 0x39)]

def wordRanges : List (Nat × Nat) := [(0x30, 0x39), (0x41, 0x5A), (0x5F, 0x5F), (0x61, 0x7A)]

def spaceRanges : List (Nat × Nat) :=
  [(0x9, 0xD), (0x20, 0x20), (0xA0, 0xA0), (0x1680, 0x1680), (0x2000, 0x200A), (0x2028, 0x2029),
    (0x202F, 0x202F), (0x205F, 0x205F), (0x3000, 0x3000), (0xFEFF, 0xFEFF)]

/-- The parsed expression. -/
inductive Node where
  | empty
  | char (u : Nat)
  /-- `.` -/
  | any
  | set (negated : Bool) (ranges : List (Nat × Nat))
  /-- `^` -/
  | start
  /-- `$` -/
  | finish
  /-- `\b` and `\B` -/
  | boundary (negated : Bool)
  | backref (group : Nat)
  | seq (first second : Node)
  | alt (first second : Node)
  /-- A group, with its number if it captures. -/
  | group (number : Option Nat) (body : Node)
  /-- Lookahead and lookbehind. -/
  | look (behind negated : Bool) (body : Node)
  /-- A quantifier; what the groups `first < i ≤ last` in the body have captured is
  forgotten in each iteration. -/
  | rep (min : Nat) (max : Option Nat) (greedy : Bool) (first last : Nat) (body : Node)
deriving DecidableEq, Repr

/-- A match in progress. -/
structure Match where
  pos : Nat
  captures : Nat → Option (Nat × Nat)

/-- One character forwards or, in a lookbehind, backwards. -/
def one (input : List Nat) (accepts : Nat → Bool) (back : Bool) (x : Match) : List Match :=
  if back then
    if 0 < x.pos ∧ (input[x.pos - 1]?).any accepts then [{ x with pos := x.pos - 1 }] else []
  else if (input[x.pos]?).any accepts then [{ x with pos := x.pos + 1 }]
  else []

/-- There is a word character at a position. -/
def isWordAt (input : List Nat) (pos : Nat) : Bool :=
  (input[pos]?).any (inRanges wordRanges)

/-- `\b`, between a word character and none. -/
def atBoundary (input : List Nat) (pos : Nat) : Bool :=
  (decide (0 < pos) && isWordAt input (pos - 1)) != isWordAt input pos

/-- What a group has captured comes again; a group that has captured nothing
matches the empty string. -/
def again (input : List Nat) (group : Nat) (back : Bool) (x : Match) : List Match :=
  match x.captures group with
  | none => [x]
  | some (i, j) =>
      let captured := (input.take j).drop i
      if back then
        if j - i ≤ x.pos ∧ (input.take x.pos).drop (x.pos - (j - i)) = captured then
          [{ x with pos := x.pos - (j - i) }]
        else []
      else if (input.drop x.pos).take (j - i) = captured then [{ x with pos := x.pos + (j - i) }]
      else []

/-- The groups of a body are forgotten. -/
def forget (first last : Nat) (x : Match) : Match :=
  { x with captures := fun i => if first < i ∧ i ≤ last then none else x.captures i }

/-- At most `k` iterations that are not required; each has to move. -/
def optionalIterations (body : Match → List Match) (greedy : Bool) : Nat → Match → List Match
  | 0, x => [x]
  | k + 1, x =>
      let more := (body x).flatMap (fun y =>
        if y.pos = x.pos then [] else optionalIterations body greedy k y)
      if greedy then more ++ [x] else x :: more

/-- `n` iterations that are required, and those that follow them. -/
def requiredIterations (body : Match → List Match) (rest : Match → List Match) :
    Nat → Match → List Match
  | 0, x => rest x
  | n + 1, x => (body x).flatMap (requiredIterations body rest n)

/-- The ways in which an expression matches from here. -/
def exec (input : List Nat) : Node → Bool → Match → List Match
  | .empty, _, x => [x]
  | .char u, back, x => one input (fun v => v = u) back x
  | .any, back, x => one input (fun v => !isLineTerminator v) back x
  | .set negated ranges, back, x => one input (fun v => inRanges ranges v != negated) back x
  | .start, _, x => if x.pos = 0 then [x] else []
  | .finish, _, x => if x.pos = input.length then [x] else []
  | .boundary negated, _, x => if atBoundary input x.pos != negated then [x] else []
  | .backref group, back, x => again input group back x
  | .seq first second, back, x =>
      if back then (exec input second back x).flatMap (exec input first back)
      else (exec input first back x).flatMap (exec input second back)
  | .alt first second, back, x => exec input first back x ++ exec input second back x
  | .group none body, back, x => exec input body back x
  | .group (some number) body, back, x =>
      (exec input body back x).map (fun y =>
        { y with
          captures := fun i =>
            if i = number then some (min x.pos y.pos, max x.pos y.pos) else y.captures i })
  | .look behind negated body, _, x =>
      match exec input body behind x with
      | [] => if negated then [x] else []
      | y :: _ => if negated then [] else [{ y with pos := x.pos }]
  | .rep min max greedy first last body, back, x =>
      -- a move takes a character, so there are no more moves than characters
      let moves :=
        match max with
        | none => input.length
        | some max => Nat.min (max - min) input.length
      let iteration := fun x => exec input body back (forget first last x)
      requiredIterations iteration (optionalIterations iteration greedy moves) min x

/-- `RegExp.prototype.test`. -/
def test (regex : Node) (input : List Nat) : Bool :=
  (List.range (input.length + 1)).any (fun i =>
    !(exec input regex false ⟨i, fun _ => none⟩).isEmpty)

/-- The expression cannot tell the code units of `input` from their images. -/
def Node.Blind (f : Nat → Nat) (input : List Nat) : Node → Prop
  | .empty => True
  | .char u => ∀ v ∈ input, f v = u ↔ v = u
  | .any => ∀ v ∈ input, isLineTerminator (f v) = isLineTerminator v
  | .set _ ranges => ∀ v ∈ input, inRanges ranges (f v) = inRanges ranges v
  | .start => True
  | .finish => True
  | .boundary _ => ∀ v ∈ input, inRanges wordRanges (f v) = inRanges wordRanges v
  | .backref _ => ∀ v ∈ input, ∀ w ∈ input, f v = f w → v = w
  | .seq first second => first.Blind f input ∧ second.Blind f input
  | .alt first second => first.Blind f input ∧ second.Blind f input
  | .group _ body => body.Blind f input
  | .look _ _ body => body.Blind f input
  | .rep _ _ _ _ _ body => body.Blind f input

section Renaming

variable {f : Nat → Nat} {input : List Nat}

theorem any_getElem?_map {accepts : Nat → Bool} (h : ∀ v ∈ input, accepts (f v) = accepts v)
    (i : Nat) :
    ((input.map f)[i]?).any accepts = (input[i]?).any accepts := by
  rw [List.getElem?_map]
  cases hi : input[i]? with
  | none => rfl
  | some v => simp [h v (List.mem_of_getElem? hi)]

theorem one_map {accepts : Nat → Bool} (h : ∀ v ∈ input, accepts (f v) = accepts v)
    (back : Bool) (x : Match) :
    one (input.map f) accepts back x = one input accepts back x := by
  simp only [one, any_getElem?_map h]

/-- Segments are equal exactly when their images are. -/
theorem map_eq_map_iff {l l' : List Nat} (hf : ∀ v ∈ input, ∀ w ∈ input, f v = f w → v = w)
    (hl : l ⊆ input) (hl' : l' ⊆ input) :
    l.map f = l'.map f ↔ l = l' := by
  constructor
  · intro heq
    induction l generalizing l' with
    | nil => exact (List.map_eq_nil_iff.mp heq.symm).symm
    | cons v l ih =>
        cases l' with
        | nil => cases heq
        | cons w l' =>
            rw [List.map_cons, List.map_cons, List.cons_eq_cons] at heq
            rw [List.cons_subset] at hl hl'
            rw [hf v hl.1 w hl'.1 heq.1, ih hl.2 hl'.2 heq.2]
  · rintro rfl
    rfl

theorem again_map (hf : ∀ v ∈ input, ∀ w ∈ input, f v = f w → v = w) (group : Nat) (back : Bool)
    (x : Match) :
    again (input.map f) group back x = again input group back x := by
  simp only [again, ← List.map_take, ← List.map_drop]
  have hsub : ∀ i j, (input.take j).drop i ⊆ input :=
    fun i j => List.Subset.trans (List.drop_subset i _) (List.take_subset j input)
  have hsub' : ∀ i j, (input.drop i).take j ⊆ input :=
    fun i j => List.Subset.trans (List.take_subset j _) (List.drop_subset i input)
  cases x.captures group with
  | none => rfl
  | some ends =>
      simp only [map_eq_map_iff hf (hsub _ _) (hsub _ _), map_eq_map_iff hf (hsub' _ _) (hsub _ _)]

/-- A renaming that an expression does not see changes nothing. -/
theorem exec_map {regex : Node} (h : regex.Blind f input) (back : Bool) (x : Match) :
    exec (input.map f) regex back x = exec input regex back x := by
  induction regex generalizing back x with
  | empty => rfl
  | char u => exact one_map (fun v hv => decide_eq_decide.mpr (h v hv)) back x
  | any => exact one_map (fun v hv => by rw [h v hv]) back x
  | set negated ranges => exact one_map (fun v hv => by rw [h v hv]) back x
  | start => rfl
  | finish => simp only [exec, List.length_map]
  | boundary negated =>
      have hsame : atBoundary (input.map f) x.pos = atBoundary input x.pos := by
        simp only [atBoundary, isWordAt, any_getElem?_map h]
      simp only [exec, hsame]
  | backref group => exact again_map h group back x
  | seq first second ih ih' =>
      have hfirst : exec (input.map f) first = exec input first := by
        funext back x
        exact ih h.1 back x
      have hsecond : exec (input.map f) second = exec input second := by
        funext back x
        exact ih' h.2 back x
      simp only [exec, hfirst, hsecond]
  | alt first second ih ih' => simp only [exec, ih h.1, ih' h.2]
  | group number body ih => cases number <;> simp only [exec, ih h]
  | look behind negated body ih => simp only [exec, ih h]
  | rep min max greedy first last body ih =>
      have hbody : exec (input.map f) body = exec input body := by
        funext back x
        exact ih h back x
      simp only [exec, hbody, List.length_map]

theorem test_map {regex : Node} (h : regex.Blind f input) :
    test regex (input.map f) = test regex input := by
  simp only [test, exec_map h, List.length_map]

end Renaming

end RegExp
end SentinelADC
