import SentinelADC.Lib.RegExp

/-!
# The syntax of regular expressions

`new RegExp(source)` without flags, with the extensions that ECMAScript demands
of web browsers: stray brackets and braces stand for themselves, `\1` may be a
code point in octal, and so on.  The source is cut into tokens first; a stack of
open groups then builds the expression.  `none` is a `SyntaxError`.  In the name
of a group every code unit beyond ASCII counts as a letter, and escapes are left
out.
-/

namespace SentinelADC
namespace RegExp

/-- The code unit of a character of the syntax. -/
def code (c : Char) : Nat :=
  c.toNat

/-- The source goes on with this text. -/
def begins (text : String) (source : List Nat) : Bool :=
  (text.toList.map code).isPrefixOf source

def isDigit (u : Nat) : Bool :=
  code '0' ≤ u ∧ u ≤ code '9'

def isLetter (u : Nat) : Bool :=
  code 'a' ≤ u ∧ u ≤ code 'z' ∨ code 'A' ≤ u ∧ u ≤ code 'Z'

/-- The value of a hexadecimal digit. -/
def hexDigit (u : Nat) : Option Nat :=
  if isDigit u then some (u - code '0')
  else if code 'a' ≤ u ∧ u ≤ code 'f' then some (u - code 'a' + 10)
  else if code 'A' ≤ u ∧ u ≤ code 'F' then some (u - code 'A' + 10)
  else none

/-- The value of digits in a base. -/
def value (base : Nat) (digits : List Nat) : Nat :=
  digits.foldl (fun n d => base * n + d) 0

/-- The number that the first decimal digits stand for, and their count. -/
def decimal (source : List Nat) : Nat × Nat :=
  let digits := source.takeWhile isDigit
  (value 10 (digits.map (fun u => u - code '0')), digits.length)

/-- Exactly `n` hexadecimal digits. -/
def hex (n : Nat) (source : List Nat) : Option Nat :=
  if n ≤ source.length then ((source.take n).mapM hexDigit).map (value 16) else none

/-- `{n}`, `{n,}` and `{n,m}` behind the opening brace, with the code units they take. -/
def braces (source : List Nat) : Option (Nat × Option Nat × Nat) :=
  let (min, length) := decimal source
  if length = 0 then none
  else
    match source.drop length with
    | [] => none
    | u :: after =>
        if u = code '}' then some (min, some min, length + 1)
        else if u = code ',' then
          let (max, length') := decimal after
          if (after.drop length').head? = some (code '}') then
            some (min, if length' = 0 then none else some max, length + length' + 2)
          else none
        else none

inductive GroupKind where
  | capture (name : Option (List Nat))
  | plain
  | look (behind negated : Bool)
deriving DecidableEq, Repr

inductive Token where
  | char (u : Nat)
  | any
  | set (negated : Bool) (ranges : List (Nat × Nat))
  | start
  | finish
  | boundary (negated : Bool)
  | backref (group : Nat)
  | namedBackref (name : List Nat)
  | bar
  | openGroup (kind : GroupKind)
  | closeGroup
  | quantifier (min : Nat) (max : Option Nat) (greedy : Bool)
deriving DecidableEq, Repr

/-- A name in angle brackets, behind the opening one, with the code units it takes. -/
def groupName (source : List Nat) : Option (List Nat × Nat) :=
  let name := source.takeWhile (fun u =>
    isLetter u || isDigit u || u = code '$' || u = code '_' || 0x80 ≤ u)
  if name = [] ∨ name.head?.any isDigit ∨ (source.drop name.length).head? ≠ some (code '>') then
    none
  else some (name, name.length + 1)

/-- A group behind its opening parenthesis. -/
def groupToken (source : List Nat) : Option (Token × Nat) :=
  if begins "?:" source then some (.openGroup .plain, 2)
  else if begins "?=" source then some (.openGroup (.look false false), 2)
  else if begins "?!" source then some (.openGroup (.look false true), 2)
  else if begins "?<=" source then some (.openGroup (.look true false), 3)
  else if begins "?<!" source then some (.openGroup (.look true true), 3)
  else if begins "?<" source then
    (groupName (source.drop 2)).map (fun (name, length) =>
      (.openGroup (.capture (some name)), length + 2))
  else if begins "?" source then none
  else some (.openGroup (.capture none), 0)

/-- A quantifier; a question mark behind it makes it lazy. -/
def quantifierToken (min : Nat) (max : Option Nat) (length : Nat) (source : List Nat) :
    Token × Nat :=
  if (source.drop length).head? = some (code '?') then (.quantifier min max false, length + 1)
  else (.quantifier min max true, length)

/-- The ranges from `least` on that a list in ascending order leaves out. -/
def gaps : Nat → List (Nat × Nat) → List (Nat × Nat)
  | least, [] => [(least, 0xFFFF)]
  | least, (low, high) :: rest =>
      if least < low then (least, low - 1) :: gaps (high + 1) rest else gaps (high + 1) rest

/-- `\d`, `\D`, `\w`, `\W`, `\s` and `\S`. -/
def classEscape (u : Nat) : Option (List (Nat × Nat)) :=
  if u = code 'd' then some digitRanges
  else if u = code 'D' then some (gaps 0 digitRanges)
  else if u = code 'w' then some wordRanges
  else if u = code 'W' then some (gaps 0 wordRanges)
  else if u = code 's' then some spaceRanges
  else if u = code 'S' then some (gaps 0 spaceRanges)
  else none

/-- Up to three octal digits, with a value below 256. -/
def octal (source : List Nat) : Nat × Nat :=
  let digits := (source.takeWhile (fun u => code '0' ≤ u ∧ u ≤ code '7')).take
    (if source.head?.any (fun u => u ≤ code '3') then 3 else 2)
  (value 8 (digits.map (fun u => u - code '0')), digits.length)

/-- An escape that stands for one code unit, behind the backslash.  With groups that
have names, `\k` needs one.  In a class, digits and `_` may follow `\c` too. -/
def charEscape (named inClass : Bool) (source : List Nat) : Option (Nat × Nat) :=
  match source with
  | [] => none
  | u :: after =>
      if u = code 'f' then some (0xC, 1)
      else if u = code 'n' then some (0xA, 1)
      else if u = code 'r' then some (0xD, 1)
      else if u = code 't' then some (0x9, 1)
      else if u = code 'v' then some (0xB, 1)
      else if u = code 'c' then
        match after with
        | [] => some (code '\\', 0)
        | v :: _ =>
            if isLetter v || inClass && (isDigit v || v = code '_') then some (v % 32, 2)
            else some (code '\\', 0)
      else if code '0' ≤ u ∧ u ≤ code '7' then some (octal source)
      else if u = code 'x' then
        match hex 2 after with
        | none => some (u, 1)
        | some n => some (n, 3)
      else if u = code 'u' then
        match hex 4 after with
        | none => some (u, 1)
        | some n => some (n, 5)
      else if u = code 'k' ∧ named then none
      else some (u, 1)

/-- An escape behind the backslash.  `groups` is the number of capturing groups. -/
def escapeToken (groups : Nat) (named : Bool) (source : List Nat) : Option (Token × Nat) :=
  match source with
  | [] => none
  | u :: after =>
      if u = code 'b' then some (.boundary false, 1)
      else if u = code 'B' then some (.boundary true, 1)
      else if u = code 'k' ∧ named then
        if begins "<" after then
          (groupName (after.drop 1)).map (fun (name, length) => (.namedBackref name, length + 2))
        else none
      else
        match classEscape u with
        | some ranges => some (.set false ranges, 1)
        | none =>
            let (group, length) := decimal source
            if u ≠ code '0' ∧ 0 < length ∧ group ≤ groups then some (.backref group, length)
            else (charEscape named false source).map (fun (v, length) => (.char v, length))

/-- A part of a character class: a code unit, with a mark if it is a plain `-`, or an
escape for several. -/
inductive ClassAtom where
  | unit (u : Nat) (dash : Bool)
  | escape (ranges : List (Nat × Nat))

def ClassAtom.ranges : ClassAtom → List (Nat × Nat)
  | .unit u _ => [(u, u)]
  | .escape ranges => ranges

/-- An escape in a class, behind the backslash. -/
def classAtomEscape (named : Bool) (source : List Nat) : Option (ClassAtom × Nat) :=
  match source with
  | [] => none
  | u :: _ =>
      if u = code 'b' then some (.unit 0x8 false, 1)
      else
        match classEscape u with
        | some ranges => some (.escape ranges, 1)
        | none => (charEscape named true source).map (fun (v, length) => (.unit v false, length))

/-- The parts of a class up to its closing bracket, and the code units they take.  The
first argument counts those that belong to the last part. -/
def classAtoms (named : Bool) : Nat → List Nat → Option (List ClassAtom × Nat)
  | _, [] => none
  | skip + 1, _ :: rest => (classAtoms named skip rest).map (fun (atoms, n) => (atoms, n + 1))
  | 0, u :: rest =>
      if u = code ']' then some ([], 1)
      else
        (if u = code '\\' then classAtomEscape named rest
          else some (.unit u (u = code '-'), 0)).bind (fun (atom, length) =>
            (classAtoms named length rest).map (fun (atoms, n) => (atom :: atoms, n + 1)))

/-- The ranges of a class.  With an escape for several, a `-` stands for itself. -/
def classRanges : List ClassAtom → Option (List (Nat × Nat))
  | .unit low _ :: .unit _ true :: .unit high _ :: rest =>
      if high < low then none else (classRanges rest).map (fun ranges => (low, high) :: ranges)
  | first :: .unit dash true :: second :: rest =>
      (classRanges rest).map (fun ranges =>
        first.ranges ++ [(dash, dash)] ++ second.ranges ++ ranges)
  | atom :: rest => (classRanges rest).map (fun ranges => atom.ranges ++ ranges)
  | [] => some []

/-- A class behind its opening bracket. -/
def classToken (named : Bool) (source : List Nat) : Option (Token × Nat) :=
  let negated := begins "^" source
  (classAtoms named 0 (source.drop (if negated then 1 else 0))).bind (fun (atoms, length) =>
    (classRanges atoms).map (fun ranges =>
      (.set negated ranges, length + if negated then 1 else 0)))

/-- The token that starts with `u`, and the code units of `rest` that it takes. -/
def lexeme (groups : Nat) (named : Bool) (u : Nat) (rest : List Nat) : Option (Token × Nat) :=
  if u = code '\\' then escapeToken groups named rest
  else if u = code '[' then classToken named rest
  else if u = code '(' then groupToken rest
  else if u = code ')' then some (.closeGroup, 0)
  else if u = code '|' then some (.bar, 0)
  else if u = code '^' then some (.start, 0)
  else if u = code '$' then some (.finish, 0)
  else if u = code '.' then some (.any, 0)
  else if u = code '*' then some (quantifierToken 0 none 0 rest)
  else if u = code '+' then some (quantifierToken 1 none 0 rest)
  else if u = code '?' then some (quantifierToken 0 (some 1) 0 rest)
  else if u = code '{' then
    match braces rest with
    | some (min, max, length) => some (quantifierToken min max length rest)
    | none => some (.char u, 0)
  else some (.char u, 0)

/-- The tokens of a source; the first argument counts the code units that still belong
to the last token. -/
def lex (groups : Nat) (named : Bool) : Nat → List Nat → Option (List Token)
  | _, [] => some []
  | skip + 1, _ :: rest => lex groups named skip rest
  | 0, u :: rest =>
      (lexeme groups named u rest).bind (fun (token, length) =>
        (lex groups named length rest).map (fun tokens => token :: tokens))

/-- The capturing groups in order, with their names. -/
def captureNames (tokens : List Token) : List (Option (List Nat)) :=
  tokens.filterMap (fun token =>
    match token with
    | .openGroup (.capture name) => some name
    | _ => none)

/-- The pattern itself or an open group: the number of groups before it, the
alternatives that are complete and the terms of the last one, latest first. -/
structure Level where
  kind : GroupKind
  first : Nat
  alternatives : List Node
  terms : List Node

/-- The parser between two tokens.  `quantifiable` is the number of groups before the
last term, if a quantifier may follow. -/
structure Parser where
  level : Level
  outer : List Level
  captures : Nat
  quantifiable : Option Nat

def seqOf (terms : List Node) : Node :=
  terms.foldl (fun rest term => .seq term rest) .empty

/-- All alternatives of a level. -/
def Level.disjunction (level : Level) : Node :=
  level.alternatives.foldl (fun rest alternative => .alt alternative rest) (seqOf level.terms)

/-- The expression for a group that is complete. -/
def Level.node (level : Level) : Node :=
  match level.kind with
  | .capture _ => .group (some (level.first + 1)) level.disjunction
  | .plain => .group none level.disjunction
  | .look behind negated => .look behind negated level.disjunction

namespace Parser

def initial : Parser where
  level := ⟨.plain, 0, [], []⟩
  outer := []
  captures := 0
  quantifiable := none

/-- Another term. -/
def push (node : Node) (quantifiable : Option Nat) (p : Parser) : Parser :=
  { p with
    level := { p.level with terms := node :: p.level.terms }
    quantifiable := quantifiable }

/-- The parser takes a token; `names` are those of all groups. -/
def step (names : List (Option (List Nat))) (p : Parser) : Token → Option Parser
  | .char u => some (p.push (.char u) (some p.captures))
  | .any => some (p.push .any (some p.captures))
  | .set negated ranges => some (p.push (.set negated ranges) (some p.captures))
  | .start => some (p.push .start none)
  | .finish => some (p.push .finish none)
  | .boundary negated => some (p.push (.boundary negated) none)
  | .backref group => some (p.push (.backref group) (some p.captures))
  | .namedBackref name =>
      if some name ∈ names then
        some (p.push (.backref (names.idxOf (some name) + 1)) (some p.captures))
      else none
  | .bar =>
      some
        { p with
          level :=
            { p.level with
              alternatives := seqOf p.level.terms :: p.level.alternatives
              terms := [] }
          quantifiable := none }
  | .openGroup kind =>
      some
        { level := ⟨kind, p.captures, [], []⟩
          outer := p.level :: p.outer
          captures :=
            match kind with
            | .capture _ => p.captures + 1
            | _ => p.captures
          quantifiable := none }
  | .closeGroup =>
      match p.outer with
      | [] => none
      | level :: outer =>
          some
            { level := { level with terms := p.level.node :: level.terms }
              outer := outer
              captures := p.captures
              quantifiable :=
                match p.level.kind with
                | .look true _ => none
                | _ => some p.level.first }
  | .quantifier min max greedy =>
      match p.quantifiable, p.level.terms with
      | some first, body :: terms =>
          if max.any (fun max => max < min) then none
          else
            some
              { p with
                level :=
                  { p.level with
                    terms := .rep min max greedy first p.captures body :: terms }
                quantifiable := none }
      | _, _ => none

end Parser

/-- The expression that tokens stand for. -/
def parse (tokens : List Token) : Option Node :=
  match tokens.foldlM (Parser.step (captureNames tokens)) Parser.initial with
  | none => none
  | some p => if p.outer.isEmpty then some p.level.disjunction else none

/-- `new RegExp(source)`.  The groups are counted before the escapes are read. -/
def compile (source : List Nat) : Option Node :=
  (lex 0 false 0 source).bind (fun draft =>
    let names := captureNames draft
    if (names.filterMap id).Nodup then
      (lex names.length (names.any Option.isSome) 0 source).bind parse
    else none)

/-- Code units that never stand for themselves outside classes and escapes. -/
def syntaxUnits : List Nat :=
  "^$\\.*+?()[|".toList.map code

theorem syntaxUnits_eq :
    syntaxUnits = [code '^', code '$', code '\\', code '.', code '*', code '+', code '?', code '(',
      code ')', code '[', code '|'] := by
  rfl

theorem isLineTerminator_of_mem_syntaxUnits :
    ∀ u ∈ syntaxUnits, isLineTerminator u = false := by
  rw [syntaxUnits_eq]
  simp [isLineTerminator, code]

/-- Only code units with the property occur as such, and there are no other ways to
tell code units apart but `.` and its like. -/
def Node.Over (P : Nat → Prop) : Node → Prop
  | .char u => P u
  | .set _ _ => False
  | .boundary _ => False
  | .backref _ => False
  | .seq first second => first.Over P ∧ second.Over P
  | .alt first second => first.Over P ∧ second.Over P
  | .group _ body => body.Over P
  | .look _ _ body => body.Over P
  | .rep _ _ _ _ _ body => body.Over P
  | _ => True

def Token.Over (P : Nat → Prop) : Token → Prop
  | .char u => P u
  | .set _ _ => False
  | .boundary _ => False
  | .backref _ => False
  | .namedBackref _ => False
  | _ => True

section Atoms

variable {P : Nat → Prop} {groups : Nat} {named : Bool}

theorem Node.Over.blind {regex : Node} {f : Nat → Nat} {input : List Nat} (h : regex.Over P)
    (hchar : ∀ u, P u → ∀ v ∈ input, f v = u ↔ v = u)
    (hline : ∀ v ∈ input, isLineTerminator (f v) = isLineTerminator v) :
    regex.Blind f input := by
  induction regex with
  | char u => exact hchar u h
  | any => exact hline
  | set negated ranges => exact h.elim
  | boundary negated => exact h.elim
  | backref group => exact h.elim
  | seq first second ih ih' => exact ⟨ih h.1, ih' h.2⟩
  | alt first second ih ih' => exact ⟨ih h.1, ih' h.2⟩
  | group number body ih => exact ih h
  | look behind negated body ih => exact ih h
  | rep min max greedy first last body ih => exact ih h
  | empty => trivial
  | start => trivial
  | finish => trivial

theorem over_groupToken {source : List Nat} {token : Token} {length : Nat}
    (h : groupToken source = some (token, length)) :
    token.Over P := by
  have hkind : ∃ kind, token = .openGroup kind := by
    simp only [groupToken] at h
    split_ifs at h
    all_goals first
      | exact ⟨_, (Prod.mk.inj (Option.some.inj h)).1.symm⟩
      | skip
    obtain ⟨⟨name, n⟩, -, heq⟩ := Option.map_eq_some_iff.mp h
    exact ⟨_, (Prod.mk.inj heq).1.symm⟩
  obtain ⟨kind, rfl⟩ := hkind
  trivial

theorem over_quantifierToken (min : Nat) (max : Option Nat) (length : Nat) (source : List Nat) :
    (quantifierToken min max length source).1.Over P := by
  simp only [quantifierToken]
  split_ifs <;> trivial

/-- Without classes and escapes, a code unit of the syntax does not become an atom. -/
theorem over_lexeme {u : Nat} {rest : List Nat} {token : Token} {length : Nat}
    (hescape : u ≠ code '\\') (hclass : u ≠ code '[')
    (h : lexeme groups named u rest = some (token, length)) :
    token.Over (fun u => u ∉ syntaxUnits) := by
  have hquantifier : ∀ min max n, some (quantifierToken min max n rest) = some (token, length) →
      token.Over (fun u => u ∉ syntaxUnits) := by
    intro min max n heq
    have hover := over_quantifierToken (P := fun u => u ∉ syntaxUnits) min max n rest
    rwa [Option.some.inj heq] at hover
  have hchar : some (.char u, 0) = some (token, length) → u ∉ syntaxUnits →
      token.Over (fun u => u ∉ syntaxUnits) := by
    intro heq hu
    obtain ⟨rfl, -⟩ := Prod.mk.inj (Option.some.inj heq)
    exact hu
  have hatom : ∀ t n, some (t, n) = some (token, length) → t.Over (fun u => u ∉ syntaxUnits) →
      token.Over (fun u => u ∉ syntaxUnits) := by
    intro t n heq ht
    rwa [(Prod.mk.inj (Option.some.inj heq)).1] at ht
  rw [lexeme, if_neg hescape, if_neg hclass] at h
  by_cases hopen : u = code '('
  · rw [if_pos hopen] at h
    exact over_groupToken h
  rw [if_neg hopen] at h
  by_cases hclose : u = code ')'
  · rw [if_pos hclose] at h
    exact hatom _ _ h trivial
  rw [if_neg hclose] at h
  by_cases hbar : u = code '|'
  · rw [if_pos hbar] at h
    exact hatom _ _ h trivial
  rw [if_neg hbar] at h
  by_cases hstart : u = code '^'
  · rw [if_pos hstart] at h
    exact hatom _ _ h trivial
  rw [if_neg hstart] at h
  by_cases hfinish : u = code '$'
  · rw [if_pos hfinish] at h
    exact hatom _ _ h trivial
  rw [if_neg hfinish] at h
  by_cases hany : u = code '.'
  · rw [if_pos hany] at h
    exact hatom _ _ h trivial
  rw [if_neg hany] at h
  by_cases hstar : u = code '*'
  · rw [if_pos hstar] at h
    exact hquantifier _ _ _ h
  rw [if_neg hstar] at h
  by_cases hplus : u = code '+'
  · rw [if_pos hplus] at h
    exact hquantifier _ _ _ h
  rw [if_neg hplus] at h
  by_cases hmark : u = code '?'
  · rw [if_pos hmark] at h
    exact hquantifier _ _ _ h
  rw [if_neg hmark] at h
  by_cases hbrace : u = code '{'
  · rw [if_pos hbrace] at h
    split at h
    · exact hquantifier _ _ _ h
    · exact hchar h (by rw [hbrace]; decide)
  rw [if_neg hbrace] at h
  refine hchar h ?_
  simp [syntaxUnits_eq, hescape, hclass, hopen, hclose, hbar, hstart, hfinish, hany, hstar, hplus,
    hmark]

theorem lex_cons {u : Nat} {rest : List Nat} {token : Token} {length : Nat}
    (h : lexeme groups named u rest = some (token, length)) :
    lex groups named 0 (u :: rest) =
      (lex groups named length rest).map (fun tokens => token :: tokens) := by
  rw [lex, h, Option.bind_some]

theorem over_lex {skip : Nat} {source : List Nat} {tokens : List Token}
    (hescape : code '\\' ∉ source) (hclass : code '[' ∉ source)
    (h : lex groups named skip source = some tokens) :
    ∀ token ∈ tokens, token.Over (fun u => u ∉ syntaxUnits) := by
  induction source generalizing skip tokens with
  | nil =>
      obtain rfl : tokens = [] := by
        cases skip <;> exact (Option.some.inj h).symm
      simp
  | cons u rest ih =>
      have hescape' : code '\\' ∉ rest := fun hmem => hescape (List.mem_cons_of_mem u hmem)
      have hclass' : code '[' ∉ rest := fun hmem => hclass (List.mem_cons_of_mem u hmem)
      cases skip with
      | succ skip => exact ih hescape' hclass' h
      | zero =>
          obtain ⟨⟨token, length⟩, hlexeme, hrest⟩ := Option.bind_eq_some_iff.mp h
          obtain ⟨tail, htail, rfl⟩ := Option.map_eq_some_iff.mp hrest
          intro t ht
          rcases List.mem_cons.mp ht with rfl | ht
          · exact over_lexeme (fun heq => hescape (by simp [heq]))
              (fun heq => hclass (by simp [heq])) hlexeme
          · exact ih hescape' hclass' htail t ht

theorem over_foldl (op : Node → Node → Node)
    (hop : ∀ n rest, n.Over P → rest.Over P → (op n rest).Over P) {nodes : List Node} {rest : Node}
    (h : ∀ n ∈ nodes, n.Over P) (hrest : rest.Over P) :
    (nodes.foldl (fun rest n => op n rest) rest).Over P := by
  induction nodes generalizing rest with
  | nil => exact hrest
  | cons n nodes ih =>
      exact ih (fun m hm => h m (List.mem_cons_of_mem n hm))
        (hop n rest (h n List.mem_cons_self) hrest)

theorem over_seqOf {terms : List Node} (h : ∀ n ∈ terms, n.Over P) :
    (seqOf terms).Over P :=
  over_foldl .seq (fun _ _ hn hrest => ⟨hn, hrest⟩) h trivial

/-- All expressions of a level are made of such atoms. -/
def Level.Over (P : Nat → Prop) (level : Level) : Prop :=
  (∀ n ∈ level.alternatives, n.Over P) ∧ ∀ n ∈ level.terms, n.Over P

theorem Level.Over.disjunction {level : Level} (h : level.Over P) :
    level.disjunction.Over P :=
  over_foldl .alt (fun _ _ hn hrest => ⟨hn, hrest⟩) h.1 (over_seqOf h.2)

theorem Level.Over.node {level : Level} (h : level.Over P) :
    level.node.Over P := by
  simp only [Level.node]
  split <;> exact h.disjunction

theorem Level.Over.push {level : Level} {node : Node} (h : level.Over P) (hnode : node.Over P) :
    ({ level with terms := node :: level.terms } : Level).Over P := by
  refine ⟨h.1, fun n hn => ?_⟩
  rcases List.mem_cons.mp hn with rfl | hn
  · exact hnode
  · exact h.2 n hn

/-- The same for all levels of the parser. -/
def Parser.Over (P : Nat → Prop) (p : Parser) : Prop :=
  p.level.Over P ∧ ∀ level ∈ p.outer, level.Over P

theorem Parser.Over.step {names : List (Option (List Nat))} {p p' : Parser} {token : Token}
    (h : p.Over P) (htoken : token.Over P) (hstep : p.step names token = some p') :
    p'.Over P := by
  have hpush : ∀ node quantifiable, node.Over P → some (p.push node quantifiable) = some p' →
      p'.Over P := by
    intro node quantifiable hnode heq
    obtain rfl := Option.some.inj heq
    exact ⟨h.1.push hnode, h.2⟩
  cases token with
  | char u => exact hpush (.char u) _ htoken hstep
  | any => exact hpush .any _ trivial hstep
  | set negated ranges => exact htoken.elim
  | start => exact hpush .start _ trivial hstep
  | finish => exact hpush .finish _ trivial hstep
  | boundary negated => exact htoken.elim
  | backref group => exact htoken.elim
  | namedBackref name => exact htoken.elim
  | bar =>
      obtain rfl := Option.some.inj hstep
      refine ⟨⟨fun n hn => ?_, by simp⟩, h.2⟩
      rcases List.mem_cons.mp hn with rfl | hn
      · exact over_seqOf h.1.2
      · exact h.1.1 n hn
  | openGroup kind =>
      obtain rfl := Option.some.inj hstep
      refine ⟨⟨by simp, by simp⟩, fun level hlevel => ?_⟩
      rcases List.mem_cons.mp hlevel with rfl | hlevel
      · exact h.1
      · exact h.2 level hlevel
  | closeGroup =>
      simp only [Parser.step] at hstep
      split at hstep
      · cases hstep
      · next level outer houter =>
          obtain rfl := Option.some.inj hstep
          have hall : ∀ l ∈ level :: outer, l.Over P := houter ▸ h.2
          exact ⟨(hall level List.mem_cons_self).push h.1.node,
            fun l hl => hall l (List.mem_cons_of_mem level hl)⟩
  | quantifier min max greedy =>
      simp only [Parser.step] at hstep
      split at hstep
      · next first body terms hfirst hterms =>
          split_ifs at hstep
          obtain rfl := Option.some.inj hstep
          have hall : ∀ n ∈ body :: terms, n.Over P := hterms ▸ h.1.2
          refine ⟨⟨h.1.1, fun n hn => ?_⟩, h.2⟩
          rcases List.mem_cons.mp hn with rfl | hn
          · exact hall body List.mem_cons_self
          · exact hall n (List.mem_cons_of_mem body hn)
      · cases hstep

theorem over_parse {tokens : List Token} {regex : Node} (h : ∀ token ∈ tokens, token.Over P)
    (hparse : parse tokens = some regex) :
    regex.Over P := by
  suffices hfold : ∀ (names : List (Option (List Nat))) (p p' : Parser), p.Over P →
      tokens.foldlM (Parser.step names) p = some p' → p'.Over P by
    simp only [parse] at hparse
    split at hparse
    · cases hparse
    · next p hp =>
        split_ifs at hparse
        obtain rfl := Option.some.inj hparse
        exact (hfold _ _ _ ⟨⟨by simp [Parser.initial], by simp [Parser.initial]⟩,
          by simp [Parser.initial]⟩ hp).1.disjunction
  intro names p p' hp hrun
  clear hparse
  induction tokens generalizing p with
  | nil =>
      obtain rfl := Option.some.inj hrun
      exact hp
  | cons token tokens ih =>
      rw [List.foldlM_cons] at hrun
      obtain ⟨q, hq, hrest⟩ := Option.bind_eq_some_iff.mp hrun
      exact ih (fun t ht => h t (List.mem_cons_of_mem token ht)) q
        (hp.step (h token List.mem_cons_self) hq) hrest

/-- Without classes and escapes, no code unit of the syntax is an atom. -/
theorem over_compile {source : List Nat} {regex : Node} (hescape : code '\\' ∉ source)
    (hclass : code '[' ∉ source) (h : compile source = some regex) :
    regex.Over (fun u => u ∉ syntaxUnits) := by
  obtain ⟨draft, -, hrest⟩ := Option.bind_eq_some_iff.mp h
  dsimp only at hrest
  split_ifs at hrest
  obtain ⟨tokens, hlex, hparse⟩ := Option.bind_eq_some_iff.mp hrest
  exact over_parse (over_lex hescape hclass hlex) hparse

end Atoms

end RegExp
end SentinelADC
