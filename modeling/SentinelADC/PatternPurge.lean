import SentinelADC.CacheService
import SentinelADC.Lib.RegExpSyntax
import SentinelADC.Lib.Wildcard

/-!
# Purging by a pattern

`invalidatePattern` of the cache in memory makes a regular expression of the
pattern: each `*` becomes `.*`, and everything else stays as it is.  What has a
meaning in regular expressions keeps that meaning.
-/

namespace SentinelADC

universe u

open RegExp

section Translation

/-- `pattern.replace(/\*/g, '.*')`. -/
def replaceStars (pattern : List Nat) : List Nat :=
  pattern.flatMap (fun u => if u = code '*' then [code '.', code '*'] else [u])

/-- `'^' + pattern.replace(/\*/g, '.*') + '$'`. -/
def regexStr (pattern : String) : List Nat :=
  code '^' :: replaceStars (codeUnits pattern) ++ [code '$']

/-- A key that the pattern means: `*` is any sequence, and the rest stands for itself. -/
def wildcardMatch (pattern key : String) : Bool :=
  Wildcard.covers (code '*') (fun _ => true) (codeUnits pattern) (codeUnits key)

/-- Number of line ends in a string. -/
def lineTerminators (s : String) : Nat :=
  (codeUnits s).countP isLineTerminator

end Translation

namespace CacheService

variable {V : Type u}

/-- One round of the loop over `memoryCache.keys()`. -/
def purgeKey (regex : Node) (acc : Nat × List (CacheRecord V)) (key : String) :
    Nat × List (CacheRecord V) :=
  if test regex (codeUnits key) then (acc.1 + 1, acc.2.filter (fun r => r.key ≠ key)) else acc

/-- `invalidatePattern` of the cache in memory: the number it returns and the cache it
leaves, or `none` if `new RegExp` throws. -/
def invalidateMemory (pattern : String) (cache : CacheService V) :
    Option (Nat × CacheService V) :=
  (compile (regexStr pattern)).map (fun regex =>
    let (count, records) :=
      (cache.memoryCache.map CacheRecord.key).foldl (purgeKey regex) (0, cache.memoryCache)
    (count, { cache with memoryCache := records }))

/-- The purge completes, deletes the keys that the pattern means and no others, and
returns their number. -/
def PurgesExactly (pattern : String) (cache : CacheService V) : Prop :=
  cache.invalidateMemory pattern =
    some (cache.memoryCache.countP (fun r => wildcardMatch pattern r.key),
      { cache with
        memoryCache := cache.memoryCache.filter (fun r => !wildcardMatch pattern r.key) })

section Loop

variable {regex : Node} {records : List (CacheRecord V)}

/-- With distinct keys the loop deletes and counts the records whose keys match. -/
theorem foldl_purgeKey (hkeys : (records.map CacheRecord.key).Nodup) (count : Nat)
    (done : List (CacheRecord V)) (hdone : ∀ r ∈ done, r.key ∉ records.map CacheRecord.key) :
    (records.map CacheRecord.key).foldl (purgeKey regex) (count, done ++ records) =
      (count + records.countP (fun r => test regex (codeUnits r.key)),
        done ++ records.filter (fun r => !test regex (codeUnits r.key))) := by
  induction records generalizing count done with
  | nil => simp
  | cons record records ih =>
      rw [List.map_cons, List.nodup_cons] at hkeys
      obtain ⟨hnew, hkeys⟩ := hkeys
      have hdone' : ∀ r ∈ done, r.key ∉ records.map CacheRecord.key := by
        intro r hr hmem
        exact hdone r hr (List.mem_cons_of_mem _ hmem)
      rw [List.map_cons, List.foldl_cons, purgeKey]
      cases htest : test regex (codeUnits record.key) with
      | true =>
          have hothers : (done ++ record :: records).filter (fun r => r.key ≠ record.key) =
              done ++ records := by
            rw [List.filter_append, List.filter_cons_of_neg (by simp)]
            congr 1
            · refine List.filter_eq_self.mpr (fun r hr => ?_)
              simpa using fun heq : r.key = record.key => hdone r hr (by simp [heq])
            · refine List.filter_eq_self.mpr (fun r hr => ?_)
              have hne : r.key ≠ record.key :=
                fun heq => hnew (List.mem_map.mpr ⟨r, hr, heq⟩)
              simpa using hne
          simp only [if_true, hothers]
          rw [ih hkeys (count + 1) done hdone']
          simp [htest]
          omega
      | false =>
          have hmove : done ++ record :: records = (done ++ [record]) ++ records := by simp
          have hdone'' : ∀ r ∈ done ++ [record], r.key ∉ records.map CacheRecord.key := by
            intro r hr
            rcases List.mem_append.mp hr with hr | hr
            · exact hdone' r hr
            · rw [List.mem_singleton.mp hr]
              exact hnew
          simp only [Bool.false_eq_true, if_false]
          rw [hmove, ih hkeys count (done ++ [record]) hdone'']
          simp [htest]

end Loop

end CacheService

section Literal

/-- What has a meaning outside classes, escapes and counts, apart from `*`. -/
def operators : List Nat :=
  ".?+|^$()".toList.map code

/-- A repetition count starts somewhere. -/
def hasCount : List Nat → Bool
  | [] => false
  | u :: rest => decide (u = code '{') && (braces rest).isSome || hasCount rest

/-- Apart from `*`, regular expressions give no meaning to anything in the pattern. -/
structure ReadLiterally (pattern : List Nat) : Prop where
  operators : ∀ u ∈ pattern, u ∉ operators
  escape : code '\\' ∉ pattern
  bracket : code '[' ∉ pattern
  count : hasCount pattern = false

theorem ReadLiterally.tail {u : Nat} {pattern : List Nat} (h : ReadLiterally (u :: pattern)) :
    ReadLiterally pattern := by
  have hcount := h.count
  rw [hasCount, Bool.or_eq_false_iff] at hcount
  exact ⟨fun v hv => h.operators v (List.mem_cons_of_mem u hv),
    fun hmem => h.escape (List.mem_cons_of_mem u hmem),
    fun hmem => h.bracket (List.mem_cons_of_mem u hmem), hcount.2⟩

/-- The tokens of a pattern that is read literally. -/
def tokensOf (pattern : List Nat) : List Token :=
  pattern.flatMap (fun u =>
    if u = code '*' then [.any, .quantifier 0 none true] else [.char u])

theorem tokensOf_cons {u : Nat} (hstar : u ≠ code '*') (pattern : List Nat) :
    tokensOf (u :: pattern) = .char u :: tokensOf pattern := by
  rw [tokensOf, List.flatMap_cons, if_neg hstar]
  rfl

/-- The term for one code unit. -/
def termOf (u : Nat) : Node :=
  if u = code '*' then .rep 0 none true 0 0 .any else .char u

variable {pattern : List Nat} {groups : Nat} {named : Bool}

theorem replaceStars_star (pattern : List Nat) :
    replaceStars (code '*' :: pattern) = code '.' :: code '*' :: replaceStars pattern := by
  rfl

theorem replaceStars_cons {u : Nat} (hstar : u ≠ code '*') (pattern : List Nat) :
    replaceStars (u :: pattern) = u :: replaceStars pattern := by
  rw [replaceStars, List.flatMap_cons, if_neg hstar]
  rfl

/-- Digits stay at the front. -/
theorem takeWhile_isDigit_replaceStars (pattern : List Nat) :
    (replaceStars pattern ++ [code '$']).takeWhile isDigit = pattern.takeWhile isDigit := by
  induction pattern with
  | nil => rfl
  | cons u pattern ih =>
      by_cases hstar : u = code '*'
      · subst hstar
        rfl
      · rw [replaceStars_cons hstar, List.cons_append, List.takeWhile_cons, List.takeWhile_cons, ih]

theorem drop_replaceStars {n : Nat} (h : n ≤ (pattern.takeWhile isDigit).length) :
    (replaceStars pattern ++ [code '$']).drop n =
      replaceStars (pattern.drop n) ++ [code '$'] := by
  induction n generalizing pattern with
  | zero => rfl
  | succ n ih =>
      cases pattern with
      | nil => simp at h
      | cons u pattern =>
          rw [List.takeWhile_cons] at h
          split at h
          · next hdigit =>
              have hstar : u ≠ code '*' := by
                rintro rfl
                cases hdigit
              rw [replaceStars_cons hstar, List.cons_append, List.drop_succ_cons,
                List.drop_succ_cons]
              exact ih (by simpa using h)
          · simp at h

theorem head?_replaceStars {u : Nat} (hdot : u ≠ code '.') (hfinish : u ≠ code '$')
    (hstar : u ≠ code '*') :
    (replaceStars pattern ++ [code '$']).head? = some u ↔ pattern.head? = some u := by
  cases pattern with
  | nil => simp [replaceStars, hfinish.symm]
  | cons v pattern =>
      by_cases hv : v = code '*'
      · subst hv
        simp [replaceStars_star, hdot.symm, hstar.symm]
      · simp [replaceStars_cons hv]

theorem decimal_replaceStars (pattern : List Nat) :
    decimal (replaceStars pattern ++ [code '$']) = decimal pattern := by
  simp only [decimal, takeWhile_isDigit_replaceStars]

/-- The replacement does not make a count of a brace that starts none. -/
theorem braces_replaceStars (h : braces pattern = none) :
    braces (replaceStars pattern ++ [code '$']) = none := by
  have hdrop : ∀ q : List Nat, (replaceStars q ++ [code '$']).drop (decimal q).2 =
      replaceStars (q.drop (decimal q).2) ++ [code '$'] := fun q => drop_replaceStars le_rfl
  simp only [braces, decimal_replaceStars, hdrop] at h ⊢
  split_ifs at h ⊢ with hnone
  · rfl
  · cases hrest : pattern.drop (decimal pattern).2 with
    | nil => rfl
    | cons v after =>
        rw [hrest] at h
        by_cases hstar : v = code '*'
        · subst hstar
          rfl
        · rw [replaceStars_cons hstar, List.cons_append]
          by_cases hclose : v = code '}'
          · simp [hclose] at h
          · simp only [hclose, if_false] at h ⊢
            by_cases hcomma : v = code ','
            · simp only [hcomma, if_true, decimal_replaceStars, hdrop] at h ⊢
              simpa only [head?_replaceStars (show code '}' ≠ code '.' by decide)
                (show code '}' ≠ code '$' by decide) (show code '}' ≠ code '*' by decide)] using h
            · simp [hcomma]

/-- A code unit of the pattern that is no `*` is its own token. -/
theorem lexeme_literal {u : Nat} (h : ReadLiterally (u :: pattern)) (hstar : u ≠ code '*') :
    lexeme groups named u (replaceStars pattern ++ [code '$']) = some (.char u, 0) := by
  have hescape : u ≠ code '\\' := fun heq => h.escape (by simp [heq])
  have hbracket : u ≠ code '[' := fun heq => h.bracket (by simp [heq])
  have hoperator : ∀ v ∈ operators, u ≠ v :=
    fun v hv heq => h.operators u List.mem_cons_self (heq ▸ hv)
  have hcount := h.count
  rw [hasCount, Bool.or_eq_false_iff] at hcount
  simp only [lexeme, hescape, hbracket, hoperator _ (show code '(' ∈ operators by decide),
    hoperator _ (show code ')' ∈ operators by decide),
    hoperator _ (show code '|' ∈ operators by decide),
    hoperator _ (show code '^' ∈ operators by decide),
    hoperator _ (show code '$' ∈ operators by decide),
    hoperator _ (show code '.' ∈ operators by decide), hstar,
    hoperator _ (show code '+' ∈ operators by decide),
    hoperator _ (show code '?' ∈ operators by decide), if_false]
  by_cases hbrace : u = code '{'
  · have hnone : braces pattern = none := by simpa [hbrace] using hcount.1
    rw [if_pos hbrace, braces_replaceStars hnone]
  · rw [if_neg hbrace]

theorem lex_replaceStars (h : ReadLiterally pattern) :
    lex groups named 0 (replaceStars pattern ++ [code '$']) =
      some (tokensOf pattern ++ [.finish]) := by
  induction pattern with
  | nil => rfl
  | cons u pattern ih =>
      have hrest := ih h.tail
      by_cases hstar : u = code '*'
      · subst hstar
        -- what follows a `*` is no question mark, so the quantifier is greedy
        have hgreedy : lexeme groups named (code '*') (replaceStars pattern ++ [code '$']) =
            some (.quantifier 0 none true, 0) := by
          have hmark : (replaceStars pattern ++ [code '$']).head? ≠ some (code '?') := by
            rw [ne_eq, head?_replaceStars (by decide) (by decide) (by decide)]
            intro hhead
            exact h.tail.operators _ (List.mem_of_mem_head? hhead) (by decide)
          have hlex : lexeme groups named (code '*') (replaceStars pattern ++ [code '$']) =
              some (quantifierToken 0 none 0 (replaceStars pattern ++ [code '$'])) := rfl
          rw [hlex, quantifierToken, List.drop_zero, if_neg hmark]
        have hany : ∀ rest, lexeme groups named (code '.') rest = some (.any, 0) := fun _ => rfl
        rw [replaceStars_star, List.cons_append, List.cons_append, lex_cons (hany _),
          lex_cons hgreedy, hrest]
        rfl
      · rw [replaceStars_cons hstar, List.cons_append, lex_cons (lexeme_literal h hstar), hrest,
          tokensOf_cons hstar]
        rfl

theorem captureNames_tokensOf (pattern : List Nat) :
    captureNames (.start :: (tokensOf pattern ++ [.finish])) = [] := by
  rw [captureNames, List.filterMap_eq_nil_iff]
  intro token htoken
  have hcases : token = .start ∨ token = .finish ∨
      ∃ u ∈ pattern,
        token ∈ if u = code '*' then [.any, .quantifier 0 none true] else [.char u] := by
    simpa [tokensOf, or_comm, or_left_comm] using htoken
  rcases hcases with rfl | rfl | ⟨u, -, hmem⟩
  · rfl
  · rfl
  · split_ifs at hmem <;> simp at hmem
    · rcases hmem with rfl | rfl <;> rfl
    · rw [hmem]

/-- The parser appends the terms of the pattern. -/
theorem foldlM_tokensOf (names : List (Option (List Nat))) (pattern : List Nat) (terms : List Node)
    (quantifiable : Option Nat) :
    ∃ quantifiable',
      (tokensOf pattern).foldlM (Parser.step names) ⟨⟨.plain, 0, [], terms⟩, [], 0, quantifiable⟩ =
        some ⟨⟨.plain, 0, [], (pattern.map termOf).reverse ++ terms⟩, [], 0, quantifiable'⟩ := by
  induction pattern generalizing terms quantifiable with
  | nil => exact ⟨quantifiable, rfl⟩
  | cons u pattern ih =>
      have happend : ((u :: pattern).map termOf).reverse ++ terms =
          (pattern.map termOf).reverse ++ termOf u :: terms := by simp
      rw [happend]
      by_cases hstar : u = code '*'
      · subst hstar
        exact ih _ none
      · rw [tokensOf_cons hstar, termOf, if_neg hstar]
        exact ih _ (some 0)

/-- The expression for a pattern that is read literally. -/
theorem compile_regexStr {pattern : String} (h : ReadLiterally (codeUnits pattern)) :
    compile (regexStr pattern) =
      some (.seq .start (((codeUnits pattern).map termOf).foldr .seq (.seq .finish .empty))) := by
  have hlex : ∀ groups named, lex groups named 0 (regexStr pattern) =
      some (.start :: (tokensOf (codeUnits pattern) ++ [.finish])) := by
    intro groups named
    have hstart : lexeme groups named (code '^')
        (replaceStars (codeUnits pattern) ++ [code '$']) = some (.start, 0) := rfl
    rw [regexStr, List.cons_append, lex_cons hstart, lex_replaceStars h]
    rfl
  obtain ⟨quantifiable, hfold⟩ := foldlM_tokensOf [] (codeUnits pattern) [.start] none
  have hrun : (Token.start :: (tokensOf (codeUnits pattern) ++ [.finish])).foldlM (Parser.step [])
      Parser.initial = some ⟨⟨.plain, 0, [], .finish ::
        (((codeUnits pattern).map termOf).reverse ++ [.start])⟩, [], 0, none⟩ := by
    have hstart : Parser.step [] Parser.initial .start =
        some ⟨⟨.plain, 0, [], [.start]⟩, [], 0, none⟩ := rfl
    rw [List.foldlM_cons, hstart, Option.bind_eq_bind, Option.bind_some, List.foldlM_append, hfold]
    rfl
  have hparse : parse (.start :: (tokensOf (codeUnits pattern) ++ [.finish])) =
      some (seqOf (.finish :: (((codeUnits pattern).map termOf).reverse ++ [.start]))) := by
    rw [parse, captureNames_tokensOf, hrun]
    rfl
  have hseq : seqOf (.finish :: (((codeUnits pattern).map termOf).reverse ++ [.start])) =
      .seq .start (((codeUnits pattern).map termOf).foldr .seq (.seq .finish .empty)) := by
    rw [seqOf, List.foldl_cons, List.foldl_append, List.foldl_reverse]
    rfl
  rw [compile, hlex, Option.bind_some]
  simp only [captureNames_tokensOf, hlex, Option.bind_some, hparse, hseq]
  rfl

/-- One character of `.`. -/
theorem exec_any (input : List Nat) (x : Match) :
    exec input .any false x =
      if (input[x.pos]?).any (fun u => !isLineTerminator u) then [{ x with pos := x.pos + 1 }]
      else [] := by
  rfl

/-- The positions that `.*` may reach. -/
theorem exists_optional_any {input : List Nat} {Q : Nat → Prop} (k : Nat) (x : Match) :
    (∃ y ∈ optionalIterations (fun x => exec input .any false (forget 0 0 x)) true k x, Q y.pos) ↔
      ∃ j, j ≤ k ∧ j ≤ ((input.drop x.pos).takeWhile (fun u => !isLineTerminator u)).length ∧
        Q (x.pos + j) := by
  induction k generalizing x with
  | zero => simp [optionalIterations]
  | succ k ih =>
      have hpos : (forget 0 0 x).pos = x.pos := rfl
      simp only [optionalIterations, exec_any, hpos, if_true]
      cases hu : input[x.pos]? with
      | none =>
          have hrun : (input.drop x.pos).takeWhile (fun u => !isLineTerminator u) = [] := by
            rw [List.drop_eq_nil_of_le (List.getElem?_eq_none_iff.mp hu)]
            rfl
          simp only [Option.any_none, Bool.false_eq_true, if_false, List.flatMap_nil,
            List.nil_append, List.mem_singleton, exists_eq_left, hrun, List.length_nil,
            Nat.le_zero]
          exact ⟨fun h => ⟨0, Nat.zero_le _, rfl, h⟩, fun ⟨j, _, hj, h⟩ => by simpa [hj] using h⟩
      | some u =>
          obtain ⟨hlt, hget⟩ := List.getElem?_eq_some_iff.mp hu
          rw [List.drop_eq_getElem_cons hlt, hget, List.takeWhile_cons, Option.any_some]
          cases hok : !isLineTerminator u with
          | false =>
              simp only [Bool.false_eq_true, if_false, List.flatMap_nil,
                List.nil_append, List.mem_singleton, exists_eq_left, List.length_nil, Nat.le_zero]
              exact ⟨fun h => ⟨0, Nat.zero_le _, rfl, h⟩,
                fun ⟨j, _, hj, h⟩ => by simpa [hj] using h⟩
          | true =>
              have hnext := ih ({ forget 0 0 x with pos := x.pos + 1 } : Match)
              simp only [if_true, List.flatMap_cons, List.flatMap_nil, List.append_nil,
                Nat.succ_ne_self, if_false, List.mem_append, List.mem_singleton, List.length_cons]
              constructor
              · rintro ⟨y, hy | rfl, hQ⟩
                · obtain ⟨j, hk, hj, hQ⟩ := hnext.mp ⟨y, hy, hQ⟩
                  exact ⟨j + 1, by omega, by simpa using hj, by
                    simpa [Nat.add_assoc, Nat.add_comm 1] using hQ⟩
                · exact ⟨0, by omega, by omega, hQ⟩
              · rintro ⟨j, hk, hj, hQ⟩
                cases j with
                | zero => exact ⟨x, Or.inr rfl, hQ⟩
                | succ j =>
                    obtain ⟨y, hy, hQ'⟩ := hnext.mpr ⟨j, by omega, by simpa using hj, by
                      simpa [Nat.add_assoc, Nat.add_comm 1] using hQ⟩
                    exact ⟨y, Or.inl hy, hQ'⟩

/-- The rest of a line ends with the input. -/
theorem length_line_le (input : List Nat) (pos : Nat) :
    ((input.drop pos).takeWhile (fun u => !isLineTerminator u)).length ≤ input.length - pos := by
  rw [← List.length_drop]
  exact (List.takeWhile_prefix _).length_le

/-- Once compiled, a literal pattern covers what is left of the input, with wildcards
that stop at line ends. -/
theorem exec_literal (input pattern : List Nat) (x : Match) (hpos : x.pos ≤ input.length) :
    exec input ((pattern.map termOf).foldr .seq (.seq .finish .empty)) false x ≠ [] ↔
      Wildcard.covers (code '*') (fun u => !isLineTerminator u) pattern (input.drop x.pos) =
        true := by
  induction pattern generalizing x with
  | nil =>
      have hend : x.pos = input.length ↔ input.length ≤ x.pos := by omega
      by_cases hlast : x.pos = input.length <;>
        simp [exec, Wildcard.covers, hlast, ← hend]
  | cons u pattern ih =>
      rw [List.map_cons, List.foldr_cons]
      generalize hrest : (pattern.map termOf).foldr Node.seq (.seq .finish .empty) = rest at ih ⊢
      by_cases hstar : u = code '*'
      · subst hstar
        have hwithin : ∀ y ∈ exec input (termOf (code '*')) false x, y.pos ≤ input.length := by
          intro y hy
          by_contra hbeyond
          obtain ⟨j, -, hj, hQ⟩ := (exists_optional_any (Q := fun p => ¬ p ≤ input.length)
            input.length x).mp ⟨y, hy, hbeyond⟩
          have hline := length_line_le input x.pos
          omega
        calc exec input (.seq (termOf (code '*')) rest) false x ≠ []
          _ ↔ ∃ y ∈ exec input (termOf (code '*')) false x, exec input rest false y ≠ [] := by
              simp [exec]
          _ ↔ ∃ y ∈ exec input (termOf (code '*')) false x, Wildcard.covers (code '*')
                (fun u => !isLineTerminator u) pattern (input.drop y.pos) = true :=
              exists_congr (fun y => and_congr_right (fun hy => ih y (hwithin y hy)))
          _ ↔ ∃ j, j ≤ input.length ∧
                j ≤ ((input.drop x.pos).takeWhile (fun u => !isLineTerminator u)).length ∧
                Wildcard.covers (code '*') (fun u => !isLineTerminator u) pattern
                  (input.drop (x.pos + j)) = true :=
              exists_optional_any (Q := fun p => Wildcard.covers (code '*')
                (fun u => !isLineTerminator u) pattern (input.drop p) = true) input.length x
          _ ↔ _ := by
              simp only [Wildcard.covers, if_true, List.any_eq_true, List.mem_range, List.drop_drop]
              refine exists_congr (fun j => ?_)
              have hline := length_line_le input x.pos
              constructor
              · rintro ⟨-, hj, h⟩
                exact ⟨by omega, h⟩
              · rintro ⟨hj, h⟩
                exact ⟨by omega, by omega, h⟩
      · rw [termOf, if_neg hstar, Wildcard.covers_cons_iff hstar]
        have hseq : exec input (.seq (.char u) rest) false x =
            (if (input[x.pos]?).any (fun v => v = u) then [{ x with pos := x.pos + 1 }]
              else []).flatMap (exec input rest false) := rfl
        rw [hseq]
        cases hv : input[x.pos]? with
        | none =>
            rw [List.drop_eq_nil_of_le (List.getElem?_eq_none_iff.mp hv)]
            simp
        | some v =>
            obtain ⟨hlt, hget⟩ := List.getElem?_eq_some_iff.mp hv
            have hnext := ih ({ x with pos := x.pos + 1 } : Match) hlt
            rw [List.drop_eq_getElem_cons hlt, hget]
            by_cases heq : v = u
            · simpa [heq] using hnext
            · simp [heq]

/-- What the regular expression of a literal pattern makes of a key. -/
theorem test_literal (input pattern : List Nat) :
    test (.seq .start ((pattern.map termOf).foldr .seq (.seq .finish .empty))) input =
      Wildcard.covers (code '*') (fun u => !isLineTerminator u) pattern input := by
  have hexec : ∀ i, exec input (.seq .start ((pattern.map termOf).foldr .seq
      (.seq .finish .empty))) false ⟨i, fun _ => none⟩ = if i = 0 then
        exec input ((pattern.map termOf).foldr .seq (.seq .finish .empty)) false ⟨i, fun _ => none⟩
      else [] := by
    intro i
    by_cases hi : i = 0 <;> simp [exec, hi]
  rw [Bool.eq_iff_iff, test, List.any_eq_true]
  have hzero := exec_literal input pattern ⟨0, fun _ => none⟩ (Nat.zero_le _)
  rw [List.drop_zero] at hzero
  rw [← hzero]
  constructor
  · rintro ⟨i, -, hi⟩
    rw [hexec] at hi
    split_ifs at hi with hfirst
    · subst hfirst
      simpa using hi
    · simp at hi
  · intro h
    refine ⟨0, by simp, ?_⟩
    rw [hexec, if_pos rfl]
    simpa using h

end Literal

section Texts

variable {c d : Char}

theorem mem_codeUnitsOfChar (hc : c.toNat < 128) : code c ∈ codeUnitsOfChar d ↔ d = c := by
  constructor
  · intro h
    rw [code, codeUnitsOfChar] at h
    split_ifs at h
    · exact (Char.toNat_inj.mp (List.mem_singleton.mp h)).symm
    · simp only [List.mem_cons, List.not_mem_nil, or_false] at h
      omega
  · rintro rfl
    rw [codeUnitsOfChar, if_pos (by omega)]
    exact List.mem_singleton.mpr rfl

theorem codeUnitsOfChar_ascii (hc : c.toNat < 128) : codeUnitsOfChar c = [code c] := by
  rw [codeUnitsOfChar, if_pos (by omega)]
  rfl

/-- The text of a pattern, without its wildcards. -/
def plainText (pattern : String) : String :=
  String.ofList (pattern.toList.filter (fun d => d ≠ '*'))

theorem codeUnits_plainText (pattern : String) :
    codeUnits (plainText pattern) = (codeUnits pattern).filter (fun u => u ≠ code '*') := by
  rw [plainText, codeUnits, codeUnits, String.toList_ofList]
  induction pattern.toList with
  | nil => rfl
  | cons d rest ih =>
      rw [List.flatMap_cons, List.filter_append, ← ih]
      by_cases hd : d = '*'
      · subst hd
        rfl
      · have hunits : (codeUnitsOfChar d).filter (fun u => u ≠ code '*') = codeUnitsOfChar d := by
          refine List.filter_eq_self.mpr (fun u hu => ?_)
          have hne : u ≠ code '*' := by
            rintro rfl
            exact hd ((mem_codeUnitsOfChar (by decide)).mp hu)
          simpa using hne
        rw [List.filter_cons_of_pos (by simpa using hd), List.flatMap_cons, hunits]

/-- One code unit in place of another. -/
def swapUnit (c c' : Char) (u : Nat) : Nat :=
  if u = code c then code c' else u

/-- One character in place of another. -/
def swapChar (c c' : Char) (s : String) : String :=
  String.ofList (s.toList.map (fun d => if d = c then c' else d))

theorem codeUnits_swapChar {c' : Char} (hc : c.toNat < 128) (hc' : c'.toNat < 128) (s : String) :
    codeUnits (swapChar c c' s) = (codeUnits s).map (swapUnit c c') := by
  rw [swapChar, codeUnits, codeUnits, String.toList_ofList, List.flatMap_map, List.map_flatMap]
  refine List.flatMap_congr (fun d _ => ?_)
  by_cases hd : d = c
  · subst hd
    rw [if_pos rfl, codeUnitsOfChar_ascii hc, codeUnitsOfChar_ascii hc', List.map_singleton,
      swapUnit, if_pos rfl]
  · rw [if_neg hd]
    refine ((List.map_congr_left (fun u hu => ?_)).trans (List.map_id _)).symm
    rw [swapUnit, if_neg, id]
    rintro rfl
    exact hd ((mem_codeUnitsOfChar hc).mp hu)

end Texts

namespace CacheService

section Exactness

variable {V : Type u} {cache : CacheService V} {pattern : String} {regex : Node}

/-- A purge deletes and counts the keys that the regular expression matches. -/
theorem invalidateMemory_of_compile (hcompile : compile (regexStr pattern) = some regex)
    (hkeys : (cache.memoryCache.map CacheRecord.key).Nodup) :
    cache.invalidateMemory pattern =
      some (cache.memoryCache.countP (fun r => test regex (codeUnits r.key)),
        { cache with
          memoryCache := cache.memoryCache.filter (fun r => !test regex (codeUnits r.key)) }) := by
  have hloop := @foldl_purgeKey V regex cache.memoryCache hkeys 0 [] (by simp)
  simp only [List.nil_append, Nat.zero_add] at hloop
  simp only [invalidateMemory, hcompile, Option.map_some, hloop]

/-- In memory, `invalidatePattern` as the pipeline has it is the purge by the regular
expression. -/
theorem invalidatePattern_eq_invalidateMemory (hcompile : compile (regexStr pattern) = some regex)
    (hkeys : (cache.memoryCache.map CacheRecord.key).Nodup) (hactive : cache.isActive = true)
    (hmemory : cache.useMemoryFallback = true) :
    some (cache.invalidatePattern (fun key => test regex (codeUnits key))) =
      (cache.invalidateMemory pattern).map Prod.snd := by
  rw [invalidateMemory_of_compile hcompile hkeys]
  simp [invalidatePattern, hactive, hmemory]

/-- A purge is exact when the regular expression and the wildcards agree on the keys. -/
theorem purgesExactly_iff_of_compile (hcompile : compile (regexStr pattern) = some regex)
    (hkeys : (cache.memoryCache.map CacheRecord.key).Nodup) :
    cache.PurgesExactly pattern ↔
      ∀ r ∈ cache.memoryCache, test regex (codeUnits r.key) = wildcardMatch pattern r.key := by
  simp only [PurgesExactly, invalidateMemory_of_compile hcompile hkeys, Option.some.injEq,
    Prod.mk.injEq]
  constructor
  · rintro ⟨-, hrecords⟩ r hr
    have hfilter := congrArg memoryCache hrecords
    have hmem := congrArg (r ∈ ·) hfilter
    simp only [List.mem_filter, hr, true_and, Bool.not_eq_eq_eq_not, Bool.not_true, eq_iff_iff]
      at hmem
    cases htest : test regex (codeUnits r.key) <;>
      cases hmatch : wildcardMatch pattern r.key <;> simp_all
  · intro hsame
    refine ⟨List.countP_congr (fun r hr => by rw [hsame r hr]), ?_⟩
    rw [List.filter_congr (fun r hr => by rw [hsame r hr])]

/-- For a pattern that is read literally, line ends in the keys decide. -/
theorem purgesExactly_iff_of_literal (h : ReadLiterally (codeUnits pattern))
    (hkeys : (cache.memoryCache.map CacheRecord.key).Nodup) :
    cache.PurgesExactly pattern ↔
      ∀ r ∈ cache.memoryCache, wildcardMatch pattern r.key = true →
        lineTerminators r.key ≤ lineTerminators pattern := by
  rw [purgesExactly_iff_of_compile (compile_regexStr h) hkeys]
  refine forall₂_congr (fun r _ => ?_)
  have hcount : Wildcard.covers (code '*') (fun u => !isLineTerminator u) (codeUnits pattern)
      (codeUnits r.key) = true ↔ wildcardMatch pattern r.key = true ∧
        lineTerminators r.key ≤ lineTerminators pattern := by
    have hunits : Wildcard.covers (code '*') (fun u => !isLineTerminator u) (codeUnits pattern)
        (codeUnits r.key) = true ↔ _ := Wildcard.covers_iff_countP (by decide)
    simpa [wildcardMatch, lineTerminators] using hunits
  rw [test_literal, Bool.eq_iff_iff, hcount]
  exact ⟨fun h hmatch => (h.mpr hmatch).2, fun h => ⟨fun h' => h'.1, fun h' => ⟨h', h h'⟩⟩⟩

/-- If purges are exact as far as line ends allow, the regular expression agrees with the
wildcards on every key. -/
theorem agrees_of_purgesExactly [Inhabited V]
    (h : ∀ cache : CacheService V, (cache.memoryCache.map CacheRecord.key).Nodup →
      (∀ r ∈ cache.memoryCache, wildcardMatch pattern r.key = true →
        lineTerminators r.key ≤ lineTerminators pattern) → cache.PurgesExactly pattern) :
    ∃ regex, compile (regexStr pattern) = some regex ∧
      ∀ key, lineTerminators key ≤ lineTerminators pattern →
        test regex (codeUnits key) = wildcardMatch pattern key := by
  let cache : CacheService V := ⟨true, 0, none, true, [], [], [], ⟨0, 0, 0, 0, 0⟩⟩
  have hempty := h cache List.nodup_nil (by simp [cache])
  obtain ⟨⟨count, purged⟩, hsome⟩ : ∃ result, _ = some result := ⟨_, hempty⟩
  obtain ⟨regex, hcompile, -⟩ := Option.map_eq_some_iff.mp hsome
  refine ⟨regex, hcompile, fun key hlines => ?_⟩
  have hkeys : ([(⟨key, default, 0⟩ : CacheRecord V)].map CacheRecord.key).Nodup :=
    List.nodup_singleton key
  have hsingle := h { cache with memoryCache := [⟨key, default, 0⟩] } hkeys (by simp [hlines])
  rw [purgesExactly_iff_of_compile hcompile hkeys] at hsingle
  exact hsingle ⟨key, default, 0⟩ (List.mem_singleton.mpr rfl)

/-- The regular expression does not see an operator in a key. -/
theorem test_swapUnit {c c' : Char} (hescape : code '\\' ∉ codeUnits pattern)
    (hbracket : code '[' ∉ codeUnits pattern) (hcompile : compile (regexStr pattern) = some regex)
    (hc : code c ∈ syntaxUnits) (hc' : code c' ∈ syntaxUnits) (input : List Nat) :
    test regex (input.map (swapUnit c c')) = test regex input := by
  have hsource : ∀ u ∉ [code '^', code '$', code '.', code '*'], u ∉ codeUnits pattern →
      u ∉ regexStr pattern := by
    intro u hu hpattern hmem
    simp only [List.mem_cons, List.not_mem_nil, or_false, not_or] at hu
    simp only [regexStr, replaceStars, List.cons_append, List.mem_cons, List.mem_append,
      List.mem_flatMap, List.not_mem_nil, or_false, hu, false_or] at hmem
    obtain ⟨v, hv, hmem⟩ := hmem
    split_ifs at hmem with hstar
    · simp [hu] at hmem
    · rw [List.mem_singleton.mp hmem] at hpattern
      exact hpattern hv
  have hover := over_compile (hsource _ (by decide) hescape) (hsource _ (by decide) hbracket)
    hcompile
  have hlines := isLineTerminator_of_mem_syntaxUnits
  refine test_map (hover.blind (fun u hu v _ => ?_) (fun v _ => ?_))
  · rw [swapUnit]
    split_ifs with hv
    · subst hv
      exact ⟨fun heq => absurd (heq ▸ hc') hu, fun heq => absurd (heq ▸ hc) hu⟩
    · rfl
  · rw [swapUnit]
    split_ifs with hv
    · rw [hv, hlines _ hc, hlines _ hc']
    · rfl

/-- A pattern with an operator in it means a text that the regular expression cannot tell
from another one. -/
theorem operators_of_agrees (hescape : code '\\' ∉ codeUnits pattern)
    (hbracket : code '[' ∉ codeUnits pattern) (hcompile : compile (regexStr pattern) = some regex)
    (hagrees : ∀ key, lineTerminators key ≤ lineTerminators pattern →
      test regex (codeUnits key) = wildcardMatch pattern key) :
    ∀ u ∈ codeUnits pattern, u ∉ operators := by
  intro u hmem hu
  obtain ⟨c, hc, rfl⟩ := List.mem_map.mp hu
  have hlist : ".?+|^$()".toList = ['.', '?', '+', '|', '^', '$', '(', ')'] := rfl
  have hlow : ∀ d ∈ ['.', '?', '+', '|', '^', '$', '(', ')'], d.toNat < 128 ∧ d ≠ '*' := by
    simp
  have hspecial : ∀ d ∈ ['.', '?', '+', '|', '^', '$', '(', ')'], code d ∈ syntaxUnits := by
    rw [syntaxUnits_eq]
    simp [code]
  rw [hlist] at hc
  obtain ⟨c', hc', hne⟩ : ∃ c' ∈ ['.', '?', '+', '|', '^', '$', '(', ')'], c' ≠ c := by
    by_cases hdot : c = '.'
    · exact ⟨'?', by decide, by simp [hdot]⟩
    · exact ⟨'.', by decide, fun heq => hdot heq.symm⟩
  obtain ⟨hlt, hstar⟩ := hlow c hc
  obtain ⟨hlt', -⟩ := hlow c' hc'
  have hline := isLineTerminator_of_mem_syntaxUnits _ (hspecial c hc)
  have hline' := isLineTerminator_of_mem_syntaxUnits _ (hspecial c' hc')
  -- the text of the pattern, and the same with `c'` for `c`
  have htext := codeUnits_plainText pattern
  have hswap := codeUnits_swapChar hlt hlt' (plainText pattern)
  have hless : lineTerminators (plainText pattern) ≤ lineTerminators pattern := by
    rw [lineTerminators, htext]
    exact List.filter_sublist.countP_le
  have hequal : lineTerminators (swapChar c c' (plainText pattern)) =
      lineTerminators (plainText pattern) := by
    rw [lineTerminators, hswap, List.countP_map]
    refine List.countP_congr (fun u _ => ?_)
    by_cases huc : u = code c
    · simp [swapUnit, huc, hline, hline']
    · simp [swapUnit, huc]
  have hmatch : wildcardMatch pattern (plainText pattern) = true := by
    rw [wildcardMatch, htext]
    exact Wildcard.covers_filter _ _ _
  have hmatch' : wildcardMatch pattern (swapChar c c' (plainText pattern)) = true := by
    rw [← hagrees _ (hequal.trans_le hless), hswap,
      test_swapUnit hescape hbracket hcompile (hspecial c hc) (hspecial c' hc'), hagrees _ hless,
      hmatch]
  rw [wildcardMatch, hswap, htext] at hmatch'
  have hsame := Wildcard.eq_filter_of_covers hmatch' (by rw [List.length_map])
  have hleft : code c ∈ ((codeUnits pattern).filter (fun u => u ≠ code '*')).map
      (swapUnit c c') := by
    rw [hsame]
    exact List.mem_filter.mpr ⟨hmem, decide_eq_true (fun heq => hstar (Char.toNat_inj.mp heq))⟩
  obtain ⟨v, -, hv⟩ := List.mem_map.mp hleft
  have hcode : code c' ≠ code c := fun heq => hne (Char.toNat_inj.mp heq)
  rw [swapUnit] at hv
  split_ifs at hv with hvc
  · exact hcode hv
  · exact hvc hv

/-- Which patterns are purged exactly: those that regular expressions read literally, as far
as line ends in the keys allow it.  An operator in a pattern is enough for some cache to
be purged wrongly. -/
theorem purge_exact_iff [Inhabited V] (pattern : String) :
    (ReadLiterally (codeUnits pattern) → ∀ cache : CacheService V,
      (cache.memoryCache.map CacheRecord.key).Nodup →
      (cache.PurgesExactly pattern ↔ ∀ r ∈ cache.memoryCache, wildcardMatch pattern r.key = true →
        lineTerminators r.key ≤ lineTerminators pattern)) ∧
    (code '\\' ∉ codeUnits pattern → code '[' ∉ codeUnits pattern →
      (∀ cache : CacheService V, (cache.memoryCache.map CacheRecord.key).Nodup →
        (∀ r ∈ cache.memoryCache, wildcardMatch pattern r.key = true →
          lineTerminators r.key ≤ lineTerminators pattern) → cache.PurgesExactly pattern) →
      ∀ u ∈ codeUnits pattern, u ∉ operators) := by
  constructor
  · intro h cache hkeys
    exact purgesExactly_iff_of_literal h hkeys
  · intro hescape hbracket hexact
    obtain ⟨regex, hcompile, hagrees⟩ := agrees_of_purgesExactly hexact
    exact operators_of_agrees hescape hbracket hcompile hagrees

/-- A cache in memory with these keys. -/
def ofKeys (keys : List String) : CacheService Unit where
  enabled := true
  ttl := 60
  client := none
  useMemoryFallback := true
  memoryCache := keys.map (fun key => ⟨key, (), 60000⟩)
  redis := []
  queue := []
  stats := ⟨0, 0, 0, 0, 0⟩

theorem purge_exact_iff_api :
    (ofKeys ["sentinel:cache:/api/a?x=1", "sentinel:cache:/b"]).PurgesExactly
        "sentinel:cache:/api*" ∧
      ∀ u ∈ codeUnits "sentinel:cache:/api*", u ∉ operators := by
  have hliteral : ReadLiterally (codeUnits "sentinel:cache:/api*") :=
    ⟨by decide +kernel, by decide +kernel, by decide +kernel, by decide +kernel⟩
  have hexact := (purge_exact_iff (V := Unit) "sentinel:cache:/api*").1 hliteral
  exact ⟨(hexact (ofKeys ["sentinel:cache:/api/a?x=1", "sentinel:cache:/b"])
      (by decide +kernel)).mpr (by decide +kernel),
    (purge_exact_iff (V := Unit) "sentinel:cache:/api*").2 hliteral.escape hliteral.bracket
      (fun cache hkeys hlines => (hexact cache hkeys).mpr hlines)⟩

/-- A query string is an optional character and some text for the regular expression, so
the key that is the pattern itself stays. -/
theorem purge_misses_query :
    wildcardMatch "sentinel:cache:/a?x=1" "sentinel:cache:/a?x=1" = true ∧
      (((ofKeys ["sentinel:cache:/a?x=1"]).invalidateMemory "sentinel:cache:/a?x=1").map
        (fun result => (result.1, result.2.memoryCache.map CacheRecord.key))) =
          some (0, ["sentinel:cache:/a?x=1"]) ∧
      ¬ (ofKeys ["sentinel:cache:/a?x=1"]).PurgesExactly "sentinel:cache:/a?x=1" := by
  have hrun : ((ofKeys ["sentinel:cache:/a?x=1"]).invalidateMemory "sentinel:cache:/a?x=1").map
      (fun result => (result.1, result.2.memoryCache.map CacheRecord.key)) =
        some (0, ["sentinel:cache:/a?x=1"]) := by
    decide +kernel
  refine ⟨by decide +kernel, hrun, fun hexact => ?_⟩
  rw [hexact] at hrun
  revert hrun
  decide +kernel

example : (ofKeys []).invalidateMemory "sentinel:cache:/f(" = none := by decide +kernel

end Exactness

end CacheService

end SentinelADC
