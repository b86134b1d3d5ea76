import SentinelADC.Helpers
import SentinelADC.Lib.Json

/-!
# Web application firewall

`security/wafMiddleware.js`.  The signatures are regular expressions without
alternatives or groups, so a pattern is a list of items here; a text is tested
at each of its positions.  The scanner goes through strings, arrays and objects
and looks at keys as well as values.
-/

namespace SentinelADC

/-- A part of a regular expression. -/
inductive PatternItem where
  /-- One character of a class. -/
  | one (accepts : Char → Bool)
  /-- A class with `*`. -/
  | many (accepts : Char → Bool)
  /-- A class with `?`. -/
  | optional (accepts : Char → Bool)
  /-- `\b`. -/
  | wordBoundary
  /-- `$`. -/
  | atEnd

namespace PatternItem

/-- `\w`. -/
def isWord (c : Char) : Bool :=
  c.isAlphanum || c = '_'

/-- Zero or more characters of a class, then the rest of the pattern. -/
def matchMany (accepts : Char → Bool) (rest : Option Char → List Char → Bool) :
    Option Char → List Char → Bool
  | before, [] => rest before []
  | before, c :: cs =>
      rest before (c :: cs) || (accepts c && matchMany accepts rest (some c) cs)

/-- An item, then the rest of the pattern, behind the character `before`. -/
def matchItem (item : PatternItem) (rest : Option Char → List Char → Bool)
    (before : Option Char) (text : List Char) : Bool :=
  match item, text with
  | .one _, [] => false
  | .one accepts, c :: cs => accepts c && rest (some c) cs
  | .many accepts, text => matchMany accepts rest before text
  | .optional _, [] => rest before []
  | .optional accepts, c :: cs => rest before (c :: cs) || (accepts c && rest (some c) cs)
  | .wordBoundary, text => before.any isWord != text.head?.any isWord && rest before text
  | .atEnd, text => text.isEmpty && rest before text

/-- A pattern that starts at the beginning of the text. -/
def matchHere (items : List PatternItem) : Option Char → List Char → Bool :=
  items.foldr matchItem (fun _ _ => true)

/-- A pattern that starts at one of the positions of the text. -/
def matchSomewhere (items : List PatternItem) : Option Char → List Char → Bool
  | before, [] => matchHere items before []
  | before, c :: cs => matchHere items before (c :: cs) || matchSomewhere items (some c) cs

/-- Literal characters, without regard to letter case; given in lower case. -/
def literal (text : String) : List PatternItem :=
  text.toList.map (fun c => .one (fun d => d.toLower = c))

/-- A literal between word boundaries. -/
def word (text : String) : List PatternItem :=
  [.wordBoundary] ++ literal text ++ [.wordBoundary]

/-- `.*`. -/
def anything : List PatternItem :=
  [.many (fun c => c.toNat ∉ [0xA, 0xD, 0x2028, 0x2029])]

/-- `\s*`. -/
def spaces : List PatternItem :=
  [.many isJsSpace]

/-- `[^>]*`. -/
def insideTag : List PatternItem :=
  [.many (fun c => c ≠ '>')]

/-- `['"]?`. -/
def quotationMark : List PatternItem :=
  [.optional (fun c => c.toNat = 0x27 ∨ c.toNat = 0x22)]

end PatternItem

open PatternItem

/-- A signature: its source and `regex.test`. -/
structure Signature where
  source : String
  test : List Char → Bool

/-- A regular expression as a signature. -/
def Signature.ofPattern (source : String) (items : List PatternItem) : Signature where
  source := source
  test := matchSomewhere items none

/-- `SQLI_PATTERNS`. -/
def sqliPatterns : List Signature :=
  [.ofPattern "\\bunion\\b.*\\bselect\\b" (word "union" ++ anything ++ word "select"),
    .ofPattern "\\bselect\\b.*\\bfrom\\b" (word "select" ++ anything ++ word "from"),
    .ofPattern "\\binsert\\b.*\\binto\\b" (word "insert" ++ anything ++ word "into"),
    .ofPattern "\\bupdate\\b.*\\bset\\b" (word "update" ++ anything ++ word "set"),
    .ofPattern "\\bdelete\\b.*\\bfrom\\b" (word "delete" ++ anything ++ word "from"),
    .ofPattern "\\bdrop\\b.*\\btable\\b" (word "drop" ++ anything ++ word "table"),
    .ofPattern "exec\\s*\\(" (literal "exec" ++ spaces ++ literal "("),
    .ofPattern "cast\\s*\\(.*as"
      (literal "cast" ++ spaces ++ literal "(" ++ anything ++ literal "as"),
    .ofPattern "convert\\s*\\(" (literal "convert" ++ spaces ++ literal "("),
    .ofPattern "char\\s*\\(" (literal "char" ++ spaces ++ literal "("),
    .ofPattern "--\\s*$" (literal "--" ++ spaces ++ [.atEnd])]

/-- `XSS_PATTERNS`. -/
def xssPatterns : List Signature :=
  [.ofPattern "<script[^>]*>" (literal "<script" ++ insideTag ++ literal ">"),
    .ofPattern "<\\/script>" (literal "</script>"),
    .ofPattern "javascript:" (literal "javascript:"),
    .ofPattern "onerror\\s*=" (literal "onerror" ++ spaces ++ literal "="),
    .ofPattern "onload\\s*=" (literal "onload" ++ spaces ++ literal "="),
    .ofPattern "onclick\\s*=" (literal "onclick" ++ spaces ++ literal "="),
    .ofPattern "src\\s*=\\s*['\"]?javascript:"
      (literal "src" ++ spaces ++ literal "=" ++ spaces ++ quotationMark ++ literal "javascript:"),
    .ofPattern "eval\\s*\\(" (literal "eval" ++ spaces ++ literal "("),
    .ofPattern "expression\\s*\\(" (literal "expression" ++ spaces ++ literal "("),
    .ofPattern "<\\s*img\\s+[^>]*onerror"
      (literal "<" ++ spaces ++ literal "img" ++ [.one isJsSpace] ++ spaces ++ insideTag ++
        literal "onerror"),
    .ofPattern "<\\s*svg\\s+[^>]*onload"
      (literal "<" ++ spaces ++ literal "svg" ++ [.one isJsSpace] ++ spaces ++ insideTag ++
        literal "onload")]

/-- The kind of an attack. -/
inductive AttackType where
  | sqli
  | xss
deriving DecidableEq, Repr

/-- `attackType.toUpperCase()`. -/
def AttackType.upper : AttackType → String
  | .sqli => "SQLI"
  | .xss => "XSS"

/-- A match of `scanPayload`. -/
structure WafMatch where
  attackType : AttackType
  matchedPattern : String
  inputSnippet : List Char
deriving DecidableEq, Repr

/-- The lists of signatures that the scanner goes through. -/
structure Signatures where
  sqli : List Signature
  xss : List Signature

/-- The signatures of the module. -/
def wafSignatures : Signatures where
  sqli := sqliPatterns
  xss := xssPatterns

namespace Signatures

variable {N : Type}

/-- `scanPayload` of a string. -/
def scanString (sigs : Signatures) (val : List Char) : Option WafMatch :=
  match sigs.sqli.find? (fun regex => regex.test val) with
  | some regex => some ⟨.sqli, regex.source, val⟩
  | none =>
      (sigs.xss.find? (fun regex => regex.test val)).map (fun regex => ⟨.xss, regex.source, val⟩)

mutual

/-- `scanPayload`. -/
def scanPayload (sigs : Signatures) : Json N → Option WafMatch
  | .str val => sigs.scanString val
  | .arr items => scanItems sigs items
  | .obj entries => scanEntries sigs entries
  | _ => none

/-- The loop over an array. -/
def scanItems (sigs : Signatures) : List (Json N) → Option WafMatch
  | [] => none
  | item :: items =>
      match scanPayload sigs item with
      | some found => some found
      | none => scanItems sigs items

/-- The loop over the entries of an object. -/
def scanEntries (sigs : Signatures) : List (List Char × Json N) → Option WafMatch
  | [] => none
  | entry :: entries =>
      match scanEntry sigs entry with
      | some found => some found
      | none => scanEntries sigs entries

/-- A key, then its value. -/
def scanEntry (sigs : Signatures) : List Char × Json N → Option WafMatch
  | (key, value) =>
      match sigs.scanString key with
      | some found => some found
      | none => scanPayload sigs value

end

mutual

/-- All keys and strings of a payload. -/
def texts : Json N → List (List Char)
  | .str val => [val]
  | .arr items => textsOfItems items
  | .obj entries => textsOfEntries entries
  | _ => []

/-- Those of the items of an array. -/
def textsOfItems : List (Json N) → List (List Char)
  | [] => []
  | item :: items => texts item ++ textsOfItems items

/-- Those of the entries of an object. -/
def textsOfEntries : List (List Char × Json N) → List (List Char)
  | [] => []
  | entry :: entries => textsOfEntry entry ++ textsOfEntries entries

/-- A key and what its value holds. -/
def textsOfEntry : List Char × Json N → List (List Char)
  | (key, value) => key :: texts value

end

/-- Some signature matches the text. -/
def Matches (sigs : Signatures) (text : List Char) : Prop :=
  ∃ regex ∈ sigs.sqli ++ sigs.xss, regex.test text = true

/-- Some key or string of the payload matches some signature. -/
def MatchesIn (sigs : Signatures) (val : Json N) : Prop :=
  ∃ text ∈ texts val, sigs.Matches text

instance (sigs : Signatures) (text : List Char) : Decidable (sigs.Matches text) :=
  inferInstanceAs (Decidable (∃ regex ∈ sigs.sqli ++ sigs.xss, regex.test text = true))

instance (sigs : Signatures) (val : Json N) : Decidable (sigs.MatchesIn val) :=
  inferInstanceAs (Decidable (∃ text ∈ texts val, sigs.Matches text))

variable {sigs : Signatures}

theorem scanString_isSome_iff (sigs : Signatures) (val : List Char) :
    (sigs.scanString val).isSome ↔ sigs.Matches val := by
  simp only [scanString, Matches, List.mem_append]
  cases hsqli : sigs.sqli.find? (fun regex => regex.test val) with
  | some regex =>
      have hmem := List.mem_of_find?_eq_some hsqli
      have htest : regex.test val = true := by simpa using List.find?_some hsqli
      simpa using ⟨regex, Or.inl hmem, htest⟩
  | none =>
      have hnone := List.find?_eq_none.mp hsqli
      simp only [Option.isSome_map, List.find?_isSome]
      constructor
      · rintro ⟨regex, hmem, htest⟩
        exact ⟨regex, Or.inr hmem, htest⟩
      · rintro ⟨regex, hmem | hmem, htest⟩
        · exact absurd htest (hnone regex hmem)
        · exact ⟨regex, hmem, htest⟩

mutual

/-- The scanner finds something exactly when a key or a string matches. -/
theorem scanPayload_isSome_iff : ∀ val : Json N,
    (scanPayload sigs val).isSome ↔ ∃ text ∈ texts val, sigs.Matches text
  | .str val => by simp [scanPayload, texts, scanString_isSome_iff]
  | .arr items => by
      rw [scanPayload, texts]
      exact scanItems_isSome_iff items
  | .obj entries => by
      rw [scanPayload, texts]
      exact scanEntries_isSome_iff entries
  | .null => by simp [scanPayload, texts]
  | .bool _ => by simp [scanPayload, texts]
  | .num _ => by simp [scanPayload, texts]

theorem scanItems_isSome_iff : ∀ items : List (Json N),
    (scanItems sigs items).isSome ↔ ∃ text ∈ textsOfItems items, sigs.Matches text
  | [] => by simp [scanItems, textsOfItems]
  | item :: items => by
      have hitem := scanPayload_isSome_iff item
      have hrest := scanItems_isSome_iff items
      simp only [scanItems, textsOfItems, List.mem_append, or_and_right, exists_or, ← hitem,
        ← hrest]
      cases scanPayload sigs item <;> simp

theorem scanEntries_isSome_iff : ∀ entries : List (List Char × Json N),
    (scanEntries sigs entries).isSome ↔ ∃ text ∈ textsOfEntries entries, sigs.Matches text
  | [] => by simp [scanEntries, textsOfEntries]
  | entry :: entries => by
      have hentry := scanEntry_isSome_iff entry
      have hrest := scanEntries_isSome_iff entries
      simp only [scanEntries, textsOfEntries, List.mem_append, or_and_right, exists_or, ← hentry,
        ← hrest]
      cases scanEntry sigs entry <;> simp

theorem scanEntry_isSome_iff : ∀ entry : List Char × Json N,
    (scanEntry sigs entry).isSome ↔ ∃ text ∈ textsOfEntry entry, sigs.Matches text
  | (key, value) => by
      have hkey := scanString_isSome_iff sigs key
      have hvalue := scanPayload_isSome_iff value
      simp only [scanEntry, textsOfEntry, List.mem_cons, exists_eq_or_imp, ← hkey, ← hvalue]
      cases sigs.scanString key <;> simp

end

/-- The signatures of a kind of attack. -/
def ofAttack (sigs : Signatures) : AttackType → List Signature
  | .sqli => sigs.sqli
  | .xss => sigs.xss

/-- A match names a signature of its attack type and one of the texts, and the signature
matches the text. -/
def Names (sigs : Signatures) (texts : List (List Char)) (found : WafMatch) : Prop :=
  found.inputSnippet ∈ texts ∧ ∃ regex ∈ sigs.ofAttack found.attackType,
    regex.source = found.matchedPattern ∧ regex.test found.inputSnippet = true

theorem Names.mono {texts more : List (List Char)} {found : WafMatch} (h : sigs.Names texts found)
    (hsub : texts ⊆ more) :
    sigs.Names more found :=
  ⟨hsub h.1, h.2⟩

theorem names_scanString {val : List Char} {found : WafMatch}
    (h : sigs.scanString val = some found) :
    sigs.Names [val] found := by
  rw [scanString] at h
  cases hsqli : sigs.sqli.find? (fun regex => regex.test val) with
  | some regex =>
      rw [hsqli] at h
      obtain rfl := Option.some.inj h
      have htest : regex.test val = true := by simpa using List.find?_some hsqli
      exact ⟨List.mem_singleton.mpr rfl, regex, List.mem_of_find?_eq_some hsqli, rfl, htest⟩
  | none =>
      rw [hsqli] at h
      obtain ⟨regex, hxss, rfl⟩ := Option.map_eq_some_iff.mp h
      have htest : regex.test val = true := by simpa using List.find?_some hxss
      exact ⟨List.mem_singleton.mpr rfl, regex, List.mem_of_find?_eq_some hxss, rfl, htest⟩

mutual

/-- The scanner returns a match of the payload. -/
theorem names_scanPayload {found : WafMatch} : ∀ val : Json N,
    scanPayload sigs val = some found → sigs.Names (texts val) found
  | .str val => fun h => by
      rw [scanPayload] at h
      rw [texts]
      exact names_scanString h
  | .arr items => fun h => by
      rw [scanPayload] at h
      rw [texts]
      exact names_scanItems items h
  | .obj entries => fun h => by
      rw [scanPayload] at h
      rw [texts]
      exact names_scanEntries entries h
  | .null => fun h => by simp [scanPayload] at h
  | .bool _ => fun h => by simp [scanPayload] at h
  | .num _ => fun h => by simp [scanPayload] at h

theorem names_scanItems {found : WafMatch} : ∀ items : List (Json N),
    scanItems sigs items = some found → sigs.Names (textsOfItems items) found
  | [] => fun h => by simp [scanItems] at h
  | item :: items => fun h => by
      rw [scanItems] at h
      rw [textsOfItems]
      cases hitem : scanPayload sigs item with
      | some first =>
          rw [hitem] at h
          obtain rfl := Option.some.inj h
          exact (names_scanPayload item hitem).mono (List.subset_append_left _ _)
      | none =>
          rw [hitem] at h
          exact (names_scanItems items h).mono (List.subset_append_right _ _)

theorem names_scanEntries {found : WafMatch} : ∀ entries : List (List Char × Json N),
    scanEntries sigs entries = some found → sigs.Names (textsOfEntries entries) found
  | [] => fun h => by simp [scanEntries] at h
  | entry :: entries => fun h => by
      rw [scanEntries] at h
      rw [textsOfEntries]
      cases hentry : scanEntry sigs entry with
      | some first =>
          rw [hentry] at h
          obtain rfl := Option.some.inj h
          exact (names_scanEntry entry hentry).mono (List.subset_append_left _ _)
      | none =>
          rw [hentry] at h
          exact (names_scanEntries entries h).mono (List.subset_append_right _ _)

theorem names_scanEntry {found : WafMatch} : ∀ entry : List Char × Json N,
    scanEntry sigs entry = some found → sigs.Names (textsOfEntry entry) found
  | (key, value) => fun h => by
      rw [scanEntry] at h
      rw [textsOfEntry]
      cases hkey : sigs.scanString key with
      | some first =>
          rw [hkey] at h
          obtain rfl := Option.some.inj h
          exact (names_scanString hkey).mono (by simp)
      | none =>
          rw [hkey] at h
          exact (names_scanPayload value h).mono (List.subset_cons_self _ _)

end

/-- The scanner finds something exactly when a key or a string of the payload matches a
signature, and what it returns is such a match. -/
theorem scanPayload_exact (sigs : Signatures) (val : Json N) :
    ((scanPayload sigs val).isSome ↔ sigs.MatchesIn val) ∧
      ∀ found, scanPayload sigs val = some found → sigs.Names (texts val) found :=
  ⟨scanPayload_isSome_iff val, fun _ => names_scanPayload val⟩

end Signatures

end SentinelADC
