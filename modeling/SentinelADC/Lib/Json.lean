import Mathlib.Data.List.Basic

/-!
# JSON texts

Values with numbers of any type, the text that `JSON.stringify` writes for a
value, and a reader of JSON texts in the manner of `JSON.parse`.  Texts are
lists of Unicode scalar values; the escape of half a surrogate pair is not
read.  How numbers are written and read is given by a `NumberText`, which
carries the law that the reader needs.

The reader is given fuel.  The length of the text is enough, and reading what
was written gives the value back.
-/

namespace SentinelADC

universe u

/-- A JSON value.  Of two members with the same name the later one counts. -/
inductive Json (N : Type u) where
  | null
  | bool (b : Bool)
  | num (n : N)
  | str (s : List Char)
  | arr (items : List (Json N))
  | obj (members : List (List Char × Json N))

namespace Json

/-- What may follow a number inside a value. -/
def Delimited (rest : List Char) : Prop :=
  rest = [] ∨ ∃ c ∈ [',', ']', '}'], ∃ cs, rest = c :: cs

/-- The first character of a number. -/
def startsNumber (c : Char) : Bool :=
  c.isDigit || c = '-'

/-- Texts of numbers. -/
structure NumberText (N : Type u) where
  write : N → List Char
  read : List Char → Option (N × List Char)
  write_head : ∀ n, ∃ c cs, write n = c :: cs ∧ startsNumber c = true
  read_write : ∀ n rest, Delimited rest → read (write n ++ rest) = some (n, rest)

section Strings

/-- A hexadecimal digit, as `JSON.stringify` writes it. -/
def hexDigit (d : Nat) : Char :=
  if d < 10 then Char.ofNat (48 + d) else Char.ofNat (87 + d)

/-- The value of a hexadecimal digit. -/
def hexValue (c : Char) : Option Nat :=
  if '0' ≤ c ∧ c ≤ '9' then some (c.toNat - 48)
  else if 'a' ≤ c ∧ c ≤ 'f' then some (c.toNat - 87)
  else if 'A' ≤ c ∧ c ≤ 'F' then some (c.toNat - 55)
  else none

/-- A character inside a string literal. -/
def quoteChar (c : Char) : List Char :=
  if c = '"' then ['\\', '"']
  else if c = '\\' then ['\\', '\\']
  else if c.toNat = 0x08 then ['\\', 'b']
  else if c.toNat = 0x0C then ['\\', 'f']
  else if c = '\n' then ['\\', 'n']
  else if c = '\r' then ['\\', 'r']
  else if c = '\t' then ['\\', 't']
  else if c.toNat < 0x20 then
    ['\\', 'u', '0', '0', hexDigit (c.toNat / 16), hexDigit (c.toNat % 16)]
  else [c]

/-- A string literal. -/
def quote (s : List Char) : List Char :=
  '"' :: (s.flatMap quoteChar ++ ['"'])

/-- The character of an escape with one letter. -/
def unescape (c : Char) : Option Char :=
  if c = '"' ∨ c = '\\' ∨ c = '/' then some c
  else if c = 'b' then some (Char.ofNat 0x08)
  else if c = 'f' then some (Char.ofNat 0x0C)
  else if c = 'n' then some '\n'
  else if c = 'r' then some '\r'
  else if c = 't' then some '\t'
  else none

/-- The character of four hexadecimal digits. -/
def hexChar (a b c d : Char) : Option Char :=
  match hexValue a, hexValue b, hexValue c, hexValue d with
  | some a, some b, some c, some d =>
      let n := ((a * 16 + b) * 16 + c) * 16 + d
      if 0xD800 ≤ n ∧ n ≤ 0xDFFF then none else some (Char.ofNat n)
  | _, _, _, _ => none

/-- A character in front of what a reader has read. -/
def consChar (c : Char) (r : List Char × List Char) : List Char × List Char :=
  (c :: r.1, r.2)

/-- The rest of a string literal, and what follows it. -/
def readString : List Char → Option (List Char × List Char)
  | [] => none
  | '"' :: rest => some ([], rest)
  | '\\' :: 'u' :: a :: b :: c :: d :: rest =>
      (hexChar a b c d).bind (fun ch => (readString rest).map (consChar ch))
  | '\\' :: c :: rest =>
      (unescape c).bind (fun ch => (readString rest).map (consChar ch))
  | c :: rest => if c.toNat < 0x20 then none else (readString rest).map (consChar c)

theorem hexValue_hexDigit : ∀ d < 16, hexValue (hexDigit d) = some d := by
  decide

theorem ofNat_of_toNat {c : Char} {n : Nat} (h : c.toNat = n) :
    Char.ofNat n = c := by
  rw [← h]
  exact Char.ofNat_toNat c

/-- The escape of a control character. -/
theorem hexChar_control {c : Char} (h : c.toNat < 0x20) :
    hexChar '0' '0' (hexDigit (c.toNat / 16)) (hexDigit (c.toNat % 16)) = some c := by
  have hzero : hexValue '0' = some 0 := by decide
  have hcode : ((0 * 16 + 0) * 16 + c.toNat / 16) * 16 + c.toNat % 16 = c.toNat := by omega
  simp only [hexChar, hzero, hexValue_hexDigit _ (show c.toNat / 16 < 16 by omega),
    hexValue_hexDigit _ (show c.toNat % 16 < 16 by omega), hcode]
  rw [if_neg (by omega), ofNat_of_toNat rfl]

/-- A character that was quoted is read back. -/
theorem readString_quoteChar (c : Char) (rest : List Char) :
    readString (quoteChar c ++ rest) = (readString rest).map (consChar c) := by
  simp only [quoteChar]
  split_ifs with h1 h2 h3 h4 h5 h6 h7 h8
  · rw [h1]
    rfl
  · rw [h2]
    rfl
  · rw [← ofNat_of_toNat h3]
    rfl
  · rw [← ofNat_of_toNat h4]
    rfl
  · rw [h5]
    rfl
  · rw [h6]
    rfl
  · rw [h7]
    rfl
  · rw [List.cons_append, List.cons_append, List.cons_append, List.cons_append, List.cons_append,
      List.cons_append, List.nil_append, readString, hexChar_control h8]
    rfl
  · rw [List.cons_append, List.nil_append, readString, if_neg h8]
    · exact h1
    · intro _ _ _ _ _ heq
      exact absurd heq h2
    · intro _ _ heq
      exact absurd heq h2

/-- A string literal is read back. -/
theorem readString_quote (s rest : List Char) :
    readString (s.flatMap quoteChar ++ '"' :: rest) = some (s, rest) := by
  induction s with
  | nil => simp [readString]
  | cons c s ih =>
      rw [List.flatMap_cons, List.append_assoc, readString_quoteChar, ih]
      rfl

end Strings

section Values

variable {N : Type u}

mutual

/-- `JSON.stringify`. -/
def write (t : NumberText N) : Json N → List Char
  | .null => ['n', 'u', 'l', 'l']
  | .bool true => ['t', 'r', 'u', 'e']
  | .bool false => ['f', 'a', 'l', 's', 'e']
  | .num n => t.write n
  | .str s => quote s
  | .arr items => '[' :: writeItems t items
  | .obj members => '{' :: writeMembers t members

/-- The items of an array with the closing bracket. -/
def writeItems (t : NumberText N) : List (Json N) → List Char
  | [] => [']']
  | [item] => write t item ++ [']']
  | item :: next :: items => write t item ++ ',' :: writeItems t (next :: items)

/-- The members of an object with the closing brace. -/
def writeMembers (t : NumberText N) : List (List Char × Json N) → List Char
  | [] => ['}']
  | [member] => writeMember t member ++ ['}']
  | member :: next :: members => writeMember t member ++ ',' :: writeMembers t (next :: members)

/-- A member of an object. -/
def writeMember (t : NumberText N) : List Char × Json N → List Char
  | (key, value) => quote key ++ ':' :: write t value

end

/-- Text after white space. -/
def skipSpace (text : List Char) : List Char :=
  text.dropWhile (fun c => c = ' ' ∨ c = '\t' ∨ c = '\n' ∨ c = '\r')

/-- One item or more, up to the closing character. -/
def readItems {A : Type u} (item : List Char → Option (A × List Char)) (close : Char) :
    Nat → List Char → Option (List A × List Char)
  | 0, _ => none
  | fuel + 1, text =>
      (item text).bind (fun (x, rest) =>
        match skipSpace rest with
        | [] => none
        | c :: rest =>
            if c = ',' then (readItems item close fuel rest).map (fun r => (x :: r.1, r.2))
            else if c = close then some ([x], rest)
            else none)

/-- The items of an array or the members of an object. -/
def readSeq {A : Type u} (item : List Char → Option (A × List Char)) (close : Char) (fuel : Nat)
    (text : List Char) : Option (List A × List Char) :=
  match skipSpace text with
  | [] => none
  | c :: rest => if c = close then some ([], rest) else readItems item close fuel (c :: rest)

/-- A member of an object. -/
def readMember {A : Type u} (value : List Char → Option (A × List Char)) (text : List Char) :
    Option ((List Char × A) × List Char) :=
  match skipSpace text with
  | '"' :: rest =>
      (readString rest).bind (fun (key, rest) =>
        match skipSpace rest with
        | ':' :: rest => (value rest).map (fun r => ((key, r.1), r.2))
        | _ => none)
  | _ => none

/-- A value that is not a number at the start of a text, with a reader for the
values inside. -/
def readComposite (value : List Char → Option (Json N × List Char)) (fuel : Nat) :
    List Char → Option (Json N × List Char)
  | 'n' :: 'u' :: 'l' :: 'l' :: rest => some (.null, rest)
  | 't' :: 'r' :: 'u' :: 'e' :: rest => some (.bool true, rest)
  | 'f' :: 'a' :: 'l' :: 's' :: 'e' :: rest => some (.bool false, rest)
  | '"' :: rest => (readString rest).map (fun r => (.str r.1, r.2))
  | '[' :: rest => (readSeq value ']' fuel rest).map (fun r => (.arr r.1, r.2))
  | '{' :: rest => (readSeq (readMember value) '}' fuel rest).map (fun r => (.obj r.1, r.2))
  | _ => none

/-- A value at the start of a text, and what follows it. -/
def readValue (t : NumberText N) : Nat → List Char → Option (Json N × List Char)
  | 0, _ => none
  | fuel + 1, text =>
      match skipSpace text with
      | [] => none
      | c :: rest =>
          if startsNumber c then (t.read (c :: rest)).map (fun r => (.num r.1, r.2))
          else readComposite (readValue t fuel) fuel (c :: rest)

/-- `JSON.parse`. -/
def parse (t : NumberText N) (text : List Char) : Option (Json N) :=
  (readValue t (text.length + 1) text).bind (fun r =>
    if skipSpace r.2 = [] then some r.1 else none)

end Values

section Sequences

variable {A : Type u} {w : A → List Char} {item : List Char → Option (A × List Char)}
  {close : Char}

/-- Texts with commas between them and a closing character. -/
def join (w : A → List Char) (close : Char) : List A → List Char
  | [] => [close]
  | [x] => w x ++ [close]
  | x :: y :: xs => w x ++ ',' :: join w close (y :: xs)

theorem skipSpace_cons {c : Char} (h : c ∉ [' ', '\t', '\n', '\r']) (cs : List Char) :
    skipSpace (c :: cs) = c :: cs := by
  simp only [List.mem_cons, List.not_mem_nil, or_false, not_or] at h
  simp [skipSpace, h]

theorem length_le_join (w : A → List Char) (close : Char) {x : A} {xs : List A} (hx : x ∈ xs) :
    (w x).length ≤ (join w close xs).length := by
  induction xs with
  | nil => simp at hx
  | cons y xs ih =>
      cases xs with
      | nil =>
          obtain rfl := List.mem_singleton.mp hx
          simp [join]
      | cons z xs =>
          rcases List.mem_cons.mp hx with rfl | hx
          · simp [join]
          · have := ih hx
            simp only [join, List.length_append, List.length_cons] at this ⊢
            omega

/-- Items that are read back one by one are read back together. -/
theorem readItems_join {xs : List A} {fuel : Nat} (rest : List Char)
    (hclose : close = ']' ∨ close = '}')
    (hitem : ∀ x ∈ xs, ∀ rest, Delimited rest → item (w x ++ rest) = some (x, rest))
    (hne : xs ≠ []) (hfuel : (join w close xs).length ≤ fuel) :
    readItems item close fuel (join w close xs ++ rest) = some (xs, rest) := by
  have hskip : ∀ rest, skipSpace (close :: rest) = close :: rest := by
    intro rest
    exact skipSpace_cons (by rcases hclose with rfl | rfl <;> decide) rest
  have hcomma : close ≠ ',' := by rcases hclose with rfl | rfl <;> decide
  have hdelimited : ∀ rest, Delimited (close :: rest) := by
    intro rest
    exact Or.inr ⟨close, by rcases hclose with rfl | rfl <;> decide, rest, rfl⟩
  induction xs generalizing fuel with
  | nil => exact absurd rfl hne
  | cons x xs ih =>
      cases xs with
      | nil =>
          cases fuel with
          | zero => simp [join] at hfuel
          | succ fuel =>
              rw [join, List.append_assoc, readItems]
              rw [hitem x List.mem_cons_self ([close] ++ rest) (hdelimited rest)]
              simp [hskip, hcomma]
      | cons y xs =>
          rw [join, List.length_append, List.length_cons] at hfuel
          cases fuel with
          | zero => omega
          | succ fuel =>
              have hnext := ih (fun z hz => hitem z (List.mem_cons_of_mem _ hz)) (by simp)
                (show (join w close (y :: xs)).length ≤ fuel by omega)
              have hspace := skipSpace_cons (c := ',') (by decide) (join w close (y :: xs) ++ rest)
              rw [join, List.append_assoc, List.cons_append, readItems,
                hitem x List.mem_cons_self _
                  (Or.inr ⟨',', by decide, join w close (y :: xs) ++ rest, rfl⟩)]
              simp [hspace, hnext]

/-- So are the sequences that may be empty. -/
theorem readSeq_join {xs : List A} {fuel : Nat} (rest : List Char)
    (hclose : close = ']' ∨ close = '}')
    (hitem : ∀ x ∈ xs, ∀ rest, Delimited rest → item (w x ++ rest) = some (x, rest))
    (hhead : ∀ x ∈ xs, ∃ c cs, w x = c :: cs ∧ c ∉ [' ', '\t', '\n', '\r', close])
    (hfuel : (join w close xs).length ≤ fuel) :
    readSeq item close fuel (join w close xs ++ rest) = some (xs, rest) := by
  cases xs with
  | nil =>
      have hspace : skipSpace (close :: rest) = close :: rest :=
        skipSpace_cons (by rcases hclose with rfl | rfl <;> decide) rest
      simp [readSeq, join, hspace]
  | cons x xs =>
      have hread := readItems_join rest hclose hitem (by simp) hfuel
      obtain ⟨c, cs, hw, hc⟩ := hhead x List.mem_cons_self
      obtain ⟨cs', hjoin⟩ : ∃ cs', join w close (x :: xs) ++ rest = c :: cs' := by
        cases xs with
        | nil => exact ⟨cs ++ [close] ++ rest, by simp [join, hw]⟩
        | cons y xs => exact ⟨cs ++ ',' :: join w close (y :: xs) ++ rest, by simp [join, hw]⟩
      rw [hjoin] at hread ⊢
      have hspace := skipSpace_cons (c := c) (fun hmem => hc (by simp_all)) cs'
      have hne : c ≠ close := fun heq => hc (by simp [heq])
      rw [readSeq, hspace]
      simp only [if_neg hne]
      exact hread

end Sequences

section RoundTrip

variable {N : Type u} {t : NumberText N}

theorem writeItems_eq_join (items : List (Json N)) :
    writeItems t items = join (write t) ']' items := by
  induction items with
  | nil => rfl
  | cons item items ih =>
      cases items with
      | nil => rfl
      | cons next items => rw [writeItems, ih, join]

theorem writeMembers_eq_join (members : List (List Char × Json N)) :
    writeMembers t members = join (writeMember t) '}' members := by
  induction members with
  | nil => rfl
  | cons member members ih =>
      cases members with
      | nil => rfl
      | cons next members => rw [writeMembers, ih, join]

theorem not_startsNumber {c : Char} (h : c ∈ [' ', '\t', '\n', '\r', ']']) :
    startsNumber c = false := by
  simp only [List.mem_cons, List.not_mem_nil, or_false] at h
  rcases h with rfl | rfl | rfl | rfl | rfl <;> rfl

/-- A value starts with a character that is no white space and ends no array. -/
theorem write_head (v : Json N) :
    ∃ c cs, write t v = c :: cs ∧ c ∉ [' ', '\t', '\n', '\r', ']'] := by
  cases v with
  | null => exact ⟨_, _, rfl, by decide⟩
  | bool b => cases b <;> exact ⟨_, _, rfl, by decide⟩
  | num n =>
      obtain ⟨c, cs, hwrite, hstart⟩ := t.write_head n
      refine ⟨c, cs, hwrite, fun hmem => ?_⟩
      rw [not_startsNumber hmem] at hstart
      exact Bool.false_ne_true hstart
  | str s => exact ⟨_, _, rfl, by decide⟩
  | arr items => exact ⟨_, _, rfl, by decide⟩
  | obj members => exact ⟨_, _, rfl, by decide⟩

/-- A number is read back. -/
theorem readValue_num (n : N) (fuel : Nat) {rest : List Char} (hrest : Delimited rest) :
    readValue t (fuel + 1) (write t (.num n) ++ rest) = some (.num n, rest) := by
  obtain ⟨c, cs, hwrite, hstart⟩ := t.write_head n
  have hread := t.read_write n rest hrest
  have hspace : skipSpace (c :: (cs ++ rest)) = c :: (cs ++ rest) := by
    refine skipSpace_cons (fun hmem => ?_) _
    rw [not_startsNumber (List.mem_append_left [']'] hmem)] at hstart
    exact Bool.false_ne_true hstart
  rw [write, readValue]
  rw [hwrite, List.cons_append] at hread ⊢
  simp only [hspace, hstart, if_true, hread]
  rfl

/-- Any other value is read by its first character. -/
theorem readValue_composite {c : Char} (fuel : Nat) (rest : List Char)
    (hspace : c ∉ [' ', '\t', '\n', '\r']) (hnumber : startsNumber c = false) :
    readValue t (fuel + 1) (c :: rest) = readComposite (readValue t fuel) fuel (c :: rest) := by
  rw [readValue]
  simp only [skipSpace_cons hspace, hnumber]
  rfl

theorem writeMember_head (member : List Char × Json N) :
    ∃ c cs, writeMember t member = c :: cs ∧ c ∉ [' ', '\t', '\n', '\r', '}'] := by
  obtain ⟨key, v⟩ := member
  exact ⟨'"', _, rfl, by decide⟩

theorem length_write_le (member : List Char × Json N) :
    (write t member.2).length ≤ (writeMember t member).length := by
  obtain ⟨key, v⟩ := member
  simp only [writeMember, List.length_append, List.length_cons]
  omega

/-- A member is read back when its value is. -/
theorem readMember_writeMember {member : List Char × Json N}
    {value : List Char → Option (Json N × List Char)} {rest : List Char}
    (hvalue : value (write t member.2 ++ rest) = some (member.2, rest)) :
    readMember value (writeMember t member ++ rest) = some (member, rest) := by
  obtain ⟨key, v⟩ := member
  have hquote : skipSpace ('"' :: (key.flatMap quoteChar ++ '"' :: ':' :: (write t v ++ rest))) =
      '"' :: (key.flatMap quoteChar ++ '"' :: ':' :: (write t v ++ rest)) :=
    skipSpace_cons (by decide) _
  have hcolon : skipSpace (':' :: (write t v ++ rest)) = ':' :: (write t v ++ rest) :=
    skipSpace_cons (by decide) _
  simp only [writeMember, quote, List.cons_append, List.append_assoc, List.nil_append, readMember,
    hquote, readString_quote, Option.bind_some, hcolon, hvalue]
  rfl

/-- What was written is read back. -/
theorem readValue_write : ∀ (v : Json N) (fuel : Nat) (rest : List Char),
    (write t v).length ≤ fuel → Delimited rest →
      readValue t fuel (write t v ++ rest) = some (v, rest)
  | v, 0, rest, hfuel, _ => by
      obtain ⟨c, cs, hwrite, -⟩ := write_head (t := t) v
      simp [hwrite] at hfuel
  | .null, fuel + 1, rest, _, _ => readValue_composite fuel _ (by decide) (by decide)
  | .bool true, fuel + 1, rest, _, _ => readValue_composite fuel _ (by decide) (by decide)
  | .bool false, fuel + 1, rest, _, _ => readValue_composite fuel _ (by decide) (by decide)
  | .num n, fuel + 1, rest, _, hrest => readValue_num n fuel hrest
  | .str s, fuel + 1, rest, _, _ => by
      rw [write, quote, List.cons_append, readValue_composite fuel _ (by decide) (by decide),
        readComposite, List.append_assoc]
      simp [readString_quote]
  | .arr items, fuel + 1, rest, hfuel, hrest => by
      rw [write, writeItems_eq_join, List.length_cons] at hfuel
      have hitems : ∀ item ∈ items, ∀ rest, Delimited rest →
          readValue t fuel (write t item ++ rest) = some (item, rest) := by
        intro item hmem rest' hrest'
        refine readValue_write item fuel rest' ?_ hrest'
        have := length_le_join (write t) ']' hmem
        omega
      have hseq := readSeq_join rest (Or.inl rfl) hitems
        (fun item _ => write_head item) (show _ ≤ fuel by omega)
      rw [write, writeItems_eq_join, List.cons_append,
        readValue_composite fuel _ (by decide) (by decide), readComposite, hseq]
      rfl
  | .obj members, fuel + 1, rest, hfuel, hrest => by
      rw [write, writeMembers_eq_join, List.length_cons] at hfuel
      have hmembers : ∀ member ∈ members, ∀ rest, Delimited rest →
          readMember (readValue t fuel) (writeMember t member ++ rest) = some (member, rest) := by
        intro member hmem rest' hrest'
        refine readMember_writeMember (readValue_write member.2 fuel rest' ?_ hrest')
        have := length_le_join (writeMember t) '}' hmem
        have hvalue := length_write_le (t := t) member
        omega
      have hseq := readSeq_join rest (Or.inr rfl) hmembers
        (fun member _ => writeMember_head member) (show _ ≤ fuel by omega)
      rw [write, writeMembers_eq_join, List.cons_append,
        readValue_composite fuel _ (by decide) (by decide), readComposite, hseq]
      rfl

/-- `JSON.parse` undoes `JSON.stringify`. -/
theorem parse_write (v : Json N) :
    parse t (write t v) = some v := by
  have hread := readValue_write (t := t) v ((write t v).length + 1) [] (by omega) (Or.inl rfl)
  rw [List.append_nil] at hread
  rw [parse, hread]
  rfl

end RoundTrip

section Naturals

/-- Natural numbers in decimal notation. -/
def readNat (text : List Char) : Option (Nat × List Char) :=
  let digits := text.takeWhile Char.isDigit
  if digits = [] then none
  else some (Nat.ofDigitChars 10 digits 0, text.dropWhile Char.isDigit)

theorem isDigit_of_mem_toDigits {n : Nat} {c : Char} (h : c ∈ Nat.toDigits 10 n) :
    c.isDigit = true :=
  Nat.isDigit_of_mem_toDigits (by decide) (by decide) h

theorem takeWhile_delimited {rest : List Char} (h : Delimited rest) :
    rest.takeWhile Char.isDigit = [] ∧ rest.dropWhile Char.isDigit = rest := by
  rcases h with rfl | ⟨c, hc, cs, rfl⟩
  · exact ⟨rfl, rfl⟩
  · have hdigit : c.isDigit = false := by
      simp only [List.mem_cons, List.not_mem_nil, or_false] at hc
      rcases hc with rfl | rfl | rfl <;> rfl
    simp [hdigit]

/-- `NumberText` of the natural numbers. -/
def natText : NumberText Nat where
  write := Nat.toDigits 10
  read := readNat
  write_head n := by
    cases hdigits : Nat.toDigits 10 n with
    | nil => exact absurd hdigits Nat.toDigits_ne_nil
    | cons c cs =>
        have hdigit : c.isDigit = true := isDigit_of_mem_toDigits (n := n) (by simp [hdigits])
        exact ⟨c, cs, rfl, by simp [startsNumber, hdigit]⟩
  read_write n rest hrest := by
    obtain ⟨htake, hdrop⟩ := takeWhile_delimited hrest
    have hall : ∀ c ∈ Nat.toDigits 10 n, c.isDigit = true := fun _ => isDigit_of_mem_toDigits
    have hdigits : (Nat.toDigits 10 n ++ rest).takeWhile Char.isDigit = Nat.toDigits 10 n := by
      rw [List.takeWhile_append_of_pos hall, htake, List.append_nil]
    have hrest' : (Nat.toDigits 10 n ++ rest).dropWhile Char.isDigit = rest := by
      rw [List.dropWhile_append_of_pos hall, hdrop]
    simp [readNat, hdigits, hrest', Nat.toDigits_ne_nil]

end Naturals

end Json
end SentinelADC
