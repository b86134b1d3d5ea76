import Mathlib.Data.List.Basic

/-!
# UTF-8 with replacement

Texts are lists of Unicode scalar values and are encoded with the core
library's `String.utf8EncodeChar`.  The decoder accepts every list of bytes: a
byte that cannot continue the sequence at hand, and a sequence that ends too
early, give a replacement character, and the byte is read again as the first
of a new sequence.

Decoding undoes encoding.  The other way round the bytes come back exactly
when they are the encoding of some text.
-/

namespace SentinelADC
namespace Utf8

/-- U+FFFD. -/
def replacement : Char :=
  '\uFFFD'

/-- A sequence that is not complete: continuation bytes still needed, the range
of the next one, and the code point so far. -/
structure Pending where
  needed : Nat
  lower : Nat
  upper : Nat
  codePoint : Nat
deriving DecidableEq, Repr

/-- The first byte of a sequence. -/
def lead (b : Nat) : List Char × Option Pending :=
  if b ≤ 0x7F then ([Char.ofNat b], none)
  else if 0xC2 ≤ b ∧ b ≤ 0xDF then ([], some ⟨1, 0x80, 0xBF, b - 0xC0⟩)
  else if 0xE0 ≤ b ∧ b ≤ 0xEF then
    ([], some ⟨2, if b = 0xE0 then 0xA0 else 0x80, if b = 0xED then 0x9F else 0xBF, b - 0xE0⟩)
  else if 0xF0 ≤ b ∧ b ≤ 0xF4 then
    ([], some ⟨3, if b = 0xF0 then 0x90 else 0x80, if b = 0xF4 then 0x8F else 0xBF, b - 0xF0⟩)
  else ([replacement], none)

/-- One byte: the characters that it completes, and the sequence after it. -/
def step : Option Pending → Nat → List Char × Option Pending
  | none, b => lead b
  | some p, b =>
      if p.lower ≤ b ∧ b ≤ p.upper then
        let codePoint := p.codePoint * 64 + (b - 0x80)
        if p.needed = 1 then ([Char.ofNat codePoint], none)
        else ([], some ⟨p.needed - 1, 0x80, 0xBF, codePoint⟩)
      else (replacement :: (lead b).1, (lead b).2)

/-- The rest of a text, from within a sequence or between two. -/
def decodeFrom : Option Pending → List UInt8 → List Char
  | none, [] => []
  | some _, [] => [replacement]
  | state, b :: bs => (step state b.toNat).1 ++ decodeFrom (step state b.toNat).2 bs

/-- The text of a list of bytes. -/
def decode (bytes : List UInt8) : List Char :=
  decodeFrom none bytes

/-- The bytes of a text. -/
def encode (text : List Char) : List UInt8 :=
  text.flatMap String.utf8EncodeChar

/-- Well-formed UTF-8. -/
def WellFormed (bytes : List UInt8) : Prop :=
  ∃ text, encode text = bytes

section Sequences

variable {b : UInt8} {bs : List UInt8} {p : Pending}

theorem decodeFrom_lead (h : lead b.toNat = ([], some p)) :
    decodeFrom none (b :: bs) = decodeFrom (some p) bs := by
  simp only [decodeFrom, step, h, List.nil_append]

theorem decodeFrom_more (hrange : p.lower ≤ b.toNat ∧ b.toNat ≤ p.upper) (hmore : p.needed ≠ 1) :
    decodeFrom (some p) (b :: bs) =
      decodeFrom (some ⟨p.needed - 1, 0x80, 0xBF, p.codePoint * 64 + (b.toNat - 0x80)⟩) bs := by
  simp only [decodeFrom, step, if_pos hrange, if_neg hmore, List.nil_append]

theorem decodeFrom_last (hrange : p.lower ≤ b.toNat ∧ b.toNat ≤ p.upper) (hlast : p.needed = 1) :
    decodeFrom (some p) (b :: bs) =
      Char.ofNat (p.codePoint * 64 + (b.toNat - 0x80)) :: decodeFrom none bs := by
  simp only [decodeFrom, step, if_pos hrange, if_pos hlast, List.cons_append, List.nil_append]

theorem lead_two {n : Nat} (hlow : 2 ≤ n) (hhigh : n < 32) :
    lead (n + 0xC0) = ([], some ⟨1, 0x80, 0xBF, n⟩) := by
  simp only [lead]
  rw [if_neg (by omega), if_pos (by omega), Nat.add_sub_cancel]

theorem lead_three {n : Nat} (hhigh : n < 16) :
    lead (n + 0xE0) =
      ([], some ⟨2, if n = 0 then 0xA0 else 0x80, if n = 13 then 0x9F else 0xBF, n⟩) := by
  simp only [lead]
  rw [if_neg (by omega), if_neg (by omega), if_pos (by omega), Nat.add_sub_cancel]
  simp

theorem lead_four {n : Nat} (hhigh : n < 5) :
    lead (n + 0xF0) =
      ([], some ⟨3, if n = 0 then 0x90 else 0x80, if n = 4 then 0x8F else 0xBF, n⟩) := by
  simp only [lead]
  rw [if_neg (by omega), if_neg (by omega), if_neg (by omega), if_pos (by omega),
    Nat.add_sub_cancel]
  simp

/-- Decoding an encoded character. -/
theorem decodeFrom_encodeChar (c : Char) (bs : List UInt8) :
    decodeFrom none (String.utf8EncodeChar c ++ bs) = c :: decodeFrom none bs := by
  have hvalid : c.val.toNat < 0xD800 ∨ 0xDFFF < c.val.toNat ∧ c.val.toNat < 0x110000 := c.valid
  have hofNat : Char.ofNat c.val.toNat = c := Char.ofNat_toNat c
  have hbyte : ∀ n : Nat, n < 256 → (UInt8.ofNat n).toNat = n := fun n hn =>
    UInt8.toNat_ofNat_of_lt' hn
  simp only [String.utf8EncodeChar]
  generalize c.val.toNat = v at hvalid hofNat ⊢
  split_ifs with h1 h2 h3
  · have hlead : lead v = ([c], none) := by simp [lead, h1, hofNat]
    simp only [List.cons_append, List.nil_append, decodeFrom, step, hbyte v (by omega), hlead]
  · have hb1 := hbyte (v / 64 % 0x20 + 0xC0) (by omega)
    have hb2 := hbyte (v % 0x40 + 0x80) (by omega)
    simp only [List.cons_append, List.nil_append]
    rw [decodeFrom_lead (hb1 ▸ lead_two (by omega) (by omega)),
      decodeFrom_last (by dsimp only; omega) rfl, hb2]
    have hcode : v / 64 % 0x20 * 64 + (v % 0x40 + 0x80 - 0x80) = v := by omega
    dsimp only
    rw [hcode, hofNat]
  · have hb1 := hbyte (v / 4096 % 0x10 + 0xE0) (by omega)
    have hb2 := hbyte (v / 64 % 0x40 + 0x80) (by omega)
    have hb3 := hbyte (v % 0x40 + 0x80) (by omega)
    simp only [List.cons_append, List.nil_append]
    rw [decodeFrom_lead (hb1 ▸ lead_three (by omega)),
      decodeFrom_more (by dsimp only; split_ifs <;> omega) (by simp),
      decodeFrom_last (by dsimp only; omega) rfl, hb2, hb3]
    have hcode : (v / 4096 % 0x10 * 64 + (v / 64 % 0x40 + 0x80 - 0x80)) * 64 +
        (v % 0x40 + 0x80 - 0x80) = v := by omega
    dsimp only
    rw [hcode, hofNat]
  · have hb1 := hbyte (v / 262144 % 0x08 + 0xF0) (by omega)
    have hb2 := hbyte (v / 4096 % 0x40 + 0x80) (by omega)
    have hb3 := hbyte (v / 64 % 0x40 + 0x80) (by omega)
    have hb4 := hbyte (v % 0x40 + 0x80) (by omega)
    simp only [List.cons_append, List.nil_append]
    rw [decodeFrom_lead (hb1 ▸ lead_four (by omega)),
      decodeFrom_more (by dsimp only; split_ifs <;> omega) (by simp),
      decodeFrom_more (by dsimp only; omega) (by simp),
      decodeFrom_last (by dsimp only; omega) rfl, hb2, hb3, hb4]
    have hcode : ((v / 262144 % 0x08 * 64 + (v / 4096 % 0x40 + 0x80 - 0x80)) * 64 +
        (v / 64 % 0x40 + 0x80 - 0x80)) * 64 + (v % 0x40 + 0x80 - 0x80) = v := by omega
    dsimp only
    rw [hcode, hofNat]

/-- Decoding undoes encoding. -/
theorem decode_encode (text : List Char) :
    decode (encode text) = text := by
  induction text with
  | nil => rfl
  | cons c text ih =>
      rw [decode, encode, List.flatMap_cons, decodeFrom_encodeChar]
      exact congrArg (c :: ·) ih

/-- Bytes survive decoding and encoding exactly when they are well formed. -/
theorem encode_decode_iff (bytes : List UInt8) :
    encode (decode bytes) = bytes ↔ WellFormed bytes := by
  constructor
  · intro heq
    exact ⟨decode bytes, heq⟩
  · rintro ⟨text, rfl⟩
    rw [decode_encode]

end Sequences

end Utf8
end SentinelADC
