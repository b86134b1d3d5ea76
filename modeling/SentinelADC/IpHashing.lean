import SentinelADC.Strategies
import SentinelADC.Lib.Horner

/-!
# The hash of an address

`simpleHash` of `utils/helpers.js`, which `routing/strategies/ipHash.js` takes
the index from.  The loop is Horner's scheme in base 31, reduced to 32 bits in
every round, and all its intermediate values are exact doubles.
-/

namespace SentinelADC

section Int32

theorem toInt32_eq_bmod (x : Int) :
    toInt32 x = x.bmod 4294967296 := by
  rw [Int.bmod_eq_emod]
  simp only [toInt32]
  split_ifs <;> omega

/-- What a reduction lets through. -/
theorem toInt32_bounds (x : Int) :
    -2147483648 ≤ toInt32 x ∧ toInt32 x < 2147483648 := by
  simp only [toInt32]
  split_ifs <;> omega

theorem toInt32_add (x y : Int) :
    toInt32 (toInt32 x + y) = toInt32 (x + y) := by
  simp only [toInt32_eq_bmod, Int.bmod_add_bmod]

theorem toInt32_mul (b x y : Int) :
    toInt32 (b * toInt32 x + y) = toInt32 (b * x + y) := by
  simp only [toInt32_eq_bmod, ← Int.bmod_add_bmod (x := b * _), Int.mul_bmod_bmod]

end Int32

/-- All numbers that one iteration of the loop computes. -/
def iterationValues (hash : Int) (char : Nat) : List Int :=
  [hash, toInt32 (hash * 32), toInt32 (hash * 32) - hash, toInt32 (hash * 32) - hash + char,
    simpleHashStep hash char]

/-- The hash before `Math.abs`. -/
def signedHash (str : List Nat) : Int :=
  str.foldl simpleHashStep 0

section Hash

variable {str : List Nat}

/-- Shifting and subtracting multiply by 31. -/
theorem simpleHashStep_eq (hash : Int) (char : Nat) :
    simpleHashStep hash char = toInt32 (31 * hash + char) := by
  have hshift : toInt32 (hash * 32) - hash + char = toInt32 (hash * 32) + (char - hash) := by ring
  have hvalue : hash * 32 + (char - hash) = 31 * hash + (char : Int) := by ring
  rw [simpleHashStep, hshift, toInt32_add, hvalue]

theorem signedHash_eq (str : List Nat) :
    signedHash str = toInt32 (Horner.value 31 (str.map Nat.cast)) := by
  have hreduce : ∀ x d : Int, toInt32 (31 * toInt32 x + d) = toInt32 (31 * x + d) :=
    fun x d => toInt32_mul 31 x d
  rw [← Horner.foldl_reduce (by decide) hreduce, List.foldl_map, signedHash]
  exact List.foldl_ext _ _ _ (fun hash char _ => simpleHashStep_eq hash char)

theorem signedHash_bounds (str : List Nat) :
    -2147483648 ≤ signedHash str ∧ signedHash str < 2147483648 := by
  rw [signedHash_eq]
  exact toInt32_bounds _

/-- An iteration from a 32-bit number stays far below 2^53. -/
theorem iterationValues_lt {hash : Int} {char : Nat}
    (hhash : -2147483648 ≤ hash ∧ hash < 2147483648) (hchar : char < 65536) :
    ∀ v ∈ iterationValues hash char, v.natAbs < 2 ^ 53 := by
  have hshift := toInt32_bounds (hash * 32)
  have hstep := toInt32_bounds (toInt32 (hash * 32) - hash + char)
  simp only [iterationValues, simpleHashStep, List.forall_mem_cons, List.not_mem_nil,
    false_imp_iff, implies_true, and_true]
  omega

/-- The IP hash is a polynomial in base 31 over the code units, reduced to 32 bits, without
its sign.  No value in the loop is rounded, and the index is one of the list. -/
theorem simpleHash_polynomial (s : List UInt16) :
    simpleHash (s.map UInt16.toNat) =
        (toInt32 (∑ i ∈ Finset.range s.length,
          ((s.getD i 0).toNat : Int) * 31 ^ (s.length - 1 - i))).natAbs ∧
      (∀ before u after, s = before ++ u :: after →
        ∀ v ∈ iterationValues (signedHash (before.map UInt16.toNat)) u.toNat,
          v.natAbs < 2 ^ 53) ∧
      simpleHash (s.map UInt16.toNat) ≤ 2 ^ 31 ∧
      ∀ (backends : List Backend) (req : ClientRequest), backends ≠ [] →
        ∃ h : simpleHash (codeUnits (getClientIp req)) % backends.length < backends.length,
          IpHash.select backends req =
            some (backends[simpleHash (codeUnits (getClientIp req)) % backends.length]) := by
  have hsum : Horner.value 31 ((s.map UInt16.toNat).map (Nat.cast : Nat → Int)) =
      ∑ i ∈ Finset.range s.length, ((s.getD i 0).toNat : Int) * 31 ^ (s.length - 1 - i) := by
    simp only [Horner.value, List.length_map]
    refine Finset.sum_congr rfl (fun i hi => ?_)
    have hlt : i < s.length := Finset.mem_range.mp hi
    simp [List.getD, hlt]
  have hbounds := signedHash_bounds (s.map UInt16.toNat)
  have habs : simpleHash (s.map UInt16.toNat) = (signedHash (s.map UInt16.toNat)).natAbs := rfl
  refine ⟨?_, ?_, ?_, ?_⟩
  · rw [habs, signedHash_eq, hsum]
  · rintro before u after -
    exact iterationValues_lt (signedHash_bounds _) u.toNat_lt
  · rw [habs]
    omega
  · intro backends req hne
    have hlt := Nat.mod_lt (simpleHash (codeUnits (getClientIp req)))
      (List.length_pos_iff.mpr hne)
    exact ⟨hlt, List.getElem?_eq_getElem hlt⟩

/-- Two candidates. -/
def twoBackends : List Backend :=
  [createBackend 0 "http://localhost:4001", createBackend 1 "http://localhost:4002"]

/-- A client behind a proxy. -/
def proxiedClient : ClientRequest :=
  ⟨"GET", "/", some "10.0.0.1, 10.0.0.9", none, none, none⟩

theorem simpleHash_polynomial_sample :
    ∃ h : simpleHash (codeUnits (getClientIp proxiedClient)) % twoBackends.length <
        twoBackends.length,
      IpHash.select twoBackends proxiedClient =
        some (twoBackends[simpleHash (codeUnits (getClientIp proxiedClient)) %
          twoBackends.length]) :=
  (simpleHash_polynomial []).2.2.2 twoBackends proxiedClient (List.cons_ne_nil _ _)

end Hash

end SentinelADC
