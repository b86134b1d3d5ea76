import SentinelADC.GatewayState
import Mathlib.Data.Rat.Floor
import Mathlib.Algebra.Order.Floor.Ring

/-!
# Helpers

JavaScript number and string conventions, and the functions of
`utils/helpers.js` that routing depends on.  A string is a sequence of UTF-16
code units; numbers that the source computes in floating point are exact
rationals here.
-/

namespace SentinelADC

/-- `Math.round`. -/
def jsRound (x : Rat) : Int :=
  ⌊x + 1 / 2⌋

/-- Rounding to two decimals, `Math.round(x * 100) / 100`. -/
def round2 (x : Rat) : Rat :=
  (jsRound (x * 100) : Rat) / 100

/-- A header or field that is present and not empty, which is what `||` and
`if` test. -/
def truthy (s : Option String) : Option String :=
  s.filter (fun t => t ≠ "")

/-- UTF-16 code units of one character. -/
def codeUnitsOfChar (c : Char) : List Nat :=
  if c.toNat < 0x10000 then [c.toNat]
  else [0xD800 + (c.toNat - 0x10000) / 0x400, 0xDC00 + (c.toNat - 0x10000) % 0x400]

/-- The code units `charCodeAt` ranges over. -/
def codeUnits (s : String) : List Nat :=
  s.toList.flatMap codeUnitsOfChar

/-- White space removed by `String.prototype.trim`. -/
def isJsSpace (c : Char) : Bool :=
  c.toNat ∈ [0x9, 0xA, 0xB, 0xC, 0xD, 0x20, 0xA0, 0x1680, 0x2028, 0x2029, 0x202F, 0x205F,
    0x3000, 0xFEFF] ∨ (0x2000 ≤ c.toNat ∧ c.toNat ≤ 0x200A)

/-- `String.prototype.trim`. -/
def jsTrim (cs : List Char) : List Char :=
  ((cs.dropWhile isJsSpace).reverse.dropWhile isJsSpace).reverse

/-- `getClientIp`: the first entry of the forwarding chain, else the peer. -/
def getClientIp (req : ClientRequest) : String :=
  match truthy req.xForwardedFor with
  | some forwarded =>
      String.ofList (jsTrim (forwarded.toList.takeWhile (fun c => c ≠ ',')))
  | none =>
      ((truthy req.remoteAddress).or (truthy req.ip)).getD "0.0.0.0"

/-- Two's-complement reduction to a signed 32-bit integer, as `|0` and the
operands of `<<` and `&` are. -/
def toInt32 (x : Int) : Int :=
  let r := x % 4294967296
  if r < 2147483648 then r else r - 4294967296

/-- One iteration of the loop of `simpleHash`. -/
def simpleHashStep (hash : Int) (char : Nat) : Int :=
  toInt32 ((toInt32 (hash * 32) - hash) + char)

/-- `simpleHash`. -/
def simpleHash (str : List Nat) : Nat :=
  (str.foldl simpleHashStep 0).natAbs

end SentinelADC
