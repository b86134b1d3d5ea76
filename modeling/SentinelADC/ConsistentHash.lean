import SentinelADC.Helpers
import Mathlib.Data.List.Sort

/-!
# Consistent hashing

`routing/strategies/consistentHash.js`.  Every candidate contributes virtual
nodes to a ring sorted by hash; a client goes to the owner of the first node at
or after the hash of its key.  The 32-bit hash is a parameter.
-/

namespace SentinelADC
namespace ConsistentHash

/-- One virtual node. -/
structure RingEntry where
  hash : UInt32
  backendId : String
deriving DecidableEq, Repr

/-- Virtual nodes per unit of weight. -/
def vnodesPerWeight : Nat := 40

/-- `Math.max(1, backend.weight || 1)` times the base number of nodes. -/
def vnodeCount (b : Backend) : Nat :=
  vnodesPerWeight * max 1 (if b.weight = 0 then 1 else b.weight)

/-- Virtual nodes of one backend, in creation order. -/
def vnodes (hash32 : String → UInt32) (b : Backend) : List RingEntry :=
  (List.range (vnodeCount b)).map (fun i =>
    { hash := hash32 (b.id ++ "#vnode-" ++ toString i), backendId := b.id })

/-- The ring of a candidate list; the sort is stable. -/
def buildRing (hash32 : String → UInt32) (backends : List Backend) : List RingEntry :=
  (backends.flatMap (vnodes hash32)).insertionSort (fun a b => a.hash ≤ b.hash)

/-- At most `fuel` iterations of the binary search loop.  Reading outside the
ring would throw, which is `none`. -/
def searchLoop (ring : List RingEntry) (targetHash : UInt32) :
    Nat → Int → Int → Nat → Option Nat
  | 0, _, _, _ => none
  | fuel + 1, low, high, result =>
      if low ≤ high then
        let mid := (low + high) / 2
        match ring[mid.toNat]? with
        | none => none
        | some entry =>
            if targetHash ≤ entry.hash then
              searchLoop ring targetHash fuel low (mid - 1) mid.toNat
            else
              searchLoop ring targetHash fuel (mid + 1) high result
      else some result

/-- `findRingIndex`. -/
def findRingIndex (ring : List RingEntry) (targetHash : UInt32) : Option Nat :=
  match ring[ring.length - 1]? with
  | none => none
  | some last =>
      if last.hash < targetHash then some 0
      else searchLoop ring targetHash (ring.length + 1) 0 (ring.length - 1) 0

/-- The key a client is placed on the ring with. -/
def clientKey (req : ClientRequest) : String :=
  (truthy req.xSessionId).getD (getClientIp req)

/-- `select`. -/
def select (hash32 : String → UInt32) (backends : List Backend) (req : ClientRequest) :
    Option Backend :=
  if backends = [] then none
  else
    let ring := buildRing hash32 backends
    if ring = [] then backends.head?
    else
      match findRingIndex ring (hash32 (clientKey req)) with
      | none => none
      | some startIndex =>
          match ring[startIndex]? with
          | none => none
          | some entry =>
              (backends.find? (fun b => b.id = entry.backendId)).or backends.head?

section Search

variable {ring : List RingEntry} {targetHash : UInt32}

/-- The loop keeps its indices inside the ring and shrinks the interval, so it
ends with an index of the ring. -/
theorem searchLoop_lt {fuel : Nat} {low high : Int} {result : Nat}
    (hlow : 0 ≤ low) (hhigh : high < ring.length) (hresult : result < ring.length)
    (hfuel : (high + 1 - low).toNat < fuel) :
    ∃ i, searchLoop ring targetHash fuel low high result = some i ∧ i < ring.length := by
  induction fuel generalizing low high result with
  | zero => omega
  | succ fuel ih =>
      simp only [searchLoop]
      by_cases hle : low ≤ high
      · have hmid : ((low + high) / 2).toNat < ring.length := by omega
        simp only [hle, if_true, List.getElem?_eq_getElem hmid]
        split_ifs with htarget
        · exact ih hlow (by omega) hmid (by omega)
        · exact ih (by omega) hhigh hresult (by omega)
      · simpa [hle] using hresult

/-- On a non-empty ring the search returns an index of the ring. -/
theorem findRingIndex_lt (targetHash : UInt32) (hne : ring ≠ []) :
    ∃ i, findRingIndex ring targetHash = some i ∧ i < ring.length := by
  have hpos : 0 < ring.length := List.length_pos_iff.mpr hne
  have hlast : ring.length - 1 < ring.length := by omega
  simp only [findRingIndex]
  simp only [List.getElem?_eq_getElem hlast]
  split_ifs with hwrap
  · exact ⟨0, rfl, hpos⟩
  · exact searchLoop_lt (by omega) (by omega) hpos (by omega)

end Search

theorem find?_or_head?_mem {backends : List Backend} (hne : backends ≠ [])
    (p : Backend → Bool) :
    ∃ b ∈ backends, (backends.find? p).or backends.head? = some b := by
  cases hfind : backends.find? p with
  | some b => exact ⟨b, List.mem_of_find?_eq_some hfind, rfl⟩
  | none =>
      obtain ⟨b, rest, rfl⟩ := List.exists_cons_of_ne_nil hne
      exact ⟨b, by simp, rfl⟩

/-- On a non-empty candidate list `select` returns one of the candidates. -/
theorem select_mem (hash32 : String → UInt32) {backends : List Backend}
    (hne : backends ≠ []) (req : ClientRequest) :
    ∃ b ∈ backends, select hash32 backends req = some b := by
  by_cases hring : buildRing hash32 backends = []
  · obtain ⟨b, rest, rfl⟩ := List.exists_cons_of_ne_nil hne
    exact ⟨b, by simp, by simp [select, hring]⟩
  · obtain ⟨i, hi, hlt⟩ :=
      findRingIndex_lt (hash32 (clientKey req)) hring
    simp only [select, hne, hring, if_false, hi, List.getElem?_eq_getElem hlt]
    exact find?_or_head?_mem hne _

end ConsistentHash
end SentinelADC
