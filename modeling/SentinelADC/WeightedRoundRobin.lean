import SentinelADC.MetricsStore
import SentinelADC.Lib.Double

/-!
# Weighted round robin

`routing/strategies/weightedRoundRobin.js`.  Each call scales the configured
weights by the performance scores, then scans the virtual pool cyclically with
a threshold that drops by the gcd of the weights each time the scan passes
index 0.

The threshold outlives the call, and it may stem from weights so large that
subtracting the gcd rounds back to it.  So the subtraction is the one of double
precision.

The `while (true)` loop of the source is `scan`, which counts its iterations
down from a bound.  `scan_cases` shows that the loop ends within `scanBound`
iterations or never does, whatever index and threshold an earlier pool has left
behind.
-/

namespace SentinelADC
namespace WeightedRoundRobin

/-- Entry of the virtual pool: a backend with its dynamic weight. -/
structure VirtualMember where
  backend : Backend
  weight : Nat

/-- `weight || 1`. -/
def orOne (weight : Nat) : Nat :=
  if weight = 0 then 1 else weight

/-- Euclid's loop. -/
def gcd (a b : Nat) : Nat :=
  if b = 0 then a else gcd b (a % b)
termination_by b
decreasing_by exact Nat.mod_lt a (Nat.pos_of_ne_zero ‹_›)

/-- Gcd of the weights of a pool. -/
def getGcdOfWeights (members : List VirtualMember) : Nat :=
  match members with
  | [] => 1
  | m :: rest => rest.foldl (fun result m' => gcd result (orOne m'.weight)) (orOne m.weight)

/-- Largest weight of a pool. -/
def getMaxWeight (members : List VirtualMember) : Nat :=
  members.foldl (fun acc m => if acc < m.weight then m.weight else acc) 0

/-- The configured weight scaled by the score, at least one.  The product is exact
here; the source rounds the quotient and the product to doubles, which can lower
a product that ends in one half (weight 50 and score 29 give 14 there, 15 here). -/
def dynamicWeight (weight : Nat) (score : Int) : Nat :=
  (max 1 (jsRound ((orOne weight : Rat) * ((score : Rat) / 100)))).toNat

/-- The virtual pool of a candidate list. -/
def virtualPool (now : Int) (pool : BackendPool) :
    List Backend → StrategyMemory → List VirtualMember × StrategyMemory
  | [], m => ([], m)
  | b :: bs, m =>
      let (score, m) := m.scoreOf now pool b.id
      let (rest, m) := virtualPool now pool bs m
      (⟨b, dynamicWeight b.weight score⟩ :: rest, m)

/-- The index and threshold update at the head of the loop body. -/
def advance (n maxWeight gcdWeight : Nat) (s : WrrState) : WrrState :=
  let currentIndex := (s.currentIndex + 1) % n
  if currentIndex = 0 then
    let currentWeight := Double.round (s.currentWeight - gcdWeight)
    ⟨currentIndex, if currentWeight ≤ 0 then maxWeight else currentWeight⟩
  else ⟨currentIndex, s.currentWeight⟩

/-- At most `fuel` iterations of the loop. -/
def scan (members : List VirtualMember) (maxWeight gcdWeight : Nat) :
    Nat → WrrState → Pick × WrrState
  | 0, s => (.endless, s)
  | fuel + 1, s =>
      let s := advance members.length maxWeight gcdWeight s
      match members[s.currentIndex.toNat]? with
      | none => (.failed, s)
      | some member =>
          if s.currentWeight ≤ member.weight then (.backend member.backend, s)
          else scan members maxWeight gcdWeight fuel s

/-- Iterations after which a loop that ends has ended: one lap for each unit of
the threshold carried over, and two more. -/
def scanBound (n : Nat) (s : WrrState) : Nat :=
  n * (s.currentWeight.toNat + 2) + 1

/-- `select`.  The router never passes an empty list, for which the source computes
`NaN`. -/
def select (now : Int) (pool : BackendPool) (backends : List Backend)
    (m : StrategyMemory) : Pick × StrategyMemory :=
  let (members, m) := virtualPool now pool backends m
  let n := members.length
  let maxWeight := getMaxWeight members
  let gcdWeight := getGcdOfWeights members
  if maxWeight = 0 then
    let currentIndex := (m.wrr.currentIndex + 1) % n
    (Pick.ofOption ((members[currentIndex.toNat]?).map (fun x => x.backend)),
      { m with wrr := { m.wrr with currentIndex := currentIndex } })
  else
    let (selected, wrr) := scan members maxWeight gcdWeight (scanBound n m.wrr) m.wrr
    (selected, { m with wrr := wrr })

section Termination

variable {members : List VirtualMember} {maxWeight gcdWeight : Nat}

theorem gcd_eq (a b : Nat) :
    gcd a b = Nat.gcd a b := by
  induction b using Nat.strong_induction_on generalizing a with
  | _ b ih =>
      unfold gcd
      split_ifs with hb
      · simp [hb]
      · rw [ih (a % b) (Nat.mod_lt a (Nat.pos_of_ne_zero hb)) b, Nat.gcd_comm b,
          ← Nat.gcd_rec, Nat.gcd_comm]

theorem orOne_pos (weight : Nat) :
    0 < orOne weight := by
  simp only [orOne]
  split_ifs <;> omega

theorem getGcdOfWeights_pos (members : List VirtualMember) :
    0 < getGcdOfWeights members := by
  have hfold : ∀ (rest : List VirtualMember) (acc : Nat), 0 < acc →
      0 < rest.foldl (fun result m' => gcd result (orOne m'.weight)) acc := by
    intro rest
    induction rest with
    | nil => intro acc hacc; exact hacc
    | cons m rest ih =>
        intro acc hacc
        apply ih
        show 0 < gcd acc (orOne m.weight)
        rw [gcd_eq]
        exact Nat.gcd_pos_of_pos_left _ hacc
  cases members with
  | nil => exact Nat.one_pos
  | cons m rest => exact hfold rest _ (orOne_pos m.weight)

/-- The running maximum is attained by the start value or by a member. -/
theorem getMaxWeight_attained (hne : members ≠ []) :
    ∃ j, ∃ hj : j < members.length, getMaxWeight members ≤ (members[j]).weight := by
  have hfold : ∀ (l : List VirtualMember) (acc : Nat),
      l.foldl (fun acc m => if acc < m.weight then m.weight else acc) acc = acc ∨
        ∃ m ∈ l,
          l.foldl (fun acc m => if acc < m.weight then m.weight else acc) acc = m.weight := by
    intro l
    induction l with
    | nil => intro acc; exact Or.inl rfl
    | cons m l ih =>
        intro acc
        rw [List.foldl_cons]
        rcases ih (if acc < m.weight then m.weight else acc) with h | ⟨m', hm', h⟩
        · rw [h]
          split_ifs
          · exact Or.inr ⟨m, by simp, rfl⟩
          · exact Or.inl rfl
        · exact Or.inr ⟨m', by simp [hm'], h⟩
  rcases hfold members 0 with h | ⟨m, hm, h⟩
  · have hpos : 0 < members.length := List.length_pos_iff.mpr hne
    refine ⟨0, hpos, ?_⟩
    simp only [getMaxWeight]
    omega
  · obtain ⟨j, hj, rfl⟩ := List.getElem_of_mem hm
    exact ⟨j, hj, le_of_eq h⟩

/-- The index after an update lies in the pool. -/
theorem advance_index (maxWeight gcdWeight : Nat) (hpos : 0 < members.length) (s : WrrState) :
    0 ≤ (advance members.length maxWeight gcdWeight s).currentIndex ∧
      (advance members.length maxWeight gcdWeight s).currentIndex < members.length := by
  have hn : (members.length : Int) ≠ 0 := by omega
  have h₁ := Int.emod_nonneg (s.currentIndex + 1) hn
  have h₂ := Int.emod_lt_of_pos (s.currentIndex + 1)
    (show (0 : Int) < members.length by omega)
  unfold advance
  dsimp only
  split_ifs <;> exact ⟨h₁, h₂⟩

/-- One iteration looks at one member and ends with it or goes on. -/
theorem scan_step (maxWeight gcdWeight : Nat) (hpos : 0 < members.length) (s : WrrState) :
    ∃ member ∈ members,
      members[(advance members.length maxWeight gcdWeight s).currentIndex.toNat]? =
          some member ∧
        ∀ fuel, scan members maxWeight gcdWeight (fuel + 1) s =
          if (advance members.length maxWeight gcdWeight s).currentWeight ≤ member.weight then
            (.backend member.backend, advance members.length maxWeight gcdWeight s)
          else
            scan members maxWeight gcdWeight fuel
              (advance members.length maxWeight gcdWeight s) := by
  obtain ⟨h0, hlt⟩ := advance_index maxWeight gcdWeight hpos s
  have hidx : (advance members.length maxWeight gcdWeight s).currentIndex.toNat <
      members.length := by omega
  refine ⟨_, List.getElem_mem hidx, List.getElem?_eq_getElem hidx, ?_⟩
  intro fuel
  simp only [scan, List.getElem?_eq_getElem hidx]

/-- Inside the pool the update moves one place to the right. -/
theorem advance_of_lt {s : WrrState} (h0 : 0 ≤ s.currentIndex)
    (hlt : s.currentIndex + 1 < members.length) :
    advance members.length maxWeight gcdWeight s =
      ⟨s.currentIndex + 1, s.currentWeight⟩ := by
  have hmod : (s.currentIndex + 1) % (members.length : Int) = s.currentIndex + 1 :=
    Int.emod_eq_of_lt (by omega) hlt
  have hne : s.currentIndex + 1 ≠ 0 := by omega
  simp [advance, hmod, hne]

/-- Past the last place the update wraps around and lowers the threshold. -/
theorem advance_of_wrap (maxWeight gcdWeight : Nat) {s : WrrState}
    (hwrap : (s.currentIndex + 1) % (members.length : Int) = 0) :
    advance members.length maxWeight gcdWeight s =
      ⟨0, if Double.round (s.currentWeight - gcdWeight) ≤ 0 then maxWeight
        else Double.round (s.currentWeight - gcdWeight)⟩ := by
  simp only [advance, hwrap, if_true]

/-- A heavy enough member further right is found within the same lap. -/
theorem scan_found_of_ahead {s : WrrState} {j : Nat} (hj : j < members.length)
    (h0 : 0 ≤ s.currentIndex) (hlt : s.currentIndex < j)
    (hheavy : s.currentWeight ≤ (members[j]).weight)
    {fuel : Nat} (hfuel : (j : Int) - s.currentIndex ≤ fuel) :
    ∃ b, (scan members maxWeight gcdWeight fuel s).1 = .backend b := by
  induction fuel generalizing s with
  | zero => omega
  | succ fuel ih =>
      have hstep : s.currentIndex + 1 < members.length := by omega
      simp only [scan]
      rw [advance_of_lt h0 hstep]
      have hidx : (s.currentIndex + 1).toNat < members.length := by omega
      simp only [List.getElem?_eq_getElem hidx]
      split_ifs with htest
      · exact ⟨_, rfl⟩
      · have hne : (s.currentIndex + 1).toNat ≠ j := by
          rintro rfl
          exact htest hheavy
        refine ih (s := ⟨s.currentIndex + 1, s.currentWeight⟩) ?_ ?_ hheavy ?_
        · show 0 ≤ s.currentIndex + 1
          omega
        · show s.currentIndex + 1 < j
          omega
        · show (j : Int) - (s.currentIndex + 1) ≤ fuel
          omega

/-- A lap that starts at index 0 with a threshold some member meets succeeds. -/
theorem scan_found_of_lap {w : Int} {j : Nat} (hj : j < members.length)
    (hheavy : w ≤ (members[j]).weight) (hfirst : ¬ w ≤ (members[0]).weight)
    {fuel : Nat} (hfuel : members.length ≤ fuel) :
    ∃ b, (scan members maxWeight gcdWeight fuel ⟨0, w⟩).1 = .backend b := by
  have hj0 : j ≠ 0 := by
    rintro rfl
    exact hfirst hheavy
  refine scan_found_of_ahead hj ?_ ?_ hheavy ?_
  · show (0 : Int) ≤ 0
    omega
  · show (0 : Int) < j
    omega
  · show (j : Int) - 0 ≤ fuel
    omega

/-- A threshold above every weight from which subtracting the gcd rounds back
to it. -/
structure Stuck (members : List VirtualMember) (gcdWeight : Nat) (w : Int) : Prop where
  pos : 0 < w
  absorbed : Double.round (w - gcdWeight) = w
  above : ∀ member ∈ members, (member.weight : Int) < w

/-- With such a threshold the loop never ends. -/
theorem scan_of_stuck {w : Int} (hpos : 0 < members.length)
    (hstuck : Stuck members gcdWeight w) (fuel : Nat) {s : WrrState}
    (hw : s.currentWeight = w) :
    (scan members maxWeight gcdWeight fuel s).1 = .endless := by
  induction fuel generalizing s with
  | zero => rfl
  | succ fuel ih =>
      obtain ⟨member, hmember, -, hscan⟩ :=
        scan_step maxWeight gcdWeight hpos s
      have hsame : (advance members.length maxWeight gcdWeight s).currentWeight = w := by
        have hwpos := hstuck.pos
        simp only [advance]
        split_ifs with hwrap hreset
        · rw [hw, hstuck.absorbed] at hreset
          omega
        · rw [hw, hstuck.absorbed]
        · exact hw
      have hlight := hstuck.above member hmember
      rw [hscan, if_neg (by omega)]
      exact ih hsame

/-- The scan finds a member within the fuel, or it never ends because of a stuck
threshold. -/
def Decided (members : List VirtualMember) (maxWeight gcdWeight fuel : Nat) (s : WrrState) :
    Prop :=
  (∃ b, (scan members maxWeight gcdWeight fuel s).1 = .backend b) ∨
    (∃ w ≤ s.currentWeight, Stuck members gcdWeight w) ∧
      ∀ fuel, (scan members maxWeight gcdWeight fuel s).1 = .endless

/-- An iteration that goes on decides nothing and does not raise the threshold. -/
theorem Decided.of_step {fuel : Nat} {s s' : WrrState}
    (hscan : ∀ fuel, scan members maxWeight gcdWeight (fuel + 1) s =
      scan members maxWeight gcdWeight fuel s')
    (hle : s'.currentWeight ≤ s.currentWeight)
    (h : Decided members maxWeight gcdWeight fuel s') :
    Decided members maxWeight gcdWeight (fuel + 1) s := by
  rcases h with ⟨b, hb⟩ | ⟨⟨w, hw, hstuck⟩, hendless⟩
  · exact Or.inl ⟨b, by rw [hscan, hb]⟩
  · refine Or.inr ⟨⟨w, hw.trans hle, hstuck⟩, fun fuel' => ?_⟩
    cases fuel' with
    | zero => rfl
    | succ fuel' => rw [hscan, hendless]

/-- When the threshold stays as it is, the laps repeat: some member meets it or
none ever will. -/
theorem decided_of_absorbed {w : Int} {fuel : Nat} (hlen : 0 < members.length) (hpos : 0 < w)
    (habsorbed : Double.round (w - gcdWeight) = w) (hfirst : ¬ w ≤ (members[0]).weight)
    (hfuel : members.length ≤ fuel) :
    Decided members maxWeight gcdWeight fuel ⟨0, w⟩ := by
  by_cases hmeets : ∃ j, ∃ hj : j < members.length, w ≤ (members[j]).weight
  · obtain ⟨j, hj, hmeets⟩ := hmeets
    exact Or.inl (scan_found_of_lap hj hmeets hfirst hfuel)
  · have hstuck : Stuck members gcdWeight w := by
      refine ⟨hpos, habsorbed, ?_⟩
      intro m hm
      obtain ⟨j, hj, rfl⟩ := List.getElem_of_mem hm
      by_contra hge
      exact hmeets ⟨j, hj, by omega⟩
    exact Or.inr ⟨⟨w, le_refl _, hstuck⟩, fun fuel => scan_of_stuck hlen hstuck fuel rfl⟩

/-- One lap less for a lower threshold. -/
theorem laps_of_lower {n : Nat} {w w' : Int} (hpos : 0 < w') (hlt : w' < w) :
    (n : Int) + n * (w'.toNat + 1) ≤ n * (w.toNat + 1) := by
  have hcast : ((w'.toNat : Int) + 1) + 1 ≤ w.toNat + 1 := by omega
  calc
    (n : Int) + n * (w'.toNat + 1) = n * ((w'.toNat + 1) + 1) := by ring
    _ ≤ n * (w.toNat + 1) := mul_le_mul_of_nonneg_left hcast (Int.natCast_nonneg n)

/--
From any place inside the pool the scan succeeds within the rest of the lap
and one lap for each unit of the threshold, or it never ends.  Each wrap-around
resets the threshold to the largest weight, which the next lap meets, or lowers
it, or leaves it as it is, and then the laps repeat.
-/
theorem scan_cases_of_inside
    (hmax : ∃ j, ∃ hj : j < members.length, maxWeight ≤ (members[j]).weight)
    {fuel : Nat} {s : WrrState}
    (h0 : 0 ≤ s.currentIndex) (hlt : s.currentIndex < members.length)
    (hdown : Double.round (s.currentWeight - gcdWeight) ≤ max 0 s.currentWeight)
    (hfuel :
      (members.length : Int) - s.currentIndex +
        members.length * (s.currentWeight.toNat + 1) ≤ fuel) :
    Decided members maxWeight gcdWeight fuel s := by
  induction fuel generalizing s with
  | zero =>
      have hnonneg : 0 ≤ (members.length : Int) * (s.currentWeight.toNat + 1) :=
        by positivity
      omega
  | succ fuel ih =>
      have hpos : 0 < members.length := by omega
      obtain ⟨member, hmember, hget, hscan⟩ :=
        scan_step maxWeight gcdWeight hpos s
      by_cases hheavy :
          (advance members.length maxWeight gcdWeight s).currentWeight ≤ member.weight
      · left
        exact ⟨member.backend, by rw [hscan, if_pos hheavy]⟩
      simp only [if_neg hheavy] at hscan
      by_cases hstep : s.currentIndex + 1 < members.length
      · rw [advance_of_lt h0 hstep] at hscan
        refine Decided.of_step hscan (le_refl _)
          (ih (s := ⟨s.currentIndex + 1, s.currentWeight⟩) ?_ hstep hdown ?_)
        · show 0 ≤ s.currentIndex + 1
          omega
        · show (members.length : Int) - (s.currentIndex + 1) +
            members.length * (s.currentWeight.toNat + 1) ≤ fuel
          omega
      · have hlast : s.currentIndex + 1 = members.length := by omega
        have hwrap : (s.currentIndex + 1) % (members.length : Int) = 0 := by simp [hlast]
        have hadvance := advance_of_wrap maxWeight gcdWeight hwrap
        have hlap : (members.length : Int) * (s.currentWeight.toNat + 1) ≤ fuel := by omega
        have hlen : (members.length : Int) ≤ fuel := by
          have : (members.length : Int) ≤
              members.length * (s.currentWeight.toNat + 1) := by nlinarith
          omega
        have hfirst : members[0] = member := by
          simpa [hadvance, List.getElem?_eq_getElem hpos] using hget
        by_cases hreset : Double.round (s.currentWeight - gcdWeight) ≤ 0
        · -- the threshold was reset to the largest weight
          rw [if_pos hreset] at hadvance
          rw [hadvance, ← hfirst] at hheavy
          obtain ⟨j, hj, hmeets⟩ := hmax
          have hmeets' : (maxWeight : Int) ≤ (members[j]).weight := by exact_mod_cast hmeets
          obtain ⟨b, hb⟩ : ∃ b, (scan members maxWeight gcdWeight fuel ⟨0, maxWeight⟩).1 =
              .backend b := scan_found_of_lap hj hmeets' hheavy (by omega)
          left
          exact ⟨b, by rw [hscan, hadvance, hb]⟩
        · rw [if_neg hreset] at hadvance
          rw [hadvance, ← hfirst] at hheavy
          rw [hadvance] at hscan
          have hwpos := Int.not_le.mp hreset
          have hle : Double.round (s.currentWeight - gcdWeight) ≤ s.currentWeight := by omega
          refine Decided.of_step hscan hle ?_
          rcases Int.lt_or_eq_of_le hle with hdrop | hsame
          · -- the threshold dropped
            have hdown' := Double.round_sub_le_max (d := gcdWeight)
              (Double.round_round (Double.nonneg_of_round_pos hwpos).le) (by omega)
            have hlaps := laps_of_lower (n := members.length) hwpos hdrop
            refine ih (s := ⟨0, Double.round (s.currentWeight - gcdWeight)⟩) ?_ ?_ hdown' ?_
            · show (0 : Int) ≤ 0
              omega
            · show (0 : Int) < members.length
              omega
            · show (members.length : Int) - 0 +
                members.length *
                  (((Double.round (s.currentWeight - gcdWeight)).toNat : Int) + 1) ≤ fuel
              omega
          · exact decided_of_absorbed hpos hwpos (by rw [hsame, hsame]) hheavy (by omega)

/-- An update looks at the index modulo the length only. -/
theorem scan_emod (fuel : Nat) (s : WrrState) :
    (scan members maxWeight gcdWeight fuel
        ⟨s.currentIndex % members.length, s.currentWeight⟩).1 =
      (scan members maxWeight gcdWeight fuel s).1 := by
  cases fuel with
  | zero => rfl
  | succ fuel => simp only [scan, advance, Int.emod_add_emod]

/-- From every state an earlier pool can leave, the loop ends within its bound
or never. -/
theorem scan_cases (hne : members ≠ []) {s : WrrState}
    (hdown : Double.round (s.currentWeight - getGcdOfWeights members) ≤
      max 0 s.currentWeight) :
    (∃ b, (scan members (getMaxWeight members) (getGcdOfWeights members)
        (scanBound members.length s) s).1 = .backend b) ∨
      (∃ w ≤ s.currentWeight, Stuck members (getGcdOfWeights members) w) ∧
        ∀ fuel, (scan members (getMaxWeight members) (getGcdOfWeights members) fuel s).1 =
          .endless := by
  have hpos : 0 < members.length := List.length_pos_iff.mpr hne
  have hn : (members.length : Int) ≠ 0 := by omega
  have h0 := Int.emod_nonneg s.currentIndex hn
  have hlt := Int.emod_lt_of_pos s.currentIndex (show (0 : Int) < members.length by omega)
  have hfuel : (members.length : Int) - s.currentIndex % members.length +
      members.length * (s.currentWeight.toNat + 1) ≤ (scanBound members.length s : Nat) := by
    have hcast : ((members.length * (s.currentWeight.toNat + 2) : Nat) : Int) =
        members.length + members.length * (s.currentWeight.toNat + 1) := by
      push_cast
      ring
    simp only [scanBound, Nat.cast_add, hcast]
    omega
  have hcases := scan_cases_of_inside (getMaxWeight_attained hne)
    (s := ⟨s.currentIndex % members.length, s.currentWeight⟩) h0 hlt hdown hfuel
  simpa only [Decided, scan_emod] using hcases

/-- A threshold of at most `2 ^ 53 + 2` goes down, and the loop ends. -/
theorem scan_found (hne : members ≠ []) {s : WrrState} (hw : s.currentWeight ≤ 2 ^ 53 + 2) :
    ∃ b, (scan members (getMaxWeight members) (getGcdOfWeights members)
      (scanBound members.length s) s).1 = .backend b := by
  have hgcd : (1 : Int) ≤ getGcdOfWeights members := by
    exact_mod_cast getGcdOfWeights_pos members
  have hdown : Double.round (s.currentWeight - getGcdOfWeights members) ≤
      max 0 s.currentWeight := by
    by_cases hpos : 0 < s.currentWeight
    · have := Double.round_sub_lt hpos hw hgcd
      omega
    · have := Double.round_nonpos
        (show s.currentWeight - getGcdOfWeights members ≤ 0 by omega)
      omega
  rcases scan_cases hne hdown with hfound | ⟨⟨w, hle, hstuck⟩, -⟩
  · exact hfound
  · have := Double.round_sub_lt hstuck.pos (hle.trans hw) hgcd
    have := hstuck.absorbed
    omega

/-- The bound tells a loop that ends from one that does not, as thresholds are
doubles. -/
theorem scan_endless_iff (hne : members ≠ []) {s : WrrState}
    (hdouble : Double.round s.currentWeight = s.currentWeight) :
    (scan members (getMaxWeight members) (getGcdOfWeights members)
        (scanBound members.length s) s).1 = .endless ↔
      ∀ fuel, (scan members (getMaxWeight members) (getGcdOfWeights members) fuel s).1 =
        .endless := by
  constructor
  · intro hend
    rcases scan_cases hne (Double.round_sub_le_max hdouble (by omega)) with ⟨b, hb⟩ | ⟨-, hendless⟩
    · rw [hb] at hend
      cases hend
    · exact hendless
  · intro hendless
    exact hendless _

/-- Whatever the scan returns is a member of the virtual pool. -/
theorem mem_of_scan {fuel : Nat} {s : WrrState} {b : Backend}
    (h : (scan members maxWeight gcdWeight fuel s).1 = .backend b) :
    b ∈ members.map (fun m => m.backend) := by
  induction fuel generalizing s with
  | zero => simp [scan] at h
  | succ fuel ih =>
      unfold scan at h
      dsimp only at h
      split at h
      · simp at h
      · next member hmember =>
          split_ifs at h
          · obtain rfl := Pick.backend.inj h
            exact List.mem_map_of_mem (List.mem_of_getElem? hmember)
          · exact ih h

/-- The threshold never exceeds the one carried over and the largest weight. -/
theorem currentWeight_scan_le {limit : Int} (hlimit : limit ≤ 2 ^ 53 + 2)
    (hmax : (maxWeight : Int) ≤ limit) (hgcd : 0 < gcdWeight) {fuel : Nat} {s : WrrState}
    (hw : s.currentWeight ≤ limit) :
    (scan members maxWeight gcdWeight fuel s).2.currentWeight ≤ limit := by
  induction fuel generalizing s with
  | zero => exact hw
  | succ fuel ih =>
      have hnext :
          (advance members.length maxWeight gcdWeight s).currentWeight ≤ limit := by
        simp only [advance]
        split_ifs with hwrap hreset
        · exact hmax
        · have hpos := Double.nonneg_of_round_pos (Int.not_le.mp hreset)
          have := Double.round_sub_lt (d := gcdWeight) (by omega) (hw.trans hlimit) (by omega)
          exact this.le.trans hw
        · exact hw
      unfold scan
      dsimp only
      split
      · exact hnext
      · split_ifs
        · exact hnext
        · exact ih hnext

/-- The virtual pool lists the candidates in order. -/
theorem map_backend_virtualPool (now : Int) (pool : BackendPool) (backends : List Backend)
    (m : StrategyMemory) :
    (virtualPool now pool backends m).1.map (fun x => x.backend) = backends := by
  induction backends generalizing m with
  | nil => rfl
  | cons b bs ih => simp [virtualPool, ih]

/-- Whatever `select` returns is one of the candidates. -/
theorem mem_of_select {now : Int} {pool : BackendPool} {backends : List Backend}
    {m : StrategyMemory} {b : Backend} (h : (select now pool backends m).1 = .backend b) :
    b ∈ backends := by
  rw [← map_backend_virtualPool now pool backends m]
  simp only [select] at h
  split_ifs at h
  · dsimp only at h
    cases hget : (virtualPool now pool backends m).1[(((virtualPool now pool backends
        m).2.wrr.currentIndex + 1) % ((virtualPool now pool backends
          m).1.length : Int)).toNat]? with
    | none => simp [hget, Pick.ofOption] at h
    | some member =>
        simp only [hget, Option.map_some, Pick.ofOption, Pick.backend.injEq] at h
        exact h ▸ List.mem_map_of_mem (List.mem_of_getElem? hget)
  · exact mem_of_scan h

theorem wrr_virtualPool (now : Int) (pool : BackendPool) (backends : List Backend)
    (m : StrategyMemory) :
    (virtualPool now pool backends m).2.wrr = m.wrr := by
  induction backends generalizing m with
  | nil => rfl
  | cons b bs ih => simp [virtualPool, ih, StrategyMemory.scoreOf_snd]

/-- On a non-empty candidate list `select` returns one of the candidates, if the
threshold carried over is at most `2 ^ 53 + 2`. -/
theorem select_mem (now : Int) (pool : BackendPool) {backends : List Backend}
    (hne : backends ≠ []) {m : StrategyMemory} (hw : m.wrr.currentWeight ≤ 2 ^ 53 + 2) :
    ∃ b ∈ backends, (select now pool backends m).1 = .backend b := by
  suffices hfound : ∃ b, (select now pool backends m).1 = .backend b by
    obtain ⟨b, hb⟩ := hfound
    exact ⟨b, mem_of_select hb, hb⟩
  have hmap := map_backend_virtualPool now pool backends m
  have hwrr := wrr_virtualPool now pool backends m
  simp only [select]
  set members := (virtualPool now pool backends m).1
  set m' := (virtualPool now pool backends m).2
  have hmne : members ≠ [] := by
    intro hnil
    rw [hnil] at hmap
    exact hne hmap.symm
  split_ifs with hmax
  · have hpos : 0 < members.length := List.length_pos_iff.mpr hmne
    have h₁ := Int.emod_nonneg (m'.wrr.currentIndex + 1)
      (show (members.length : Int) ≠ 0 by omega)
    have h₂ := Int.emod_lt_of_pos (m'.wrr.currentIndex + 1)
      (show (0 : Int) < members.length by omega)
    have hidx : ((m'.wrr.currentIndex + 1) % (members.length : Int)).toNat <
        members.length := by omega
    refine ⟨(members[((m'.wrr.currentIndex + 1) % (members.length : Int)).toNat]).backend, ?_⟩
    simp [List.getElem?_eq_getElem hidx, Pick.ofOption]
  · exact scan_found hmne (by rw [hwrr]; exact hw)

/-- A threshold that is stuck keeps `select` busy for ever. -/
theorem select_of_stuck {now : Int} {pool : BackendPool} {backends : List Backend}
    {m : StrategyMemory} (hne : backends ≠ [])
    (hstuck : Stuck (virtualPool now pool backends m).1
      (getGcdOfWeights (virtualPool now pool backends m).1) m.wrr.currentWeight)
    (hmax : getMaxWeight (virtualPool now pool backends m).1 ≠ 0) :
    (select now pool backends m).1 = .endless := by
  have hpos : 0 < (virtualPool now pool backends m).1.length := by
    rw [← List.length_map (fun x : VirtualMember => x.backend), map_backend_virtualPool]
    exact List.length_pos_iff.mpr hne
  simp only [select, if_neg hmax]
  exact scan_of_stuck hpos hstuck _ (by rw [wrr_virtualPool])

end Termination

section Weights

/-- A score of at most 100 does not raise a weight. -/
theorem dynamicWeight_le (weight : Nat) {score : Int} (h : score ≤ 100) :
    dynamicWeight weight score ≤ orOne weight := by
  have hscore : (score : Rat) / 100 ≤ 1 := by
    have : (score : Rat) ≤ 100 := by exact_mod_cast h
    linarith
  have hround : jsRound ((orOne weight : Rat) * ((score : Rat) / 100)) ≤ (orOne weight : Int) := by
    apply jsRound_le
    push_cast
    exact mul_le_of_le_one_right (by positivity) hscore
  have hone := orOne_pos weight
  simp only [dynamicWeight]
  omega

/-- A bound on all weights bounds the largest. -/
theorem getMaxWeight_le {members : List VirtualMember} {limit : Nat}
    (h : ∀ member ∈ members, member.weight ≤ limit) :
    getMaxWeight members ≤ limit := by
  cases members with
  | nil => exact Nat.zero_le _
  | cons member rest =>
      have hne : member :: rest ≠ [] := by simp
      obtain ⟨j, hj, hle⟩ := getMaxWeight_attained hne
      exact hle.trans (h _ (List.getElem_mem hj))

variable {now : Int} {pool : BackendPool} {limit : Nat}

/-- The weights of the virtual pool stay within the configured ones. -/
theorem weight_virtualPool_le (now : Int) (hlimit : 1 ≤ limit)
    (hactive : ∀ id b, pool.find id = some b → 0 ≤ b.activeConnections)
    {backends : List Backend} (hweight : ∀ b ∈ backends, b.weight ≤ limit)
    {m : StrategyMemory} (hm : m.Durations) :
    ∀ member ∈ (virtualPool now pool backends m).1, member.weight ≤ limit := by
  induction backends generalizing m with
  | nil => simp [virtualPool]
  | cons b bs ih =>
      intro member hmember
      simp only [virtualPool, List.mem_cons] at hmember
      rcases hmember with rfl | hrest
      · have hscore := StrategyMemory.scoreOf_le hm now (hactive b.id)
        have hdynamic := dynamicWeight_le b.weight hscore
        have hb := hweight b (by simp)
        simp only [orOne] at hdynamic
        split_ifs at hdynamic <;> dsimp only <;> omega
      · rw [StrategyMemory.scoreOf_snd] at hrest
        exact ih (fun b' hb' => hweight b' (by simp [hb'])) (hm.cleanup now b.id) member hrest

/-- So does the threshold that `select` leaves behind. -/
theorem currentWeight_select_le (hlimit : 1 ≤ limit) (hsmall : limit ≤ 2 ^ 53 + 2)
    (hactive : ∀ id b, pool.find id = some b → 0 ≤ b.activeConnections)
    {backends : List Backend} (hweight : ∀ b ∈ backends, b.weight ≤ limit)
    {m : StrategyMemory} (hm : m.Durations) (hw : m.wrr.currentWeight ≤ limit) :
    (select now pool backends m).2.wrr.currentWeight ≤ limit := by
  have hwrr := wrr_virtualPool now pool backends m
  have hmax := getMaxWeight_le (weight_virtualPool_le now hlimit hactive hweight hm)
  simp only [select]
  split_ifs
  · rw [hwrr]
    exact hw
  · exact currentWeight_scan_le (by exact_mod_cast hsmall) (by exact_mod_cast hmax)
      (getGcdOfWeights_pos _) (by rw [hwrr]; exact hw)

end Weights

end WeightedRoundRobin
end SentinelADC
