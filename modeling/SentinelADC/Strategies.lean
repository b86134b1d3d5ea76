import SentinelADC.ConsistentHash
import SentinelADC.WeightedRoundRobin

/-!
# Load balancing strategies

The strategy factory of `routing/strategyFactory.js` and the strategies that
need no module of their own.  A strategy maps a candidate list and a request to
one of the candidates; `none` stands for an `undefined` result or a thrown
`TypeError`.  Only weighted round robin can fail to return.
-/

namespace SentinelADC

namespace RoundRobin

/-- `select`.  The router never passes an empty list, for which the source computes
`NaN`. -/
def select (backends : List Backend) (m : StrategyMemory) : Option Backend × StrategyMemory :=
  (backends[m.roundRobinIndex % backends.length]?,
    { m with roundRobinIndex := (m.roundRobinIndex + 1) % backends.length })

end RoundRobin

namespace IpHash

/-- `select`. -/
def select (backends : List Backend) (req : ClientRequest) : Option Backend :=
  backends[simpleHash (codeUnits (getClientIp req)) % backends.length]?

end IpHash

namespace LeastConnections

/-- One iteration of the first loop: the minimum so far (`none` for
`Infinity`) and the backends that attain it. -/
def minStep (acc : Option Int × List Backend) (b : Backend) : Option Int × List Backend :=
  match acc.1 with
  | none => (some b.activeConnections, [b])
  | some minConnections =>
      if b.activeConnections < minConnections then (some b.activeConnections, [b])
      else if b.activeConnections = minConnections then
        (some minConnections, acc.2 ++ [b])
      else acc

/-- The second loop: the first backend with the best score. -/
def breakTie (now : Int) (pool : BackendPool) :
    List Backend → Int → Option Backend → StrategyMemory → Option Backend × StrategyMemory
  | [], _, selected, m => (selected, m)
  | b :: bs, bestScore, selected, m =>
      let (score, m) := m.scoreOf now pool b.id
      if bestScore < score then breakTie now pool bs score (some b) m
      else breakTie now pool bs bestScore selected m

/-- `select`. -/
def select (now : Int) (pool : BackendPool) (backends : List Backend)
    (m : StrategyMemory) : Option Backend × StrategyMemory :=
  let selectedBackends := (backends.foldl minStep (none, [])).2
  breakTie now pool selectedBackends (-1) selectedBackends.head? m

end LeastConnections

namespace Strategy

/-- `getAvailableAlgorithms`, in the order of the object literal. -/
def available : List (String × Strategy) :=
  [ ("round-robin", .roundRobin)
  , ("least-connections", .leastConnections)
  , ("weighted-round-robin", .weightedRoundRobin)
  , ("ip-hash", .ipHash)
  , ("consistent-hash", .consistentHash) ]

/-- Names that a plain object inherits from `Object.prototype`. -/
def inheritedMembers : List String :=
  [ "constructor", "__defineGetter__", "__defineSetter__", "hasOwnProperty",
    "__lookupGetter__", "__lookupSetter__", "isPrototypeOf", "propertyIsEnumerable",
    "toString", "valueOf", "__proto__", "toLocaleString" ]

/-- `getStrategy`: a property lookup followed by a truthiness test. -/
def getStrategy (name : String) : Except String Strategy :=
  match available.find? (fun entry => entry.1 = name) with
  | some entry => .ok entry.2
  | none =>
      if name ∈ inheritedMembers then .ok (.inherited name)
      else .error s!"Unknown load balancing algorithm: {name}"

/-- The installed object is one of the five strategy instances. -/
def genuine : Strategy → Bool
  | .inherited _ => false
  | _ => true

/-- `this._strategy.select(healthy, req)`. -/
def select (cfg : Config) (now : Int) (pool : BackendPool) (req : ClientRequest)
    (backends : List Backend) (m : StrategyMemory) :
    Strategy → Pick × StrategyMemory
  | .roundRobin =>
      let (selected, m) := RoundRobin.select backends m
      (Pick.ofOption selected, m)
  | .leastConnections =>
      let (selected, m) := LeastConnections.select now pool backends m
      (Pick.ofOption selected, m)
  | .weightedRoundRobin => WeightedRoundRobin.select now pool backends m
  | .ipHash => (Pick.ofOption (IpHash.select backends req), m)
  | .consistentHash => (Pick.ofOption (ConsistentHash.select cfg.hash32 backends req), m)
  | .inherited _ => (.failed, m)

end Strategy

section Membership

variable {backends : List Backend}

theorem RoundRobin.select_mem (hne : backends ≠ []) (m : StrategyMemory) :
    ∃ b ∈ backends, (RoundRobin.select backends m).1 = some b := by
  have hpos : 0 < backends.length := List.length_pos_iff.mpr hne
  have hidx := Nat.mod_lt m.roundRobinIndex hpos
  exact ⟨backends[m.roundRobinIndex % backends.length], List.getElem_mem hidx,
    List.getElem?_eq_getElem hidx⟩

theorem IpHash.select_mem (hne : backends ≠ []) (req : ClientRequest) :
    ∃ b ∈ backends, IpHash.select backends req = some b := by
  have hpos : 0 < backends.length := List.length_pos_iff.mpr hne
  have hidx := Nat.mod_lt (simpleHash (codeUnits (getClientIp req))) hpos
  exact ⟨_, List.getElem_mem hidx, List.getElem?_eq_getElem hidx⟩

namespace LeastConnections

/-- The first loop only collects backends it has seen, and once it has seen
one it holds at least one. -/
theorem foldl_minStep_spec (bs : List Backend) (acc : Option Int × List Backend)
    (hacc : acc.2 ≠ [] ∨ acc.1 = none) :
    (∀ b ∈ (bs.foldl minStep acc).2, b ∈ acc.2 ∨ b ∈ bs) ∧
      (acc.2 ≠ [] ∨ bs ≠ [] → (bs.foldl minStep acc).2 ≠ []) := by
  induction bs generalizing acc with
  | nil => exact ⟨fun b hb => Or.inl hb, fun h => by simpa using h⟩
  | cons b bs ih =>
      have hstep : (minStep acc b).2 ≠ [] ∧
          ∀ b' ∈ (minStep acc b).2, b' ∈ acc.2 ∨ b' = b := by
        simp only [minStep]
        split
        · simp
        · next minConnections hmin =>
            have hne : acc.2 ≠ [] := by
              rcases hacc with h | h
              · exact h
              · simp [hmin] at h
            split_ifs
            · simp
            · simp
            · exact ⟨hne, fun b' hb' => Or.inl hb'⟩
      obtain ⟨hmem, hnonempty⟩ := ih (minStep acc b) (Or.inl hstep.1)
      rw [List.foldl_cons]
      refine ⟨fun b' hb' => ?_, fun _ => hnonempty (Or.inl hstep.1)⟩
      rcases hmem b' hb' with h | h
      · rcases hstep.2 b' h with h | rfl
        · exact Or.inl h
        · exact Or.inr (by simp)
      · exact Or.inr (by simp [h])

/-- The second loop returns a tied backend or the one it was started with. -/
theorem breakTie_mem (now : Int) (pool : BackendPool) (bs : List Backend) (bestScore : Int)
    (selected : Backend) (m : StrategyMemory) :
    ∃ b, (breakTie now pool bs bestScore (some selected) m).1 = some b ∧
      (b = selected ∨ b ∈ bs) := by
  induction bs generalizing bestScore selected m with
  | nil => exact ⟨selected, rfl, Or.inl rfl⟩
  | cons b bs ih =>
      unfold breakTie
      dsimp only
      split_ifs
      · obtain ⟨b', hb', hmem⟩ := ih (m.scoreOf now pool b.id).1 b (m.scoreOf now pool b.id).2
        refine ⟨b', hb', Or.inr ?_⟩
        rcases hmem with rfl | h
        · simp
        · simp [h]
      · obtain ⟨b', hb', hmem⟩ := ih bestScore selected (m.scoreOf now pool b.id).2
        refine ⟨b', hb', ?_⟩
        rcases hmem with rfl | h
        · exact Or.inl rfl
        · exact Or.inr (by simp [h])

theorem select_mem (now : Int) (pool : BackendPool) (hne : backends ≠ [])
    (m : StrategyMemory) :
    ∃ b ∈ backends, (select now pool backends m).1 = some b := by
  obtain ⟨hmem, hnonempty⟩ :=
    foldl_minStep_spec backends (none, []) (Or.inr rfl)
  have htied := hnonempty (Or.inr hne)
  unfold select
  dsimp only
  cases hsel : (backends.foldl minStep (none, [])).2 with
  | nil => exact absurd hsel htied
  | cons b₀ rest =>
      rw [hsel] at hmem
      obtain ⟨b, hb, hin⟩ := breakTie_mem now pool (b₀ :: rest) (-1) b₀ m
      refine ⟨b, ?_, by simpa using hb⟩
      have hb' : b ∈ b₀ :: rest := by
        rcases hin with rfl | h
        · simp
        · exact h
      simpa using hmem b hb'

end LeastConnections

/-- The pick of a strategy that has read one of the candidates. -/
theorem Pick.exists_of_ofOption {selected : Option Backend}
    (h : ∃ b ∈ backends, selected = some b) :
    ∃ b ∈ backends, Pick.ofOption selected = .backend b := by
  obtain ⟨b, hb, rfl⟩ := h
  exact ⟨b, hb, rfl⟩

/-- Each of the five strategies picks a member of a non-empty candidate list,
if the threshold carried over is at most `2 ^ 53 + 2`. -/
theorem Strategy.select_mem (cfg : Config) (now : Int) (pool : BackendPool)
    (req : ClientRequest) (hne : backends ≠ []) {m : StrategyMemory}
    (hw : m.wrr.currentWeight ≤ 2 ^ 53 + 2) {strategy : Strategy}
    (hgenuine : strategy.genuine = true) :
    ∃ b ∈ backends, (strategy.select cfg now pool req backends m).1 = .backend b := by
  cases strategy with
  | roundRobin => exact Pick.exists_of_ofOption (RoundRobin.select_mem hne m)
  | leastConnections => exact Pick.exists_of_ofOption (LeastConnections.select_mem now pool hne m)
  | weightedRoundRobin => exact WeightedRoundRobin.select_mem now pool hne hw
  | ipHash => exact Pick.exists_of_ofOption (IpHash.select_mem hne req)
  | consistentHash => exact Pick.exists_of_ofOption (ConsistentHash.select_mem cfg.hash32 hne req)
  | inherited member => simp [genuine] at hgenuine

/-- Whatever a strategy picks is one of the candidates. -/
theorem Strategy.mem_of_select {cfg : Config} {now : Int} {pool : BackendPool}
    {req : ClientRequest} {m : StrategyMemory} {strategy : Strategy} (hne : backends ≠ [])
    {b : Backend} (h : (strategy.select cfg now pool req backends m).1 = .backend b) :
    b ∈ backends := by
  have hread : ∀ {selected : Option Backend}, (∃ b ∈ backends, selected = some b) →
      Pick.ofOption selected = .backend b → b ∈ backends := by
    rintro selected ⟨b', hb', rfl⟩ hpick
    exact Pick.backend.inj hpick ▸ hb'
  cases strategy with
  | roundRobin => exact hread (RoundRobin.select_mem hne m) h
  | leastConnections => exact hread (LeastConnections.select_mem now pool hne m) h
  | weightedRoundRobin => exact WeightedRoundRobin.mem_of_select h
  | ipHash => exact hread (IpHash.select_mem hne req) h
  | consistentHash => exact hread (ConsistentHash.select_mem cfg.hash32 hne req) h
  | inherited member => simp [select] at h

/-- The algorithm names and the lookup agree. -/
theorem Strategy.getStrategy_genuine {name : String} {strategy : Strategy}
    (h : Strategy.getStrategy name = .ok strategy) :
    strategy.genuine = true ↔ name ∈ Strategy.available.map Prod.fst := by
  simp only [getStrategy] at h
  cases hfind : available.find? (fun entry => entry.1 = name) with
  | some entry =>
      have hmem := List.mem_of_find?_eq_some hfind
      have hname : entry.1 = name := by simpa using List.find?_some hfind
      have hall : ∀ e ∈ available, e.2.genuine = true := by decide
      obtain rfl : entry.2 = strategy := by simpa [hfind] using h
      exact ⟨fun _ => hname ▸ List.mem_map_of_mem hmem, fun _ => hall entry hmem⟩
  | none =>
      simp only [hfind] at h
      split_ifs at h
      · obtain rfl := Except.ok.inj h
        constructor
        · intro hg
          simp [genuine] at hg
        · intro hmem
          obtain ⟨entry, hentry, hname⟩ := List.mem_map.mp hmem
          have := List.find?_eq_none.mp hfind entry hentry
          simp [hname] at this

end Membership

end SentinelADC
