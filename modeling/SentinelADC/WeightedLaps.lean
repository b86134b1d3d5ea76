import SentinelADC.WeightedRoundRobin
import SentinelADC.Lib.CyclicQueue
import SentinelADC.Lib.Runs

/-!
# Laps of the weighted scan

For a fixed candidate list the scan of weighted round robin is a cyclic
schedule: one lap for each threshold, from the largest weight down to the last
positive one, and in each lap the candidates that meet the threshold, in order.
What a carried-over state still has to go through is the end of such a schedule,
after which the full one is dealt over and over.
-/

namespace SentinelADC
namespace WeightedRoundRobin

open CyclicQueue Runs

/-- Candidate ids with their effective weights. -/
abbrev Offer := List (String × Nat)

def VirtualMember.entry (x : VirtualMember) : String × Nat :=
  (x.backend.id, x.weight)

/-- The candidates that meet a threshold. -/
def lap (offer : Offer) (t : Int) : Offer :=
  offer.filter (fun e => t ≤ e.2)

/-- One lap for each threshold. -/
def laps (offer : Offer) (ts : List Int) : Offer :=
  ts.flatMap (lap offer)

/-- `ts` are the thresholds that follow `t` before the next reset. -/
inductive Descent (g : Nat) : Int → List Int → Prop
  | last {t : Int} (hreset : Double.round (t - g) ≤ 0) : Descent g t []
  | next {t : Int} {ts : List Int} (hpos : 0 < Double.round (t - g))
      (hrest : Descent g (Double.round (t - g)) ts) :
      Descent g t (Double.round (t - g) :: ts)

/-- `queue` lists the candidates that are selected from `s` on before the next
reset: the rest of the lap and the laps of the thresholds that follow. -/
def Ahead (offer : Offer) (g : Nat) (s : WrrState) (queue : Offer) : Prop :=
  ∃ visited ts, 1 ≤ visited ∧ visited ≤ offer.length ∧
    (s.currentIndex + 1) % (offer.length : Int) = (visited : Int) % offer.length ∧
    Descent g s.currentWeight ts ∧
    queue = lap (offer.drop visited) s.currentWeight ++ laps offer ts

section Scan

variable {members : List VirtualMember} {maxWeight g : Nat} {s : WrrState} {queue : Offer}
  {ts : List Int}

@[simp] theorem laps_nil (offer : Offer) :
    laps offer [] = [] := by
  rfl

@[simp] theorem laps_cons (offer : Offer) (t : Int) (ts : List Int) :
    laps offer (t :: ts) = lap offer t ++ laps offer ts := by
  rfl

/-- One update moves on within the lap or starts the next one, and the
schedule is filled in where the threshold is reset. -/
theorem advance_ahead (hmax : Descent g maxWeight ts)
    (h : Ahead (members.map VirtualMember.entry) g s queue) :
    ∃ (p : Nat) (queue' : Offer) (ts' : List Int), p < members.length ∧
      (advance members.length maxWeight g s).currentIndex = p ∧
      Descent g (advance members.length maxWeight g s).currentWeight ts' ∧
      queue' = lap ((members.map VirtualMember.entry).drop p)
          (advance members.length maxWeight g s).currentWeight ++
        laps (members.map VirtualMember.entry) ts' ∧
      refill (laps (members.map VirtualMember.entry) (maxWeight :: ts)) queue' =
        refill (laps (members.map VirtualMember.entry) (maxWeight :: ts)) queue := by
  obtain ⟨visited, ts', hfirst, hlast, hindex, hdescent, rfl⟩ := h
  rw [List.length_map] at hlast hindex
  rcases Nat.lt_or_eq_of_le hlast with hlt | rfl
  · have hmod : (visited : Int) % members.length = visited :=
      Int.emod_eq_of_lt (by omega) (by omega)
    have hne : visited ≠ 0 := by omega
    have hadvance : advance members.length maxWeight g s =
        ⟨visited, s.currentWeight⟩ := by
      simp [advance, hindex, hmod, hne]
    refine ⟨visited, _, ts', hlt, by rw [hadvance], by rw [hadvance]; exact hdescent, rfl, ?_⟩
    rw [hadvance]
  · have hwrap : (s.currentIndex + 1) % (members.length : Int) = 0 := by
      rw [hindex, Int.emod_self]
    have hadvance := advance_of_wrap maxWeight g hwrap
    have hdrop : (members.map VirtualMember.entry).drop members.length = [] := by simp
    rw [hdrop]
    cases hdescent with
    | last hreset =>
        rw [if_pos hreset] at hadvance
        refine ⟨0, _, ts, by omega, by rw [hadvance]; rfl, by rw [hadvance]; exact hmax, rfl, ?_⟩
        rw [hadvance, List.drop_zero, ← laps_cons, refill_self]
        rfl
    | @next _ ts' hpos hrest =>
        rw [if_neg (by omega)] at hadvance
        refine ⟨0, _, ts', by omega, by rw [hadvance]; rfl, by rw [hadvance]; exact hrest, rfl, ?_⟩
        rw [hadvance, List.drop_zero, laps_cons]
        rfl

/-- A scan that returns deals the next item of the schedule. -/
theorem scan_ahead {fuel : Nat} {s' : WrrState} {b : Backend} (hmax : Descent g maxWeight ts)
    (h : Ahead (members.map VirtualMember.entry) g s queue)
    (hscan : scan members maxWeight g fuel s = (.backend b, s')) :
    ∃ e rest, refill (laps (members.map VirtualMember.entry) (maxWeight :: ts)) queue =
        e :: rest ∧ e.1 = b.id ∧ Ahead (members.map VirtualMember.entry) g s' rest := by
  induction fuel generalizing s queue with
  | zero => simp [scan] at hscan
  | succ fuel ih =>
      obtain ⟨p, queue', ts', hp, hindex, hdescent, hqueue, hrefill⟩ := advance_ahead hmax h
      have hget : members[(advance members.length maxWeight g s).currentIndex.toNat]? =
          some members[p] := by
        rw [hindex, Int.toNat_natCast, List.getElem?_eq_getElem hp]
      have hp' : p < (members.map VirtualMember.entry).length := by simpa using hp
      have hvisited : ((advance members.length maxWeight g s).currentIndex + 1) %
            ((members.map VirtualMember.entry).length : Int) =
          ((p + 1 : Nat) : Int) % (members.map VirtualMember.entry).length := by
        rw [hindex, Nat.cast_add_one]
      rw [List.drop_eq_getElem_cons hp'] at hqueue
      simp only [scan, hget] at hscan
      rw [← hrefill]
      split_ifs at hscan with hheavy
      · obtain ⟨hb, rfl⟩ := Prod.ext_iff.mp hscan
        obtain rfl := Pick.backend.inj hb
        rw [lap, List.filter_cons_of_pos (by simpa [VirtualMember.entry] using hheavy)] at hqueue
        refine ⟨(members.map VirtualMember.entry)[p], _, by rw [hqueue]; rfl, ?_, p + 1, ts',
          by omega, by omega, hvisited, hdescent, rfl⟩
        simp [VirtualMember.entry]
      · rw [lap, List.filter_cons_of_neg (by simpa [VirtualMember.entry] using hheavy)] at hqueue
        exact ih ⟨p + 1, ts', by omega, by omega, hvisited, hdescent, hqueue⟩ hscan

/-- A stuck threshold has no end. -/
theorem Descent.false_of_absorbed {t w : Int} {ts : List Int} (h : Descent g t ts) (hpos : 0 < w)
    (hle : w ≤ t) (habsorbed : Double.round (w - g) = w) :
    False := by
  have hminuend : 0 < w - g := Double.nonneg_of_round_pos (by rw [habsorbed]; exact hpos)
  induction h with
  | @last t hreset =>
      have hmono := Double.round_mono_of_nonneg (x := w - g) (y := t - g) (by omega) (by omega)
      omega
  | @next t ts hpos' hrest ih =>
      have hmono := Double.round_mono_of_nonneg (x := w - g) (y := t - g) (by omega) (by omega)
      exact ih (by omega)

/-- A state that ends some day is one from which the scan returns. -/
theorem scan_returns (hne : members ≠ [])
    (hdouble : Double.round s.currentWeight = s.currentWeight)
    (h : Ahead (members.map VirtualMember.entry) (getGcdOfWeights members) s queue) :
    ∃ b, (scan members (getMaxWeight members) (getGcdOfWeights members)
      (scanBound members.length s) s).1 = .backend b := by
  obtain ⟨visited, ts, -, -, -, hdescent, -⟩ := h
  rcases scan_cases hne (Double.round_sub_le_max hdouble (by omega)) with
    hfound | ⟨⟨w, hle, hstuck⟩, -⟩
  · exact hfound
  · exact (hdescent.false_of_absorbed hstuck.pos hle hstuck.absorbed).elim

end Scan

section Offers

variable {offer : Offer} {members : List VirtualMember}

/-- Greatest common divisor of the weights. -/
def gcdWeight (offer : Offer) : Nat :=
  offer.foldr (fun e g => Nat.gcd e.2 g) 0

/-- Largest weight. -/
def topWeight (offer : Offer) : Nat :=
  offer.foldr (fun e top => max e.2 top) 0

def totalWeight (offer : Offer) : Nat :=
  (offer.map Prod.snd).sum

theorem getMaxWeight_eq (members : List VirtualMember) :
    getMaxWeight members = topWeight (members.map VirtualMember.entry) := by
  have hfold : ∀ (l : List VirtualMember) (acc : Nat),
      l.foldl (fun acc x => if acc < x.weight then x.weight else acc) acc =
        max acc (topWeight (l.map VirtualMember.entry)) := by
    intro l
    induction l with
    | nil => intro acc; exact (Nat.max_zero acc).symm
    | cons x l ih =>
        intro acc
        have hcons : topWeight ((x :: l).map VirtualMember.entry) =
            max x.weight (topWeight (l.map VirtualMember.entry)) := rfl
        rw [List.foldl_cons, ih, hcons]
        split_ifs <;> omega
  rw [getMaxWeight, hfold, Nat.zero_max]

theorem le_topWeight {e : String × Nat} (he : e ∈ offer) :
    e.2 ≤ topWeight offer := by
  induction offer with
  | nil => simp at he
  | cons e' offer ih =>
      have hcons : topWeight (e' :: offer) = max e'.2 (topWeight offer) := rfl
      rw [hcons]
      rcases List.mem_cons.mp he with rfl | he
      · exact le_max_left _ _
      · exact (ih he).trans (le_max_right _ _)

theorem exists_topWeight (hne : offer ≠ []) :
    ∃ e ∈ offer, e.2 = topWeight offer := by
  induction offer with
  | nil => exact absurd rfl hne
  | cons e offer ih =>
      have hcons : topWeight (e :: offer) = max e.2 (topWeight offer) := rfl
      by_cases hlt : topWeight offer ≤ e.2
      · exact ⟨e, List.mem_cons_self, by rw [hcons, max_eq_left hlt]⟩
      · have hrest : offer ≠ [] := by
          rintro rfl
          exact hlt (Nat.zero_le _)
        obtain ⟨e', he', htop⟩ := ih hrest
        exact ⟨e', List.mem_cons_of_mem e he', by rw [hcons, htop, max_eq_right (by omega)]⟩

theorem gcdWeight_dvd {e : String × Nat} (he : e ∈ offer) :
    gcdWeight offer ∣ e.2 := by
  induction offer with
  | nil => simp at he
  | cons e' offer ih =>
      have hcons : gcdWeight (e' :: offer) = Nat.gcd e'.2 (gcdWeight offer) := rfl
      rcases List.mem_cons.mp he with rfl | he
      · rw [hcons]
        exact Nat.gcd_dvd_left _ _
      · rw [hcons]
        exact (Nat.gcd_dvd_right _ _).trans (ih he)

theorem dvd_gcdWeight {d : Nat} (h : ∀ e ∈ offer, d ∣ e.2) :
    d ∣ gcdWeight offer := by
  induction offer with
  | nil => exact Nat.dvd_zero d
  | cons e offer ih =>
      exact Nat.dvd_gcd (h e List.mem_cons_self)
        (ih (fun e' he' => h e' (List.mem_cons_of_mem e he')))

/-- The source's loop computes the greatest common divisor. -/
theorem getGcdOfWeights_eq (hne : members ≠ []) (hpos : ∀ x ∈ members, 0 < x.weight) :
    getGcdOfWeights members = gcdWeight (members.map VirtualMember.entry) := by
  have hone : ∀ {weight : Nat}, 0 < weight → orOne weight = weight :=
    fun h => if_neg (Nat.pos_iff_ne_zero.mp h)
  have hfold : ∀ (rest : List VirtualMember) (acc : Nat), (∀ x ∈ rest, 0 < x.weight) →
      rest.foldl (fun result x => gcd result (orOne x.weight)) acc =
        Nat.gcd acc (gcdWeight (rest.map VirtualMember.entry)) := by
    intro rest
    induction rest with
    | nil =>
        intro acc hrest
        exact (Nat.gcd_zero_right acc).symm
    | cons x rest ih =>
        intro acc hrest
        rw [List.foldl_cons, ih _ (fun y hy => hrest y (List.mem_cons_of_mem x hy)), gcd_eq,
          hone (hrest x List.mem_cons_self), Nat.gcd_assoc]
        rfl
  obtain ⟨x, rest, rfl⟩ := List.exists_cons_of_ne_nil hne
  rw [getGcdOfWeights, hfold rest _ (fun y hy => hpos y (List.mem_cons_of_mem x hy)),
    hone (hpos x List.mem_cons_self)]
  rfl

theorem dynamicWeight_pos (weight : Nat) (score : Int) :
    0 < dynamicWeight weight score := by
  simp only [dynamicWeight]
  omega

theorem weight_pos_virtualPool {now : Int} {pool : BackendPool} {backends : List Backend}
    {m : StrategyMemory} {x : VirtualMember} (hx : x ∈ (virtualPool now pool backends m).1) :
    0 < x.weight := by
  induction backends generalizing m with
  | nil => simp [virtualPool] at hx
  | cons b bs ih =>
      simp only [virtualPool, List.mem_cons] at hx
      rcases hx with rfl | hx
      · exact dynamicWeight_pos _ _
      · exact ih hx

end Offers

/-- What one call of `select` finds: the candidates, and all it reads besides
the index and the threshold.  Effective weights are numbers of the language. -/
structure Call where
  now : Int
  pool : BackendPool
  backends : List Backend
  memory : StrategyMemory
  nonempty : backends ≠ []
  nodup : (backends.map Backend.id).Nodup
  doubles : ∀ x ∈ (virtualPool now pool backends memory).1, Double.round x.weight = x.weight

namespace Call

def members (c : Call) : List VirtualMember :=
  (virtualPool c.now c.pool c.backends c.memory).1

def offer (c : Call) : Offer :=
  c.members.map VirtualMember.entry

/-- The call with the index and the threshold that the last one left behind. -/
def select (c : Call) (s : WrrState) : Pick × WrrState :=
  let result := WeightedRoundRobin.select c.now c.pool c.backends { c.memory with wrr := s }
  (result.1, result.2.wrr)

end Call

/-- The state of a new strategy instance. -/
def fresh : WrrState :=
  ⟨-1, 0⟩

/-- The results of a sequence of calls. -/
def picks : WrrState → List Call → List Pick
  | _, [] => []
  | s, c :: calls => (c.select s).1 :: picks (c.select s).2 calls

/-- The state after a sequence of calls. -/
def stateAfter (s : WrrState) (calls : List Call) : WrrState :=
  run (fun s c => (c.select s).2) s calls

/-- The id of the backend that a call returned. -/
def chosen : Pick → Option String
  | .backend b => some b.id
  | _ => none

/-- The threshold is a number of the language and not negative. -/
structure Stored (s : WrrState) : Prop where
  nonneg : 0 ≤ s.currentWeight
  double : Double.round s.currentWeight = s.currentWeight

section Calls

variable {c : Call} {s : WrrState} {offer queue : Offer} {ts : List Int}

theorem members_of_wrr (now : Int) (pool : BackendPool) (backends : List Backend)
    (m : StrategyMemory) (s : WrrState) :
    (virtualPool now pool backends { m with wrr := s }).1 =
      (virtualPool now pool backends m).1 := by
  induction backends generalizing m with
  | nil => rfl
  | cons b bs ih =>
      have hcleanup : { m with wrr := s }.cleanup now b.id =
          { m.cleanup now b.id with wrr := s } := by
        simp only [StrategyMemory.cleanup]
        split <;> rfl
      have hscore : ({ m with wrr := s }.scoreOf now pool b.id).1 =
          (m.scoreOf now pool b.id).1 := by
        simp only [StrategyMemory.scoreOf, StrategyMemory.getBackendMetrics, hcleanup]
        split <;> rfl
      simp only [virtualPool, StrategyMemory.scoreOf_snd, hscore, hcleanup, ih]

theorem Call.members_ne_nil (c : Call) :
    c.members ≠ [] := by
  intro hnil
  have hmap := map_backend_virtualPool c.now c.pool c.backends c.memory
  rw [show (virtualPool c.now c.pool c.backends c.memory).1 = [] from hnil] at hmap
  exact c.nonempty hmap.symm

theorem Call.weight_pos (c : Call) {e : String × Nat} (he : e ∈ c.offer) :
    0 < e.2 := by
  obtain ⟨x, hx, rfl⟩ := List.mem_map.mp he
  exact weight_pos_virtualPool hx

theorem Call.ids_nodup (c : Call) :
    (c.offer.map Prod.fst).Nodup := by
  have hids : c.offer.map Prod.fst = c.backends.map Backend.id := by
    conv_rhs => rw [← map_backend_virtualPool c.now c.pool c.backends c.memory]
    rw [offer, List.map_map, List.map_map]
    rfl
  rw [hids]
  exact c.nodup

theorem Call.gcdWeight_eq (c : Call) :
    getGcdOfWeights c.members = gcdWeight c.offer :=
  getGcdOfWeights_eq c.members_ne_nil (fun _ hx => weight_pos_virtualPool hx)

theorem Call.offer_ne_nil (c : Call) :
    c.offer ≠ [] := by
  simp [offer, c.members_ne_nil]

theorem Call.double_topWeight (c : Call) :
    Double.round (topWeight c.offer) = topWeight c.offer := by
  obtain ⟨e, he, htop⟩ := exists_topWeight c.offer_ne_nil
  obtain ⟨x, hx, rfl⟩ := List.mem_map.mp he
  rw [← htop]
  exact c.doubles x hx

theorem Call.topWeight_pos (c : Call) :
    0 < topWeight c.offer := by
  obtain ⟨e, he, htop⟩ := exists_topWeight c.offer_ne_nil
  rw [← htop]
  exact c.weight_pos he

/-- A call is one scan of the loop. -/
theorem Call.select_eq (c : Call) (s : WrrState) :
    c.select s = scan c.members (topWeight c.offer) (gcdWeight c.offer)
      (scanBound c.members.length s) s := by
  have hmembers : (virtualPool c.now c.pool c.backends { c.memory with wrr := s }).1 =
      c.members := members_of_wrr c.now c.pool c.backends c.memory s
  have hwrr : (virtualPool c.now c.pool c.backends { c.memory with wrr := s }).2.wrr = s :=
    wrr_virtualPool c.now c.pool c.backends { c.memory with wrr := s }
  have hmax : getMaxWeight c.members = topWeight c.offer := getMaxWeight_eq c.members
  have hpos := c.topWeight_pos
  simp only [select, WeightedRoundRobin.select, hmembers, hwrr, hmax, c.gcdWeight_eq]
  rw [if_neg (by omega)]

/-- A threshold stays a number of the language. -/
theorem Stored.advance {n maxWeight g : Nat} (h : Stored s)
    (hmax : Double.round maxWeight = maxWeight) :
    Stored (WeightedRoundRobin.advance n maxWeight g s) := by
  obtain ⟨hnonneg, hdouble⟩ := h
  simp only [WeightedRoundRobin.advance]
  split_ifs with hwrap hreset
  · exact ⟨Int.natCast_nonneg _, hmax⟩
  · have hminuend := Double.nonneg_of_round_pos (Int.not_le.mp hreset)
    exact ⟨(Int.not_le.mp hreset).le, Double.round_round hminuend.le⟩
  · exact ⟨hnonneg, hdouble⟩

theorem Stored.scan {members : List VirtualMember} {maxWeight g fuel : Nat} (h : Stored s)
    (hmax : Double.round maxWeight = maxWeight) :
    Stored (WeightedRoundRobin.scan members maxWeight g fuel s).2 := by
  induction fuel generalizing s with
  | zero => exact h
  | succ fuel ih =>
      have hnext := h.advance (n := members.length) (g := g) hmax
      simp only [WeightedRoundRobin.scan]
      split
      · exact hnext
      · split_ifs
        · exact hnext
        · exact ih hnext

theorem Stored.select (h : Stored s) (c : Call) :
    Stored (c.select s).2 := by
  rw [c.select_eq]
  exact h.scan c.double_topWeight

theorem stored_fresh :
    Stored fresh :=
  ⟨le_refl 0, by decide⟩

theorem Stored.stateAfter (h : Stored s) (calls : List Call) :
    Stored (stateAfter s calls) :=
  run_preserves h (fun c _ _ hs => hs.select c)

/-- A call deals the next item of the schedule. -/
theorem select_ahead (hstored : Stored s)
    (hmax : Descent (gcdWeight c.offer) (topWeight c.offer) ts)
    (h : Ahead c.offer (gcdWeight c.offer) s queue) :
    ∃ e rest, refill (laps c.offer (topWeight c.offer :: ts)) queue = e :: rest ∧
      chosen (c.select s).1 = some e.1 ∧ Ahead c.offer (gcdWeight c.offer) (c.select s).2 rest := by
  have hfound : ∃ b, (c.select s).1 = .backend b := by
    rw [c.select_eq, ← c.gcdWeight_eq]
    rw [← c.gcdWeight_eq] at h
    have hreturns := scan_returns c.members_ne_nil hstored.double h
    rwa [getMaxWeight_eq] at hreturns
  obtain ⟨b, hb⟩ := hfound
  have hscan : scan c.members (topWeight c.offer) (gcdWeight c.offer)
      (scanBound c.members.length s) s = (.backend b, (c.select s).2) := by
    rw [← c.select_eq, ← hb]
  obtain ⟨e, rest, hrefill, hid, hrest⟩ := scan_ahead hmax h hscan
  exact ⟨e, rest, hrefill, by rw [hb, chosen, hid], hrest⟩

/-- A sequence of calls with one candidate list deals its schedule. -/
theorem picks_ahead {calls : List Call} (hfixed : ∀ c ∈ calls, c.offer = offer)
    (hstored : Stored s) (hmax : Descent (gcdWeight offer) (topWeight offer) ts)
    (h : Ahead offer (gcdWeight offer) s queue) :
    (picks s calls).map chosen =
        (deal (laps offer (topWeight offer :: ts)) calls.length queue).map (some ∘ Prod.fst) ∧
      ∃ queue', Ahead offer (gcdWeight offer) (stateAfter s calls) queue' ∧
        (queue <:+ laps offer (topWeight offer :: ts) →
          queue' <:+ laps offer (topWeight offer :: ts)) := by
  induction calls generalizing s queue with
  | nil => exact ⟨rfl, queue, h, id⟩
  | cons c calls ih =>
      obtain rfl := hfixed c List.mem_cons_self
      obtain ⟨e, rest, hrefill, hchosen, hrest⟩ := select_ahead hstored hmax h
      obtain ⟨hpicks, queue', hqueue', hsuffix⟩ :=
        ih (fun c' hc' => hfixed c' (List.mem_cons_of_mem c hc')) (hstored.select c) hrest
      refine ⟨?_, queue', hqueue', fun hq => hsuffix (suffix_of_refill hq hrefill)⟩
      rw [picks, List.map_cons, hchosen, hpicks, List.length_cons, deal, hrefill]
      rfl

end Calls

section Absorbed

variable {g : Nat} {s : WrrState} {w : Int}

/-- From a threshold that absorbs the gcd on, no lighter candidate is selected. -/
theorem scan_of_absorbed (members : List VirtualMember) (maxWeight fuel : Nat) (hpos : 0 < w)
    (habsorbed : Double.round (w - g) = w) (hle : w ≤ s.currentWeight) :
    w ≤ (scan members maxWeight g fuel s).2.currentWeight ∧
      ∀ b, (scan members maxWeight g fuel s).1 = .backend b →
        ∃ x ∈ members, x.backend = b ∧ w ≤ x.weight := by
  induction fuel generalizing s with
  | zero => exact ⟨hle, by simp [scan]⟩
  | succ fuel ih =>
      have hnext : w ≤ (advance members.length maxWeight g s).currentWeight := by
        have hminuend : 0 < w - g := Double.nonneg_of_round_pos (by rw [habsorbed]; exact hpos)
        have hmono := Double.round_mono_of_nonneg (x := w - g) (y := s.currentWeight - g)
          (by omega) (by omega)
        rw [habsorbed] at hmono
        simp only [advance]
        split_ifs with hwrap hreset
        · omega
        · exact hmono
        · exact hle
      simp only [scan]
      cases hget : members[(advance members.length maxWeight g s).currentIndex.toNat]? with
      | none => exact ⟨hnext, by simp⟩
      | some x =>
          simp only
          split_ifs with hheavy
          · refine ⟨hnext, ?_⟩
            intro b hb
            exact ⟨x, List.mem_of_getElem? hget, Pick.backend.inj hb, hnext.trans hheavy⟩
          · exact ih hnext

theorem not_chosen_of_absorbed {offer : Offer} {e : String × Nat} (calls : List Call)
    (hfixed : ∀ c ∈ calls, c.offer = offer) (hnodup : (offer.map Prod.fst).Nodup) (he : e ∈ offer)
    (hpos : 0 < w) (habsorbed : Double.round (w - gcdWeight offer) = w)
    (hle : w ≤ s.currentWeight) (hlight : e.2 < w) :
    some e.1 ∉ (picks s calls).map chosen := by
  induction calls generalizing s with
  | nil => simp [picks]
  | cons c calls ih =>
      obtain rfl := hfixed c List.mem_cons_self
      obtain ⟨hnext, hheavy⟩ := scan_of_absorbed c.members (topWeight c.offer)
        (scanBound c.members.length s) hpos habsorbed hle
      rw [← c.select_eq] at hnext hheavy
      rw [picks, List.map_cons, List.mem_cons, not_or]
      refine ⟨?_, ih (fun c' hc' => hfixed c' (List.mem_cons_of_mem c hc')) hnext⟩
      intro hchosen
      cases hpick : (c.select s).1 with
      | backend b =>
          obtain ⟨x, hx, hxb, hxw⟩ := hheavy b hpick
          rw [hpick, chosen, Option.some.injEq] at hchosen
          have hentry : x.entry = e := by
            refine List.inj_on_of_nodup_map hnodup (List.mem_map_of_mem hx) he ?_
            rw [hchosen, ← hxb]
            rfl
          have hweight : x.weight = e.2 := congrArg Prod.snd hentry
          omega
      | failed => simp [hpick, chosen] at hchosen
      | endless => simp [hpick, chosen] at hchosen

end Absorbed

section Shares

variable {offer : Offer} {ts : List Int} {g k : Nat}

theorem countP_lap (p : String × Nat → Bool) (offer : Offer) (t : Int) :
    (lap offer t).countP p =
      ((offer.filter p).map (fun e => if t ≤ e.2 then 1 else 0)).sum := by
  induction offer with
  | nil => rfl
  | cons e offer ih =>
      have hcons : lap (e :: offer) t = if t ≤ e.2 then e :: lap offer t else lap offer t := by
        simp [lap, List.filter_cons]
      rw [hcons, List.filter_cons]
      split_ifs with ht hp hp
      · simp [ih, ht, hp, Nat.add_comm]
      · simp [ih, hp]
      · simp [ih, ht]
      · exact ih

/-- A candidate occurs once for each threshold it meets. -/
theorem countP_laps (p : String × Nat → Bool) (offer : Offer) (ts : List Int) :
    (laps offer ts).countP p =
      ((offer.filter p).map (fun e => ts.countP (fun t => t ≤ e.2))).sum := by
  induction ts with
  | nil => simp
  | cons t ts ih =>
      rw [laps_cons, List.countP_append, countP_lap, ih, ← List.sum_map_add]
      congr 1
      apply List.map_congr_left
      intro e _
      rw [List.countP_cons, Nat.add_comm]
      simp

/-- The multiples of `g` from `k * g` down. -/
def multiples (g : Nat) : Nat → List Int
  | 0 => []
  | k + 1 => ((k + 1) * g : Nat) :: multiples g k

/-- Where the multiples of the gcd are doubles, they are the thresholds. -/
theorem descent_multiples (hg : 0 < g)
    (hexact : ∀ j ≤ k, Double.round ((j * g : Nat) : Int) = (j * g : Nat)) :
    Descent g ((k + 1) * g : Nat) (multiples g k) := by
  induction k with
  | zero =>
      refine Descent.last ?_
      have hround := hexact 0 (le_refl 0)
      simpa using hround.le
  | succ k ih =>
      have hsub : (((k + 1 + 1) * g : Nat) : Int) - g = ((k + 1) * g : Nat) := by
        push_cast
        ring
      have hround := hexact (k + 1) (le_refl _)
      have hrest := ih (fun j hj => hexact j (Nat.le_succ_of_le hj))
      have hpos : (0 : Int) < ((k + 1) * g : Nat) := by positivity
      rw [← hround, ← hsub] at hpos hrest
      have hnext := Descent.next hpos hrest
      rwa [hsub, hround] at hnext

theorem countP_multiples (hg : 0 < g) (k w : Nat) :
    (multiples g k).countP (fun t => t ≤ (w : Int)) = min k (w / g) := by
  induction k with
  | zero => simp [multiples]
  | succ k ih =>
      have hle : (((k + 1) * g : Nat) : Int) ≤ w ↔ k + 1 ≤ w / g := by
        rw [Nat.cast_le, Nat.le_div_iff_mul_le hg]
      rw [multiples, List.countP_cons, ih]
      simp only [decide_eq_true_eq, hle]
      split_ifs <;> omega

/-- The schedule of the multiples gives every candidate its share. -/
theorem countP_laps_multiples (p : String × Nat → Bool) (hg : 0 < gcdWeight offer) :
    (laps offer (multiples (gcdWeight offer) (topWeight offer / gcdWeight offer))).countP p =
      ((offer.filter p).map (fun e => e.2 / gcdWeight offer)).sum := by
  rw [countP_laps]
  congr 1
  apply List.map_congr_left
  intro e he
  have hle := Nat.div_le_div_right (c := gcdWeight offer)
    (le_topWeight (List.mem_of_mem_filter he))
  rw [countP_multiples hg, min_eq_right hle]

theorem sum_shares (hg : 0 < gcdWeight offer) :
    (offer.map (fun e => e.2 / gcdWeight offer)).sum = totalWeight offer / gcdWeight offer := by
  have hmul : ∀ l : Offer, (∀ e ∈ l, gcdWeight offer ∣ e.2) →
      (l.map (fun e => e.2 / gcdWeight offer)).sum * gcdWeight offer = totalWeight l := by
    intro l
    induction l with
    | nil => intro h; simp [totalWeight]
    | cons e l ih =>
        intro h
        have hcons : totalWeight (e :: l) = e.2 + totalWeight l := by simp [totalWeight]
        rw [List.map_cons, List.sum_cons, Nat.add_mul,
          Nat.div_mul_cancel (h e List.mem_cons_self),
          ih (fun e' he' => h e' (List.mem_cons_of_mem e he')), hcons]
  rw [← hmul offer (fun _ he => gcdWeight_dvd he), Nat.mul_div_cancel _ hg]

theorem Call.gcdWeight_pos (c : Call) :
    0 < gcdWeight c.offer := by
  rw [← c.gcdWeight_eq]
  exact getGcdOfWeights_pos c.members

theorem ahead_fresh (c : Call) :
    Ahead c.offer (gcdWeight c.offer) fresh [] := by
  have hlength := List.length_pos_iff.mpr c.offer_ne_nil
  refine ⟨c.offer.length, [], hlength, le_refl _, by simp [fresh], Descent.last ?_, by simp [lap]⟩
  exact Double.round_nonpos (show (0 : Int) - gcdWeight c.offer ≤ 0 by omega)

theorem filter_id_eq {e : String × Nat} (hnodup : (offer.map Prod.fst).Nodup) (he : e ∈ offer) :
    offer.filter (fun e' => e'.1 = e.1) = [e] := by
  induction offer with
  | nil => simp at he
  | cons e' offer ih =>
      rw [List.map_cons, List.nodup_cons] at hnodup
      rcases List.mem_cons.mp he with rfl | he
      · rw [List.filter_cons_of_pos (by simp), List.cons.injEq, List.filter_eq_nil_iff]
        refine ⟨rfl, ?_⟩
        intro e' he' hid
        have heq : e'.1 = e.1 := by simpa using hid
        exact hnodup.1 (heq ▸ List.mem_map_of_mem he')
      · have hne : e'.1 ≠ e.1 := fun heq => hnodup.1 (heq ▸ List.mem_map_of_mem he)
        rw [List.filter_cons_of_neg (by simpa using hne), ih hnodup.2 he]

/-- The weights of a candidate list from which no threshold is rounded: the
multiples of the gcd up to the largest weight are doubles. -/
def Exact (offer : Offer) : Prop :=
  ∀ k, k * gcdWeight offer ≤ topWeight offer →
    Double.round ((k * gcdWeight offer : Nat) : Int) = (k * gcdWeight offer : Nat)

/-- Then the thresholds are the multiples of the gcd. -/
theorem Call.schedule_of_exact {c : Call} (hexact : Exact c.offer) :
    ∃ ts, Descent (gcdWeight c.offer) (topWeight c.offer) ts ∧
      (topWeight c.offer : Int) :: ts =
        multiples (gcdWeight c.offer) (topWeight c.offer / gcdWeight c.offer) := by
  have hg := c.gcdWeight_pos
  obtain ⟨top, htop, heq⟩ := exists_topWeight c.offer_ne_nil
  obtain ⟨k, hk⟩ := (heq ▸ gcdWeight_dvd htop : gcdWeight c.offer ∣ topWeight c.offer)
  rw [Nat.mul_comm] at hk
  cases k with
  | zero =>
      have hpos := c.topWeight_pos
      omega
  | succ k =>
      refine ⟨multiples (gcdWeight c.offer) k, ?_, ?_⟩
      · rw [hk]
        refine descent_multiples hg (fun j hj => hexact j ?_)
        rw [hk]
        exact Nat.mul_le_mul_right _ (by omega)
      · rw [hk, Nat.mul_div_cancel _ hg, multiples]

/-- With one candidate list from the start, each round of calls gives every
candidate its exact share, wherever the round begins, as long as no threshold
is rounded. -/
theorem shares_proportional (call : Call) (before window : List Call)
    (hfixed : ∀ c ∈ before ++ window, c.offer = call.offer) (hexact : Exact call.offer)
    (hlength : window.length = totalWeight call.offer / gcdWeight call.offer) :
    ∀ e ∈ call.offer, ((picks (stateAfter fresh before) window).map chosen).count (some e.1) =
      e.2 / gcdWeight call.offer := by
  intro e he
  have hg := call.gcdWeight_pos
  obtain ⟨ts, hdescent, hmultiples⟩ := Call.schedule_of_exact hexact
  obtain ⟨-, queue, hqueue, hsuffix⟩ := picks_ahead
    (fun c hc => hfixed c (List.mem_append_left _ hc)) stored_fresh hdescent (ahead_fresh call)
  obtain ⟨hpicks, -⟩ := picks_ahead (fun c hc => hfixed c (List.mem_append_right _ hc))
    (stored_fresh.stateAfter before) hdescent hqueue
  have hround : (laps call.offer (topWeight call.offer :: ts)).length = window.length := by
    rw [hmultiples, hlength, ← sum_shares hg, ← List.countP_true, countP_laps_multiples _ hg,
      List.filter_true]
  have hperm := perm_deal (hsuffix List.nil_suffix)
  rw [hround] at hperm
  have hpred : (fun x => x == some e.1) ∘ (some ∘ Prod.fst) =
      fun e' : String × Nat => decide (e'.1 = e.1) := by
    funext e'
    by_cases hid : e'.1 = e.1 <;> simp [hid]
  rw [hpicks, List.count, List.countP_map, hpred, hperm.countP_eq, hmultiples,
    countP_laps_multiples _ hg, filter_id_eq call.ids_nodup he]
  simp

/-- Two candidates with the given weights. -/
def weighted (weight weight' : Nat) : List Backend :=
  [{ createBackend 0 "http://a" with weight := weight },
    { createBackend 1 "http://b" with weight := weight' }]

def weightedPool (weight weight' : Nat) : BackendPool where
  backends := weighted weight weight'
  nodup_ids := by
    simp [weighted, createBackend, backendId_injective.eq_iff]

/-- No measurements yet. -/
def idleMemory : StrategyMemory where
  history := fun _ => none
  roundRobinIndex := 0
  wrr := fresh

/-- A call with weights 3 and 2. -/
def lightCall : Call where
  now := 0
  pool := weightedPool 3 2
  backends := weighted 3 2
  memory := idleMemory
  nonempty := by simp [weighted]
  nodup := (weightedPool 3 2).nodup_ids
  doubles := by decide +kernel

theorem shares_proportional_sample :
    ((picks (stateAfter fresh [lightCall]) (List.replicate 5 lightCall)).map chosen).count
        (some "backend-1") = 3 / gcdWeight lightCall.offer := by
  have hexact : Exact lightCall.offer := by
    intro k hk
    have htop : topWeight lightCall.offer = 3 := by decide +kernel
    have hg : gcdWeight lightCall.offer = 1 := by decide +kernel
    rw [htop, hg] at hk
    rw [hg, Double.round_natCast, Double.roundNat_of_le (by omega)]
  exact shares_proportional lightCall [lightCall] (List.replicate 5 lightCall) (by simp) hexact
    (by decide +kernel) ("backend-1", 3) (by decide +kernel)

/-- A call with weights four to one, whose gcd is `2 ^ 52 + 1`. -/
def heavyCall : Call where
  now := 0
  pool := weightedPool (2 ^ 54 + 4) (2 ^ 52 + 1)
  backends := weighted (2 ^ 54 + 4) (2 ^ 52 + 1)
  memory := idleMemory
  nonempty := by simp [weighted]
  nodup := (weightedPool (2 ^ 54 + 4) (2 ^ 52 + 1)).nodup_ids
  doubles := by decide +kernel

/-- Three times the gcd is rounded up, and so is what follows: the fourth
threshold is above the lighter weight, and the first five calls all go to the
heavier candidate. -/
theorem shares_disproportional :
    ¬ ∀ (call : Call) (before window : List Call),
      (∀ c ∈ before ++ window, c.offer = call.offer) →
      window.length = totalWeight call.offer / gcdWeight call.offer →
      ∀ e ∈ call.offer, ((picks (stateAfter fresh before) window).map chosen).count (some e.1) =
        e.2 / gcdWeight call.offer := by
  intro hclaim
  have hcount := hclaim heavyCall [] (List.replicate 5 heavyCall) (by simp) (by decide +kernel)
    ("backend-2", 2 ^ 52 + 1) (by decide +kernel)
  revert hcount
  decide +kernel

end Shares

end WeightedRoundRobin
end SentinelADC
