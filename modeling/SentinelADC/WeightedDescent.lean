import SentinelADC.WeightedLaps

/-!
# Every candidate gets its turn

The threshold of weighted round robin survives every change of the candidate
list.  It comes down by about the gcd of the current weights, and before it is
reset it has been low enough for every candidate.  So two rounds are enough,
whatever was left behind, unless on the way down subtracting the gcd leaves a
threshold where it is.
-/

namespace SentinelADC
namespace WeightedRoundRobin

open CyclicQueue Runs

/-- Subtracting `g` lowers every threshold up to a limit. -/
def Falls (g : Nat) (limit : Int) : Prop :=
  ∀ t, 0 < t → t ≤ limit → Double.round t = t → Double.round (t - g) < t

/-- It lowers the threshold carried over and the largest weight, and so on. -/
def Call.Falls (c : Call) (s : WrrState) : Prop :=
  WeightedRoundRobin.Falls (gcdWeight c.offer) (max s.currentWeight (topWeight c.offer))

section Thresholds

variable {g w : Nat} {t limit : Int} {ts : List Int}

theorem Falls.mono {limit' : Int} (h : Falls g limit) (hle : limit' ≤ limit) :
    Falls g limit' :=
  fun t hpos ht hdouble => h t hpos (ht.trans hle) hdouble

/-- A threshold that falls ends in a reset. -/
theorem exists_descent (hfalls : Falls g t) (hnonneg : 0 ≤ t) (hdouble : Double.round t = t) :
    ∃ ts, Descent g t ts := by
  obtain ⟨n, hn⟩ : ∃ n, t.toNat = n := ⟨_, rfl⟩
  induction n using Nat.strong_induction_on generalizing t with
  | _ n ih =>
      by_cases hreset : Double.round (t - g) ≤ 0
      · exact ⟨[], Descent.last hreset⟩
      · have hminuend := Double.nonneg_of_round_pos (Int.not_le.mp hreset)
        have hlower := hfalls t (by omega) (le_refl t) hdouble
        obtain ⟨ts, hts⟩ := ih (Double.round (t - g)).toNat (by omega) (hfalls.mono hlower.le)
          (by omega) (Double.round_round hminuend.le) rfl
        exact ⟨_, Descent.next (Int.not_le.mp hreset) hts⟩

/-- The last threshold before a reset is at most the gcd. -/
theorem Descent.exists_le (h : Descent g t ts) :
    ∃ u ∈ t :: ts, u ≤ g := by
  induction h with
  | @last t hreset =>
      have := Double.nonpos_of_round_nonpos hreset
      exact ⟨t, List.mem_cons_self, by omega⟩
  | next hpos hrest ih =>
      obtain ⟨u, hu, hle⟩ := ih
      exact ⟨u, List.mem_cons_of_mem _ hu, hle⟩

/-- Each threshold but the last is at least half the gcd above the next one,
and the last but one is above the gcd. -/
theorem Descent.length_lt (h : Descent g t ts) (hfalls : Falls g t)
    (hdouble : Double.round t = t) (hne : ts ≠ []) :
    (g : Int) * (ts.length + 1) < 2 * t := by
  induction h with
  | last hreset => exact absurd rfl hne
  | @next t ts hpos hrest ih =>
      have hminuend := Double.nonneg_of_round_pos hpos
      have hlower := hfalls t (by omega) (le_refl t) hdouble
      by_cases hlast : ts = []
      · subst hlast
        simp only [List.length_cons, List.length_nil]
        omega
      · have hnext := ih (hfalls.mono hlower.le) (Double.round_round hminuend.le) hlast
        have hhalf := Double.le_two_mul_sub_round hdouble (by omega) hlower hminuend.le
        rw [List.length_cons]
        push_cast
        linarith

/-- A weight meets fewer than two thresholds for each time the gcd goes into it. -/
theorem Descent.countP_lt (h : Descent g t ts) (hfalls : Falls g t)
    (hdouble : Double.round t = t) (hw : 0 < w) (hdvd : g ∣ w) :
    (t :: ts).countP (fun u => u ≤ (w : Int)) + 1 ≤ 2 * (w / g) := by
  obtain ⟨a, rfl⟩ := hdvd
  have hg : 0 < g := Nat.pos_of_mul_pos_right hw
  have ha : 0 < a := Nat.pos_of_mul_pos_left hw
  rw [Nat.mul_div_cancel_left a hg]
  induction h with
  | @last t hreset =>
      have hle : [t].countP (fun u => u ≤ ((g * a : Nat) : Int)) ≤ 1 := List.countP_le_length
      omega
  | @next t ts hpos hrest ih =>
      have hminuend := Double.nonneg_of_round_pos hpos
      have hlower := hfalls t (by omega) (le_refl t) hdouble
      by_cases hle : t ≤ ((g * a : Nat) : Int)
      · have hlength := (Descent.next hpos hrest).length_lt hfalls hdouble (by simp)
        have hcount : (t :: Double.round (t - g) :: ts).countP
            (fun u => u ≤ ((g * a : Nat) : Int)) ≤ _ := List.countP_le_length
        have hmul : (g : Int) * ((Double.round (t - g) :: ts).length + 1) < g * (2 * a) := by
          push_cast at hle
          linarith
        have := lt_of_mul_lt_mul_left hmul (by omega)
        simp only [List.length_cons] at hcount this
        omega
      · rw [List.countP_cons_of_neg (by simpa using hle)]
        exact ih (hfalls.mono hlower.le) (Double.round_round hminuend.le)

end Thresholds

section Turns

variable {call : Call} {s : WrrState} {t : Int} {ts : List Int}

/-- The laps of one descent, and one call more for each candidate, are no more
than two rounds. -/
theorem length_laps_le (h : Descent (gcdWeight call.offer) t ts)
    (hfalls : Falls (gcdWeight call.offer) t) (hdouble : Double.round t = t) :
    (laps call.offer (t :: ts)).length + call.offer.length ≤
      2 * (totalWeight call.offer / gcdWeight call.offer) := by
  have hsum : ∀ l : Offer, (∀ e ∈ l, e ∈ call.offer) →
      (l.map (fun e => (t :: ts).countP (fun u => u ≤ (e.2 : Int)))).sum + l.length ≤
        2 * (l.map (fun e => e.2 / gcdWeight call.offer)).sum := by
    intro l
    induction l with
    | nil => intro hl; simp
    | cons e l ih =>
        intro hl
        have he := hl e List.mem_cons_self
        have hcount := h.countP_lt hfalls hdouble (call.weight_pos he) (gcdWeight_dvd he)
        have hrest := ih (fun e' he' => hl e' (List.mem_cons_of_mem e he'))
        simp only [List.map_cons, List.sum_cons, List.length_cons]
        omega
  have hoffer := hsum call.offer (fun _ he => he)
  rw [sum_shares call.gcdWeight_pos] at hoffer
  have hlength : (laps call.offer (t :: ts)).length =
      (call.offer.map (fun e => (t :: ts).countP (fun u => u ≤ (e.2 : Int)))).sum := by
    rw [← List.countP_true, countP_laps, List.filter_true]
  rw [hlength]
  exact hoffer

/-- Every candidate is in one of the laps of a descent. -/
theorem mem_laps {e : String × Nat} (h : Descent (gcdWeight call.offer) t ts)
    (he : e ∈ call.offer) :
    e ∈ laps call.offer (t :: ts) := by
  obtain ⟨u, hu, hle⟩ := h.exists_le
  have hweight := Nat.le_of_dvd (call.weight_pos he) (gcdWeight_dvd he)
  refine List.mem_flatMap.mpr ⟨u, hu, List.mem_filter.mpr ⟨he, ?_⟩⟩
  simp only [decide_eq_true_eq]
  omega

/-- Two rounds of the schedule reach every candidate, whatever is still ahead. -/
theorem mem_deal {queue : Offer} {e : String × Nat} (he : e ∈ call.offer)
    (hstored : Stored s) (hfalls : call.Falls s)
    (hmax : Descent (gcdWeight call.offer) (topWeight call.offer) ts)
    (h : Ahead call.offer (gcdWeight call.offer) s queue) :
    e ∈ deal (laps call.offer (topWeight call.offer :: ts))
      (2 * (totalWeight call.offer / gcdWeight call.offer)) queue := by
  obtain ⟨visited, ts', hfirst, hlast, -, hdescent, rfl⟩ := h
  have hrest : (lap (call.offer.drop visited) s.currentWeight).length ≤
      (lap call.offer s.currentWeight).length :=
    ((List.drop_sublist visited call.offer).filter _).length_le
  cases hdescent with
  | last hreset =>
      -- the rest of the last lap is shorter than the list
      have hshort : (lap (call.offer.drop visited) s.currentWeight).length ≤ call.offer.length :=
        (List.length_filter_le _ _).trans (by simp)
      have hround := length_laps_le hmax (hfalls.mono (le_max_right _ _)) call.double_topWeight
      refine (deal_initial (m := (lap (call.offer.drop visited) s.currentWeight ++
        laps call.offer []).length + (laps call.offer (topWeight call.offer :: ts)).length)
        ?_ _).subset ?_
      · rw [laps_nil, List.append_nil]
        omega
      · rw [deal_length_add, ← deal_refill _ [], refill_nil, deal_of_le (le_refl _),
          List.take_length]
        exact List.mem_append_right _ (mem_laps hmax he)
  | @next _ ts' hpos hrest' =>
      have hround := length_laps_le (Descent.next hpos hrest')
        (hfalls.mono (le_max_left _ _)) hstored.double
      have hqueue : (lap (call.offer.drop visited) s.currentWeight ++
          laps call.offer (Double.round (s.currentWeight - gcdWeight call.offer) :: ts')).length ≤
          2 * (totalWeight call.offer / gcdWeight call.offer) := by
        rw [laps_cons, List.length_append] at hround
        rw [List.length_append]
        omega
      refine (deal_initial hqueue _).subset ?_
      rw [deal_of_le (le_refl _), List.take_length]
      exact List.mem_append_right _ (mem_laps hrest' he)

/-- Whatever an earlier list has left behind, something is ahead. -/
theorem exists_ahead (call : Call) (hstored : Stored s) (hfalls : call.Falls s) :
    ∃ queue, Ahead call.offer (gcdWeight call.offer) s queue := by
  obtain ⟨ts, hts⟩ := exists_descent (hfalls.mono (le_max_left _ _)) hstored.nonneg hstored.double
  have hlength := List.length_pos_iff.mpr call.offer_ne_nil
  have hn : (call.offer.length : Int) ≠ 0 := by omega
  have h0 := Int.emod_nonneg (s.currentIndex + 1) hn
  have hlt := Int.emod_lt_of_pos (s.currentIndex + 1)
    (show (0 : Int) < call.offer.length by omega)
  by_cases hwrap : (s.currentIndex + 1) % (call.offer.length : Int) = 0
  · exact ⟨_, call.offer.length, ts, hlength, le_refl _, by rw [hwrap, Int.emod_self], hts, rfl⟩
  · refine ⟨_, ((s.currentIndex + 1) % (call.offer.length : Int)).toNat, ts, by omega, by omega,
      ?_, hts, rfl⟩
    rw [Int.toNat_of_nonneg h0, Int.emod_emod]

/-- From a state whose threshold falls, two rounds of calls serve everyone. -/
theorem serves_all_of_falls {calls : List Call} (hfixed : ∀ c ∈ calls, c.offer = call.offer)
    (hstored : Stored s) (hfalls : call.Falls s)
    (hlength : calls.length = 2 * (totalWeight call.offer / gcdWeight call.offer)) :
    (∀ p ∈ picks s calls, ∃ b, p = .backend b) ∧
      ∀ e ∈ call.offer, some e.1 ∈ (picks s calls).map chosen := by
  obtain ⟨queue, hqueue⟩ := exists_ahead call hstored hfalls
  obtain ⟨ts, hts⟩ := exists_descent (hfalls.mono (le_max_right _ _)) (Int.natCast_nonneg _)
    call.double_topWeight
  obtain ⟨hpicks, -⟩ := picks_ahead hfixed hstored hts hqueue
  constructor
  · intro p hp
    have hchosen : chosen p ∈ (picks s calls).map chosen := List.mem_map_of_mem hp
    rw [hpicks] at hchosen
    obtain ⟨e, -, he⟩ := List.mem_map.mp hchosen
    cases p with
    | backend b => exact ⟨b, rfl⟩
    | failed => simp [chosen] at he
    | endless => simp [chosen] at he
  · intro e he
    rw [hpicks, hlength]
    exact List.mem_map_of_mem (mem_deal he hstored hfalls hts hqueue)

theorem advance_le_max {n maxWeight g : Nat} (hstored : Stored s) :
    (advance n maxWeight g s).currentWeight ≤ max s.currentWeight maxWeight := by
  simp only [advance]
  split_ifs with hwrap hreset
  · exact le_max_right _ _
  · have := Double.round_sub_le (d := g) hstored.double hstored.nonneg (by omega)
    exact this.trans (le_max_left _ _)
  · exact le_max_left _ _

/-- A scan leaves no threshold above the one carried over and the largest weight. -/
theorem scan_le_max (members : List VirtualMember) {maxWeight : Nat} (g fuel : Nat)
    (hstored : Stored s) (hmax : Double.round maxWeight = maxWeight) :
    (scan members maxWeight g fuel s).2.currentWeight ≤ max s.currentWeight maxWeight := by
  induction fuel generalizing s with
  | zero => exact le_max_left _ _
  | succ fuel ih =>
      have hnext : (advance members.length maxWeight g s).currentWeight ≤ _ :=
        advance_le_max hstored
      have hrest := ih (hstored.advance (n := members.length) (g := g) hmax)
      simp only [scan]
      split
      · exact hnext
      · split_ifs
        · exact hnext
        · exact hrest.trans (max_le hnext (le_max_right _ _))

theorem Call.Falls.stateAfter {calls : List Call} (hfalls : call.Falls s) (hstored : Stored s)
    (hfixed : ∀ c ∈ calls, c.offer = call.offer) :
    call.Falls (stateAfter s calls) := by
  have hinv : call.Falls (WeightedRoundRobin.stateAfter s calls) ∧
      Stored (WeightedRoundRobin.stateAfter s calls) := by
    refine run_preserves (P := fun s => call.Falls s ∧ Stored s) ⟨hfalls, hstored⟩ ?_
    rintro c hc s ⟨hfalls, hstored⟩
    refine ⟨hfalls.mono ?_, hstored.select c⟩
    have hle := scan_le_max c.members (gcdWeight c.offer) (scanBound c.members.length s)
      hstored c.double_topWeight
    rw [← c.select_eq, hfixed c hc] at hle
    exact max_le hle (le_max_right _ _)
  exact hinv.1

end Turns

section Starvation

variable {call : Call} {s : WrrState} {g n maxWeight : Nat} {w : Int}

/-- A threshold that some subtraction leaves where it is. -/
def Absorbs (g : Nat) (w : Int) : Prop :=
  0 < w ∧ Double.round (w - g) = w

/-- Where a threshold does not fall there is a lowest one that does not. -/
theorem exists_absorbs {limit : Int} (h : ¬ Falls g limit) :
    ∃ w ≤ limit, Absorbs g w ∧ Falls g (w - 1) := by
  simp only [Falls, not_forall, not_lt] at h
  obtain ⟨t, hpos, hle, hdouble, hstays⟩ := h
  obtain ⟨n, hn⟩ : ∃ n, t.toNat = n := ⟨_, rfl⟩
  induction n using Nat.strong_induction_on generalizing t with
  | _ n ih =>
      by_cases hfalls : Falls g (t - 1)
      · have habsorbed := Double.round_sub_le (d := g) hdouble hpos.le (by omega)
        exact ⟨t, hle, ⟨hpos, le_antisymm habsorbed hstays⟩, hfalls⟩
      · simp only [Falls, not_forall, not_lt] at hfalls
        obtain ⟨u, hu, hut, hudouble, hustays⟩ := hfalls
        exact ih u.toNat (by omega) u hu (by omega) hudouble hustays rfl

/-- Such a threshold is above one of the weights. -/
theorem exists_light (call : Call) (hw : Absorbs (gcdWeight call.offer) w) :
    ∃ e ∈ call.offer, (e.2 : Int) < w := by
  obtain ⟨hpos, habsorbed⟩ := hw
  obtain ⟨k, rfl⟩ := Int.eq_ofNat_of_zero_le hpos.le
  by_contra hheavy
  have hall : ∀ e ∈ call.offer, k ≤ e.2 := by
    intro e he
    by_contra hlt
    exact hheavy ⟨e, he, by omega⟩
  refine Double.not_dvd_of_absorbed call.gcdWeight_pos (by omega) habsorbed (dvd_gcdWeight ?_)
  intro e he
  obtain ⟨x, hx, rfl⟩ := List.mem_map.mp he
  have hdouble := call.doubles x hx
  rw [Double.round_natCast, Nat.cast_inj] at hdouble
  exact (Double.ulp_dvd_ulp (hall _ he)).trans (Double.ulp_dvd_of_double hdouble)

/-- The index lies in the list. -/
def Inside (n : Nat) (s : WrrState) : Prop :=
  0 ≤ s.currentIndex ∧ s.currentIndex < n

/-- Updates that are left until the threshold must have been reset. -/
def updatesLeft (n : Nat) (s : WrrState) : Nat :=
  s.currentWeight.toNat * n + (n - 1 - s.currentIndex).toNat

/-- Below the stuck threshold, an update uses one up or resets the threshold. -/
theorem advance_progress (hfalls : Falls g (w - 1)) (htop : w ≤ maxWeight) (hstored : Stored s)
    (hlow : s.currentWeight < w) (hinside : Inside n s) :
    w ≤ (advance n maxWeight g s).currentWeight ∨
      (advance n maxWeight g s).currentWeight < w ∧
        updatesLeft n (advance n maxWeight g s) < updatesLeft n s := by
  obtain ⟨h0, hlt⟩ := hinside
  by_cases hlast : s.currentIndex + 1 < n
  · have hmod : (s.currentIndex + 1) % (n : Int) = s.currentIndex + 1 :=
      Int.emod_eq_of_lt (by omega) hlast
    have hne : s.currentIndex + 1 ≠ 0 := by omega
    have hadvance : advance n maxWeight g s = ⟨s.currentIndex + 1, s.currentWeight⟩ := by
      simp [advance, hmod, hne]
    right
    rw [hadvance]
    refine ⟨hlow, ?_⟩
    simp only [updatesLeft]
    omega
  · have hwrap : (s.currentIndex + 1) % (n : Int) = 0 := by
      rw [show s.currentIndex + 1 = n by omega, Int.emod_self]
    by_cases hreset : Double.round (s.currentWeight - g) ≤ 0
    · left
      simp only [advance, hwrap, if_true, if_pos hreset]
      exact htop
    · right
      have hminuend := Double.nonneg_of_round_pos (Int.not_le.mp hreset)
      have hlower := hfalls s.currentWeight (by omega) (by omega) hstored.double
      have hmul : ((Double.round (s.currentWeight - g)).toNat + 1) * n ≤
          s.currentWeight.toNat * n := Nat.mul_le_mul_right n (by omega)
      rw [Nat.add_mul] at hmul
      simp only [advance, hwrap, if_true, if_neg hreset, updatesLeft]
      omega

theorem inside_scan {members : List VirtualMember} (maxWeight g fuel : Nat)
    (hpos : 0 < members.length) (s : WrrState) :
    Inside members.length (scan members maxWeight g (fuel + 1) s).2 := by
  induction fuel generalizing s with
  | zero =>
      obtain ⟨member, -, -, hscan⟩ := scan_step maxWeight g hpos s
      rw [hscan]
      split_ifs <;> exact advance_index maxWeight g hpos s
  | succ fuel ih =>
      obtain ⟨member, -, -, hscan⟩ := scan_step maxWeight g hpos s
      rw [hscan]
      split_ifs
      · exact advance_index maxWeight g hpos s
      · exact ih _

theorem scan_progress {members : List VirtualMember} (fuel : Nat) (hw : Absorbs g w)
    (hfalls : Falls g (w - 1)) (htop : w ≤ maxWeight)
    (hmax : Double.round maxWeight = maxWeight) (hstored : Stored s) (hlow : s.currentWeight < w)
    (hinside : Inside members.length s) :
    w ≤ (scan members maxWeight g (fuel + 1) s).2.currentWeight ∨
      (scan members maxWeight g (fuel + 1) s).2.currentWeight < w ∧
        updatesLeft members.length (scan members maxWeight g (fuel + 1) s).2 <
          updatesLeft members.length s := by
  have hpos : 0 < members.length := by
    obtain ⟨h0, hlt⟩ := hinside
    omega
  induction fuel generalizing s with
  | zero =>
      have hprogress := advance_progress hfalls htop hstored hlow hinside
      obtain ⟨member, -, -, hscan⟩ := scan_step maxWeight g hpos s
      rw [hscan]
      split_ifs <;> exact hprogress
  | succ fuel ih =>
      have hprogress := advance_progress hfalls htop hstored hlow hinside
      obtain ⟨member, -, -, hscan⟩ := scan_step maxWeight g hpos s
      rw [hscan]
      split_ifs
      · exact hprogress
      · rcases hprogress with hreset | ⟨hlow', hless⟩
        · exact Or.inl (scan_of_absorbed members maxWeight _ hw.1 hw.2 hreset).1
        · rcases ih (hstored.advance hmax) hlow' (advance_index maxWeight g hpos s) with
            hreset | ⟨hlow'', hless'⟩
          · exact Or.inl hreset
          · exact Or.inr ⟨hlow'', hless'.trans hless⟩

theorem inside_select (call : Call) (s : WrrState) :
    Inside call.members.length (call.select s).2 := by
  rw [call.select_eq, scanBound]
  exact inside_scan _ _ _ (List.length_pos_iff.mpr call.members_ne_nil) s

/-- Repeating a call brings the threshold up to the stuck one. -/
theorem exists_stuck_of_inside (hw : Absorbs (gcdWeight call.offer) w)
    (hfalls : Falls (gcdWeight call.offer) (w - 1)) (htop : w ≤ topWeight call.offer)
    (hstored : Stored s) (hinside : Inside call.members.length s) :
    ∃ k, w ≤ (stateAfter s (List.replicate k call)).currentWeight := by
  obtain ⟨n, hn⟩ : ∃ n, updatesLeft call.members.length s = n := ⟨_, rfl⟩
  induction n using Nat.strong_induction_on generalizing s with
  | _ n ih =>
      by_cases hlow : s.currentWeight < w
      · have hprogress := scan_progress (call.members.length * (s.currentWeight.toNat + 2))
          hw hfalls htop call.double_topWeight hstored hlow hinside
        have hselect := call.select_eq s
        rw [scanBound] at hselect
        rw [← hselect] at hprogress
        rcases hprogress with hreset | ⟨-, hless⟩
        · exact ⟨1, hreset⟩
        · obtain ⟨k, hk⟩ := ih _ (hn ▸ hless) (hstored.select call) (inside_select call s) rfl
          exact ⟨k + 1, hk⟩
      · exact ⟨0, not_lt.mp hlow⟩

theorem exists_stuck (hw : Absorbs (gcdWeight call.offer) w)
    (hfalls : Falls (gcdWeight call.offer) (w - 1))
    (htop : w ≤ max s.currentWeight (topWeight call.offer)) (hstored : Stored s) :
    ∃ k, w ≤ (stateAfter s (List.replicate k call)).currentWeight := by
  rcases le_max_iff.mp htop with hle | hle
  · exact ⟨0, hle⟩
  · -- after one call the index lies in the list
    obtain ⟨k, hk⟩ := exists_stuck_of_inside hw hfalls hle (hstored.select call)
      (inside_select call s)
    exact ⟨k + 1, hk⟩

/--
After any earlier calls, with any candidate lists, every call with the list of
`call` returns and any two rounds of such calls serve each of its candidates,
exactly if subtracting the gcd lowers every threshold up to the one carried
over and the largest weight.
-/
theorem serves_all_iff (earlier : List Call) (call : Call) :
    (∀ before window : List Call, (∀ c ∈ before ++ window, c.offer = call.offer) →
      window.length = 2 * (totalWeight call.offer / gcdWeight call.offer) →
      (∀ p ∈ picks (stateAfter fresh (earlier ++ before)) window, ∃ b, p = .backend b) ∧
        ∀ e ∈ call.offer,
          some e.1 ∈ (picks (stateAfter fresh (earlier ++ before)) window).map chosen) ↔
      call.Falls (stateAfter fresh earlier) := by
  have hafter : ∀ before, stateAfter fresh (earlier ++ before) =
      stateAfter (stateAfter fresh earlier) before := fun before => run_append _ _ _
  have hstored := stored_fresh.stateAfter earlier
  constructor
  · intro hserves
    by_contra hstays
    obtain ⟨w, hle, hw, hfalls⟩ := exists_absorbs hstays
    obtain ⟨e, he, hlight⟩ := exists_light call hw
    obtain ⟨k, hk⟩ := exists_stuck hw hfalls hle hstored
    have hfixed : ∀ m, ∀ c ∈ List.replicate m call, c.offer = call.offer :=
      fun m c hc => congrArg Call.offer (List.eq_of_mem_replicate hc)
    have hround := hserves (List.replicate k call)
      (List.replicate (2 * (totalWeight call.offer / gcdWeight call.offer)) call)
      (by rw [← List.replicate_add]; exact hfixed _) (List.length_replicate)
    rw [hafter] at hround
    exact not_chosen_of_absorbed _ (hfixed _) call.ids_nodup he hw.1 hw.2 hk hlight
      (hround.2 e he)
  · intro hfalls before window hfixed hlength
    rw [hafter]
    have hbefore := hfalls.stateAfter hstored (fun c hc => hfixed c (List.mem_append_left _ hc))
    exact serves_all_of_falls (fun c hc => hfixed c (List.mem_append_right _ hc))
      (hstored.stateAfter before) hbefore hlength

/-- A call with weights `10 ^ 17` and 1. -/
def vastCall : Call where
  now := 0
  pool := weightedPool (10 ^ 17) 1
  backends := weighted (10 ^ 17) 1
  memory := idleMemory
  nonempty := by simp [weighted]
  nodup := (weightedPool (10 ^ 17) 1).nodup_ids
  doubles := by decide +kernel

/-- The threshold that a weight of `10 ^ 17` leaves behind keeps the next call
with small weights busy for ever. -/
theorem serves_all_violated :
    ¬ ∀ (earlier : List Call) (call : Call) (before window : List Call),
      (∀ c ∈ before ++ window, c.offer = call.offer) →
      window.length = 2 * (totalWeight call.offer / gcdWeight call.offer) →
      (∀ p ∈ picks (stateAfter fresh (earlier ++ before)) window, ∃ b, p = .backend b) ∧
        ∀ e ∈ call.offer,
          some e.1 ∈ (picks (stateAfter fresh (earlier ++ before)) window).map chosen := by
  intro hclaim
  obtain ⟨hreturns, -⟩ := hclaim [vastCall] lightCall [] (List.replicate 10 lightCall) (by simp)
    (by decide +kernel)
  have hendless : (lightCall.select (stateAfter fresh [vastCall])).1 = .endless := by
    rw [lightCall.select_eq]
    exact scan_of_stuck (w := 10 ^ 17) (List.length_pos_iff.mpr lightCall.members_ne_nil)
      ⟨by decide, by decide +kernel, by decide +kernel⟩ _ (by decide +kernel)
  obtain ⟨b, hb⟩ := hreturns _ List.mem_cons_self
  exact absurd (hendless.symm.trans hb) (by simp)

end Starvation

end WeightedRoundRobin
end SentinelADC
