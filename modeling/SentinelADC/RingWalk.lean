import SentinelADC.ConsistentHash
import SentinelADC.Lib.Clockwise

/-!
# Walking the hash ring

`select` builds its ring from the healthy backends alone.  That is the same as
walking the ring of the whole pool clockwise and skipping the others, because
the sort is stable and the binary search finds the first virtual node at or
after the hash of the key.  So the loss of a backend moves only the keys that
were mapped to it, and a new weight only those that come from or go to the
backend it is for.
-/

namespace SentinelADC
namespace ConsistentHash

open Clockwise

section Search

variable {ring : List RingEntry} {targetHash : UInt32}

/-- What the search loop keeps: nodes before `low` are below the target, nodes
after `high` are not, and `result` is the first of these once there is one. -/
structure Bounds (ring : List RingEntry) (targetHash : UInt32) (low high : Int)
    (result : Nat) : Prop where
  nonneg : 0 ≤ low
  ordered : low ≤ high + 1
  inside : high < ring.length
  before : ∀ j (hj : j < ring.length), (j : Int) < low → (ring[j]).hash < targetHash
  after : ∀ j (hj : j < ring.length), high < (j : Int) → targetHash ≤ (ring[j]).hash
  result : (result : Int) = high + 1 ∨ high = (ring.length : Int) - 1

/-- Later nodes have no smaller hash. -/
theorem hash_le_of_le (hring : ring.Pairwise (fun a b => a.hash ≤ b.hash)) {i j : Nat}
    (hij : i ≤ j) (hj : j < ring.length) :
    (ring[i]).hash ≤ (ring[j]).hash := by
  rcases Nat.eq_or_lt_of_le hij with heq | hlt
  · simp [heq]
  · exact List.pairwise_iff_getElem.mp hring i j (by omega) hj hlt

/-- The loop ends with the first node that is not below the target. -/
theorem searchLoop_eq {fuel : Nat} {low high : Int} {result : Nat}
    (hring : ring.Pairwise (fun a b => a.hash ≤ b.hash))
    (hlast : ∀ e, ring[ring.length - 1]? = some e → targetHash ≤ e.hash) (hne : ring ≠ [])
    (h : Bounds ring targetHash low high result) (hfuel : (high + 1 - low).toNat < fuel) :
    ∃ i, ∃ hi : i < ring.length, searchLoop ring targetHash fuel low high result = some i ∧
      targetHash ≤ (ring[i]).hash ∧ ∀ j (hj : j < i), (ring[j]).hash < targetHash := by
  have hpos : 0 < ring.length := List.length_pos_iff.mpr hne
  obtain ⟨h0, hordered, hinside, hbefore, hafter, hresult⟩ := h
  induction fuel generalizing low high result with
  | zero => omega
  | succ fuel ih =>
      simp only [searchLoop]
      by_cases hle : low ≤ high
      · have hmid : ((low + high) / 2).toNat < ring.length := by omega
        simp only [hle, if_true, List.getElem?_eq_getElem hmid]
        split_ifs with htarget
        · -- the answer is at the middle or before it
          refine ih (by omega) h0 (by omega) (by omega) hbefore ?_ (Or.inl (by omega))
          intro j hj hjhigh
          exact UInt32.le_trans htarget (hash_le_of_le hring (by omega) hj)
        · refine ih (by omega) (by omega) (by omega) hinside ?_ hafter hresult
          intro j hj hjlow
          have hbelow := UInt32.not_le.mp htarget
          exact UInt32.lt_of_le_of_lt (hash_le_of_le hring (by omega) hmid) hbelow
      · have hhigh : high ≠ (ring.length : Int) - 1 := by
          -- the last node is not below the target
          intro heq
          have hlt := hbefore (ring.length - 1) (by omega) (by omega)
          have hge := hlast _ (List.getElem?_eq_getElem (by omega))
          exact absurd hge (UInt32.not_le.mpr hlt)
        have hfirst : (result : Int) = high + 1 := hresult.resolve_right hhigh
        refine ⟨result, by omega, by simp [hle], hafter result (by omega) (by omega), ?_⟩
        intro j hj
        exact hbefore j (by omega) (by omega)

/-- `findRingIndex` finds the first node at or after the target, and wraps
around to the first node of the ring if there is none. -/
theorem findRingIndex_eq (hring : ring.Pairwise (fun a b => a.hash ≤ b.hash)) (hne : ring ≠ []) :
    findRingIndex ring targetHash =
      some ((ring.findIdx? (fun e => targetHash ≤ e.hash)).getD 0) := by
  have hpos : 0 < ring.length := List.length_pos_iff.mpr hne
  have hlast : ring.length - 1 < ring.length := by omega
  simp only [findRingIndex]
  simp only [List.getElem?_eq_getElem hlast]
  split_ifs with hwrap
  · have hnone : ring.findIdx? (fun e => targetHash ≤ e.hash) = none := by
      rw [List.findIdx?_eq_none_iff]
      intro e he
      obtain ⟨j, hj, rfl⟩ := List.getElem_of_mem he
      have hle : (ring[j]).hash ≤ (ring[ring.length - 1]).hash :=
        hash_le_of_le hring (by omega) hlast
      simpa using UInt32.lt_of_le_of_lt hle hwrap
    rw [hnone, Option.getD_none]
  · have hge : targetHash ≤ (ring[ring.length - 1]).hash := UInt32.not_lt.mp hwrap
    have hbounds : Bounds ring targetHash 0 (ring.length - 1) 0 :=
      ⟨le_refl 0, by omega, by omega, by omega, by omega, Or.inr rfl⟩
    have hlasts : ∀ e, ring[ring.length - 1]? = some e → targetHash ≤ e.hash := by
      intro e he
      rw [List.getElem?_eq_getElem hlast] at he
      exact Option.some.inj he ▸ hge
    obtain ⟨i, hi, hsearch, hat, hbefore⟩ := searchLoop_eq hring hlasts hne hbounds
      (show ((ring.length : Int) - 1 + 1 - 0).toNat < ring.length + 1 by omega)
    have hfind : ring.findIdx? (fun e => targetHash ≤ e.hash) = some i := by
      rw [List.findIdx?_eq_some_iff_getElem]
      exact ⟨hi, by simpa using hat, fun j hj => by simpa using hbefore j hj⟩
    rw [hsearch, hfind, Option.getD_some]

/-- The search always ends and reads no index outside of the ring.  The result is the
least index whose hash is not below the target, or 0 if all hashes are. -/
theorem findRingIndex_lowerBound (hring : ring.Pairwise (fun a b => a.hash ≤ b.hash))
    (hne : ring ≠ []) (targetHash : UInt32) :
    ∃ i, ∃ hi : i < ring.length, findRingIndex ring targetHash = some i ∧
      ((∃ entry ∈ ring, targetHash ≤ entry.hash) →
        targetHash ≤ (ring[i]).hash ∧ ∀ j (hj : j < i), (ring[j]).hash < targetHash) ∧
      ((∀ entry ∈ ring, entry.hash < targetHash) → i = 0) := by
  obtain ⟨i, hfound, hi⟩ := findRingIndex_lt targetHash hne
  refine ⟨i, hi, hfound, fun hsome => ?_, fun hall => ?_⟩
  · rw [findRingIndex_eq hring hne] at hfound
    obtain ⟨entry, hmem, hle⟩ := hsome
    cases hfind : ring.findIdx? (fun e => targetHash ≤ e.hash) with
    | none =>
        have hbelow := List.findIdx?_eq_none_iff.mp hfind entry hmem
        simp [hle] at hbelow
    | some k =>
        obtain rfl : k = i := by simpa [hfind] using hfound
        obtain ⟨_, hat, hbefore⟩ := List.findIdx?_eq_some_iff_getElem.mp hfind
        exact ⟨by simpa using hat, fun j hj => by simpa using hbefore j hj⟩
  · have hnone : ring.findIdx? (fun e => targetHash ≤ e.hash) = none := by
      rw [List.findIdx?_eq_none_iff]
      intro e he
      simpa using hall e he
    rw [findRingIndex_eq hring hne, hnone, Option.getD_none] at hfound
    exact (Option.some.inj hfound).symm

/-- A ring with three equal hashes. -/
def crowdedRing : List RingEntry :=
  [⟨3, "a"⟩, ⟨7, "b"⟩, ⟨7, "c"⟩, ⟨7, "a"⟩, ⟨9, "b"⟩]

theorem findRingIndex_lowerBound_crowded :
    ∃ i, ∃ hi : i < crowdedRing.length, findRingIndex crowdedRing 7 = some i ∧
      7 ≤ (crowdedRing[i]).hash ∧ ∀ j (hj : j < i), (crowdedRing[j]).hash < 7 := by
  obtain ⟨i, hi, hfound, hleast, -⟩ :=
    findRingIndex_lowerBound (show crowdedRing.Pairwise (fun a b => a.hash ≤ b.hash) by decide)
      (by decide) 7
  exact ⟨i, hi, hfound, hleast ⟨⟨9, "b"⟩, by decide, by decide⟩⟩

end Search

/-- A virtual node: its backend and its number. -/
abbrev Node := String × Nat

/-- The ring entry of a virtual node. -/
def entry (hash32 : String → UInt32) (node : Node) : RingEntry where
  hash := hash32 (node.1 ++ "#vnode-" ++ toString node.2)
  backendId := node.1

/-- Where a virtual node is on the ring. -/
def position (hash32 : String → UInt32) (node : Node) : Nat :=
  (entry hash32 node).hash.toNat

/-- The virtual nodes of a candidate list, in creation order. -/
def nodes (backends : List Backend) : List Node :=
  backends.flatMap (fun b => (List.range (vnodeCount b)).map (fun i => (b.id, i)))

/-- The virtual nodes from the hash of a key on, clockwise. -/
def walkFrom (hash32 : String → UInt32) (backends : List Backend) (key : String) : List Node :=
  clockwise (position hash32) (hash32 key).toNat (sortBy (position hash32) (nodes backends))

/-- The backend that owns the first virtual node at or after the hash of a key. -/
def owner (hash32 : String → UInt32) (backends : List Backend) (key : String) : Option String :=
  (walkFrom hash32 backends key).head?.map Prod.fst

section Rings

variable {hash32 : String → UInt32} {backends : List Backend}

theorem buildRing_eq (hash32 : String → UInt32) (backends : List Backend) :
    buildRing hash32 backends =
      (sortBy (position hash32) (nodes backends)).map (entry hash32) := by
  have hnodes : backends.flatMap (vnodes hash32) = (nodes backends).map (entry hash32) := by
    simp only [nodes, List.map_flatMap, List.map_map]
    rfl
  rw [buildRing, hnodes]
  refine (List.map_insertionSort (fun a b => position hash32 a ≤ position hash32 b)
    (fun a b : RingEntry => a.hash ≤ b.hash) (entry hash32) (nodes backends) ?_).symm
  intro a _ b _
  exact UInt32.le_iff_toNat_le.symm

theorem pairwise_buildRing (hash32 : String → UInt32) (backends : List Backend) :
    (buildRing hash32 backends).Pairwise (fun a b => a.hash ≤ b.hash) := by
  rw [buildRing_eq, List.pairwise_map]
  exact (pairwise_sortBy (position hash32) (nodes backends)).imp UInt32.le_iff_toNat_le.mpr

theorem vnodeCount_pos (b : Backend) :
    0 < vnodeCount b := by
  simp only [vnodeCount, vnodesPerWeight]
  omega

theorem buildRing_ne_nil (hash32 : String → UInt32) (hne : backends ≠ []) :
    buildRing hash32 backends ≠ [] := by
  obtain ⟨b, rest, rfl⟩ := List.exists_cons_of_ne_nil hne
  have hmem : (b.id, 0) ∈ sortBy (position hash32) (nodes (b :: rest)) := by
    rw [mem_sortBy]
    simp [nodes, vnodeCount_pos]
  rw [buildRing_eq]
  exact List.ne_nil_of_mem (List.mem_map_of_mem hmem)

/-- The virtual nodes of some of the candidates, chosen by id. -/
theorem nodes_filter (p : String → Bool) (backends : List Backend) :
    nodes (backends.filter (fun b => p b.id)) = (nodes backends).filter (fun node => p node.1) := by
  induction backends with
  | nil => rfl
  | cons b rest ih =>
      have hcons : nodes (b :: rest) =
          (List.range (vnodeCount b)).map (fun i => (b.id, i)) ++ nodes rest := rfl
      rw [hcons, List.filter_append, List.filter_map, ← ih, List.filter_cons]
      cases hb : p b.id with
      | false => simp [Function.comp_def, hb]
      | true => simp [Function.comp_def, hb, nodes]

/-- The walk on behalf of some of the candidates skips the nodes of the others. -/
theorem owner_filter (p : String → Bool) (backends : List Backend) (key : String) :
    owner hash32 (backends.filter (fun b => p b.id)) key =
      ((walkFrom hash32 backends key).find? (fun node => p node.1)).map Prod.fst := by
  rw [owner, walkFrom, nodes_filter, ← filter_sortBy, clockwise_filter, List.head?_filter]
  rfl

theorem owner_filter_of_pos {p : String → Bool} {key id : String}
    (howner : owner hash32 backends key = some id) (hid : p id = true) :
    owner hash32 (backends.filter (fun b => p b.id)) key = some id := by
  rw [owner_filter]
  cases hwalk : walkFrom hash32 backends key with
  | nil => simp [owner, hwalk] at howner
  | cons node walk =>
      have hnode : node.1 = id := by simpa [owner, hwalk] using howner
      simp [hnode, hid]

/-- The rotation of the ring that starts where `findRingIndex` points to. -/
theorem rotate_buildRing (hash32 : String → UInt32) (backends : List Backend) (key : String) :
    (buildRing hash32 backends).drop
          (((buildRing hash32 backends).findIdx? (fun e => hash32 key ≤ e.hash)).getD 0) ++
        (buildRing hash32 backends).take
          (((buildRing hash32 backends).findIdx? (fun e => hash32 key ≤ e.hash)).getD 0) =
      (walkFrom hash32 backends key).map (entry hash32) := by
  have hindex : (buildRing hash32 backends).findIdx? (fun e => hash32 key ≤ e.hash) =
      (sortBy (position hash32) (nodes backends)).findIdx?
        (fun node => (hash32 key).toNat ≤ position hash32 node) := by
    rw [buildRing_eq, List.findIdx?_map]
    rfl
  rw [hindex, buildRing_eq, ← List.map_drop, ← List.map_take, ← List.map_append,
    drop_append_take (pairwise_sortBy (position hash32) (nodes backends)), walkFrom]

theorem mem_nodes {node : Node} :
    node ∈ nodes backends ↔ ∃ b ∈ backends, b.id = node.1 ∧ node.2 < vnodeCount b := by
  simp only [nodes, List.mem_flatMap, List.mem_map, List.mem_range]
  constructor
  · rintro ⟨b, hb, i, hi, rfl⟩
    exact ⟨b, hb, rfl, hi⟩
  · rintro ⟨b, hb, hid, hi⟩
    exact ⟨b, hb, node.2, hi, Prod.ext hid rfl⟩

theorem mem_walkFrom {node : Node} {key : String} :
    node ∈ walkFrom hash32 backends key ↔ node ∈ nodes backends := by
  rw [walkFrom, mem_clockwise, mem_sortBy]

theorem owner_mem {key id : String} (h : owner hash32 backends key = some id) :
    ∃ b ∈ backends, b.id = id := by
  obtain ⟨node, hnode, rfl⟩ := Option.map_eq_some_iff.mp h
  obtain ⟨b, hb, hid, -⟩ := mem_nodes.mp (mem_walkFrom.mp (List.mem_of_head? hnode))
  exact ⟨b, hb, hid⟩

/-- `select` returns the owner of the first virtual node clockwise. -/
theorem select_eq (hash32 : String → UInt32) (backends : List Backend) (req : ClientRequest) :
    select hash32 backends req =
      (owner hash32 backends (clientKey req)).bind
        (fun id => backends.find? (fun b => b.id = id)) := by
  rcases eq_or_ne backends [] with rfl | hne
  · rfl
  have hring := buildRing_ne_nil hash32 hne
  have hrotate := rotate_buildRing hash32 backends (clientKey req)
  obtain ⟨i, hi, hlt⟩ := findRingIndex_lt (hash32 (clientKey req)) hring
  have hindex : findRingIndex (buildRing hash32 backends) (hash32 (clientKey req)) = some _ :=
    findRingIndex_eq (pairwise_buildRing hash32 backends) hring
  rw [hi, Option.some.injEq] at hindex
  rw [← hindex, List.drop_eq_getElem_cons hlt, List.cons_append] at hrotate
  have howner : owner hash32 backends (clientKey req) =
      some ((buildRing hash32 backends)[i]).backendId := by
    cases hwalk : walkFrom hash32 backends (clientKey req) with
    | nil => simp [hwalk] at hrotate
    | cons node walk =>
        rw [hwalk, List.map_cons] at hrotate
        rw [(List.cons.inj hrotate).1]
        simp [owner, hwalk, entry]
  obtain ⟨b, hb, hid⟩ := owner_mem howner
  -- the owner is a candidate, so the fallback to the first one is not needed
  have hfound :
      (backends.find? (fun b => b.id = ((buildRing hash32 backends)[i]).backendId)).isSome :=
    List.find?_isSome.mpr ⟨b, hb, by simpa using hid⟩
  simp only [select, hne, hring, if_false, hi, List.getElem?_eq_getElem hlt, howner,
    Option.bind_some]
  exact Option.or_of_isSome hfound

/-- The id of the selected backend. -/
theorem map_id_select (hash32 : String → UInt32) (backends : List Backend) (req : ClientRequest) :
    (select hash32 backends req).map Backend.id = owner hash32 backends (clientKey req) := by
  rw [select_eq]
  cases howner : owner hash32 backends (clientKey req) with
  | none => rfl
  | some id =>
      obtain ⟨b, hb, hid⟩ := owner_mem howner
      have hfound : (backends.find? (fun b => b.id = id)).isSome :=
        List.find?_isSome.mpr ⟨b, hb, by simpa using hid⟩
      obtain ⟨c, hc⟩ := Option.isSome_iff_exists.mp hfound
      have hcid : c.id = id := by simpa using List.find?_some hc
      simp [hc, hcid]

end Rings

section Failover

variable {hash32 : String → UInt32} {pool members : List Backend}

/-- The walk around the ring of the whole pool: from the first virtual node at
or after the hash of the key, or else from the start of the ring, to the first
one that belongs to one of `members`. -/
def walk (hash32 : String → UInt32) (pool members : List Backend) (req : ClientRequest) :
    Option Backend :=
  let ring := buildRing hash32 pool
  let start := (ring.findIdx? (fun e => hash32 (clientKey req) ≤ e.hash)).getD 0
  let met := (ring.drop start ++ ring.take start).find?
    (fun e => e.backendId ∈ members.map Backend.id)
  met.bind (fun e => members.find? (fun b => b.id = e.backendId))

/-- Members in pool order are the pool without the others. -/
theorem filter_of_sublist (hsub : members.Sublist pool) (hnodup : (pool.map Backend.id).Nodup) :
    pool.filter (fun b => b.id ∈ members.map Backend.id) = members := by
  induction hsub with
  | slnil => rfl
  | @cons members pool b hsub ih =>
      rw [List.map_cons, List.nodup_cons] at hnodup
      have hout : b.id ∉ members.map Backend.id :=
        fun hmem => hnodup.1 ((hsub.map Backend.id).subset hmem)
      rw [List.filter_cons_of_neg (by simpa using hout), ih hnodup.2]
  | @cons_cons members pool b hsub ih =>
      rw [List.map_cons, List.nodup_cons] at hnodup
      rw [List.filter_cons_of_pos (by simp)]
      congr 1
      conv_rhs => rw [← ih hnodup.2]
      apply List.filter_congr
      intro c hc
      have hne : c.id ≠ b.id := fun heq => hnodup.1 (heq ▸ List.mem_map_of_mem hc)
      simp [hne]

theorem owner_of_sublist (hsub : members.Sublist pool) (hnodup : (pool.map Backend.id).Nodup)
    (key : String) :
    owner hash32 members key =
      ((walkFrom hash32 pool key).find? (fun node => node.1 ∈ members.map Backend.id)).map
        Prod.fst := by
  rw [← owner_filter (fun id => id ∈ members.map Backend.id), filter_of_sublist hsub hnodup]

theorem select_eq_walk (req : ClientRequest) (hsub : members.Sublist pool)
    (hnodup : (pool.map Backend.id).Nodup) :
    select hash32 members req = walk hash32 pool members req := by
  have howned : (fun e : RingEntry => decide (e.backendId ∈ members.map Backend.id)) ∘
      entry hash32 = fun node => decide (node.1 ∈ members.map Backend.id) := rfl
  simp only [walk, rotate_buildRing]
  rw [select_eq, owner_of_sublist hsub hnodup, List.find?_map, howned]
  cases (walkFrom hash32 pool (clientKey req)).find?
      (fun node => node.1 ∈ members.map Backend.id) with
  | none => rfl
  | some node => rfl

/-- A backend that stays keeps its keys. -/
theorem select_of_remaining {rest : List Backend} {b : Backend} {req : ClientRequest}
    (hrest : rest.Sublist members) (hnodup : (members.map Backend.id).Nodup)
    (hselect : select hash32 members req = some b) (hb : b ∈ rest) :
    select hash32 rest req = some b := by
  have hmem : b.id ∈ rest.map Backend.id := List.mem_map_of_mem hb
  have howner : owner hash32 members (clientKey req) = some b.id := by
    rw [← map_id_select, hselect, Option.map_some]
  have hkept := owner_filter_of_pos (p := fun id => id ∈ rest.map Backend.id) howner
    (by simpa using hmem)
  have hfind : rest.find? (fun c => c.id = b.id) = some b :=
    KeyedList.findKey_of_mem ((hrest.map Backend.id).nodup hnodup) hb
  rw [filter_of_sublist hrest hnodup] at hkept
  rw [select_eq, hkept, Option.bind_some, hfind]

/-- A ring built from the remaining members alone leads to the same backend as
the clockwise walk around the ring of the whole pool that skips the others, so
losing members moves only the keys that were mapped to one of them. -/
theorem failover_walks_ring (hash32 : String → UInt32) (pool members : List Backend)
    (req : ClientRequest) (hnodup : (pool.map Backend.id).Nodup) (hsub : members.Sublist pool)
    (hne : members ≠ []) :
    (∃ b ∈ members, select hash32 members req = some b ∧ walk hash32 pool members req = some b) ∧
      ∀ rest : List Backend, rest.Sublist members → ∀ b ∈ rest,
        select hash32 members req = some b → select hash32 rest req = some b := by
  constructor
  · obtain ⟨b, hb, hselect⟩ := select_mem hash32 hne req
    exact ⟨b, hb, hselect, select_eq_walk req hsub hnodup ▸ hselect⟩
  · intro rest hrest b hb hselect
    exact select_of_remaining hrest ((hsub.map Backend.id).nodup hnodup) hselect hb

/-- A pool of three. -/
def sampleBackends : List Backend :=
  [createBackend 0 "a", createBackend 1 "b", createBackend 2 "c"]

def sampleRequest : ClientRequest where
  method := "GET"
  originalUrl := "/"
  xForwardedFor := none
  xSessionId := some "session"
  remoteAddress := none
  ip := none

theorem failover_walks_ring_sample :
    (∃ b ∈ sampleBackends.tail,
      select (fun key => key.length.toUInt32) sampleBackends.tail sampleRequest = some b ∧
        walk (fun key => key.length.toUInt32) sampleBackends sampleBackends.tail
          sampleRequest = some b) ∧
      ∀ rest : List Backend, rest.Sublist sampleBackends.tail → ∀ b ∈ rest,
        select (fun key => key.length.toUInt32) sampleBackends.tail sampleRequest = some b →
          select (fun key => key.length.toUInt32) rest sampleRequest = some b :=
  failover_walks_ring _ sampleBackends sampleBackends.tail sampleRequest (by decide)
    (List.tail_sublist _) (by simp [sampleBackends])

end Failover

section Weights

variable {hash32 : String → UInt32} {id : String} {weight weight' : Nat}

/-- `PUT /api/admin/backends/:id/weight` on a candidate list. -/
def reweigh (id : String) (weight : Nat) (backends : List Backend) : List Backend :=
  KeyedList.updateKey Backend.id id (fun b => { b with weight := weight }) backends

theorem vnodeCount_mono {b : Backend} (h : weight ≤ weight') :
    vnodeCount { b with weight := weight } ≤ vnodeCount { b with weight := weight' } := by
  simp only [vnodeCount]
  apply Nat.mul_le_mul_left
  split_ifs <;> omega

theorem filter_range_lt {m n : Nat} (h : m ≤ n) :
    (List.range n).filter (fun i => i < m) = List.range m := by
  obtain ⟨extra, rfl⟩ := Nat.exists_eq_add_of_le h
  rw [List.range_add, List.filter_append, List.filter_eq_self.mpr (by simp),
    List.filter_eq_nil_iff.mpr (by simp), List.append_nil]

/-- The nodes under the lower weight are the first ones under the higher weight. -/
theorem nodes_reweigh (id : String) (h : weight ≤ weight') (backends : List Backend) :
    ∃ p : Node → Bool, (∀ node, p node = false → node.1 = id) ∧
      nodes (reweigh id weight backends) = (nodes (reweigh id weight' backends)).filter p := by
  refine ⟨fun node => node.1 ≠ id ∨
    node.2 < vnodesPerWeight * max 1 (if weight = 0 then 1 else weight), ?_, ?_⟩
  · intro node hnode
    simpa using And.left (by simpa using hnode)
  · induction backends with
    | nil => rfl
    | cons b rest ih =>
        have hcons : ∀ c l, nodes (c :: l) =
            (List.range (vnodeCount c)).map (fun i => (c.id, i)) ++ nodes l := fun _ _ => rfl
        have hreweigh : ∀ w, reweigh id w (b :: rest) =
            (if b.id = id then { b with weight := w } else b) :: reweigh id w rest := fun _ => rfl
        rw [hreweigh, hreweigh, hcons, hcons, List.filter_append, ← ih, List.filter_map]
        by_cases hb : b.id = id
        · subst hb
          simp only [if_true]
          rw [← filter_range_lt (vnodeCount_mono h)]
          simp [Function.comp_def, vnodeCount]
        · simp [Function.comp_def, hb]

/-- A higher weight for one backend moves keys only to it, and a lower weight
moves keys only away from it. -/
theorem reweigh_moves_keys (hash32 : String → UInt32) (backends : List Backend) (id : String)
    (req : ClientRequest) (h : weight < weight') :
    let lower := (select hash32 (reweigh id weight backends) req).map Backend.id
    let higher := (select hash32 (reweigh id weight' backends) req).map Backend.id
    (higher = lower ∨ higher = some id) ∧ (lower = some id → higher = some id) := by
  intro lower higher
  obtain ⟨p, hp, hnodes⟩ := nodes_reweigh id h.le backends
  have hlower : lower = owner hash32 (reweigh id weight backends) (clientKey req) :=
    map_id_select hash32 _ req
  have hhigher : higher = owner hash32 (reweigh id weight' backends) (clientKey req) :=
    map_id_select hash32 _ req
  rw [owner, walkFrom] at hlower hhigher
  rw [hnodes, ← filter_sortBy] at hlower
  rcases head?_clockwise_filter (position hash32) (hash32 (clientKey req)).toNat
    (sortBy (position hash32) (nodes (reweigh id weight' backends))) p with
    hsame | ⟨node, hfirst, hout⟩
  · have heq : higher = lower := by rw [hlower, hhigher, hsame]
    exact ⟨Or.inl heq, fun hid => heq.trans hid⟩
  · have hid : higher = some id := by rw [hhigher, hfirst, Option.map_some, hp node hout]
    exact ⟨Or.inr hid, fun _ => hid⟩

theorem reweigh_moves_keys_sample :
    let lower := (select (fun key => key.length.toUInt32)
      (reweigh "backend-1" 1 sampleBackends) sampleRequest).map Backend.id
    let higher := (select (fun key => key.length.toUInt32)
      (reweigh "backend-1" 5 sampleBackends) sampleRequest).map Backend.id
    (higher = lower ∨ higher = some "backend-1") ∧
      (lower = some "backend-1" → higher = some "backend-1") :=
  reweigh_moves_keys _ sampleBackends "backend-1" sampleRequest (by decide)

end Weights

end ConsistentHash
end SentinelADC
