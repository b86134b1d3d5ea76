import Mathlib.Data.List.Basic
import Mathlib.Data.List.Infix

/-!
# Mounted routers

The routing rules of a web framework whose application is a list of mounts.  A
mount gives a path and a router; a router is a list of layers, each a guard
that turns away requests that are not admitted, or a route with a method and a
path.  Mount paths match on segment boundaries and ignore case, and so do the
literal segments of route paths; a route path may end in a slash.  The first
layer that answers wins, and a router that does not answer passes the request
on to the next mount.

A handler is called guarded when a guard stands before it in its router.
`dispatch_guarded` says that guarded handlers see admitted requests only.
-/

namespace SentinelADC
namespace Router

universe u

/-- Letters compared without case. -/
def lower (path : List Char) : List Char :=
  path.map Char.toLower

@[simp] theorem length_lower (path : List Char) :
    (lower path).length = path.length := by
  simp [lower]

/-- What is left of a path below a mount path, starting with a slash. -/
def mountRest (mount path : List Char) : Option (List Char) :=
  if lower (path.take mount.length) = lower mount then
    match path.drop mount.length with
    | [] => some ['/']
    | '/' :: '/' :: rest => some ('/' :: rest)
    | '/' :: rest => some ('/' :: rest)
    | _ => none
  else none

/-- `path` ends after its first `n` characters or goes on with a new segment. -/
def BoundaryAt (n : Nat) (path : List Char) : Prop :=
  ∀ c ∈ (path.drop n).head?, c = '/'

/-- Mount paths match on segment boundaries, without case. -/
theorem mountRest_isSome_iff {mount path : List Char} :
    (mountRest mount path).isSome ↔
      lower mount <+: lower path ∧ BoundaryAt mount.length path := by
  have hpre : lower (path.take mount.length) = lower mount ↔ lower mount <+: lower path := by
    rw [List.prefix_iff_eq_take, length_lower, lower, lower, List.map_take]
    exact eq_comm
  rw [← hpre]
  simp only [mountRest, BoundaryAt]
  split_ifs with hlower
  · cases path.drop mount.length with
    | nil => simp [hlower]
    | cons c rest =>
        by_cases hc : c = '/'
        · subst hc
          split <;> simp_all
        · split <;> simp_all
  · simp [hlower]

theorem eq_slash_of_toLower {c : Char} (h : c.toLower = '/') :
    c = '/' := by
  unfold Char.toLower at h
  split_ifs at h with hupper
  · have hval : c.val + 32 = 47 := congrArg Char.val h
    have hlo : (65 : UInt32) ≤ c.val := hupper.1
    have hhi : c.val ≤ (90 : UInt32) := hupper.2
    have hnat := congrArg UInt32.toNat hval
    rw [UInt32.le_iff_toNat_le] at hlo hhi
    rw [UInt32.toNat_add] at hnat
    simp at hnat hlo hhi
    omega
  · exact h

/-- A path below a mount is below the mounts that it extends. -/
theorem mountRest_of_append {mount more path : List Char}
    (h : (mountRest (mount ++ '/' :: more) path).isSome) :
    (mountRest mount path).isSome := by
  rw [mountRest_isSome_iff] at h ⊢
  obtain ⟨⟨rest, hrest⟩, -⟩ := h
  have hlower : lower path = lower mount ++ '/' :: (lower more ++ rest) := by
    rw [← hrest]
    simp [lower]
  refine ⟨⟨_, hlower.symm⟩, ?_⟩
  intro c hc
  have hmap : ((path.drop mount.length).map Char.toLower).head? = some '/' := by
    rw [List.map_drop, ← lower, hlower, List.drop_left' (by simp)]
    rfl
  rw [List.head?_map, Option.mem_def.mp hc] at hmap
  exact eq_slash_of_toLower (Option.some.inj hmap)

/-- A segment of a route path: literal text or a parameter. -/
inductive Segment where
  | lit (text : String)
  | param
deriving DecidableEq, Repr

/-- A route path matches a whole path, up to a final slash. -/
def matchPath : List Segment → List Char → Bool
  | [], path => path = [] ∨ path = ['/']
  | .lit text :: segments, '/' :: path =>
      lower (path.take text.toList.length) = lower text.toList ∧
        matchPath segments (path.drop text.toList.length)
  | .param :: segments, '/' :: path =>
      path.takeWhile (· ≠ '/') ≠ [] ∧ matchPath segments (path.dropWhile (· ≠ '/'))
  | _ :: _, _ => false

/-- A layer of a router. -/
inductive Layer (η : Type u) where
  | guard
  | route (method : String) (path : List Segment) (handler : η)

/-- A router under its mount path. -/
structure Mount (η : Type u) where
  path : String
  layers : List (Layer η)

/-- The answer of a router. -/
inductive Outcome (η : Type u) where
  | denied
  | handled (handler : η) (guarded : Bool)
deriving DecidableEq, Repr

/-- A route for `GET` also takes `HEAD`. -/
def methodMatches (method requested : String) : Bool :=
  requested = method ∨ requested = "HEAD" ∧ method = "GET"

section Dispatch

variable {η : Type u}

/-- The layers of a router in turn; `guarded` tells whether a guard was passed. -/
def runLayers (admitted : Bool) (method : String) (path : List Char) :
    Bool → List (Layer η) → Option (Outcome η)
  | _, [] => none
  | _, .guard :: layers =>
      if admitted then runLayers admitted method path true layers else some .denied
  | guarded, .route m p handler :: layers =>
      if methodMatches m method ∧ matchPath p path then some (.handled handler guarded)
      else runLayers admitted method path guarded layers

/-- The mounts in turn. -/
def dispatch (admitted : Bool) (method : String) (path : List Char) :
    List (Mount η) → Option (Outcome η)
  | [] => none
  | mount :: mounts =>
      match mountRest mount.path.toList path with
      | none => dispatch admitted method path mounts
      | some rest =>
          match runLayers admitted method rest false mount.layers with
          | none => dispatch admitted method path mounts
          | some outcome => some outcome

variable {admitted : Bool} {method : String} {path : List Char}

/-- A handler behind a guard of its router is reached by admitted requests. -/
theorem runLayers_guarded {layers : List (Layer η)} {guarded : Bool} {handler : η}
    (hstart : guarded = true → admitted = true)
    (h : runLayers admitted method path guarded layers = some (.handled handler true)) :
    admitted = true := by
  induction layers generalizing guarded with
  | nil => simp [runLayers] at h
  | cons layer layers ih =>
      cases layer with
      | guard =>
          simp only [runLayers] at h
          split_ifs at h with hadmitted
          · exact hadmitted
          · simp at h
      | route m p handler' =>
          simp only [runLayers] at h
          split_ifs at h with hmatch
          · simp only [Option.some.injEq, Outcome.handled.injEq] at h
            exact hstart h.2
          · exact ih hstart h

/-- Guarded handlers see admitted requests only. -/
theorem dispatch_guarded {mounts : List (Mount η)} {handler : η}
    (h : dispatch admitted method path mounts = some (.handled handler true)) :
    admitted = true := by
  induction mounts with
  | nil => simp [dispatch] at h
  | cons mount mounts ih =>
      simp only [dispatch] at h
      split at h
      · exact ih h
      · split at h
        · exact ih h
        · next hrun =>
            obtain rfl := Option.some.inj h
            exact runLayers_guarded (by simp) hrun

/-- The handlers of a router that no guard stands before. -/
def openHandlers : List (Layer η) → List η
  | [] => []
  | .guard :: _ => []
  | .route _ _ handler :: layers => handler :: openHandlers layers

/-- Behind a guard every handler is a guarded one. -/
theorem runLayers_ne_open (layers : List (Layer η)) {handler : η} :
    runLayers admitted method path true layers ≠ some (.handled handler false) := by
  induction layers with
  | nil => simp [runLayers]
  | cons layer layers ih =>
      cases layer with
      | guard =>
          simp only [runLayers]
          split_ifs
          · exact ih
          · simp
      | route m p handler' =>
          simp only [runLayers]
          split_ifs
          · simp
          · exact ih

theorem runLayers_open {layers : List (Layer η)} {guarded : Bool} {handler : η}
    (h : runLayers admitted method path guarded layers = some (.handled handler false)) :
    handler ∈ openHandlers layers := by
  induction layers generalizing guarded with
  | nil => simp [runLayers] at h
  | cons layer layers ih =>
      cases layer with
      | guard =>
          simp only [runLayers] at h
          split_ifs at h
          · exact absurd h (runLayers_ne_open layers)
          · simp at h
      | route m p handler' =>
          simp only [runLayers] at h
          split_ifs at h with hmatch
          · simp only [Option.some.injEq, Outcome.handled.injEq] at h
            rw [openHandlers, h.1]
            exact List.mem_cons_self
          · exact List.mem_cons_of_mem _ (ih h)

/-- A handler that is reached without a guard has none before it in some router. -/
theorem dispatch_open {mounts : List (Mount η)} {handler : η}
    (h : dispatch admitted method path mounts = some (.handled handler false)) :
    ∃ mount ∈ mounts, handler ∈ openHandlers mount.layers := by
  induction mounts with
  | nil => simp [dispatch] at h
  | cons mount mounts ih =>
      have hrest : dispatch admitted method path mounts = some (.handled handler false) →
          ∃ mount' ∈ mount :: mounts, handler ∈ openHandlers mount'.layers := by
        intro hmounts
        obtain ⟨mount', hmem, hopen⟩ := ih hmounts
        exact ⟨mount', List.mem_cons_of_mem _ hmem, hopen⟩
      simp only [dispatch] at h
      split at h
      · exact hrest h
      · split at h
        · exact hrest h
        · next hrun =>
            obtain rfl := Option.some.inj h
            exact ⟨mount, List.mem_cons_self, runLayers_open hrun⟩

/-- A request that is answered matches the path of some mount. -/
theorem dispatch_mounted {mounts : List (Mount η)} {outcome : Outcome η}
    (h : dispatch admitted method path mounts = some outcome) :
    ∃ mount ∈ mounts, (mountRest mount.path.toList path).isSome := by
  induction mounts with
  | nil => simp [dispatch] at h
  | cons mount mounts ih =>
      simp only [dispatch] at h
      split at h
      · obtain ⟨mount', hmem, hmatch⟩ := ih h
        exact ⟨mount', List.mem_cons_of_mem _ hmem, hmatch⟩
      · next rest hrest => exact ⟨mount, List.mem_cons_self, by rw [hrest]; rfl⟩

end Dispatch

end Router
end SentinelADC
