import SentinelADC.ControlPlane
import Mathlib.Data.Set.Insert

/-!
# Operator settings

What operators set through the API: the balancing algorithm, the weight and the
administrative mark of each backend, and the blocklist.  These settings form a
small machine of their own.  The process refines it: of everything that happens,
only requests with a valid token reach the settings, and they act on them one
after the other as on a record that nothing else writes.
-/

namespace SentinelADC

open Runs Router

universe u

/-- What an operator sets for one backend. -/
structure Marks where
  weight : Nat
  disabled : Bool
deriving DecidableEq, Repr

/-- The settings of the operators. -/
@[ext] structure Settings where
  algorithm : String
  strategy : Strategy
  marks : String → Option Marks
  blocked : Set String

/-- An order that changes a setting. -/
inductive Setting where
  | algorithm (name : String)
  | weight (id : String) (weight : Nat)
  | disable (id : String) (disabled : Bool)
  | block (ip : String)
  | unblock (ip : String)
deriving DecidableEq, Repr

namespace Settings

/-- Write the marks of a backend that exists. -/
def mark (s : Settings) (id : String) (f : Marks → Marks) : Settings :=
  { s with marks := Function.update s.marks id ((s.marks id).map f) }

/-- Carry out an order; one that names no strategy or no backend changes nothing. -/
def apply (s : Settings) : Setting → Settings
  | .algorithm name =>
      match Strategy.getStrategy name with
      | .ok strategy => { s with algorithm := name, strategy := strategy }
      | .error _ => s
  | .weight id weight => s.mark id (fun m => { m with weight := weight })
  | .disable id disabled => s.mark id (fun m => { m with disabled := disabled })
  | .block ip => { s with blocked := insert ip s.blocked }
  | .unblock ip => { s with blocked := s.blocked \ {ip} }

end Settings

/-- The fields of a backend object that operators set. -/
def Backend.marks (b : Backend) : Marks :=
  ⟨b.weight, b.adminDisabled⟩

/-- What a cell operation does to the marks. -/
def CellOp.mark : CellOp → Marks → Marks
  | .setWeight weight => fun m => { m with weight := weight }
  | .override healthy => fun m => { m with disabled := !healthy }
  | _ => fun m => m

/-- The order that an operation of the gateway carries out. -/
def Op.setting? : Op → Option Setting
  | .setAlgorithm name => some (.algorithm name)
  | .setWeight id (some weight) => if weight < 0 then none else some (.weight id weight.toNat)
  | .healthOverride id (some healthy) => some (.disable id (!healthy))
  | _ => none

namespace Gateway

/-- The settings, with the addresses that are blocked. -/
def settings (blocked : Set String) (g : Gateway) : Settings where
  algorithm := g.algorithm
  strategy := g.strategy
  marks := fun id => (g.pool.find id).map Backend.marks
  blocked := blocked

section Marks

variable {cfg : Config} {g : Gateway} {id : String} {c : Cell}

theorem marks_step (op : CellOp) :
    (c.step cfg op).backend.marks = op.mark c.backend.marks := by
  have hfield : ∀ op : CellOp, op.writesRecord = false →
      (c.step cfg op).backend.marks = c.backend.marks :=
    fun op hop => Cell.field_step Backend.marks (fun _ _ _ _ _ => rfl) hop
  cases op with
  | setWeight weight => rfl
  | override healthy => rfl
  | connect => rfl
  | disconnect =>
      simp only [Cell.step, Cell.disconnect]
      split_ifs <;> rfl
  | _ => exact hfield _ rfl

theorem marks_run (ops : List CellOp) :
    (run (Cell.step cfg) c ops).backend.marks =
      ops.foldl (fun m op => op.mark m) c.backend.marks := by
  induction ops generalizing c with
  | nil => rfl
  | cons op ops ih => rw [run_cons, ih, marks_step, List.foldl_cons]

/-- Operations that are no orders leave the marks alone. -/
theorem marks_foldl_of_keeps {ops : List CellOp}
    (h : ∀ op ∈ ops, op.mark = fun m => m) (m : Marks) :
    ops.foldl (fun m op => op.mark m) m = m := by
  induction ops with
  | nil => rfl
  | cons op ops ih =>
      rw [List.foldl_cons, h op List.mem_cons_self]
      exact ih (fun op' hop' => h op' (List.mem_cons_of_mem _ hop'))

theorem find_eq_cell (hg : g.Complete) :
    g.pool.find id = (g.cell id).map Cell.backend := by
  cases hc : g.cell id with
  | none => rw [hg.find_eq_none hc, Option.map_none]
  | some c => rw [(cell_eq_some_iff.mp hc).1, Option.map_some]

/-- The marks after an event, by the operations of the event. -/
theorem marks_effects (e : Event) (hg : g.Complete) (blocked : Set String) :
    ((g.step cfg e).settings blocked).marks id =
      ((g.settings blocked).marks id).map
        (fun m => (effects cfg g e id).foldl (fun m op => op.mark m) m) := by
  have hcell : (g.step cfg e).cell id =
      (g.cell id).map (fun c => run (Cell.step cfg) c (effects cfg g e id)) :=
    (performs_step cfg e hg).cell id
  have hg' : (g.step cfg e).Complete := complete_step e hg
  simp only [settings, find_eq_cell hg, find_eq_cell hg', hcell, Option.map_map]
  congr 1
  funext c
  exact marks_run _

/-- Events that are no orders about backends keep all marks. -/
theorem marks_keep {e : Event} (hweight : ∀ id weight, e.op ≠ .setWeight id weight)
    (hoverride : ∀ id healthy, e.op ≠ .healthOverride id healthy) (hg : g.Complete)
    (blocked : Set String) :
    ((g.step cfg e).settings blocked).marks = (g.settings blocked).marks := by
  funext id
  have hkeep : ∀ op ∈ effects cfg g e id, op.mark = fun m => m := by
    intro op hop
    have hcause := causes_of_mem_effects hop
    cases op with
    | setWeight weight =>
        obtain ⟨weight', heq⟩ := hcause
        exact absurd heq (hweight id weight')
    | override healthy => exact absurd hcause (hoverride id (some healthy))
    | _ => rfl
  rw [marks_effects e hg]
  simp only [marks_foldl_of_keeps hkeep, Option.map_id']

/-- An order about one backend writes the marks of that backend. -/
theorem marks_order {e : Event} {order : CellOp} (heffects : effects cfg g e = opsAt id [order])
    (hg : g.Complete) (blocked : Set String) :
    ((g.step cfg e).settings blocked).marks =
      ((g.settings blocked).mark id order.mark).marks := by
  funext id'
  rw [marks_effects e hg, heffects]
  by_cases hid : id' = id
  · subst hid
    simp [Settings.mark]
  · simp [Settings.mark, opsAt_ne hid, Function.update_of_ne hid]

/-- An event acts on the settings as its order, if it is one. -/
theorem settings_step (e : Event) (hg : g.Complete) (blocked : Set String) :
    (g.step cfg e).settings blocked =
      e.op.setting?.elim (g.settings blocked) (g.settings blocked).apply := by
  have hinstalled : (∀ name, e.op ≠ .setAlgorithm name) →
      (g.step cfg e).algorithm = g.algorithm ∧ (g.step cfg e).strategy = g.strategy :=
    fun hop => Prod.mk.inj (installed_step hop)
  have hkeep : (∀ name, e.op ≠ .setAlgorithm name) → (∀ id weight, e.op ≠ .setWeight id weight) →
      (∀ id healthy, e.op ≠ .healthOverride id healthy) →
      (g.step cfg e).settings blocked = g.settings blocked := by
    intro halgorithm hweight hoverride
    obtain ⟨hname, hobject⟩ := hinstalled halgorithm
    exact Settings.ext hname hobject (marks_keep hweight hoverride hg blocked) rfl
  obtain ⟨now, op⟩ := e
  cases op with
  | setAlgorithm name =>
      simp only [step, setAlgorithm, Op.setting?, Option.elim_some, Settings.apply]
      cases Strategy.getStrategy name <;> rfl
  | setWeight id weight =>
      obtain ⟨hname, hobject⟩ := hinstalled (by simp)
      cases weight with
      | none => rfl
      | some weight =>
          by_cases hneg : weight < 0
          · simp [step, setWeight, settle, Op.setting?, hneg]
          · have heffects : effects cfg g ⟨now, .setWeight id (some weight)⟩ =
                opsAt id [.setWeight weight.toNat] := by
              simp [effects, hneg]
            have hmarks := marks_order heffects hg blocked
            simp only [Op.setting?, hneg, if_false, Option.elim_some]
            exact Settings.ext hname hobject hmarks rfl
  | healthOverride id healthy =>
      obtain ⟨hname, hobject⟩ := hinstalled (by simp)
      cases healthy with
      | none => rfl
      | some healthy =>
          have heffects : effects cfg g ⟨now, .healthOverride id (some healthy)⟩ =
              opsAt id [.override healthy] := rfl
          exact Settings.ext hname hobject (marks_order heffects hg blocked) rfl
  | _ => exact hkeep (by simp) (by simp) (by simp)

end Marks

end Gateway

namespace ApiCall

/-- The operation of the gateway that a handler carries out. -/
def op? (call : ApiCall) : Handler → Option Op
  | .status => some .status
  | .setAlgorithm => some (.setAlgorithm (call.algorithm.getD ""))
  | .setWeight => some (.setWeight call.param call.weight)
  | .drain => some (.drain call.param call.drainTimeout)
  | .undrain => some (.undrain call.param)
  | .healthOverride => some (.healthOverride call.param call.healthy)
  | .resetBreaker => some (.resetBreaker call.backendId)
  | .resetAllBreakers => some .resetAllBreakers
  | _ => none

/-- The order that a request gives to a handler. -/
def order? (call : ApiCall) : Handler → Option Setting
  | .block => (truthy call.ip).map Setting.block
  | .unblock => some (.unblock call.param)
  | handler => (call.op? handler).bind Op.setting?

/-- The order that a request gives. -/
def setting? (libs : Libraries) (call : ApiCall) : Option Setting :=
  match target libs call.request with
  | .handler handler _ => call.order? handler
  | _ => none

/-- The handlers that no guard protects. -/
def openToAll : List Handler :=
  [.status, .ping, .healthOfAll, .healthOfOne, .metricsOfAll, .metricsOfOne, .cacheStats, .login]

theorem mem_openToAll {libs : Libraries} {req : HttpRequest} {handler : Handler}
    (h : target libs req = .handler handler false) :
    handler ∈ openToAll := by
  have hopen : ∀ mount ∈ apiMounts, ∀ handler ∈ openHandlers mount.layers,
      handler ∈ openToAll := by
    decide
  unfold target at h
  dsimp only at h
  split at h
  · simp at h
  · split at h
    · next handler' guarded hdispatch =>
        simp only [Target.handler.injEq] at h
        obtain ⟨rfl, rfl⟩ := h
        obtain ⟨mount, hmem, hhandler⟩ := dispatch_open hdispatch
        exact hopen mount hmem handler' hhandler
    · simp at h
    · split_ifs at h

/-- Every order comes with a valid token. -/
theorem admitted_of_setting {libs : Libraries} {call : ApiCall} {x : Setting}
    (h : call.setting? libs = some x) :
    call.request.admitted libs = true := by
  cases htarget : target libs call.request with
  | handler handler guarded =>
      cases guarded with
      | true => exact admitted_iff.mpr (hasValidToken_of_target htarget)
      | false =>
          have hmem := mem_openToAll htarget
          simp only [openToAll, List.mem_cons, List.not_mem_nil, or_false] at hmem
          rcases hmem with rfl | rfl | rfl | rfl | rfl | rfl | rfl | rfl <;>
            simp [setting?, htarget, order?, op?, Op.setting?] at h
  | unauthorized message => simp [setting?, htarget] at h
  | badBody status => simp [setting?, htarget] at h
  | proxy => simp [setting?, htarget] at h
  | notFound => simp [setting?, htarget] at h

end ApiCall

/-- The request of an event, if it has a valid token. -/
def ControlEvent.authorized {V : Type u} (libs : Libraries) (e : ControlEvent V) :
    Option ApiCall :=
  match e.op with
  | .call call => if call.request.admitted libs then some call else none
  | _ => none

namespace ControlPlane

variable {V : Type u} {env : ControlEnv} {call : ApiCall} {s : ControlPlane V}

/-- The settings that the process works with. -/
def settings (s : ControlPlane V) : Settings :=
  s.gateway.settings {ip | ip ∈ s.blockedIps}

/-- States after start-up. -/
structure Booted (env : ControlEnv) (s : ControlPlane V) : Prop where
  gateway : Gateway.Booted env.cfg s.gateway
  blockedIps : s.blockedIps = []
  events : s.events = []

/-- States after start-up and any events. -/
def Reachable (env : ControlEnv) : ControlPlane V → Prop :=
  Runs.Reachable (Booted env) (step env) (fun _ _ => True)

section Handlers

theorem settleGateway_ok (status : Nat) (text : String) (result : Except String Gateway) :
    (s.settleGateway status text result).2 =
      { s with gateway := s.gateway.settle result } := by
  cases result <;> rfl

theorem settleMessage_ok (status : Nat) (result : Except String (String × Gateway)) :
    (s.settleMessage status result).2 =
      { s with gateway := s.gateway.settle (Gateway.dropMessage result) } := by
  cases result <;> rfl

/-- A handler of the gateway runs the operation, and logs. -/
theorem handle_op (env : ControlEnv) (now : Int) (s : ControlPlane V) {handler : Handler} {op : Op}
    (h : call.op? handler = some op) :
    ∃ logged, (s.handle env now call handler).2 =
      { s.logAll logged with gateway := s.gateway.step env.cfg ⟨now, op⟩ } := by
  cases handler with
  | status =>
      obtain rfl := Option.some.inj h
      exact ⟨[], rfl⟩
  | setAlgorithm =>
      obtain rfl := Option.some.inj h
      refine ⟨[], ?_⟩
      rw [Gateway.step_setAlgorithm]
      exact settleGateway_ok _ _ _
  | setWeight =>
      obtain rfl := Option.some.inj h
      exact ⟨[], settleGateway_ok _ _ _⟩
  | drain =>
      obtain rfl := Option.some.inj h
      exact ⟨_, settleMessage_ok _ _⟩
  | undrain =>
      obtain rfl := Option.some.inj h
      exact ⟨[], settleMessage_ok _ _⟩
  | healthOverride =>
      obtain rfl := Option.some.inj h
      exact ⟨[], settleGateway_ok _ _ _⟩
  | resetBreaker =>
      obtain rfl := Option.some.inj h
      exact ⟨[], settleGateway_ok _ _ _⟩
  | resetAllBreakers =>
      obtain rfl := Option.some.inj h
      exact ⟨[], rfl⟩
  | _ => simp [ApiCall.op?] at h

/-- Reads of metrics write the windows only. -/
theorem readMetrics_foldl (now : Int) (s : ControlPlane V) (ids : List String) :
    ∃ history, ids.foldl (fun s id => s.readMetrics now id) s =
      { s with
        gateway := { s.gateway with
          memory := { s.gateway.memory with history := history } } } := by
  induction ids generalizing s with
  | nil => exact ⟨s.gateway.memory.history, rfl⟩
  | cons id ids ih =>
      obtain ⟨history, hfold⟩ := ih (s.readMetrics now id)
      refine ⟨history, ?_⟩
      rw [List.foldl_cons, hfold]
      simp only [readMetrics, StrategyMemory.getBackendMetrics_snd, StrategyMemory.cleanup]
      split <;> rfl

/-- What the other handlers write: the metrics windows, the cache, the log, or the
blocklist. -/
theorem handle_none (env : ControlEnv) (now : Int) (s : ControlPlane V) {handler : Handler}
    (h : call.op? handler = none) :
    (call.order? handler = none ∧ ∃ memory, (s.handle env now call handler).2 =
        { s with gateway := { s.gateway with memory := memory } }) ∨
      ((handler = .cacheFlush ∨ handler = .cacheInvalidate) ∧
        ∃ cache, (s.handle env now call handler).2 = { s with cache := cache }) ∨
      (handler = .clearEvents ∧ (s.handle env now call handler).2 = { s with events := [] }) ∨
      (handler = .block ∧ ∃ ip, truthy call.ip = some ip ∧
        (s.handle env now call handler).2 = { s with blockedIps := blockIp ip s.blockedIps }) ∨
      (handler = .unblock ∧ (s.handle env now call handler).2 =
        { s with blockedIps := (unblockIp call.param s.blockedIps).2 }) := by
  have hsame : call.order? handler = none → (s.handle env now call handler).2 = s →
      call.order? handler = none ∧ ∃ memory, (s.handle env now call handler).2 =
        { s with gateway := { s.gateway with memory := memory } } :=
    fun horder heq => ⟨horder, s.gateway.memory, heq⟩
  have hcache : ∀ text f, ∃ cache, (s.onCache text f).2 = { s with cache := cache } := by
    intro text f
    simp only [onCache]
    split_ifs
    · exact ⟨f s.cache, rfl⟩
    · exact ⟨s.cache, rfl⟩
  cases handler with
  | status => simp [ApiCall.op?] at h
  | setAlgorithm => simp [ApiCall.op?] at h
  | setWeight => simp [ApiCall.op?] at h
  | drain => simp [ApiCall.op?] at h
  | undrain => simp [ApiCall.op?] at h
  | healthOverride => simp [ApiCall.op?] at h
  | resetBreaker => simp [ApiCall.op?] at h
  | resetAllBreakers => simp [ApiCall.op?] at h
  | healthOfOne =>
      refine Or.inl (hsame rfl ?_)
      simp only [handle]
      split_ifs <;> rfl
  | metricsOfAll =>
      obtain ⟨history, hfold⟩ := readMetrics_foldl now s s.gateway.pool.ids
      exact Or.inl ⟨rfl, _, hfold⟩
  | metricsOfOne =>
      simp only [handle]
      split_ifs
      · exact Or.inl ⟨rfl, (s.readMetrics now call.param).gateway.memory, rfl⟩
      · exact Or.inl ⟨rfl, s.gateway.memory, rfl⟩
      · exact Or.inl ⟨rfl, (s.readMetrics now call.param).gateway.memory, rfl⟩
  | cacheFlush => exact Or.inr (Or.inl ⟨Or.inl rfl, hcache _ _⟩)
  | cacheInvalidate =>
      cases hpattern : truthy call.pattern with
      | none =>
          refine Or.inl (hsame rfl ?_)
          simp only [handle, hpattern]
      | some pattern =>
          obtain ⟨cache, heq⟩ := hcache
            s!"Successfully invalidated cache keys matching pattern: \"{pattern}\""
            (CacheService.invalidatePattern (env.matching pattern))
          refine Or.inr (Or.inl ⟨Or.inr rfl, cache, ?_⟩)
          simp only [handle, hpattern, heq]
  | login =>
      refine Or.inl (hsame rfl ?_)
      simp only [handle]
      split_ifs <;> rfl
  | clearEvents => exact Or.inr (Or.inr (Or.inl ⟨rfl, rfl⟩))
  | block =>
      cases hip : truthy call.ip with
      | none =>
          refine Or.inl (hsame (by simp [ApiCall.order?, hip]) ?_)
          simp only [handle, hip]
      | some ip =>
          refine Or.inr (Or.inr (Or.inr (Or.inl ⟨rfl, ip, rfl, ?_⟩)))
          simp only [handle, hip]
  | unblock =>
      refine Or.inr (Or.inr (Or.inr (Or.inr ⟨rfl, ?_⟩)))
      by_cases hexisted : call.param ∈ s.blockedIps
      · simp [handle, unblockIp, hexisted]
      · have hkeep : s.blockedIps.filter (fun blocked => blocked ≠ call.param) =
            s.blockedIps := by
          rw [List.filter_eq_self]
          intro ip hip
          have hne : ip ≠ call.param := fun heq => hexisted (heq ▸ hip)
          simpa using hne
        simp only [handle, unblockIp, hexisted, decide_false, Bool.false_eq_true, if_false, hkeep]
  | _ => exact Or.inl (hsame rfl rfl)

end Handlers

section Run

theorem mem_blockIp {ip ip' : String} {blockedIps : List String} :
    ip' ∈ blockIp ip blockedIps ↔ ip' = ip ∨ ip' ∈ blockedIps := by
  simp only [blockIp]
  split_ifs with hmem
  · constructor
    · exact Or.inr
    · rintro (rfl | h)
      · exact hmem
      · exact h
  · simp [or_comm]

/-- A handler acts on the settings as the order that it is given. -/
theorem settings_handle (env : ControlEnv) (now : Int) (call : ApiCall) (handler : Handler)
    (hs : s.gateway.Complete) :
    (s.handle env now call handler).2.settings =
      (call.order? handler).elim s.settings s.settings.apply := by
  cases hop : call.op? handler with
  | some op =>
      obtain ⟨logged, heq⟩ := handle_op env now s hop
      have horder : call.order? handler = op.setting? := by
        cases handler <;> simp_all [ApiCall.order?, ApiCall.op?]
      rw [heq, horder]
      exact Gateway.settings_step _ hs _
  | none =>
      rcases handle_none env now s hop with ⟨horder, memory, heq⟩ |
        ⟨hhandler, cache, heq⟩ | ⟨rfl, heq⟩ | ⟨rfl, ip, hip, heq⟩ | ⟨rfl, heq⟩
      · rw [heq, horder]
        rfl
      · have horder : call.order? handler = none := by
          rcases hhandler with rfl | rfl <;> rfl
        rw [heq, horder]
        rfl
      · rw [heq]
        rfl
      · rw [heq]
        simp only [ApiCall.order?, hip, Option.map_some, Option.elim_some, Settings.apply]
        refine Settings.ext rfl rfl rfl (Set.ext fun ip' => ?_)
        exact mem_blockIp
      · rw [heq]
        refine Settings.ext rfl rfl rfl (Set.ext fun ip' => ?_)
        simp [settings, Gateway.settings, unblockIp, ApiCall.order?, Settings.apply]

/-- A request acts on the settings as its order, if it gives one. -/
theorem settings_serve (env : ControlEnv) (now : Int) (call : ApiCall)
    (hs : s.gateway.Complete) :
    (s.serve env now call).2.settings =
      (call.setting? env.libs).elim s.settings s.settings.apply := by
  cases htarget : target env.libs call.request with
  | handler handler guarded =>
      simp only [serve, ApiCall.setting?, htarget]
      exact settings_handle env now call handler hs
  | unauthorized message => simp only [serve, htarget, ApiCall.setting?]; rfl
  | badBody status => simp only [serve, htarget, ApiCall.setting?]; rfl
  | proxy => simp only [serve, htarget, ApiCall.setting?]; rfl
  | notFound => simp only [serve, htarget, ApiCall.setting?]; rfl

/-- Every backend keeps its records. -/
theorem complete_serve (env : ControlEnv) (now : Int) (call : ApiCall)
    (hs : s.gateway.Complete) :
    (s.serve env now call).2.gateway.Complete := by
  cases htarget : target env.libs call.request with
  | handler handler guarded =>
      simp only [serve, htarget]
      cases hop : call.op? handler with
      | some op =>
          obtain ⟨logged, heq⟩ := handle_op env now s hop
          rw [heq]
          exact Gateway.complete_step _ hs
      | none =>
          rcases handle_none env now s hop with ⟨-, memory, heq⟩ |
            ⟨-, cache, heq⟩ | ⟨-, heq⟩ | ⟨-, ip, -, heq⟩ | ⟨-, heq⟩ <;> rw [heq]
          · exact hs
          · exact hs
          · exact hs
          · exact hs
          · exact hs
  | unauthorized message =>
      simp only [serve, htarget]
      exact hs
  | badBody status => simpa only [serve, htarget] using hs
  | proxy => simpa only [serve, htarget] using hs
  | notFound => simpa only [serve, htarget] using hs

theorem complete_step (e : ControlEvent V) (hs : s.gateway.Complete) :
    (step env s e).gateway.Complete := by
  obtain ⟨now, op⟩ := e
  cases op with
  | call call => exact complete_serve env now call hs
  | background op logged => exact Gateway.complete_step _ hs
  | caching cache => exact hs
  | logging logged => exact hs

theorem Reachable.complete (h : Reachable env s) :
    s.gateway.Complete :=
  Runs.Reachable.invariant (P := fun s : ControlPlane V => s.gateway.Complete)
    (fun _ hs => hs.gateway.complete) (fun _ e hs _ => complete_step e hs) h

/-- What happens in the background gives no orders. -/
theorem setting_of_background {op : Op} (h : op.isApiCall = false) :
    op.setting? = none := by
  cases op <;> simp_all [Op.isApiCall, Op.setting?]

/-- Orders reach the settings with a valid token, and nothing else does. -/
theorem settings_step (e : ControlEvent V) (hs : s.gateway.Complete) :
    (step env s e).settings =
      ((e.authorized env.libs).bind (ApiCall.setting? env.libs)).elim s.settings
        s.settings.apply := by
  obtain ⟨now, op⟩ := e
  cases op with
  | call call =>
      simp only [step, ControlEvent.authorized]
      rw [settings_serve env now call hs]
      cases hsetting : call.setting? env.libs with
      | none => split_ifs <;> simp [hsetting]
      | some x => simp [ApiCall.admitted_of_setting hsetting, hsetting]
  | background op logged =>
      have hstep : (s.gateway.step env.cfg ⟨now, op⟩).settings {ip | ip ∈ s.blockedIps} =
          s.settings := by
        rw [Gateway.settings_step _ hs, setting_of_background op.2]
        rfl
      exact hstep
  | caching cache => rfl
  | logging logged => rfl

/-- Whatever goes on in the process, the settings are those that the requests with
a valid token make in turn. -/
theorem settings_run (h : Reachable env s) (es : List (ControlEvent V)) :
    (run (step env) s es).settings =
      run Settings.apply s.settings
        ((es.filterMap (ControlEvent.authorized env.libs)).filterMap
          (ApiCall.setting? env.libs)) := by
  rw [List.filterMap_filterMap]
  exact view_run (I := fun s : ControlPlane V => s.gateway.Complete)
    (fun _ e hs => complete_step e hs) (fun _ e hs => settings_step e hs) h.complete es

end Run

section Sample

/-- The default settings, with paths, tokens and ASCII text as Express, `jsonwebtoken` and Node
read them. -/
def sampleEnv : ControlEnv where
  cfg := Config.default (fun _ => 0)
  libs :=
    { pathname := fun url => url.toList.takeWhile (fun c => c ≠ '?')
      verify := fun token => if token = "admin-token" then .ok () else .error "jwt malformed"
      decode := fun bytes => String.ofList (bytes.map (fun byte => Char.ofNat byte.toNat))
      encode := fun text => text.toList.map (fun c => UInt8.ofNat c.toNat)
      formatMs := fun latency => toString ⌊latency⌋ ++ "ms" }
  matching := fun pattern key => pattern = key

/-- The process right after start-up, without Redis. -/
def sampleControl : ControlPlane Unit where
  gateway := Gateway.sampleGateway
  cache :=
    { enabled := true, ttl := 300, client := none, useMemoryFallback := true, memoryCache := []
      redis := [], queue := [], stats := ⟨0, 0, 0, 0, 0⟩ }
  blockedIps := []
  events := []

theorem reachable_sampleControl :
    Reachable sampleEnv sampleControl :=
  .start ⟨⟨0, rfl⟩, rfl, rfl⟩

/-- A request without credentials. -/
def getCall (url : String) : ApiCall where
  request := ⟨"GET", url, fun _ => none, none⟩
  client := ⟨"GET", url, none, none, some "192.0.2.7", none⟩
  param := ""
  pattern := none
  algorithm := none
  weight := none
  timeoutSec := none
  healthy := none
  backendId := none
  ip := none
  username := none
  password := none

/-- A request to block an address, with the given credentials. -/
def blockCall (authorization : Option String) : ApiCall :=
  { getCall "/api/security/blocklist" with
    request := ⟨"POST", "/api/security/blocklist",
      fun name => if name = "authorization" then authorization else none, none⟩
    ip := some "203.0.113.9" }

/-- A request that an operator sends, the same one without the token, and a health check. -/
def sampleCalls : List (ControlEvent Unit) :=
  [⟨1, .call (blockCall (some "Bearer admin-token"))⟩, ⟨2, .call (blockCall none)⟩,
    ⟨3, .background ⟨.healthCheck "backend-1" (.passed 4), rfl⟩ []⟩]

theorem settings_run_sample :
    (run (step sampleEnv) sampleControl sampleCalls).settings =
      run Settings.apply sampleControl.settings [.block "203.0.113.9"] := by
  have horders : (sampleCalls.filterMap (ControlEvent.authorized sampleEnv.libs)).filterMap
      (ApiCall.setting? sampleEnv.libs) = [.block "203.0.113.9"] := by
    decide
  rw [← horders]
  exact settings_run reachable_sampleControl sampleCalls

end Sample

end ControlPlane

end SentinelADC
