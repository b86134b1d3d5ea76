import SentinelADC.ExchangeStep

/-!
# Switching the algorithm

`PUT /api/admin/algorithm` looks the name up in an object literal, so it also
accepts the names that such an object inherits.  What is installed then is no
strategy.  With any other name the switch either succeeds or changes nothing.
-/

namespace SentinelADC

open Runs

namespace Gateway

/-- `PUT /api/admin/algorithm` with a string in the field `algorithm`. -/
def putAlgorithm (algorithm : String) (g : Gateway) : Except String Gateway :=
  if algorithm = "" then .error "Missing required field: \"algorithm\""
  else g.setAlgorithm algorithm

/-- The name of the algorithm with the object that is installed for it. -/
def installed (g : Gateway) : String × Strategy :=
  (g.algorithm, g.strategy)

/-- The name is one of the five and the object is its strategy. -/
def RoutesByName (g : Gateway) : Prop :=
  g.installed ∈ Strategy.available

/-- `setAlgorithm` installs the strategy of the name, or throws and leaves the
state as it is. -/
def SwitchesCleanly (g : Gateway) (name : String) : Prop :=
  (∃ strategy, (name, strategy) ∈ Strategy.available ∧
    g.setAlgorithm name = .ok { g with strategy := strategy, algorithm := name }) ∨
  ((∃ message, g.setAlgorithm name = .error message) ∧ g.settle (g.setAlgorithm name) = g)

section Switch

variable {cfg : Config} {g : Gateway} {name : String}

/-- How the lookup ends: at one of the five strategies, at an inherited member, or
with an error. -/
theorem getStrategy_cases (name : String) :
    (name ∉ Strategy.inheritedMembers ∧
      ∃ strategy, (name, strategy) ∈ Strategy.available ∧
        Strategy.getStrategy name = .ok strategy) ∨
    (name ∈ Strategy.inheritedMembers ∧
      Strategy.getStrategy name = .ok (.inherited name)) ∨
    (name ∉ Strategy.inheritedMembers ∧ ∃ message, Strategy.getStrategy name = .error message) := by
  have hown : ∀ entry ∈ Strategy.available, entry.1 ∉ Strategy.inheritedMembers := by decide
  simp only [Strategy.getStrategy]
  cases hfind : Strategy.available.find? (fun entry => entry.1 = name) with
  | some entry =>
      have hmem := List.mem_of_find?_eq_some hfind
      obtain rfl : entry.1 = name := by simpa using List.find?_some hfind
      exact Or.inl ⟨hown entry hmem, entry.2, hmem, rfl⟩
  | none =>
      by_cases hname : name ∈ Strategy.inheritedMembers
      · exact Or.inr (Or.inl ⟨hname, if_pos hname⟩)
      · exact Or.inr (Or.inr ⟨hname, _, if_neg hname⟩)

theorem not_available_of_inherited (name member : String) :
    (name, Strategy.inherited member) ∉ Strategy.available := by
  simp [Strategy.available]

theorem switchesCleanly_iff :
    g.SwitchesCleanly name ↔ name ∉ Strategy.inheritedMembers := by
  rcases getStrategy_cases name with ⟨hown, strategy, hmem, hget⟩ | ⟨hinherited, hget⟩ |
    ⟨hown, message, hget⟩
  · refine iff_of_true (Or.inl ⟨strategy, hmem, ?_⟩) hown
    rw [setAlgorithm, hget]
  · refine iff_of_false ?_ (not_not.mpr hinherited)
    rintro (⟨strategy, hmem, hset⟩ | ⟨⟨message, hset⟩, -⟩)
    · rw [setAlgorithm, hget] at hset
      have hstrategy : Strategy.inherited name = strategy :=
        congrArg Gateway.strategy (Except.ok.inj hset)
      exact not_available_of_inherited name name (hstrategy ▸ hmem)
    · rw [setAlgorithm, hget] at hset
      cases hset
  · refine iff_of_true (Or.inr ⟨⟨message, ?_⟩, ?_⟩) hown
    · rw [setAlgorithm, hget]
    · rw [setAlgorithm, hget, settle]

/-- The handler and the lookup refuse an empty name alike. -/
theorem step_setAlgorithm (now : Int) :
    g.step cfg ⟨now, .setAlgorithm name⟩ = g.settle (g.putAlgorithm name) := by
  by_cases hempty : name = ""
  · subst hempty
    rfl
  · simp only [step, putAlgorithm, if_neg hempty]

theorem installed_eq_of_records {g' : Gateway} (h : RecordsFrame g g') :
    g'.installed = g.installed := by
  rw [installed, h.algorithm, h.strategy, installed]

@[simp] theorem installed_modifyExchange (rid : Nat) (f : Exchange → Exchange) :
    (g.modifyExchange rid f).installed = g.installed := by
  rfl

@[simp] theorem installed_collect (now : Int) (backendId : Option String) (latency : Rat)
    (error : Bool) :
    (g.collect now backendId latency error).installed = g.installed := by
  simp only [collect]
  split <;> rfl

theorem installed_selectBackend (g : Gateway) (cfg : Config) (now : Int) (req : ClientRequest)
    (failedBackends : List String) :
    (g.selectBackend cfg now req failedBackends).2.installed = g.installed := by
  obtain ⟨memory, hsnd⟩ := selectBackend_snd g cfg now req failedBackends
  have hfilter := installed_eq_of_records (breakerFrame_getHealthyBackends g cfg now).records
  rw [hsnd]
  exact hfilter

theorem installed_router (now : Int) (rid : Nat) :
    (g.router cfg now rid).installed = g.installed := by
  simp only [router]
  split
  · rfl
  · next x hx =>
      split_ifs
      · rfl
      · split
        · rfl
        · have hselect := installed_selectBackend g cfg now x.request x.failedBackends
          split <;> next heq => rw [heq] at hselect; exact hselect

/-- Only a switch changes what is installed. -/
theorem installed_step {e : Event} (hop : ∀ name, e.op ≠ .setAlgorithm name) :
    (g.step cfg e).installed = g.installed := by
  obtain ⟨now, op⟩ := e
  cases op with
  | healthCheck id outcome => exact installed_eq_of_records (records_healthCheck outcome)
  | healthOverride id healthy => exact installed_eq_of_records (records_healthOverride healthy)
  | setWeight id weight => exact installed_eq_of_records (records_setWeight weight)
  | setAlgorithm algorithm => exact absurd rfl (hop algorithm)
  | drain id timeoutSec => exact installed_eq_of_records (records_drainBackend timeoutSec)
  | undrain id => exact installed_eq_of_records records_undrainBackend
  | resetBreaker backendId =>
      simp only [step, resetRoute]
      cases truthy backendId with
      | none => rfl
      | some id => exact installed_eq_of_records breakerFrame_resetBreaker.records
  | resetAllBreakers => exact installed_eq_of_records records_resetAllBreakers
  | status => exact installed_eq_of_records (breakerFrame_getHealthyBackends g cfg now).records
  | drainTimer handle => exact installed_eq_of_records (records_fireDrainTimer handle)
  | request rid req =>
      simp only [step, request]
      cases g.exchange rid <;> rfl
  | route rid => exact installed_router now rid
  | proxyRes rid status latency =>
      simp only [step, proxyRes]
      split
      · rfl
      · split_ifs
        · rfl
        · rw [installed_modifyExchange, installed_eq_of_records (records_reportStatus _ _),
            installed_collect]
  | pipeBody rid =>
      rcases pipeBody_cases rid g with heq | ⟨f, heq⟩ <;> simp only [step, heq]
      rfl
  | proxyError rid err latency random =>
      simp only [step, handleProxyError]
      split
      · rfl
      · split_ifs
        · rfl
        · rw [installed_modifyExchange, installed_eq_of_records (records_reportError _ _),
            installed_collect]
  | resumeRetry rid =>
      rcases resumeRetry_cases rid g with heq | ⟨f, heq⟩ <;> simp only [step, heq]
      rfl
  | finish rid =>
      rcases responseFinish_cases rid g with heq | ⟨selections, f, heq⟩ <;> simp only [step, heq]
      rw [installed_modifyExchange, installed_eq_of_records (records_runDecrements selections g)]
  | close rid =>
      rcases responseClose_cases rid g with heq | ⟨selections, f, heq⟩ <;> simp only [step, heq]
      rw [installed_modifyExchange, installed_eq_of_records (records_runDecrements selections g)]

/-- A switch keeps one of the five strategies installed unless its name is an
inherited one. -/
theorem routesByName_step (e : Event) (h : g.RoutesByName) :
    (g.step cfg e).RoutesByName ↔
      ∀ name, e.op = .setAlgorithm name → name ∉ Strategy.inheritedMembers := by
  by_cases hop : ∃ name, e.op = .setAlgorithm name
  · obtain ⟨now, op⟩ := e
    obtain ⟨name, rfl⟩ : ∃ name, op = .setAlgorithm name := hop
    simp only [Op.setAlgorithm.injEq, forall_eq', step, setAlgorithm]
    rcases getStrategy_cases name with ⟨hown, strategy, hmem, hget⟩ | ⟨hinherited, hget⟩ |
      ⟨hown, message, hget⟩
    · rw [hget]
      exact iff_of_true hmem hown
    · rw [hget]
      exact iff_of_false (not_available_of_inherited name name) (not_not.mpr hinherited)
    · rw [hget]
      exact iff_of_true h hown
  · have hother : ∀ name, e.op ≠ .setAlgorithm name := fun name heq => hop ⟨name, heq⟩
    refine iff_of_true ?_ (fun name heq => absurd heq (hother name))
    rw [RoutesByName, installed_step hother]
    exact h

/-- A switch is all-or-nothing for every name that an object does not inherit, and
as long as all names are such the gateway routes with one of the five
strategies. -/
theorem switch_iff (cfg : Config) (hroutes : g.RoutesByName) (es : List Event) :
    (∀ (g : Gateway) (name : String),
      g.SwitchesCleanly name ↔ name ∉ Strategy.inheritedMembers) ∧
    (Always (step cfg) RoutesByName g es ↔
      ∀ e ∈ es, ∀ name, e.op = .setAlgorithm name → name ∉ Strategy.inheritedMembers) := by
  refine ⟨fun _ _ => switchesCleanly_iff, ?_⟩
  rw [← eachStep_iff_forall]
  exact always_iff_eachStep (I := fun _ => True) (Q := fun _ _ => True) (fun _ _ _ _ => trivial)
    (fun _ e _ h _ => routesByName_step e h) trivial hroutes (eachStep_of_forall (by simp))

theorem switch_iff_sample :
    Always (step (Config.default (fun _ => 0))) RoutesByName sampleGateway
      [⟨0, .setAlgorithm "ip-hash"⟩, ⟨1, .setAlgorithm "fastest"⟩,
        ⟨2, .request 0 ⟨"GET", "/", none, none, none, none⟩⟩, ⟨2, .route 0⟩] :=
  (switch_iff _ (show _ ∈ Strategy.available by decide) _).2.mpr
    (by simp [Strategy.inheritedMembers])

/-- `Object.prototype.constructor` is installed as a strategy. -/
theorem switch_unclean :
    ¬ ∀ (g : Gateway) (name : String), g.SwitchesCleanly name := by
  intro hclaim
  exact switchesCleanly_iff.mp (hclaim sampleGateway "constructor") (by decide)

end Switch

end Gateway

end SentinelADC
