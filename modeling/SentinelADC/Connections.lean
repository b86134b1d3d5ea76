import SentinelADC.HalfOpenProbes
import Mathlib.Algebra.Order.BigOperators.Group.List

/-!
# In-flight connections

The router counts a connection for each selection and registers a closure that
counts it off again when the client response finishes or closes.  The count of
a backend is always the number of closures that have not run.  It is the
number of selections whose response is still open as long as no closure is
registered after the response is gone; such a closure has nothing left to wait
for.
-/

namespace SentinelADC

open Runs

namespace Exchange

/-- Selections of `b` for a response that is still open. -/
def openSelections (b : String) (x : Exchange) : Nat :=
  if x.isOpen then x.selections.countP (fun s => s.backendId = b) else 0

/-- Closures for `b` left over on a response that is no longer open. -/
def leftover (b : String) (x : Exchange) : Nat :=
  if x.isOpen then 0 else pendingDecrements b x.selections

/-- No closure of an open response has run. -/
def OpenPending (x : Exchange) : Prop :=
  x.isOpen = true → ∀ s ∈ x.selections, s.decremented = false

theorem pendingDecrements_of_undone {b : String} {selections : List Selection}
    (h : ∀ s ∈ selections, s.decremented = false) :
    pendingDecrements b selections = selections.countP (fun s => s.backendId = b) := by
  apply List.countP_congr
  intro s hs
  simp [h s hs]

theorem pending_eq {b : String} {x : Exchange} (h : x.OpenPending) :
    pendingDecrements b x.selections = x.openSelections b + x.leftover b := by
  simp only [openSelections, leftover]
  cases hopen : x.isOpen with
  | true => simp [pendingDecrements_of_undone (h hopen)]
  | false => simp

@[simp] theorem pendingDecrements_runSelections (b : String) (x : Exchange) :
    pendingDecrements b x.runSelections.selections = 0 := by
  simp [pendingDecrements, runSelections, List.countP_eq_zero]

@[simp] theorem selections_onProxyRes (x : Exchange) :
    x.onProxyRes.selections = x.selections := by
  simp only [onProxyRes]
  split_ifs <;> rfl

@[simp] theorem selections_onPipeBody (x : Exchange) :
    x.onPipeBody.selections = x.selections := by
  simp only [onPipeBody]
  split_ifs <;> rfl

@[simp] theorem selections_onProxyError (random : Rat) (x : Exchange) :
    (x.onProxyError random).selections = x.selections := by
  unfold onProxyError afterError
  dsimp only
  split_ifs <;> rfl

@[simp] theorem selections_onResumeRetry (x : Exchange) :
    x.onResumeRetry.selections = x.selections := by
  simp only [onResumeRetry]
  split_ifs <;> rfl

@[simp] theorem isOpen_onProxyRes (x : Exchange) :
    x.onProxyRes.isOpen = x.isOpen := by
  simp only [onProxyRes]
  split_ifs <;> rfl

@[simp] theorem isOpen_onPipeBody (x : Exchange) :
    x.onPipeBody.isOpen = x.isOpen := by
  simp only [onPipeBody]
  split_ifs <;> rfl

@[simp] theorem isOpen_onProxyError (random : Rat) (x : Exchange) :
    (x.onProxyError random).isOpen = x.isOpen := by
  unfold onProxyError afterError
  dsimp only
  split_ifs <;> rfl

@[simp] theorem isOpen_onResumeRetry (x : Exchange) :
    x.onResumeRetry.isOpen = x.isOpen := by
  simp only [onResumeRetry]
  split_ifs <;> rfl

@[simp] theorem isOpen_onRoute (selection : Option SelectResult) (probe : String → Bool)
    (x : Exchange) :
    (x.onRoute selection probe).isOpen = x.isOpen := by
  simp only [onRoute]
  split_ifs
  · split <;> rfl
  · rfl

/-- A router call registers a closure exactly when it selects a backend. -/
theorem selections_onRoute (selection : Option SelectResult) (probe : String → Bool)
    (x : Exchange) :
    (x.onRoute selection probe).selections = x.selections ∨
      ∃ id, x.phase = .routing ∧ x.targetBackend = none ∧ selection = some (.selected id) ∧
        (x.onRoute selection probe).selections = x.selections ++ [⟨id, false⟩] := by
  simp only [onRoute]
  split_ifs with hphase
  · cases htarget : x.targetBackend with
    | some target => exact Or.inl rfl
    | none =>
        rcases selection with - | - | id | - | -
        · exact Or.inl rfl
        · exact Or.inl rfl
        · exact Or.inr ⟨id, hphase, rfl, rfl, rfl⟩
        · exact Or.inl rfl
        · exact Or.inl rfl
  · exact Or.inl rfl

/-- What `finish` and `close` do: nothing, or run every closure of a response
that is not open any more. -/
theorem onFinish_cases (x : Exchange) :
    x.onFinish = x ∨
      (x.onFinish.isOpen = false ∧ x.onFinish.selections = x.runSelections.selections) := by
  simp only [onFinish]
  split_ifs
  · exact Or.inl rfl
  · exact Or.inr ⟨rfl, rfl⟩

theorem onClose_cases (x : Exchange) :
    x.onClose = x ∨
      (x.onClose.isOpen = false ∧ x.onClose.selections = x.runSelections.selections) := by
  simp only [onClose]
  split_ifs
  · exact Or.inl rfl
  · exact Or.inr ⟨by simp [isOpen], rfl⟩

theorem openPending_start (rid : Nat) (req : ClientRequest) :
    (start rid req).OpenPending := by
  intro _ s hs
  simp [start] at hs

end Exchange

namespace Gateway

section Pending

variable {cfg : Config} {b : String} {g : Gateway} {c : Cell}

theorem openPending_exchangeAfter (g : Gateway) (e : Event) {x : Exchange}
    (h : x.OpenPending) :
    (g.exchangeAfter cfg e x).OpenPending := by
  obtain ⟨now, op⟩ := e
  cases op with
  | route rid =>
      intro hopen s hs
      simp only [exchangeAfter, Exchange.isOpen_onRoute] at hopen hs
      rcases Exchange.selections_onRoute (g.routerSelection cfg now rid)
        (g.probeAfter cfg now) x with hsame | ⟨id, -, -, -, hadd⟩
      · exact h hopen s (hsame ▸ hs)
      · rw [hadd, List.mem_append, List.mem_singleton] at hs
        rcases hs with hs | rfl
        · exact h hopen s hs
        · rfl
  | finish rid =>
      simp only [exchangeAfter]
      rcases x.onFinish_cases with hsame | ⟨hclosed, -⟩
      · rwa [hsame]
      · intro hopen
        simp [hclosed] at hopen
  | close rid =>
      simp only [exchangeAfter]
      rcases x.onClose_cases with hsame | ⟨hclosed, -⟩
      · rwa [hsame]
      · intro hopen
        simp [hclosed] at hopen
  | proxyRes rid status latency => simpa [Exchange.OpenPending, exchangeAfter] using h
  | pipeBody rid => simpa [Exchange.OpenPending, exchangeAfter] using h
  | proxyError rid err latency random => simpa [Exchange.OpenPending, exchangeAfter] using h
  | resumeRetry rid => simpa [Exchange.OpenPending, exchangeAfter] using h
  | _ => exact h

theorem Reachable.openPending (h : Reachable cfg g) {x : Exchange} (hx : x ∈ g.exchanges) :
    x.OpenPending :=
  h.exchange_invariant Exchange.openPending_start
    (fun g e _ hP => openPending_exchangeAfter g e hP) hx

/-- Closures for `b` that have not run, over all responses. -/
def pendingTotal (b : String) (g : Gateway) : Nat :=
  (g.exchanges.map (fun x => pendingDecrements b x.selections)).sum

/-- Router selections of `b` whose client response is still open. -/
def openTotal (b : String) (g : Gateway) : Nat :=
  (g.exchanges.map (Exchange.openSelections b)).sum

/-- Closures for `b` left over on responses that are gone. -/
def leftoverTotal (b : String) (g : Gateway) : Nat :=
  (g.exchanges.map (Exchange.leftover b)).sum

theorem pendingTotal_eq (h : Reachable cfg g) :
    g.pendingTotal b = g.openTotal b + g.leftoverTotal b := by
  simp only [pendingTotal, openTotal, leftoverTotal]
  rw [← List.sum_map_add]
  exact congrArg List.sum
    (List.map_congr_left (fun x hx => Exchange.pending_eq (h.openPending hx)))

end Pending

end Gateway

namespace Cell

section Count

variable {cfg : Config} {c : Cell}

/-- Only connecting and disconnecting write the count. -/
theorem activeConnections_step {op : CellOp} (hconnect : op ≠ .connect)
    (hdisconnect : op ≠ .disconnect) :
    (c.step cfg op).backend.activeConnections = c.backend.activeConnections := by
  cases op with
  | override healthy => rfl
  | setWeight weight => rfl
  | connect => exact absurd rfl hconnect
  | disconnect => exact absurd rfl hdisconnect
  | _ => exact field_step Backend.activeConnections (fun _ _ _ _ _ => rfl) rfl

theorem activeConnections_disconnect (hpos : 1 ≤ c.backend.activeConnections) :
    c.disconnect.backend.activeConnections = c.backend.activeConnections - 1 := by
  have hne : c.backend.activeConnections ≠ 0 := by omega
  unfold disconnect
  dsimp only
  split_ifs <;> simp [Backend.finishDrain, Backend.disconnect, hne] <;> omega

/-- Running `n` closures takes `n` off a count that covers them. -/
theorem activeConnections_disconnects (n : Nat) (h : (n : Int) ≤ c.backend.activeConnections) :
    (run (Cell.step cfg) c (List.replicate n .disconnect)).backend.activeConnections =
      c.backend.activeConnections - n := by
  induction n generalizing c with
  | zero => simp
  | succ n ih =>
      have hone := activeConnections_disconnect (c := c) (by omega)
      rw [List.replicate_succ, run_cons, step, ih (by rw [hone]; omega), hone]
      omega

end Count

end Cell

namespace Gateway

section Conservation

variable {cfg : Config} {b : String} {g : Gateway} {c : Cell}

/-- The count of `b` equals the number of its selections whose client response
has neither finished nor closed. -/
def Conserved (b : String) (g : Gateway) : Prop :=
  ∀ backend, g.pool.find b = some backend → backend.activeConnections = (g.openTotal b : Int)

/-- A selection of `b` for a response that has already finished or closed. -/
def lateSelection (cfg : Config) (b : String) (g : Gateway) (e : Event) : Bool :=
  match e.op with
  | .route rid =>
      match g.exchange rid with
      | none => false
      | some x =>
          g.routerSelection cfg e.now rid = some (.selected b) ∧ x.isOpen = false
  | _ => false

/-- A selected backend is in the pool. -/
theorem mem_ids_of_routerSelection {now : Int} {rid : Nat} (hg : g.Complete)
    (h : g.routerSelection cfg now rid = some (.selected b)) :
    b ∈ g.pool.ids := by
  obtain ⟨x, hx, hphase, htarget⟩ := routerSelection_eq_some h
  simp only [routerSelection, hx, hphase, htarget, and_self, if_true, Option.some.injEq] at h
  exact List.mem_of_mem_filter (mem_candidates_of_selected hg h)

/-- The sum over all requests when the event edits one of them. -/
theorem pendingTotal_step (cfg : Config) (b : String) (e : Event) {rid : Nat} {x : Exchange}
    (hg : g.WellFormed)
    (hrid : e.op.rid? = some rid) (hx : g.exchange rid = some x) :
    (g.step cfg e).pendingTotal b + pendingDecrements b x.selections =
      g.pendingTotal b + pendingDecrements b (g.exchangeAfter cfg e x).selections := by
  have hsame : exchangesAfter cfg g e =
      KeyedList.updateKey Exchange.rid rid (g.exchangeAfter cfg e) g.exchanges := by
    obtain ⟨now, op⟩ := e
    cases op <;> simp_all [exchangesAfter, Op.rid?]
  simp only [pendingTotal]
  rw [exchanges_step e hg, hsame]
  exact KeyedList.sum_updateKey hg.nodup_rids hx

/-- An event that leaves the selections of every request alone. -/
theorem pendingTotal_of_selections {e : Event} (hg : g.WellFormed)
    (h : ∀ x ∈ g.exchanges, (g.exchangeNext cfg e x).selections = x.selections) :
    (g.step cfg e).pendingTotal b = g.pendingTotal b := by
  have hnew : ((g.newExchanges e).map (fun x => pendingDecrements b x.selections)).sum = 0 := by
    simp only [newExchanges]
    split
    · split_ifs <;> simp [Exchange.start]
    · simp
  simp only [pendingTotal]
  rw [exchanges_step_eq_map e hg, List.map_append, List.sum_append, hnew, List.map_map]
  simp only [Nat.add_zero]
  exact congrArg List.sum (List.map_congr_left (fun x hx => by simp [h x hx]))

/-- The count covers the closures of every single response. -/
theorem pendingDecrements_le_pendingTotal {x : Exchange} (hx : x ∈ g.exchanges) :
    pendingDecrements b x.selections ≤ g.pendingTotal b :=
  List.single_le_sum (by simp) _ (List.mem_map_of_mem hx)

theorem activeConnections_effects {e : Event} (hconnect : .connect ∉ effects cfg g e b)
    (hdisconnect : .disconnect ∉ effects cfg g e b) :
    (run (Cell.step cfg) c (effects cfg g e b)).backend.activeConnections =
      c.backend.activeConnections := by
  refine run_preserves (P := fun c' : Cell =>
    c'.backend.activeConnections = c.backend.activeConnections) rfl ?_
  intro op hop c' hc'
  rw [Cell.activeConnections_step (fun heq => hconnect (heq ▸ hop))
    (fun heq => hdisconnect (heq ▸ hop)), hc']

/-- Events other than router calls, `finish` and `close` touch neither side. -/
theorem pending_step_of_other (cfg : Config) (b : String) (c : Cell) (e : Event) (hg : g.WellFormed)
    (hroute : ∀ rid, e.op ≠ .route rid) (hfinish : ∀ rid, e.op ≠ .finish rid)
    (hclose : ∀ rid, e.op ≠ .close rid) :
    (run (Cell.step cfg) c (effects cfg g e b)).backend.activeConnections =
        c.backend.activeConnections ∧
      (g.step cfg e).pendingTotal b = g.pendingTotal b := by
  constructor
  · apply activeConnections_effects
    · intro hmem
      obtain ⟨rid, hop⟩ := causes_of_mem_effects hmem
      exact hroute rid hop
    · intro hmem
      obtain ⟨rid, hop | hop⟩ := causes_of_mem_effects hmem
      · exact hfinish rid hop
      · exact hclose rid hop
  · refine pendingTotal_of_selections hg (fun x _ => ?_)
    simp only [exchangeNext]
    split_ifs
    · obtain ⟨now, op⟩ := e
      cases op with
      | route rid => exact absurd rfl (hroute rid)
      | finish rid => exact absurd rfl (hfinish rid)
      | close rid => exact absurd rfl (hclose rid)
      | _ => simp [exchangeAfter]
    · rfl

/-- A router call adds a closure and a connection for the backend it selects. -/
theorem pending_step_of_route {now : Int} {rid : Nat} (hg : g.WellFormed)
    (hcount : c.backend.activeConnections = (g.pendingTotal b : Int)) :
    (run (Cell.step cfg) c (effects cfg g ⟨now, .route rid⟩ b)).backend.activeConnections =
      ((g.step cfg ⟨now, .route rid⟩).pendingTotal b : Int) := by
  have hconsult : (c.step cfg (.consult now)).backend.activeConnections =
      c.backend.activeConnections :=
    Cell.activeConnections_step (by simp) (by simp)
  cases hsel : g.routerSelection cfg now rid with
  | none =>
      have hops : effects cfg g ⟨now, .route rid⟩ b = [] := by
        simp [effects, routerOps, hsel]
      have htotal : (g.step cfg ⟨now, .route rid⟩).pendingTotal b = g.pendingTotal b := by
        refine pendingTotal_of_selections hg (fun x _ => ?_)
        simp only [exchangeNext]
        split_ifs
        · rcases Exchange.selections_onRoute (g.routerSelection cfg now rid)
            (g.probeAfter cfg now) x with hsame | ⟨id, -, -, hid, -⟩
          · exact hsame
          · simp [hsel] at hid
        · rfl
      rw [hops, htotal]
      exact hcount
  | some result =>
      obtain ⟨x, hx, hphase, htarget⟩ := routerSelection_eq_some hsel
      have htotal := pendingTotal_step cfg b ⟨now, .route rid⟩ hg rfl hx
      simp only [exchangeAfter, hsel, Exchange.onRoute, hphase, htarget, if_true] at htotal
      cases result with
      | selected id =>
          by_cases hid : b = id
          · subst hid
            have hplus : pendingDecrements b (x.selections ++ [⟨b, false⟩]) =
                pendingDecrements b x.selections + 1 := by
              simp [pendingDecrements]
            simp only [Exchange.attach, hplus] at htotal
            have hconnect : (c.step cfg (.consult now)).connect.backend.activeConnections =
                c.backend.activeConnections + 1 := by
              rw [← hconsult]
              simp only [Cell.connect, Backend.connect]
              split_ifs with hzero <;> omega
            simp only [effects, routerOps, hsel, opsAt_self, run_cons, run_nil]
            rw [show ∀ c : Cell, c.step cfg .connect = c.connect from fun _ => rfl, hconnect]
            omega
          · have hsame : pendingDecrements b (x.selections ++ [⟨id, false⟩]) =
                pendingDecrements b x.selections := by
              have hne : id ≠ b := fun h => hid h.symm
              simp [pendingDecrements, hne]
            simp only [Exchange.attach, hsame] at htotal
            simp only [effects, routerOps, hsel, opsAt_ne hid, run_cons, run_nil, hconsult]
            omega
      | noneHealthy =>
          dsimp only at htotal
          simp only [effects, routerOps, hsel, run_cons, run_nil, hconsult]
          omega
      | typeError =>
          simp only [Exchange.routingFailed] at htotal
          simp only [effects, routerOps, hsel, run_cons, run_nil, hconsult]
          omega
      | endless =>
          dsimp only at htotal
          simp only [effects, routerOps, hsel, run_cons, run_nil, hconsult]
          omega

/-- `finish` and `close` run the closures of one response. -/
theorem pending_step_of_decrements {e : Event} {rid : Nat} {x : Exchange} (hg : g.WellFormed)
    (hrid : e.op.rid? = some rid) (hx : g.exchange rid = some x)
    (hops : effects cfg g e b = List.replicate (pendingDecrements b x.selections) .disconnect)
    (hafter : (g.exchangeAfter cfg e x).selections = x.runSelections.selections)
    (hcount : c.backend.activeConnections = (g.pendingTotal b : Int)) :
    (run (Cell.step cfg) c (effects cfg g e b)).backend.activeConnections =
      ((g.step cfg e).pendingTotal b : Int) := by
  have htotal := pendingTotal_step cfg b _ hg hrid hx
  rw [hafter, Exchange.pendingDecrements_runSelections] at htotal
  have hle := pendingDecrements_le_pendingTotal (b := b) (KeyedList.mem_of_findKey hx)
  rw [hops, Cell.activeConnections_disconnects _ (by omega)]
  omega

/-- An event that finds its response done keeps both sides. -/
theorem pending_step_of_idle {e : Event} (hg : g.WellFormed) (hops : effects cfg g e b = [])
    (hnext : ∀ x ∈ g.exchanges, (g.exchangeNext cfg e x).selections = x.selections)
    (hcount : c.backend.activeConnections = (g.pendingTotal b : Int)) :
    (run (Cell.step cfg) c (effects cfg g e b)).backend.activeConnections =
      ((g.step cfg e).pendingTotal b : Int) := by
  rw [hops, pendingTotal_of_selections hg hnext]
  exact hcount

/-- The count of every backend is the number of closures that have not run. -/
theorem activeConnections_step_eq {e : Event} (hg : g.WellFormed)
    (hcount : c.backend.activeConnections = (g.pendingTotal b : Int)) :
    (run (Cell.step cfg) c (effects cfg g e b)).backend.activeConnections =
      ((g.step cfg e).pendingTotal b : Int) := by
  obtain ⟨now, op⟩ := e
  have hother : (∀ rid, op ≠ .route rid) → (∀ rid, op ≠ .finish rid) →
      (∀ rid, op ≠ .close rid) →
      (run (Cell.step cfg) c (effects cfg g ⟨now, op⟩ b)).backend.activeConnections =
        ((g.step cfg ⟨now, op⟩).pendingTotal b : Int) := by
    intro hroute hfinish hclose
    obtain ⟨hac, htotal⟩ :=
      pending_step_of_other cfg b c ⟨now, op⟩ hg hroute hfinish
        hclose
    rw [hac, htotal, hcount]
  have hidle : ∀ (rid : Nat) (f : Exchange → Exchange), op.rid? = some rid →
      (g.exchangeAfter cfg ⟨now, op⟩ = f) → effects cfg g ⟨now, op⟩ b = [] →
      (∀ x, g.exchange rid = some x → f x = x) →
      (run (Cell.step cfg) c (effects cfg g ⟨now, op⟩ b)).backend.activeConnections =
        ((g.step cfg ⟨now, op⟩).pendingTotal b : Int) := by
    intro rid f hrid hf hops hfix
    refine pending_step_of_idle hg hops (fun x hx => ?_) hcount
    simp only [exchangeNext]
    split_ifs with h
    · rw [hf]
      have hfind : g.exchange x.rid = some x := KeyedList.findKey_of_mem hg.nodup_rids hx
      rw [hrid, Option.some.injEq] at h
      rw [hfix x (h ▸ hfind)]
    · rfl
  cases op with
  | route rid => exact pending_step_of_route hg hcount
  | finish rid =>
      cases hx : g.exchange rid with
      | none =>
          exact hidle rid Exchange.onFinish rfl rfl (by simp [effects, hx]) (by simp [hx])
      | some x =>
          by_cases hdone : x.finished = true ∨ x.headersSent = false
          · refine hidle rid Exchange.onFinish rfl rfl ?_ ?_
            · simp only [effects, hx, if_pos hdone]
            · intro y hy
              obtain rfl := Option.some.inj (hx.symm.trans hy)
              simp only [Exchange.onFinish, if_pos hdone]
          · refine pending_step_of_decrements hg rfl hx ?_ ?_ hcount
            · simp only [effects, hx, if_neg hdone]
            · simp only [exchangeAfter, Exchange.onFinish, if_neg hdone]
  | close rid =>
      cases hx : g.exchange rid with
      | none => exact hidle rid Exchange.onClose rfl rfl (by simp [effects, hx]) (by simp [hx])
      | some x =>
          cases hclosed : x.closed with
          | true =>
              refine hidle rid Exchange.onClose rfl rfl ?_ ?_
              · simp [effects, hx, hclosed]
              · intro y hy
                obtain rfl := Option.some.inj (hx.symm.trans hy)
                simp [Exchange.onClose, hclosed]
          | false =>
              refine pending_step_of_decrements hg rfl hx ?_ ?_ hcount
              · simp [effects, hx, hclosed]
              · simp [exchangeAfter, Exchange.onClose, hclosed]
  | _ => exact hother (by simp) (by simp) (by simp)

theorem Reachable.activeConnections_eq (h : Reachable cfg g) (hc : g.cell b = some c) :
    c.backend.activeConnections = (g.pendingTotal b : Int) := by
  have hinv : g.WellFormed ∧
      ∀ c, g.cell b = some c → c.backend.activeConnections = (g.pendingTotal b : Int) := by
    refine Runs.Reachable.invariant (P := fun g : Gateway => g.WellFormed ∧
      ∀ c, g.cell b = some c → c.backend.activeConnections = (g.pendingTotal b : Int)) ?_ ?_ h
    · intro g hboot
      refine ⟨hboot.wellFormed, fun c hc => ?_⟩
      rw [(hboot.cell_eq hc).2.2.2.2.2.1]
      simp [pendingTotal, hboot.exchanges]
    · rintro g e ⟨hg, hcount⟩ -
      refine ⟨wellFormed_step e hg, fun c' hc' => ?_⟩
      rw [(performs_step cfg e hg.complete).cell b] at hc'
      obtain ⟨c, hc, rfl⟩ := Option.map_eq_some_iff.mp hc'
      exact activeConnections_step_eq hg (hcount c hc)
  exact hinv.2 c hc

/-- The count is right exactly when no closure is left over. -/
theorem conserved_iff (h : Reachable cfg g) (hc : g.cell b = some c) :
    Conserved b g ↔ ∀ x ∈ g.exchanges, x.leftover b = 0 := by
  have hb := (cell_eq_some_iff.mp hc).1
  have hcount := h.activeConnections_eq hc
  have hsplit := pendingTotal_eq (b := b) h
  have hzero : g.leftoverTotal b = 0 ↔ ∀ x ∈ g.exchanges, x.leftover b = 0 := by
    simp [leftoverTotal, List.sum_eq_zero_iff]
  rw [← hzero]
  constructor
  · intro hcons
    have heq := hcons c.backend hb
    omega
  · intro hnone backend hb'
    obtain rfl := Option.some.inj (hb.symm.trans hb')
    omega

/-- An edit leaves a closure over exactly when it is a late selection. -/
theorem leftover_exchangeNext {e : Event} {x : Exchange} (hg : g.WellFormed)
    (hx : x ∈ g.exchanges) (hnone : x.leftover b = 0) :
    (g.exchangeNext cfg e x).leftover b = 0 ∨
      (e.op = .route x.rid ∧ lateSelection cfg b g e = true) := by
  have hsame : ∀ y : Exchange, y.isOpen = x.isOpen → y.selections = x.selections →
      y.leftover b = 0 := by
    intro y hopen hsel
    simpa [Exchange.leftover, hopen, hsel] using hnone
  have hran : ∀ y : Exchange, y = x ∨
      (y.isOpen = false ∧ y.selections = x.runSelections.selections) → y.leftover b = 0 := by
    rintro y (rfl | ⟨hopen, hsel⟩)
    · exact hnone
    · simp [Exchange.leftover, hopen, hsel]
  simp only [exchangeNext]
  split_ifs with hrid
  · obtain ⟨now, op⟩ := e
    cases op with
    | route rid =>
        obtain rfl : rid = x.rid := by simpa [Op.rid?] using hrid
        have hfind : g.exchange x.rid = some x := KeyedList.findKey_of_mem hg.nodup_rids hx
        rcases Exchange.selections_onRoute (g.routerSelection cfg now x.rid)
          (g.probeAfter cfg now) x with hsel | ⟨id, -, -, hid, hadd⟩
        · exact Or.inl (hsame _ (Exchange.isOpen_onRoute _ _ x) hsel)
        · cases hopen : x.isOpen with
          | true => exact Or.inl (by simp [exchangeAfter, Exchange.leftover, hopen])
          | false =>
              by_cases hb : id = b
              · subst hb
                exact Or.inr ⟨rfl, by simp [lateSelection, hfind, hid, hopen]⟩
              · refine Or.inl ?_
                simp only [Exchange.leftover, hopen, Bool.false_eq_true, if_false] at hnone
                simp only [exchangeAfter, Exchange.leftover, Exchange.isOpen_onRoute, hopen,
                  hadd, Bool.false_eq_true, if_false]
                simpa [pendingDecrements, hb] using hnone
    | finish rid => exact Or.inl (hran _ x.onFinish_cases)
    | close rid => exact Or.inl (hran _ x.onClose_cases)
    | proxyRes rid status latency =>
        exact Or.inl (hsame _ (by simp [exchangeAfter]) (by simp [exchangeAfter]))
    | pipeBody rid => exact Or.inl (hsame _ (by simp [exchangeAfter]) (by simp [exchangeAfter]))
    | proxyError rid err latency random =>
        exact Or.inl (hsame _ (by simp [exchangeAfter]) (by simp [exchangeAfter]))
    | resumeRetry rid =>
        exact Or.inl (hsame _ (by simp [exchangeAfter]) (by simp [exchangeAfter]))
    | _ => simp [Op.rid?] at hrid
  · exact Or.inl hnone

/-- A late selection leaves its closure over. -/
theorem leftover_of_lateSelection {e : Event} (hg : g.WellFormed)
    (hlate : lateSelection cfg b g e = true) :
    ∃ x ∈ (g.step cfg e).exchanges, x.leftover b ≠ 0 := by
  obtain ⟨now, op⟩ := e
  cases op with
  | route rid =>
      cases hx : g.exchange rid with
      | none => simp [lateSelection, hx] at hlate
      | some x =>
          simp only [lateSelection, hx, decide_eq_true_eq] at hlate
          obtain ⟨hsel, hopen⟩ := hlate
          obtain ⟨y, hy, hphase, htarget⟩ := routerSelection_eq_some hsel
          obtain rfl := Option.some.inj (hx.symm.trans hy)
          have hrid : x.rid = rid := KeyedList.key_of_findKey hx
          have hnext := exchangeNext_mem cfg ⟨now, .route rid⟩ hg
            (KeyedList.mem_of_findKey hx)
          refine ⟨_, hnext, ?_⟩
          have hattach : g.exchangeNext cfg ⟨now, .route rid⟩ x =
              x.attach b (g.probeAfter cfg now b) := by
            simp [exchangeNext, Op.rid?, hrid, exchangeAfter, hsel, Exchange.onRoute, hphase,
              htarget]
          have hgone : (x.attach b (g.probeAfter cfg now b)).isOpen = false := hopen
          rw [hattach]
          simp only [Exchange.leftover, hgone, Bool.false_eq_true, if_false]
          simp [Exchange.attach, pendingDecrements]
  | _ => simp [lateSelection] at hlate

/-- One step keeps the count right exactly when it is not a late selection. -/
theorem conserved_step (e : Event) (hg : Reachable cfg g) (hcons : Conserved b g) :
    Conserved b (g.step cfg e) ↔ lateSelection cfg b g e = false := by
  have hwf := hg.wellFormed
  have hg' : Reachable cfg (g.step cfg e) := hg.next e trivial
  cases hc : g.cell b with
  | none =>
      have hfind := find_step_eq_none cfg e hwf.complete hc
      have hquiet : lateSelection cfg b g e = false := by
        by_contra hlate
        simp only [lateSelection] at hlate
        split at hlate
        · next rid _ =>
            cases hx : g.exchange rid with
            | none => simp [hx] at hlate
            | some x =>
                simp only [hx, decide_eq_true_eq, Bool.not_eq_false] at hlate
                have hmem := mem_ids_of_routerSelection hwf.complete hlate.1
                rw [← BackendPool.find_isSome_iff, hwf.complete.find_eq_none hc] at hmem
                simp at hmem
        · simp at hlate
      simp [Conserved, hfind, hquiet]
  | some c =>
      rw [conserved_iff hg hc] at hcons
      rw [conserved_iff hg' (cell_step _ e hwf.complete hc)]
      constructor
      · intro hnone
        by_contra hlate
        obtain ⟨x, hx, hleft⟩ := leftover_of_lateSelection hwf (by simpa using hlate)
        exact hleft (hnone x hx)
      · intro hquiet x' hx'
        rcases exchange_origin e hwf hx' with ⟨x, hx, rfl⟩ | ⟨rid, req, -, rfl⟩
        · rcases leftover_exchangeNext hwf hx (hcons x hx) with hnone | ⟨-, hlate⟩
          · exact hnone
          · simp [hquiet] at hlate
        · simp [Exchange.leftover, Exchange.start, Exchange.isOpen]

/-- Over every run from start-up the count of `b` is the number of its
selections with an open response, exactly as long as `b` is not selected for a
response that is already gone. -/
theorem connections_conserved_iff {es : List Event} (hboot : Booted cfg g) :
    Always (step cfg) (Conserved b) g es ↔
      EachStep (step cfg) (fun g e => lateSelection cfg b g e = false) g es := by
  refine always_iff_eachStep (I := Reachable cfg) (Q := fun _ _ => True)
    (fun g e hg _ => hg.next e trivial) (fun g e hg h _ => conserved_step e hg h)
    (.start hboot) ?_ (eachStep_of_forall (by simp))
  intro backend hb
  obtain ⟨c, hc, rfl⟩ := hboot.complete.exists_cell hb
  rw [(hboot.cell_eq hc).2.2.2.2.2.1]
  simp [openTotal, hboot.exchanges]

/-- A request whose first attempt fails and whose retry is answered before the
response finishes and closes. -/
def retriedRequest : List Event :=
  [⟨1, .request 0 ⟨"GET", "/", none, none, none, none⟩⟩, ⟨1, .route 0⟩,
    ⟨2, .proxyError 0 ⟨some "ECONNREFUSED", "refused"⟩ 1 (1 / 2)⟩, ⟨3, .resumeRetry 0⟩,
    ⟨3, .route 0⟩, ⟨4, .proxyRes 0 200 1⟩, ⟨4, .pipeBody 0⟩, ⟨5, .finish 0⟩, ⟨5, .close 0⟩]

theorem connections_conserved_sample :
    Always (step (Config.default (fun _ => 0))) (Conserved "backend-3") sampleGateway
      retriedRequest :=
  (connections_conserved_iff ⟨0, rfl⟩).mpr (by decide +kernel)

/-- The client goes away while the gateway waits to retry. -/
def abandonedRetry : List Event :=
  [⟨1, .request 0 ⟨"GET", "/", none, none, none, none⟩⟩, ⟨1, .route 0⟩,
    ⟨2, .proxyError 0 ⟨some "ECONNREFUSED", "refused"⟩ 1 (1 / 2)⟩, ⟨3, .close 0⟩,
    ⟨4, .resumeRetry 0⟩, ⟨4, .route 0⟩]

/-- The retry counts a connection that no response will ever count off. -/
theorem connections_leaked :
    ¬ ∀ (cfg : Config) (b : String) (g : Gateway) (es : List Event),
      Booted cfg g → Conserved b (run (step cfg) g es) := by
  intro hclaim
  have hcount : ∀ backend ∈ (run (step (Config.default (fun _ => 0))) sampleGateway
      abandonedRetry).pool.find "backend-3", backend.activeConnections =
        ((run (step (Config.default (fun _ => 0))) sampleGateway
          abandonedRetry).openTotal "backend-3" : Int) :=
    fun backend hb => hclaim _ "backend-3" sampleGateway abandonedRetry ⟨0, rfl⟩ backend hb
  revert hcount
  decide +kernel

end Conservation

end Gateway

end SentinelADC
