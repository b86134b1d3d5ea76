import SentinelADC.RequestHeaders

/-!
# Responses with headers of their own

The pipeline from the first middleware on.  Every request is given an
identifier and a verdict of the rate limiter, and its response starts out with
the headers that say so.  From then on the response keeps them exactly as long
as no cached response and no answer brings another value for one of them.
-/

namespace SentinelADC

open Runs

/-- The pipeline from the first middleware on. -/
structure Frontend where
  shared : SharedLimiter
  tickets : List Ticket
  pipeline : Pipeline

namespace Frontend

/-- What can happen. -/
inductive Op where
  /-- A request comes in; `uuid` is what `uuidv4()` would give. -/
  | enter (rid : Nat) (req : HttpRequest) (client : ClientRequest) (uuid : String)
    (checkedAt : Int) (redis : RedisCall)
  /-- A request that has been let through reaches the cache. -/
  | pass (rid : Nat)
  /-- Something happens to the rate limiter. -/
  | limiter (op : RateLimiter.Op)
  /-- Something happens at the cache or behind it. -/
  | inner (op : Pipeline.Op)

/-- Something happens at a time. -/
structure Event where
  now : Int
  op : Op

/-- Ticket found by the number of its request. -/
def ticket (rid : Nat) (s : Frontend) : Option Ticket :=
  KeyedList.findKey Ticket.rid rid s.tickets

/-- The middlewares up to the rate limiter; `security` gives the headers that
`helmet` and `cors` set. -/
def enter (cfg : RateLimitConfig) (security : HttpRequest → Headers) (now : Int) (rid : Nat)
    (req : HttpRequest) (client : ClientRequest) (uuid : String) (checkedAt : Int)
    (redis : RedisCall) (s : Frontend) : Frontend :=
  match s.ticket rid with
  | some _ => s
  | none =>
      let id := correlationId req.headers uuid
      let headers := setHeaders (security req) (setHeader "x-correlation-id" id [])
      let ((reply, _, _), shared) := s.shared.middleware cfg checkedAt now redis client
      match reply with
      | .next limits =>
          { s with
            shared := shared
            tickets := s.tickets ++ [⟨rid, req, id, limits, setHeaders limits.written headers⟩] }
      | _ => { s with shared := shared }

/-- A request reaches the cache with the headers that its response has. -/
def pass (libs : Libraries) (now : Int) (rid : Nat) (s : Frontend) : Frontend :=
  match s.ticket rid with
  | none => s
  | some t => { s with pipeline := s.pipeline.arrive libs now rid t.request t.headers }

/-- An event at the cache or behind it; requests arrive by `pass` only. -/
def inner (libs : Libraries) (now : Int) (op : Pipeline.Op) (s : Frontend) : Frontend :=
  match op with
  | .arrive _ _ _ => s
  | op => { s with pipeline := s.pipeline.step libs ⟨now, op⟩ }

/-- One event. -/
def step (cfg : RateLimitConfig) (libs : Libraries) (security : HttpRequest → Headers)
    (s : Frontend) (e : Event) : Frontend :=
  match e.op with
  | .enter rid req client uuid checkedAt redis =>
      s.enter cfg security e.now rid req client uuid checkedAt redis
  | .pass rid => s.pass libs e.now rid
  | .limiter op => { s with shared.limiter := s.shared.limiter.step cfg ⟨e.now, op⟩ }
  | .inner op => s.inner libs e.now op

/-- No request has come in. -/
structure Booted (s : Frontend) : Prop where
  tickets : s.tickets = []
  pipeline : s.pipeline.Booted

/-- Every response has the headers that belong to its request. -/
def OwnHeaders (s : Frontend) : Prop :=
  ∀ c ∈ s.pipeline.cycles, ∃ t, s.ticket c.rid = some t ∧ t.KeptIn c.headers

/-- The event brings a response another value for a header of its request. -/
def overwritesOwn (s : Frontend) (e : Event) : Bool :=
  match e.op with
  | .inner op =>
      s.pipeline.cycles.any (fun c =>
        (s.ticket c.rid).any (fun t =>
          t.own.any (fun entry =>
            (lastWrite (lowerName entry.1) (Pipeline.foreignHeaders op c)).any
              (fun value => value ≠ entry.2))))
  | _ => false

/-- What holds in every state whatever is written. -/
structure Sound (s : Frontend) : Prop where
  tickets : ∀ t ∈ s.tickets, t.KeptIn t.headers
  rids : (s.pipeline.cycles.map Cycle.rid).Nodup
  ticketed : ∀ c ∈ s.pipeline.cycles, (s.ticket c.rid).isSome

section Sound

variable {cfg : RateLimitConfig} {libs : Libraries} {security : HttpRequest → Headers}
  {s : Frontend} {now : Int} {rid : Nat}

theorem ticket_push {t : Ticket} {tickets : List Ticket} (h : s.ticket rid = some t)
    (shared : SharedLimiter) :
    ({ s with shared := shared, tickets := s.tickets ++ tickets } : Frontend).ticket rid =
      some t := by
  simp only [ticket, KeyedList.findKey] at h ⊢
  rw [List.find?_append, h]
  rfl

theorem mem_of_ticket {t : Ticket} (h : s.ticket rid = some t) :
    t ∈ s.tickets :=
  KeyedList.mem_of_findKey h

/-- The headers of a request are there when it is let through. -/
theorem keptIn_start (hsecurity : ∀ req, ∀ entry ∈ security req, lowerName entry.1 ∉ ownNames)
    (rid : Nat) (req : HttpRequest) (id : String) (limits : RateLimitHeaders) :
    (⟨rid, req, id, limits, setHeaders limits.written
      (setHeaders (security req) (setHeader "x-correlation-id" id []))⟩ : Ticket).KeptIn
      (setHeaders limits.written
        (setHeaders (security req) (setHeader "x-correlation-id" id []))) := by
  have hsecure : ∀ name ∈ ownNames, lastWrite name (security req) = none :=
    fun name hname => lastWrite_eq_none
      (fun entry hmem heq => hsecurity req entry hmem (heq ▸ hname))
  have hlimit : lowerName "X-RateLimit-Limit" = "x-ratelimit-limit" := by decide
  have hremaining : lowerName "X-RateLimit-Remaining" = "x-ratelimit-remaining" := by
    decide
  have hreset : lowerName "X-RateLimit-Reset" = "x-ratelimit-reset" := by decide
  have hid : lowerName "x-correlation-id" = "x-correlation-id" := by decide
  intro entry hmem
  have hname := lowerName_own hmem
  rw [getHeader_setHeaders, getHeader_setHeaders, hsecure _ hname, getHeader_setHeader]
  simp only [Ticket.own, RateLimitHeaders.written, List.mem_cons, List.not_mem_nil,
    or_false] at hmem
  rcases hmem with rfl | rfl | rfl | rfl <;>
    simp [lastWrite, RateLimitHeaders.written, hlimit, hremaining, hreset, hid]

/-- Own headers after more headers have been written. -/
theorem keptIn_setHeaders_iff {t : Ticket} {headers : Headers} {op : Pipeline.Op} {c : Cycle}
    (h : t.KeptIn headers) :
    t.KeptIn (setHeaders (Pipeline.writes libs op c) headers) ↔
      ∀ entry ∈ t.own, ∀ value ∈ lastWrite (lowerName entry.1) (Pipeline.foreignHeaders op c),
        value = entry.2 := by
  refine forall₂_congr (fun entry hmem => ?_)
  rw [getHeader_setHeaders, Pipeline.lastWrite_writes (lowerName_own hmem), h entry hmem]
  cases lastWrite (lowerName entry.1) (Pipeline.foreignHeaders op c) <;> simp

theorem overwritesOwn_eq_false_iff {op : Pipeline.Op} :
    s.overwritesOwn ⟨now, .inner op⟩ = false ↔
      ∀ c ∈ s.pipeline.cycles, ∀ t, s.ticket c.rid = some t → ∀ entry ∈ t.own,
        ∀ value ∈ lastWrite (lowerName entry.1) (Pipeline.foreignHeaders op c),
          value = entry.2 := by
  simp only [overwritesOwn, List.any_eq_false, Bool.not_eq_true, Option.any_eq_false,
    decide_eq_false_iff_not, ne_eq, not_not, Option.mem_def]

/-- A request comes in: nothing changes at the cache, and its ticket is good. -/
theorem Sound.enter (h : s.Sound)
    (hsecurity : ∀ req, ∀ entry ∈ security req, lowerName entry.1 ∉ ownNames)
    {req : HttpRequest} {client : ClientRequest} {uuid : String} {checkedAt : Int}
    {redis : RedisCall} :
    (s.enter cfg security now rid req client uuid checkedAt redis).Sound := by
  simp only [Frontend.enter]
  split
  · exact h
  · split
    · refine ⟨?_, h.rids, ?_⟩
      · intro t ht
        rcases List.mem_append.mp ht with ht | ht
        · exact h.tickets t ht
        · rw [List.mem_singleton.mp ht]
          exact keptIn_start hsecurity _ _ _ _
      · intro c hc
        obtain ⟨t, ht⟩ := Option.isSome_iff_exists.mp (h.ticketed c hc)
        exact Option.isSome_iff_exists.mpr ⟨t, ticket_push ht _⟩
    · exact ⟨h.tickets, h.rids, h.ticketed⟩

theorem OwnHeaders.enter (h : s.OwnHeaders) {req : HttpRequest} {client : ClientRequest}
    {uuid : String} {checkedAt : Int} {redis : RedisCall} :
    (s.enter cfg security now rid req client uuid checkedAt redis).OwnHeaders := by
  simp only [Frontend.enter]
  split
  · exact h
  · split
    · intro c hc
      obtain ⟨t, ht, hkept⟩ := h c hc
      exact ⟨t, ticket_push ht _, hkept⟩
    · exact h

/-- A request reaches the cache, which keeps the headers of its response. -/
theorem pass_cases (libs : Libraries) (now : Int) (rid : Nat) (s : Frontend) :
    s.pass libs now rid = s ∨ ∃ t cache c, s.ticket rid = some t ∧ s.pipeline.cycle rid = none ∧
      c.rid = rid ∧ (t.KeptIn t.headers → t.KeptIn c.headers) ∧
      s.pass libs now rid = { s with pipeline := ⟨cache, s.pipeline.cycles ++ [c]⟩ } := by
  simp only [pass]
  split
  · exact Or.inl rfl
  · next t hticket =>
      simp only [Pipeline.arrive]
      split
      · exact Or.inl rfl
      · next hnew =>
          refine Or.inr ?_
          split_ifs
          · exact ⟨t, _, _, hticket, hnew, rfl, id, rfl⟩
          · refine ⟨t, _, _, hticket, hnew, rfl, fun hkept entry hmem => ?_, rfl⟩
            have hmark : lowerName "x-cache" ∉ ownNames := by decide
            simp only [Cycle.bypass, Cycle.start]
            have hne : lowerName entry.1 ≠ lowerName "x-cache" := by
              intro heq
              exact hmark (heq ▸ lowerName_own hmem)
            rw [getHeader_setHeader, if_neg hne]
            exact hkept entry hmem

theorem Sound.pass (h : s.Sound) :
    (s.pass libs now rid).Sound := by
  rcases pass_cases libs now rid s with
    heq | ⟨t, cache, c, hticket, hnew, hrid, _, heq⟩
  · rw [heq]
    exact h
  · rw [heq]
    refine ⟨h.tickets, ?_, ?_⟩
    · have hfresh : c.rid ∉ s.pipeline.cycles.map Cycle.rid := by
        rw [← KeyedList.findKey_isSome_iff, hrid]
        simp only [Pipeline.cycle] at hnew
        simp [hnew]
      simpa [List.nodup_append, h.rids] using hfresh
    · intro c' hc'
      rcases List.mem_append.mp hc' with hc' | hc'
      · exact h.ticketed c' hc'
      · rw [List.mem_singleton.mp hc', hrid]
        exact Option.isSome_iff_exists.mpr ⟨t, hticket⟩

theorem OwnHeaders.pass (h : s.OwnHeaders) (hsound : s.Sound) :
    (s.pass libs now rid).OwnHeaders := by
  rcases pass_cases libs now rid s with
    heq | ⟨t, cache, c, hticket, _, hrid, hkept, heq⟩
  · rw [heq]
    exact h
  · rw [heq]
    intro c' hc'
    rcases List.mem_append.mp hc' with hc' | hc'
    · exact h c' hc'
    · rw [List.mem_singleton.mp hc', hrid]
      exact ⟨t, hticket, hkept (hsound.tickets t (mem_of_ticket hticket))⟩

theorem arrives_or_not (op : Pipeline.Op) :
    (∃ rid req headers, op = .arrive rid req headers) ∨
      ∀ rid req headers, op ≠ .arrive rid req headers := by
  cases op with
  | arrive rid req headers => exact Or.inl ⟨rid, req, headers, rfl⟩
  | _ => exact Or.inr (by simp)

/-- Numbers and headers after an event at the cache or behind it. -/
theorem headers_inner (libs : Libraries) (now : Int) {op : Pipeline.Op} (h : s.Sound)
    (hop : ∀ rid req headers, op ≠ .arrive rid req headers) :
    (s.inner libs now op).tickets = s.tickets ∧
      (s.inner libs now op).pipeline.cycles.map (fun c => (c.rid, c.headers)) =
        s.pipeline.cycles.map (fun c =>
          (c.rid, setHeaders (Pipeline.writes libs op c) c.headers)) := by
  cases op with
  | arrive rid req headers => exact absurd rfl (hop rid req headers)
  | _ => exact ⟨rfl, Pipeline.headers_step h.rids hop⟩

theorem Sound.inner {op : Pipeline.Op} (h : s.Sound) :
    (s.inner libs now op).Sound := by
  rcases arrives_or_not op with ⟨rid, req, headers, rfl⟩ | hop
  · exact h
  · obtain ⟨htickets, hheaders⟩ := headers_inner libs now h hop
    have hrids : (s.inner libs now op).pipeline.cycles.map Cycle.rid =
        s.pipeline.cycles.map Cycle.rid := by
      have hfst := congrArg (List.map Prod.fst) hheaders
      rwa [List.map_map, List.map_map] at hfst
    refine ⟨htickets ▸ h.tickets, hrids ▸ h.rids, ?_⟩
    intro c hc
    obtain ⟨c', hc', hrid⟩ := List.mem_map.mp (hrids ▸ List.mem_map_of_mem hc)
    simp only [ticket, htickets]
    rw [← hrid]
    exact h.ticketed c' hc'

/-- An event at the cache or behind it keeps the own headers exactly when it
does not overwrite one. -/
theorem ownHeaders_inner_iff {op : Pipeline.Op} (h : s.OwnHeaders) (hsound : s.Sound) :
    (s.inner libs now op).OwnHeaders ↔ s.overwritesOwn ⟨now, .inner op⟩ = false := by
  rw [overwritesOwn_eq_false_iff]
  rcases arrives_or_not op with ⟨rid, req, headers, rfl⟩ | hop
  · refine ⟨fun _ c _ t _ entry _ value hvalue => ?_, fun _ => h⟩
    simp [Pipeline.foreignHeaders, lastWrite] at hvalue
  · obtain ⟨htickets, hheaders⟩ := headers_inner libs now hsound hop
    have hpairs : (s.inner libs now op).OwnHeaders ↔
        ∀ x ∈ (s.inner libs now op).pipeline.cycles.map (fun c => (c.rid, c.headers)),
          ∃ t, s.ticket x.1 = some t ∧ t.KeptIn x.2 := by
      simp only [OwnHeaders, ticket, htickets, List.forall_mem_map]
    rw [hpairs, hheaders, List.forall_mem_map]
    refine forall₂_congr (fun c hc => ?_)
    obtain ⟨t, hticket, hkept⟩ := h c hc
    constructor
    · rintro ⟨t', hticket', hkept'⟩ t'' hticket''
      obtain rfl := Option.some.inj (hticket.symm.trans hticket')
      obtain rfl := Option.some.inj (hticket.symm.trans hticket'')
      exact (keptIn_setHeaders_iff hkept).mp hkept'
    · intro hall
      exact ⟨t, hticket, (keptIn_setHeaders_iff hkept).mpr (hall t hticket)⟩

theorem Sound.step (h : s.Sound)
    (hsecurity : ∀ req, ∀ entry ∈ security req, lowerName entry.1 ∉ ownNames) (e : Event) :
    (s.step cfg libs security e).Sound := by
  obtain ⟨now, op⟩ := e
  cases op with
  | enter rid req client uuid checkedAt redis => exact h.enter hsecurity
  | pass rid => exact h.pass
  | limiter op => exact ⟨h.tickets, h.rids, h.ticketed⟩
  | inner op => exact h.inner

/-- What one event does to the own headers. -/
theorem ownHeaders_step_iff (h : s.OwnHeaders) (hsound : s.Sound) (e : Event) :
    (s.step cfg libs security e).OwnHeaders ↔ s.overwritesOwn e = false := by
  obtain ⟨now, op⟩ := e
  cases op with
  | enter rid req client uuid checkedAt redis => exact ⟨fun _ => rfl, fun _ => h.enter⟩
  | pass rid => exact ⟨fun _ => rfl, fun _ => h.pass hsound⟩
  | limiter op => exact ⟨fun _ => rfl, fun _ => h⟩
  | inner op => exact ownHeaders_inner_iff h hsound

theorem Booted.sound (h : s.Booted) :
    s.Sound :=
  ⟨by simp [h.tickets], by simp [h.pipeline.cycles], by simp [h.pipeline.cycles]⟩

theorem Booted.ownHeaders (h : s.Booted) :
    s.OwnHeaders := by
  simp [OwnHeaders, h.pipeline.cycles]

/-- Over every run from start-up, all responses keep their own headers exactly
as long as no cached response and no answer brings another value. -/
theorem ownHeaders_iff (hboot : s.Booted)
    (hsecurity : ∀ req, ∀ entry ∈ security req, lowerName entry.1 ∉ ownNames)
    (es : List Event) :
    Always (step cfg libs security) OwnHeaders s es ↔
      EachStep (step cfg libs security) (fun s e => s.overwritesOwn e = false) s es :=
  always_iff_eachStep (Q := fun _ _ => True) (fun _ e h _ => Sound.step h hsecurity e)
    (fun _ e hsound hown _ => ownHeaders_step_iff hown hsound e) hboot.sound hboot.ownHeaders
    (eachStep_of_forall (fun _ _ => trivial))

end Sound

section Runs

/-- The gateway without Redis, right after start-up. -/
def sampleFrontend : Frontend where
  shared := ⟨RateLimiter.initial, fun _ => none⟩
  tickets := []
  pipeline := Pipeline.samplePipeline

/-- 100 requests a minute. -/
def sampleLimits : RateLimitConfig where
  windowMs := 60000
  maxRequests := 100

/-- One of the headers of `helmet`. -/
def sampleSecurity (_ : HttpRequest) : Headers :=
  [("X-Frame-Options", "SAMEORIGIN")]

theorem booted_sampleFrontend : sampleFrontend.Booted :=
  ⟨rfl, Pipeline.booted_samplePipeline⟩

theorem sampleSecurity_own :
    ∀ req, ∀ entry ∈ sampleSecurity req, lowerName entry.1 ∉ ownNames := by
  intro req entry hmem
  rw [List.mem_singleton.mp hmem]
  decide

/-- A request for a page, with an identifier for those that bring none. -/
def visit (rid : Nat) (now : Int) (uuid : String) : List Event :=
  [⟨now, .enter rid ⟨"GET", "/page", fun _ => none, none⟩
      ⟨"GET", "/page", none, none, some "10.0.0.1", none⟩ uuid now .inactive⟩,
    ⟨now, .pass rid⟩, ⟨now, .inner (.resume rid 0 none)⟩,
    ⟨now, .inner (.setHeader rid "Content-Type" "text/html")⟩,
    ⟨now, .inner (.endResponse rid 200 [104, 105] 1)⟩]

theorem ownHeaders_iff_sample :
    Always (step sampleLimits Pipeline.sampleLibraries sampleSecurity) OwnHeaders sampleFrontend
      (visit 0 1000 "5f0c1a7e") :=
  (ownHeaders_iff booted_sampleFrontend sampleSecurity_own _).mpr (by decide +kernel)

/-- The second request for a page gets the identifier and the limits of the
first. -/
theorem ownHeaders_replayed :
    ¬ ∀ (cfg : RateLimitConfig) (libs : Libraries) (security : HttpRequest → Headers)
      (s : Frontend) (es : List Event), s.Booted →
      (∀ req, ∀ entry ∈ security req, lowerName entry.1 ∉ ownNames) →
      Always (step cfg libs security) OwnHeaders s es := by
  intro hclaim
  have hown := (hclaim sampleLimits Pipeline.sampleLibraries sampleSecurity sampleFrontend
    (visit 0 1000 "5f0c1a7e" ++ visit 1 2000 "b81d90c2") booted_sampleFrontend
    sampleSecurity_own).last
  obtain ⟨c, hc, hticket, hheader⟩ :
      ∃ c ∈ (run (step sampleLimits Pipeline.sampleLibraries sampleSecurity) sampleFrontend
        (visit 0 1000 "5f0c1a7e" ++ visit 1 2000 "b81d90c2")).pipeline.cycles,
        ((run (step sampleLimits Pipeline.sampleLibraries sampleSecurity) sampleFrontend
          (visit 0 1000 "5f0c1a7e" ++ visit 1 2000 "b81d90c2")).ticket c.rid).map
            Ticket.correlationId = some "b81d90c2" ∧
          getHeader (lowerName "x-correlation-id") c.headers = some "5f0c1a7e" := by
    decide +kernel
  obtain ⟨t, ht, hkept⟩ := hown c hc
  rw [ht] at hticket
  have hid : t.correlationId = "b81d90c2" := Option.some.inj hticket
  have hsame := hkept ("x-correlation-id", t.correlationId) (by simp [Ticket.own])
  rw [hheader, hid] at hsame
  exact absurd (Option.some.inj hsame) (by decide)

end Runs

end Frontend

end SentinelADC
