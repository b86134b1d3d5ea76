import SentinelADC.CacheMiddleware
import SentinelADC.Lib.Runs

/-!
# Cached responses and authentication

The cache runs before authentication, so it must not keep what the gateway API
answers.  The cache tells API requests by the first letters of the URL, Express
by the path, without case.  As long as no request that the cache takes is one
that Express hands to an API handler, the cache holds no API response and a
guarded body only goes to a request with a valid token.
-/

namespace SentinelADC

open Runs

namespace Stage

/-- No API response waits behind the cache. -/
def Sound (target : Target) : Stage → Prop
  | .looking => target.isApi = false
  | .found cached => target.isApi = false ∧ ∀ traced ∈ cached, traced.origin.isApi = false
  | .answering t intercepted => t = target ∧ (intercepted = true → target.isApi = false)
  | .ended => True

theorem sound_ofLookup {target : Target} {answer : Option (Option Traced)}
    (htarget : target.isApi = false)
    (hanswer : ∀ traced, answer = some (some traced) → traced.origin.isApi = false) :
    (ofLookup answer).Sound target := by
  cases answer with
  | none => exact htarget
  | some cached => exact ⟨htarget, fun traced htraced => hanswer traced (by rw [htraced])⟩

end Stage

namespace Cycle

theorem rid_onAnswer {cached : Option Traced} (c : Cycle) :
    (c.onAnswer cached).rid = c.rid := by
  simp only [onAnswer]
  split <;> rfl

theorem rid_onSetHeader {name value : String} (c : Cycle) :
    (c.onSetHeader name value).rid = c.rid := by
  simp only [onSetHeader]
  split <;> rfl

theorem rid_onWrite {chunk : List UInt8} (c : Cycle) :
    (c.onWrite chunk).rid = c.rid := by
  simp only [onWrite]
  split <;> rfl

theorem rid_onEnd {status : Nat} {chunk : List UInt8} (c : Cycle) :
    (c.onEnd status chunk).rid = c.rid := by
  simp only [onEnd]
  split <;> rfl

/-- The stage is sound, and guarded parts went to a request with a valid token. -/
structure Sound (libs : Libraries) (c : Cycle) : Prop where
  stage : c.stage.Sound (target libs c.request)
  received : ¬ c.request.HasValidToken libs → ∀ part ∈ c.received, part.1.isGuarded = false

section Sound

variable {libs : Libraries} {c : Cycle}

/-- A request without a valid token is not answered by a guarded handler. -/
theorem isGuarded_target {req : HttpRequest} (h : ¬ req.HasValidToken libs) :
    (target libs req).origin.isGuarded = false := by
  cases htarget : target libs req with
  | handler handler guarded =>
      cases guarded with
      | false => rfl
      | true => exact absurd (hasValidToken_of_target htarget) h
  | _ => rfl

theorem isGuarded_of_isApi {origin : Origin} (h : origin.isApi = false) :
    origin.isGuarded = false := by
  cases origin with
  | handler handler guarded => simp [Origin.isApi] at h
  | _ => rfl

/-- One more part from a producer that may answer the request. -/
theorem Sound.append {part : Origin × List UInt8} (h : c.Sound libs)
    (hpart : ¬ c.request.HasValidToken libs → part.1.isGuarded = false) :
    ¬ c.request.HasValidToken libs → ∀ part' ∈ c.received ++ [part], part'.1.isGuarded = false := by
  intro htoken part' hmem
  rcases List.mem_append.mp hmem with hmem | hmem
  · exact h.received htoken part' hmem
  · rw [List.mem_singleton.mp hmem]
    exact hpart htoken

theorem Sound.onAnswer {cached : Option Traced} (h : c.Sound libs)
    (hcached : ∀ traced ∈ cached, traced.origin.isApi = false) :
    (c.onAnswer cached).Sound libs := by
  obtain ⟨hstage, hreceived⟩ := h
  simp only [Cycle.onAnswer]
  split
  · next hlooking =>
      rw [hlooking] at hstage
      exact ⟨⟨hstage, hcached⟩, hreceived⟩
  · exact ⟨hstage, hreceived⟩

theorem Sound.intercept (h : c.Sound libs) (hfound : c.stage = .found none) :
    (c.intercept libs).Sound libs := by
  have hstage := h.stage
  rw [hfound] at hstage
  exact ⟨⟨rfl, fun _ => hstage.1⟩, h.received⟩

theorem Sound.replay {cached : Traced} {latency : Rat} (h : c.Sound libs)
    (hfound : c.stage = .found (some cached)) :
    (c.replay libs cached latency).Sound libs := by
  have hstage := h.stage
  rw [hfound] at hstage
  exact ⟨trivial, h.append (fun _ => isGuarded_of_isApi (hstage.2 cached rfl))⟩

theorem Sound.replayFails {cached : Traced} {fault : Nat} (h : c.Sound libs) :
    (c.replayFails libs cached fault).Sound libs :=
  ⟨⟨rfl, by simp⟩, h.received⟩

theorem Sound.onSetHeader {name value : String} (h : c.Sound libs) :
    (c.onSetHeader name value).Sound libs := by
  simp only [Cycle.onSetHeader]
  split
  · next hanswering => exact ⟨by simpa [hanswering] using h.stage, h.received⟩
  · exact h

/-- What the target of an answering request sends may be received. -/
theorem Sound.part {t : Target} {intercepted : Bool} (h : c.Sound libs)
    (hanswering : c.stage = .answering t intercepted) :
    ¬ c.request.HasValidToken libs → t.origin.isGuarded = false := by
  have hstage := h.stage
  rw [hanswering] at hstage
  obtain ⟨rfl, -⟩ := hstage
  exact isGuarded_target

theorem Sound.onWrite {chunk : List UInt8} (h : c.Sound libs) :
    (c.onWrite chunk).Sound libs := by
  simp only [Cycle.onWrite]
  split
  · next hanswering =>
      exact ⟨by simpa [hanswering] using h.stage, h.append (h.part hanswering)⟩
  · exact h

theorem Sound.onEnd {status : Nat} {chunk : List UInt8} (h : c.Sound libs) :
    (c.onEnd status chunk).Sound libs := by
  simp only [Cycle.onEnd]
  split
  · next hanswering => exact ⟨trivial, h.append (h.part hanswering)⟩
  · exact h

end Sound

end Cycle

namespace Pipeline

/-- No response of a gateway API handler is stored or on its way to Redis. -/
def NoApiStored (p : Pipeline) : Prop :=
  p.cache.Holds (fun traced => traced.origin.isApi = false)

/-- No request without a valid token has received a guarded body. -/
def Guarded (libs : Libraries) (p : Pipeline) : Prop :=
  ∀ c ∈ p.cycles, ¬ c.request.HasValidToken libs →
    ∀ part ∈ c.received, part.1.isGuarded = false

/-- The cache takes a request that Express hands to an API handler. -/
def takesApiRequest (libs : Libraries) (p : Pipeline) (e : Event) : Bool :=
  match e.op with
  | .arrive _ req _ => cacheable p.cache req && (target libs req).isApi
  | _ => false

/-- The invariant behind both properties. -/
structure Sound (libs : Libraries) (p : Pipeline) : Prop where
  cache : p.NoApiStored
  rids : (p.cycles.map Cycle.rid).Nodup
  cycles : ∀ c ∈ p.cycles, c.Sound libs

section Sound

variable {libs : Libraries} {p : Pipeline} {rid : Nat}

/-- The cache may change as long as it holds no API response. -/
theorem Sound.withCache {cache : CacheService Traced} (h : p.Sound libs)
    (hcache : cache.Holds (fun traced => traced.origin.isApi = false)) :
    ({ p with cache := cache } : Pipeline).Sound libs :=
  ⟨hcache, h.rids, h.cycles⟩

/-- Writing one request keeps the invariant when the request stays sound. -/
theorem Sound.modifyCycle {f : Cycle → Cycle} (h : p.Sound libs)
    (hrid : ∀ c, (f c).rid = c.rid) (hf : ∀ c ∈ p.cycles, c.rid = rid → (f c).Sound libs) :
    (p.modifyCycle rid f).Sound libs := by
  refine ⟨h.cache, ?_, ?_⟩
  · exact (KeyedList.map_key_updateKey hrid rid p.cycles).symm ▸ h.rids
  · intro c hc
    obtain ⟨c', hc', rfl⟩ := List.mem_map.mp hc
    split_ifs with heq
    · exact hf c' hc' heq
    · exact h.cycles c' hc'

/-- Writing a request whose stage is known. -/
theorem Sound.modifyFound {f : Cycle → Cycle} {c : Cycle} (h : p.Sound libs)
    (hrid : ∀ c, (f c).rid = c.rid) (hfind : p.cycle rid = some c) (hf : (f c).Sound libs) :
    (p.modifyCycle rid f).Sound libs :=
  h.modifyCycle hrid (fun _ hc heq => KeyedList.eq_of_findKey h.rids hfind hc heq ▸ hf)

theorem Sound.push {cache : CacheService Traced} {c : Cycle} (h : p.Sound libs)
    (hnew : p.cycle c.rid = none)
    (hcache : cache.Holds (fun traced => traced.origin.isApi = false)) (hc : c.Sound libs) :
    ({ cache := cache, cycles := p.cycles ++ [c] } : Pipeline).Sound libs := by
  refine ⟨hcache, ?_, ?_⟩
  · have hfresh : c.rid ∉ p.cycles.map Cycle.rid := by
      rw [← KeyedList.findKey_isSome_iff]
      simp only [Pipeline.cycle] at hnew
      simp [hnew]
    simpa [List.nodup_append, h.rids] using hfresh
  · intro c' hc'
    rcases List.mem_append.mp hc' with hc' | hc'
    · exact h.cycles c' hc'
    · exact List.mem_singleton.mp hc' ▸ hc

theorem Sound.arrive {now : Int} {req : HttpRequest} {headers : Headers} (h : p.Sound libs)
    (hquiet : cacheable p.cache req = true → (target libs req).isApi = false) :
    (p.arrive libs now rid req headers).Sound libs := by
  simp only [Pipeline.arrive]
  split
  · exact h
  · next hnew =>
      split_ifs with hcacheable
      · have htarget := hquiet hcacheable
        exact h.push hnew h.cache.get
          ⟨Stage.sound_ofLookup htarget (fun traced hget => h.cache.of_get hget),
            by simp [Cycle.start]⟩
      · exact h.push hnew h.cache.recordBypass
          ⟨⟨rfl, by simp⟩, by simp [Cycle.bypass, Cycle.start]⟩

theorem Sound.redisAnswer {now : Int} {ok : Bool} (h : p.Sound libs) :
    (p.redisAnswer now ok).Sound libs := by
  have hcache : ({ p with cache := (p.cache.answer now ok).2 } : Pipeline).Sound libs :=
    h.withCache h.cache.answer
  unfold Pipeline.redisAnswer
  dsimp only
  split
  · exact hcache
  · next rid cached hreply =>
      refine hcache.modifyCycle Cycle.rid_onAnswer (fun c hc _ => (h.cycles c hc).onAnswer ?_)
      intro traced htraced
      obtain rfl := Option.mem_def.mp htraced
      exact h.cache.of_answer hreply

theorem Sound.resume {latency : Rat} {fault : Option Nat} (h : p.Sound libs) :
    (p.resume libs rid latency fault).Sound libs := by
  simp only [Pipeline.resume]
  split
  · exact h
  · next c hfind =>
      have hc : c.Sound libs := h.cycles c (KeyedList.mem_of_findKey hfind)
      split
      · next hstage => exact h.modifyFound (fun _ => rfl) hfind (hc.intercept hstage)
      · next cached hstage =>
          split
          · exact (h.withCache (h.cache.recordHit _)).modifyFound (fun _ => rfl) hfind
              (hc.replay hstage)
          · next fault =>
              exact (h.withCache (h.cache.recordHit _).recordBypass).modifyFound
                (f := Cycle.replayFails libs cached fault) (fun _ => rfl) hfind hc.replayFails
      · exact h

theorem Sound.endResponse {now : Int} {status : Nat} {chunk : List UInt8} {latency : Rat}
    (h : p.Sound libs) :
    (p.endResponse libs now rid status chunk latency).Sound libs := by
  simp only [Pipeline.endResponse]
  split
  · exact h
  · next c hfind =>
      have hc : c.Sound libs := h.cycles c (KeyedList.mem_of_findKey hfind)
      split
      · next t hstage =>
          have hsound := hc.stage
          rw [hstage] at hsound
          obtain ⟨rfl, hquiet⟩ := hsound
          have hstore : ∀ status, (if status = 200 then
              p.cache.set now (cacheKey c.request)
                (c.snapshot libs (target libs c.request) status chunk)
              else p.cache).Holds (fun traced => traced.origin.isApi = false) := by
            intro status
            split_ifs
            · exact h.cache.set (by simpa [Cycle.snapshot] using hquiet rfl)
            · exact h.cache
          exact (h.withCache ((hstore _).recordMiss latency)).modifyFound Cycle.rid_onEnd hfind
            hc.onEnd
      · exact h.modifyFound Cycle.rid_onEnd hfind hc.onEnd

/-- What one event keeps. -/
theorem Sound.step (e : Event) (h : p.Sound libs) (hquiet : takesApiRequest libs p e = false) :
    (p.step libs e).Sound libs := by
  obtain ⟨now, op⟩ := e
  cases op with
  | arrive rid req headers =>
      refine h.arrive (fun hcacheable => ?_)
      simpa [takesApiRequest, hcacheable] using hquiet
  | redisAnswer ok => exact h.redisAnswer
  | resume rid latency fault => exact h.resume
  | setHeader rid name value =>
      exact h.modifyCycle Cycle.rid_onSetHeader (fun c hc _ => (h.cycles c hc).onSetHeader)
  | write rid chunk => exact h.modifyCycle Cycle.rid_onWrite (fun c hc _ => (h.cycles c hc).onWrite)
  | endResponse rid status chunk latency => exact h.endResponse
  | delete key => exact h.withCache h.cache.delete
  | invalidatePattern pattern => exact h.withCache (h.cache.invalidatePattern pattern)
  | flushAll => exact h.withCache h.cache.flushAll
  | clientConnect => exact h.withCache h.cache.onConnect
  | clientError => exact h.withCache h.cache.onError
  | clientStatus status => exact h.withCache (h.cache.onStatus status)

theorem Booted.sound (h : p.Booted) :
    p.Sound libs :=
  ⟨⟨by simp [h.memory], by simp [h.redis], by simp [h.queue]⟩, by simp [h.cycles],
    by simp [h.cycles]⟩

/-- Over every run from start-up that never takes an API request into the
cache, no API response is stored and guarded bodies stay guarded. -/
theorem api_responses_guarded {es : List Event} (hboot : p.Booted)
    (hquiet : EachStep (step libs) (fun p e => takesApiRequest libs p e = false) p es) :
    Always (step libs) (fun p => p.NoApiStored ∧ p.Guarded libs) p es := by
  have hsound : Always (step libs) (Sound libs) p es :=
    always_of_step (fun _ e h hq => Sound.step e h hq) hboot.sound hquiet
  exact hsound.mono (fun _ h => ⟨h.cache, fun c hc => (h.cycles c hc).received⟩)

/-- For a URL that starts with its path, the cache takes an API request only
when `/api` is written with capital letters. -/
theorem mixedCase_of_takesApiRequest {e : Event} {req : HttpRequest} {headers : Headers}
    (hop : e.op = .arrive rid req headers)
    (hpath : libs.pathname req.originalUrl <+: req.originalUrl.toList)
    (htakes : takesApiRequest libs p e = true) :
    Router.lower (req.originalUrl.toList.take 4) = "/api".toList ∧
      req.originalUrl.toList.take 4 ≠ "/api".toList := by
  simp only [takesApiRequest, hop, Bool.and_eq_true, cacheable, Bool.not_eq_true',
    decide_eq_true_eq] at htakes
  obtain ⟨⟨⟨-, hisApi⟩, -⟩, htarget⟩ := htakes
  obtain ⟨hpre, -⟩ := Router.mountRest_isSome_iff.mp (mounted_of_target htarget)
  have hurl : Router.lower "/api".toList <+: Router.lower req.originalUrl.toList :=
    hpre.trans (hpath.map Char.toLower)
  constructor
  · rw [Router.lower, List.map_take]
    exact (List.prefix_iff_eq_take.mp hurl).symm
  · intro heq
    simp only [HttpRequest.isApi, startsWith, Bool.eq_false_iff, ne_eq,
      List.isPrefixOf_iff_prefix] at hisApi
    exact hisApi (List.prefix_iff_eq_take.mpr heq.symm)

end Sound

section Runs

/-- Paths, tokens and ASCII text as Express, `jsonwebtoken` and Node read them. -/
def sampleLibraries : Libraries where
  pathname url := url.toList.takeWhile (fun c => c ≠ '?')
  verify token := if token = "admin-token" then .ok () else .error "jwt malformed"
  decode bytes := String.ofList (bytes.map (fun byte => Char.ofNat byte.toNat))
  encode text := text.toList.map (fun c => UInt8.ofNat c.toNat)
  formatMs latency := toString ⌊latency⌋ ++ "ms"

/-- The gateway without Redis, right after start-up. -/
def samplePipeline : Pipeline where
  cache :=
    { enabled := true, ttl := 300, client := none, useMemoryFallback := true, memoryCache := []
      redis := [], queue := [], stats := ⟨0, 0, 0, 0, 0⟩ }
  cycles := []

theorem booted_samplePipeline : samplePipeline.Booted :=
  ⟨rfl, rfl, rfl, rfl⟩

/-- An operator lists the backends, and the same URL is asked for without a
token. -/
def listedTwice (url : String) : List Event :=
  [⟨1, .arrive 0 ⟨"GET", url, fun name =>
      if name = "authorization" then some "Bearer admin-token" else none, none⟩ []⟩,
    ⟨1, .resume 0 0 none⟩, ⟨2, .endResponse 0 200 [91, 93] 1⟩,
    ⟨3, .arrive 1 ⟨"GET", url, fun _ => none, none⟩ []⟩, ⟨3, .resume 1 0 none⟩,
    ⟨4, .endResponse 1 200 [91, 93] 1⟩]

theorem api_responses_guarded_sample :
    Always (step sampleLibraries) (fun p => p.NoApiStored ∧ p.Guarded sampleLibraries)
      samplePipeline (listedTwice "/api/admin/backends") :=
  api_responses_guarded booted_samplePipeline (by decide)

/-- With a capital letter in the URL the second client gets the list. -/
theorem api_responses_leaked :
    ¬ ∀ (libs : Libraries) (p : Pipeline) (es : List Event),
      p.Booted → Always (step libs) (fun p => p.NoApiStored ∧ p.Guarded libs) p es := by
  intro hclaim
  have hguarded := (hclaim sampleLibraries samplePipeline (listedTwice "/API/admin/backends")
    booted_samplePipeline).last.2
  obtain ⟨c, hc, hadmitted, part, hpart, hleak⟩ : ∃ c ∈ (run (step sampleLibraries) samplePipeline
      (listedTwice "/API/admin/backends")).cycles, c.request.admitted sampleLibraries = false ∧
        ∃ part ∈ c.received, part.1.isGuarded = true := by
    decide
  have htoken : ¬ c.request.HasValidToken sampleLibraries := by
    rw [← admitted_iff, hadmitted]
    simp
  simp [hguarded c hc htoken part hpart] at hleak

end Runs

end Pipeline

end SentinelADC
