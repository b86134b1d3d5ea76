import SentinelADC.CacheProtection
import SentinelADC.RedisTokenBucket

/-!
# Headers that belong to one request

`middleware/correlationId.js` and the rate limiter put headers on a response
that are meant for its request alone.  The cache is behind both, keeps every
header of the responses that it stores, and writes them to the response of a
hit; the proxy writes the headers of the backend.  `headers_step` says what an
event at or behind the cache writes to which response.
-/

namespace SentinelADC

open Runs

section Headers

/-- `res.getHeader(name)`, for a lower-case name. -/
def getHeader (name : String) (headers : Headers) : Option String :=
  (headers.find? (fun entry => entry.1 = name)).map Prod.snd

/-- Headers set one after the other. -/
def setHeaders (writes headers : Headers) : Headers :=
  writes.foldl (fun hs entry => setHeader entry.1 entry.2 hs) headers

/-- The last value that is set under a lower-case name. -/
def lastWrite (name : String) (writes : Headers) : Option String :=
  (writes.reverse.find? (fun entry => lowerName entry.1 = name)).map Prod.snd

variable {name value : String} {headers writes : Headers}

theorem getHeader_cons (entry : String × String) (headers : Headers) :
    getHeader name (entry :: headers) =
      if entry.1 = name then some entry.2 else getHeader name headers := by
  simp only [getHeader, List.find?_cons]
  by_cases h : entry.1 = name <;> simp [h]

theorem getHeader_append (headers more : Headers) :
    getHeader name (headers ++ more) = (getHeader name headers).or (getHeader name more) := by
  simp only [getHeader, List.find?_append, Option.map_or]

/-- Overwriting under one name, as it is seen under another. -/
theorem getHeader_map (name' : String) (headers : Headers) :
    getHeader name (headers.map (fun entry =>
        if entry.1 = name' then (entry.1, value) else entry)) =
      if name = name' then (getHeader name headers).map (fun _ => value)
      else getHeader name headers := by
  induction headers with
  | nil => simp [getHeader]
  | cons entry headers ih =>
      rw [List.map_cons, getHeader_cons, getHeader_cons, ih]
      by_cases hname : entry.1 = name
      · subst hname
        by_cases hentry : entry.1 = name' <;> simp [hentry]
      · by_cases hentry : entry.1 = name'
        · subst hentry
          simp [hname, Ne.symm hname]
        · simp [hname, hentry]

theorem getHeader_isSome_iff :
    (getHeader name headers).isSome ↔ ∃ entry ∈ headers, entry.1 = name := by
  simp [getHeader, List.find?_isSome]

/-- Reading a header after one has been set. -/
theorem getHeader_setHeader (name' value : String) (headers : Headers) :
    getHeader name (setHeader name' value headers) =
      if name = lowerName name' then some value else getHeader name headers := by
  simp only [setHeader]
  split_ifs with hexists hname hname
  · rw [getHeader_map, if_pos hname]
    obtain ⟨old, hold⟩ := Option.isSome_iff_exists.mp
      (getHeader_isSome_iff.mpr (hname ▸ hexists))
    rw [hold]
    rfl
  · rw [getHeader_map, if_neg hname]
  · have hnone : getHeader name headers = none := by
      rw [← Option.not_isSome_iff_eq_none, getHeader_isSome_iff, hname]
      exact hexists
    rw [getHeader_append, hnone, getHeader_cons, if_pos hname.symm]
    rfl
  · rw [getHeader_append, getHeader_cons, if_neg (fun h => hname h.symm)]
    simp [getHeader]

theorem setHeaders_append (writes more headers : Headers) :
    setHeaders (writes ++ more) headers = setHeaders more (setHeaders writes headers) := by
  simp only [setHeaders, List.foldl_append]

theorem lastWrite_append (writes more : Headers) :
    lastWrite name (writes ++ more) = (lastWrite name more).or (lastWrite name writes) := by
  simp only [lastWrite, List.reverse_append, List.find?_append, Option.map_or]

theorem lastWrite_singleton (entry : String × String) :
    lastWrite name [entry] = if lowerName entry.1 = name then some entry.2 else none := by
  by_cases h : lowerName entry.1 = name <;> simp [lastWrite, h]

/-- Reading a header after several have been set. -/
theorem getHeader_setHeaders (writes headers : Headers) :
    getHeader name (setHeaders writes headers) =
      (lastWrite name writes).or (getHeader name headers) := by
  induction writes using List.reverseRecOn with
  | nil => rfl
  | append_singleton writes entry ih =>
      rw [setHeaders_append, lastWrite_append, lastWrite_singleton]
      simp only [setHeaders, List.foldl_cons, List.foldl_nil] at ih ⊢
      rw [getHeader_setHeader, ih]
      by_cases h : name = lowerName entry.1
      · simp [h]
      · simp [h, Ne.symm h]

/-- What is set anew is there; what is not set stays. -/
theorem lastWrite_eq_none (h : ∀ entry ∈ writes, lowerName entry.1 ≠ name) :
    lastWrite name writes = none := by
  simpa [lastWrite] using h

end Headers

section Times

/-- Year, month and day of a day counted from 1970-01-01. -/
def civilDate (day : Int) : Int × Int × Int :=
  let z := day + 719468
  let era := z / 146097
  let doe := z % 146097
  let yoe := (doe - doe / 1460 + doe / 36524 - doe / 146096) / 365
  let doy := doe - (365 * yoe + yoe / 4 - yoe / 100)
  let mp := (5 * doy + 2) / 153
  let month := if mp < 10 then mp + 3 else mp - 9
  (yoe + era * 400 + (if month ≤ 2 then 1 else 0), month, doy - (153 * mp + 2) / 5 + 1)

/-- A number with leading zeros. -/
def padded (width : Nat) (n : Int) : String :=
  let digits := Nat.toDigits 10 n.natAbs
  String.ofList (List.replicate (width - digits.length) '0' ++ digits)

/-- Year of a date string, with six digits outside of 0 to 9999. -/
def yearText (year : Int) : String :=
  if year < 0 then "-" ++ padded 6 year
  else if 9999 < year then "+" ++ padded 6 year
  else padded 4 year

/-- `Date.prototype.toISOString`. -/
def toISOString (time : Int) : String :=
  let ms := time % 86400000
  let (year, month, day) := civilDate (time / 86400000)
  yearText year ++ "-" ++ padded 2 month ++ "-" ++ padded 2 day ++ "T" ++
    padded 2 (ms / 3600000) ++ ":" ++ padded 2 (ms / 60000 % 60) ++ ":" ++
    padded 2 (ms / 1000 % 60) ++ "." ++ padded 3 (ms % 1000) ++ "Z"

example : toISOString 1709210096789 = "2024-02-29T12:34:56.789Z" := by
  decide

end Times

/-- The identifier that `correlationIdMiddleware` chooses; `uuid` is the value
of `uuidv4()`. -/
def correlationId (headers : String → Option String) (uuid : String) : String :=
  (((truthy (headers "x-correlation-id")).or (truthy (headers "x-request-id"))).or
    (truthy (headers "x-request-id"))).getD uuid

/-- The headers that the rate limiter sets. -/
def RateLimitHeaders.written (limits : RateLimitHeaders) : Headers :=
  [("X-RateLimit-Limit", toString limits.limit),
    ("X-RateLimit-Remaining", toString limits.remaining),
    ("X-RateLimit-Reset", toISOString limits.reset)]

/-- A request that the rate limiter has let through. -/
structure Ticket where
  rid : Nat
  request : HttpRequest
  /-- `req.correlationId`. -/
  correlationId : String
  /-- The limiter's result for the request. -/
  limits : RateLimitHeaders
  /-- Response headers in front of the cache. -/
  headers : Headers

/-- The headers that belong to the request. -/
def Ticket.own (t : Ticket) : Headers :=
  ("x-correlation-id", t.correlationId) :: t.limits.written

/-- Names of the headers that belong to one request. -/
def ownNames : List String :=
  ["x-correlation-id", "x-ratelimit-limit", "x-ratelimit-remaining", "x-ratelimit-reset"]

theorem lowerName_own {t : Ticket} {entry : String × String} (h : entry ∈ t.own) :
    lowerName entry.1 ∈ ownNames := by
  have hnames : t.own.map (fun entry => lowerName entry.1) = ownNames := by
    simp only [Ticket.own, RateLimitHeaders.written, List.map_cons, List.map_nil]
    decide
  exact hnames ▸ List.mem_map_of_mem h

/-- All own headers have their values. -/
def Ticket.KeptIn (t : Ticket) (headers : Headers) : Prop :=
  ∀ entry ∈ t.own, getHeader (lowerName entry.1) headers = some entry.2

namespace Pipeline

/-- Headers from elsewhere that an event writes to the response of a request:
those of a cached response, or one that is set by whoever answers. -/
def foreignHeaders (op : Op) (c : Cycle) : Headers :=
  match op with
  | .resume rid _ fault =>
      match c.stage with
      | .found (some cached) =>
          if c.rid = rid then
            match fault with
            | none => Cycle.replayedHeaders cached
            | some n => (Cycle.replayedHeaders cached).take n
          else []
      | _ => []
  | .setHeader rid name value =>
      match c.stage with
      | .answering _ _ => if c.rid = rid then [(name, value)] else []
      | _ => []
  | _ => []

/-- Headers with which the cache marks a response. -/
def cacheMarks (libs : Libraries) (op : Op) (c : Cycle) : Headers :=
  match op with
  | .resume rid latency fault =>
      match c.stage with
      | .found none => if c.rid = rid then [("x-cache", "MISS")] else []
      | .found (some _) =>
          if c.rid = rid then
            match fault with
            | none => [("x-cache", "HIT"), ("X-Cache-Latency", libs.formatMs latency)]
            | some _ => [("x-cache", "BYPASS")]
          else []
      | _ => []
  | _ => []

section Writes

variable {libs : Libraries} {p : Pipeline} {now : Int} {op : Op} {rid : Nat}

theorem lowerName_cacheMarks {c : Cycle} {entry : String × String}
    (h : entry ∈ cacheMarks libs op c) :
    lowerName entry.1 ∉ ownNames := by
  have hmarks : entry.1 ∈ ["x-cache", "X-Cache-Latency"] := by
    cases op with
    | resume rid latency fault =>
        simp only [cacheMarks] at h
        split at h
        · split_ifs at h
          · simp_all
          · simp at h
        · split_ifs at h
          · split at h <;> aesop
          · simp at h
        · simp at h
    | _ => simp [cacheMarks] at h
  have hnames : ∀ name ∈ ["x-cache", "X-Cache-Latency"], lowerName name ∉ ownNames := by
    decide
  exact hnames _ hmarks

/-- Number and headers of the cycles after a write. -/
theorem headers_modifyCycle {f : Cycle → Cycle} {g : Cycle → Headers}
    (hrid : ∀ c, (f c).rid = c.rid)
    (hf : ∀ c ∈ p.cycles, c.rid = rid → (f c).headers = setHeaders (g c) c.headers)
    (hg : ∀ c ∈ p.cycles, c.rid ≠ rid → g c = []) :
    (p.modifyCycle rid f).cycles.map (fun c => (c.rid, c.headers)) =
      p.cycles.map (fun c => (c.rid, setHeaders (g c) c.headers)) := by
  simp only [modifyCycle, KeyedList.updateKey, List.map_map]
  refine List.map_congr_left (fun c hc => ?_)
  simp only [Function.comp_apply]
  split_ifs with heq
  · rw [hrid, hf c hc heq]
  · rw [hg c hc heq]
    rfl

/-- An event that changes no cycle and writes no header. -/
theorem headers_unchanged {p' : Pipeline} {g : Cycle → Headers} (hcycles : p'.cycles = p.cycles)
    (hg : ∀ c ∈ p.cycles, g c = []) :
    p'.cycles.map (fun c => (c.rid, c.headers)) =
      p.cycles.map (fun c => (c.rid, setHeaders (g c) c.headers)) := by
  rw [hcycles]
  refine List.map_congr_left (fun c hc => ?_)
  rw [hg c hc]
  rfl

/-- All headers that an event writes to the response of a request. -/
def writes (libs : Libraries) (op : Op) (c : Cycle) : Headers :=
  foreignHeaders op c ++ cacheMarks libs op c

theorem headers_onSetHeader (name value : String) (c : Cycle) (heq : c.rid = rid) :
    (c.onSetHeader name value).headers =
      setHeaders (writes libs (.setHeader rid name value) c) c.headers := by
  cases hstage : c.stage <;>
    simp only [Cycle.onSetHeader, writes, foreignHeaders, cacheMarks, hstage, if_pos heq] <;> rfl

theorem headers_resume (hrids : (p.cycles.map Cycle.rid).Nodup) (latency : Rat)
    (fault : Option Nat) :
    (p.resume libs rid latency fault).cycles.map (fun c => (c.rid, c.headers)) =
      p.cycles.map (fun c =>
        (c.rid, setHeaders (writes libs (.resume rid latency fault) c) c.headers)) := by
  have hother : ∀ c ∈ p.cycles, c.rid ≠ rid → writes libs (.resume rid latency fault) c = [] := by
    intro c _ hne
    cases hstage : c.stage with
    | found cached =>
        cases cached <;> simp only [writes, foreignHeaders, cacheMarks, hstage, if_neg hne] <;> rfl
    | _ => simp only [writes, foreignHeaders, cacheMarks, hstage, List.append_nil]
  simp only [resume]
  split
  · next hfind =>
      refine headers_unchanged rfl (fun c hc => hother c hc (fun heq => ?_))
      have hsome : (p.cycle rid).isSome :=
        KeyedList.findKey_isSome_iff.mpr (heq ▸ List.mem_map_of_mem hc)
      simp [hfind] at hsome
  · next c hfind =>
      have honly : ∀ c' ∈ p.cycles, c'.rid = rid → c' = c :=
        fun c' hc' heq => KeyedList.eq_of_findKey hrids hfind hc' heq
      have hrid : c.rid = rid := KeyedList.key_of_findKey hfind
      split
      · next hstage =>
          refine headers_modifyCycle (fun _ => rfl) (fun c' hc' heq => ?_) hother
          obtain rfl := honly c' hc' heq
          simp only [writes, foreignHeaders, cacheMarks, hstage, if_pos hrid]
          rfl
      · next cached hstage =>
          split
          · refine headers_modifyCycle (p := { p with cache := _ }) (fun _ => rfl)
              (fun c' hc' heq => ?_) hother
            obtain rfl := honly c' hc' heq
            simp only [writes, foreignHeaders, cacheMarks, hstage, if_pos hrid, setHeaders_append]
            rfl
          · refine headers_modifyCycle (p := { p with cache := _ }) (fun _ => rfl)
              (fun c' hc' heq => ?_) hother
            obtain rfl := honly c' hc' heq
            simp only [writes, foreignHeaders, cacheMarks, hstage, if_pos hrid, setHeaders_append]
            rfl
      · next hnone hsome =>
          refine headers_unchanged rfl (fun c' hc' => ?_)
          by_cases heq : c'.rid = rid
          · obtain rfl := honly c' hc' heq
            cases hstage : c'.stage with
            | found cached =>
                cases cached with
                | none => exact absurd hstage hnone
                | some cached => exact absurd hstage (hsome cached)
            | _ => simp [writes, foreignHeaders, cacheMarks, hstage]
          · exact hother c' hc' heq

/-- What an event at or behind the cache does to the headers of all requests. -/
theorem headers_step (hrids : (p.cycles.map Cycle.rid).Nodup)
    (hop : ∀ rid req headers, op ≠ .arrive rid req headers) :
    (p.step libs ⟨now, op⟩).cycles.map (fun c => (c.rid, c.headers)) =
      p.cycles.map (fun c => (c.rid, setHeaders (writes libs op c) c.headers)) := by
  cases op with
  | arrive rid req headers => exact absurd rfl (hop rid req headers)
  | redisAnswer ok =>
      simp only [step, redisAnswer]
      split
      · exact headers_unchanged rfl (fun _ _ => rfl)
      · refine headers_modifyCycle (p := { p with cache := _ }) Cycle.rid_onAnswer
          (fun c _ _ => ?_) (fun _ _ _ => rfl)
        simp only [Cycle.onAnswer]
        split <;> rfl
  | resume rid latency fault => exact headers_resume hrids latency fault
  | setHeader rid name value =>
      refine headers_modifyCycle Cycle.rid_onSetHeader
        (fun c _ heq => headers_onSetHeader name value c heq) (fun c _ hne => ?_)
      cases hstage : c.stage <;>
        simp only [writes, foreignHeaders, cacheMarks, hstage, if_neg hne] <;> rfl
  | write rid chunk =>
      refine headers_modifyCycle Cycle.rid_onWrite (fun c _ _ => ?_) (fun _ _ _ => rfl)
      simp only [Cycle.onWrite]
      split <;> rfl
  | endResponse rid status chunk latency =>
      have hend : ∀ status, ∀ c : Cycle, (c.onEnd status chunk).headers = c.headers := by
        intro status c
        simp only [Cycle.onEnd]
        split <;> rfl
      simp only [step, endResponse]
      split
      · exact headers_unchanged rfl (fun _ _ => rfl)
      · split
        · exact headers_modifyCycle (p := { p with cache := _ }) Cycle.rid_onEnd
            (fun c _ _ => hend _ c) (fun _ _ _ => rfl)
        · exact headers_modifyCycle Cycle.rid_onEnd (fun c _ _ => hend _ c) (fun _ _ _ => rfl)
  | delete key => exact headers_unchanged rfl (fun _ _ => rfl)
  | invalidatePattern pattern => exact headers_unchanged rfl (fun _ _ => rfl)
  | flushAll => exact headers_unchanged rfl (fun _ _ => rfl)
  | clientConnect => exact headers_unchanged rfl (fun _ _ => rfl)
  | clientError => exact headers_unchanged rfl (fun _ _ => rfl)
  | clientStatus status => exact headers_unchanged rfl (fun _ _ => rfl)

/-- The marks of the cache do not touch the headers of a request. -/
theorem lastWrite_writes {name : String} (hname : name ∈ ownNames) (c : Cycle) :
    lastWrite name (writes libs op c) = lastWrite name (foreignHeaders op c) := by
  have hmarks : lastWrite name (cacheMarks libs op c) = none :=
    lastWrite_eq_none (fun entry hmem heq => lowerName_cacheMarks hmem (heq ▸ hname))
  rw [writes, lastWrite_append, hmarks, Option.none_or]

end Writes

end Pipeline

end SentinelADC
