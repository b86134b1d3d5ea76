import SentinelADC.CacheSupply
import SentinelADC.Lib.Utf8
import SentinelADC.Lib.Json

/-!
# Bodies of cached responses

The middleware keeps a body as text.  Redis keeps the UTF-8 text of
`JSON.stringify`, the map in memory keeps the object itself, and both give back
what was stored.  What is lost is lost before: a hit sends the bytes of the
miss exactly when they are well-formed UTF-8.
-/

namespace SentinelADC

open Runs

/-- The text coding of Node in the place of the parameters. -/
def Libraries.withUtf8 (libs : Libraries) : Libraries :=
  { libs with
    decode := fun bytes => String.ofList (Utf8.decode bytes)
    encode := fun text => Utf8.encode text.toList }

namespace Json

variable {N : Type}

/-- A property of an object. -/
def property (name : String) : Json N → Option (Json N)
  | .obj members =>
      (members.reverse.find? (fun member => member.1 = name.toList)).map Prod.snd
  | _ => none

/-- A member whose value is a string, as a header. -/
def headerOf : List Char × Json N → Option (String × String)
  | (name, .str value) => some (String.ofList name, String.ofList value)
  | _ => none

end Json

namespace CachedResponse

/-- The headers as an object. -/
def headersJson (headers : Headers) : Json Nat :=
  .obj (headers.map (fun entry => (entry.1.toList, .str entry.2.toList)))

/-- The object that `cacheService.set` is given. -/
def toJson (response : CachedResponse) : Json Nat :=
  .obj [("status".toList, .num response.status),
    ("headers".toList, headersJson response.headers),
    ("body".toList, .str response.body.toList)]

/-- The parts of an object that a hit uses. -/
def ofJson (value : Json Nat) : Option CachedResponse :=
  match value.property "status", value.property "headers", value.property "body" with
  | some (.num status), some (.obj members), some (.str body) =>
      (members.mapM Json.headerOf).map (fun headers => ⟨status, headers, String.ofList body⟩)
  | _, _, _ => none

/-- What `cacheService.set` sends to Redis. -/
def redisText (response : CachedResponse) : List UInt8 :=
  Utf8.encode (Json.write Json.natText response.toJson)

/-- What `cacheService.get` makes of an answer of Redis. -/
def ofRedisText (bytes : List UInt8) : Option CachedResponse :=
  (Json.parse Json.natText (Utf8.decode bytes)).bind ofJson

theorem mapM_headerOf (headers : Headers) :
    (headers.map (fun entry => (entry.1.toList, (Json.str entry.2.toList : Json Nat)))).mapM
      Json.headerOf = some headers := by
  induction headers with
  | nil => rfl
  | cons entry headers ih =>
      rw [List.map_cons, List.mapM_cons, ih]
      simp only [Json.headerOf, String.ofList_toList]
      rfl

theorem ofJson_toJson (response : CachedResponse) :
    ofJson response.toJson = some response := by
  have hstatus : response.toJson.property "status" = some (.num response.status) := rfl
  have hheaders : response.toJson.property "headers" = some (headersJson response.headers) := rfl
  have hbody : response.toJson.property "body" = some (.str response.body.toList) := rfl
  rw [ofJson, hstatus, hheaders, hbody]
  simp only [headersJson, mapM_headerOf, String.ofList_toList]
  rfl

theorem ofRedisText_redisText (response : CachedResponse) :
    ofRedisText response.redisText = some response := by
  rw [ofRedisText, redisText, Utf8.decode_encode, Json.parse_write, Option.bind_some,
    ofJson_toJson]

end CachedResponse

/-- Where `cacheService` keeps a response. -/
inductive Store where
  | memory
  | redis
deriving DecidableEq, Repr

/-- `cacheService.get` of what `cacheService.set` has stored. -/
def Store.readBack : Store → CachedResponse → Option CachedResponse
  | .memory, response => some response
  | .redis, response => CachedResponse.ofRedisText response.redisText

/-- Neither store changes a response. -/
theorem readBack_eq (store : Store) (response : CachedResponse) :
    store.readBack response = some response := by
  cases store with
  | memory => rfl
  | redis => exact CachedResponse.ofRedisText_redisText response

namespace Cycle

variable {libs : Libraries} {c : Cycle} {cached : Traced}

/-- A hit sends the text that was cached and nothing else. -/
theorem Buffered.bytes_replay {latency : Rat} (h : c.Buffered)
    (hstage : c.stage = .found (some cached)) :
    (c.replay libs cached latency).bytes = libs.encode cached.response.body := by
  simp only [Buffered, hstage] at h
  simp only [replay, bytes, h.2, List.nil_append, List.map_cons, List.map_nil,
    List.flatten_cons, List.flatten_nil, List.append_nil]

/-- The stored text has the bytes of the miss when these are well formed. -/
theorem Stored.encode_body_iff (h : c.Stored libs.withUtf8 cached) :
    libs.withUtf8.encode cached.response.body = c.bytes ↔ Utf8.WellFormed c.bytes := by
  rw [h.response]
  simp only [Libraries.withUtf8, String.toList_ofList]
  exact Utf8.encode_decode_iff c.bytes

end Cycle

theorem originalUrl_of_cacheKey {req req' : HttpRequest} (h : cacheKey req = cacheKey req') :
    req.originalUrl = req'.originalUrl := by
  have happend : "sentinel:cache:" ++ req.originalUrl =
      "sentinel:cache:" ++ req'.originalUrl := h
  have hlist := congrArg String.toList happend
  rw [String.toList_append, String.toList_append] at hlist
  exact String.toList_injective (List.append_cancel_left hlist)

namespace Pipeline

variable {libs : Libraries} {p : Pipeline}

/-- What a hit replays is what a miss for the same URL has sent. -/
theorem exists_miss (hboot : p.Booted) (es : List Event) {hit : Cycle} {cached : Traced}
    (hmem : hit ∈ (run (step libs) p es).cycles) (hfound : hit.stage = .found (some cached)) :
    ∃ miss ∈ (run (step libs) p es).cycles,
      miss.request.originalUrl = hit.request.originalUrl ∧ miss.Stored libs cached := by
  obtain ⟨miss, hmiss, hkey, hstored⟩ :=
    (filled_run hboot es).supplied.found hit hmem cached hfound
  exact ⟨miss, hmiss, originalUrl_of_cacheKey hkey, hstored⟩

/-- In every run from start-up, a hit replays the response of a miss for the
same URL, from either store.  The client gets the bytes that were streamed on
the miss exactly when these are well-formed UTF-8. -/
theorem hit_bytes_iff (hboot : p.Booted) (es : List Event) {hit : Cycle} {cached : Traced}
    (hmem : hit ∈ (run (Pipeline.step libs.withUtf8) p es).cycles)
    (hfound : hit.stage = .found (some cached)) (store : Store) (latency : Rat) :
    ∃ miss ∈ (run (Pipeline.step libs.withUtf8) p es).cycles,
      miss.request.originalUrl = hit.request.originalUrl ∧ miss.Stored libs.withUtf8 cached ∧
      ∃ served, store.readBack cached.response = some served ∧
        ((hit.replay libs.withUtf8 { cached with response := served } latency).bytes =
          miss.bytes ↔ Utf8.WellFormed miss.bytes) := by
  obtain ⟨miss, hmiss, hurl, hstored⟩ := exists_miss hboot es hmem hfound
  refine ⟨miss, hmiss, hurl, hstored, cached.response, readBack_eq store cached.response, ?_⟩
  rw [((filled_run hboot es).buffered hit hmem).bytes_replay hfound]
  exact hstored.encode_body_iff

/-- A backend sends one response in one chunk, and the URL is asked for again. -/
def fetchedTwice (body : List UInt8) : List Event :=
  [⟨1, .arrive 0 ⟨"GET", "/logo", fun _ => none, none⟩ []⟩, ⟨1, .resume 0 0 none⟩,
    ⟨2, .endResponse 0 200 body 1⟩, ⟨3, .arrive 1 ⟨"GET", "/logo", fun _ => none, none⟩ []⟩]

theorem hit_bytes_iff_sample :
    ∃ hit ∈ (run (Pipeline.step sampleLibraries.withUtf8) samplePipeline
      (fetchedTwice [0xC3, 0xA9])).cycles,
      ∃ miss ∈ (run (Pipeline.step sampleLibraries.withUtf8) samplePipeline
        (fetchedTwice [0xC3, 0xA9])).cycles,
        miss.request.originalUrl = hit.request.originalUrl ∧
        miss.Stored sampleLibraries.withUtf8 ⟨⟨200, [], "é"⟩, .backend⟩ ∧
        ∃ served, Store.redis.readBack ⟨200, [], "é"⟩ = some served ∧
          ((hit.replay sampleLibraries.withUtf8 ⟨served, .backend⟩ 0).bytes =
            miss.bytes ↔ Utf8.WellFormed miss.bytes) := by
  obtain ⟨hit, hmem, hfound⟩ : ∃ hit ∈ (run (Pipeline.step sampleLibraries.withUtf8)
      samplePipeline (fetchedTwice [0xC3, 0xA9])).cycles,
      hit.stage = .found (some ⟨⟨200, [], "é"⟩, .backend⟩) := by
    decide
  exact ⟨hit, hmem, hit_bytes_iff booted_samplePipeline _ hmem hfound .redis 0⟩

/-- A body of one byte that is no text comes back as three bytes, from either
store. -/
theorem hit_bytes_differ :
    ¬ ∀ (libs : Libraries) (p : Pipeline) (es : List Event) (miss hit : Cycle) (cached : Traced)
      (store : Store) (served : CachedResponse) (latency : Rat), p.Booted →
      miss ∈ (run (Pipeline.step libs.withUtf8) p es).cycles →
      hit ∈ (run (Pipeline.step libs.withUtf8) p es).cycles →
      miss.request.originalUrl = hit.request.originalUrl → miss.Stored libs.withUtf8 cached →
      hit.stage = .found (some cached) → store.readBack cached.response = some served →
      (hit.replay libs.withUtf8 { cached with response := served } latency).bytes =
        miss.bytes := by
  intro hclaim
  obtain ⟨miss, hmiss, hit, hmem, hurl, hended, hstatus, hheaders, hbytes, hfound, hdiffer⟩ :
      ∃ miss ∈ (run (Pipeline.step sampleLibraries.withUtf8) samplePipeline
        (fetchedTwice [0xFF])).cycles,
      ∃ hit ∈ (run (Pipeline.step sampleLibraries.withUtf8) samplePipeline
        (fetchedTwice [0xFF])).cycles,
        miss.request.originalUrl = hit.request.originalUrl ∧ miss.stage = .ended ∧
        miss.status = some 200 ∧ miss.headers = [("x-cache", "MISS")] ∧ miss.bytes = [0xFF] ∧
        hit.stage = .found (some ⟨⟨200, [], "\uFFFD"⟩, .backend⟩) ∧
        (hit.replay sampleLibraries.withUtf8 ⟨⟨200, [], "\uFFFD"⟩, .backend⟩ 0).bytes ≠
          miss.bytes := by
    decide
  refine hdiffer (hclaim sampleLibraries samplePipeline (fetchedTwice [0xFF]) miss hit _ .redis _ 0
    booted_samplePipeline hmiss hmem hurl ⟨hended, hstatus, ?_⟩ hfound (readBack_eq _ _))
  rw [hheaders, hbytes]
  decide

end Pipeline

end SentinelADC
