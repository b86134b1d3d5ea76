import SentinelADC.CacheBodies
import SentinelADC.RequestHeaders

/-!
# Hop-by-hop headers of cached responses

`proxy/proxyUtils.js` lists the headers that a proxy must not pass on.  The
cache stores every header of a response but its own mark, and a hit leaves out
`connection` and `content-length` only.
-/

namespace SentinelADC

open Runs

/-- `HOP_BY_HOP_HEADERS`. -/
def hopByHopHeaders : List String :=
  ["connection", "keep-alive", "proxy-authenticate", "proxy-authorization", "te", "trailer",
    "transfer-encoding", "upgrade"]

/-- A hit sets no hop-by-hop header of the cached response. -/
def Traced.StripsHopByHop (cached : Traced) : Prop :=
  ∀ entry ∈ Cycle.replayedHeaders cached, lowerName entry.1 ∉ hopByHopHeaders

section Replay

variable {libs : Libraries} {cached : Traced} {name : String}

/-- A header of a hit is the last one of the cached response with its name, or was there
before. -/
theorem getHeader_replay (hname : name ∉ ["x-cache", "x-cache-latency"]) (c : Cycle)
    (latency : Rat) :
    getHeader name (c.replay libs cached latency).headers =
      (lastWrite name (Cycle.replayedHeaders cached)).or (getHeader name c.headers) := by
  have hreplay : (c.replay libs cached latency).headers =
      setHeader "X-Cache-Latency" (libs.formatMs latency)
        (setHeader "x-cache" "HIT" (setHeaders (Cycle.replayedHeaders cached) c.headers)) := rfl
  have hlatency : name ≠ lowerName "X-Cache-Latency" := by
    rintro rfl
    exact hname (by decide)
  have hmark : name ≠ lowerName "x-cache" := by
    rintro rfl
    exact hname (by decide)
  rw [hreplay, getHeader_setHeader, if_neg hlatency, getHeader_setHeader, if_neg hmark,
    getHeader_setHeaders]

/-- Hits strip these headers when no response shows a trace of those that were cached. -/
theorem stripsHopByHop_iff_getHeader (libs : Libraries) :
    cached.StripsHopByHop ↔ ∀ name ∈ hopByHopHeaders, ∀ (c : Cycle) (latency : Rat),
      getHeader name (c.replay libs cached latency).headers = getHeader name c.headers := by
  have hmarks : ∀ name ∈ hopByHopHeaders, name ∉ ["x-cache", "x-cache-latency"] := by decide
  constructor
  · intro hstrips name hname c latency
    have hnone : lastWrite name (Cycle.replayedHeaders cached) = none :=
      lastWrite_eq_none (fun entry hentry heq => hstrips entry hentry (heq ▸ hname))
    rw [getHeader_replay (hmarks name hname), hnone, Option.none_or]
  · intro hall entry hentry hname
    have hempty := hall _ hname (Cycle.start 0 ⟨"GET", "/", fun _ => none, none⟩ [] .ended) 0
    have hnothing : getHeader (lowerName entry.1) (Cycle.start 0
        ⟨"GET", "/", fun _ => none, none⟩ [] .ended).headers = none := rfl
    rw [getHeader_replay (hmarks _ hname), hnothing, Option.or_none] at hempty
    have hmem : lowerName entry.1 ∈ (Cycle.replayedHeaders cached).map
        (fun entry => lowerName entry.1) := List.mem_map_of_mem hentry
    simp only [lastWrite, Option.map_eq_none_iff, List.find?_eq_none, List.mem_reverse,
      decide_eq_true_eq] at hempty
    exact hempty entry hentry rfl

/-- Of the hop-by-hop headers, a hit leaves out `connection` only. -/
theorem stripsHopByHop_iff :
    cached.StripsHopByHop ↔ ∀ entry ∈ cached.response.headers,
      lowerName entry.1 ∈ hopByHopHeaders → lowerName entry.1 = "connection" := by
  have hlength : "content-length" ∉ hopByHopHeaders := by decide
  simp only [Traced.StripsHopByHop, Cycle.replayedHeaders, List.mem_filter, decide_eq_true_eq]
  constructor
  · intro hstrips entry hentry hname
    by_contra hne
    have hlength' : lowerName entry.1 ≠ "content-length" := fun heq => hlength (heq ▸ hname)
    exact hstrips entry ⟨hentry, hne, hlength'⟩ hname
  · rintro hall entry ⟨hentry, hne, -⟩ hname
    exact hne (hall entry hentry hname)

namespace Pipeline

/-- The mark of the cache is no hop-by-hop header. -/
theorem stripsHopByHop_iff_of_stored {miss : Cycle} (h : miss.Stored libs cached) :
    cached.StripsHopByHop ↔ ∀ entry ∈ miss.headers,
      lowerName entry.1 ∈ hopByHopHeaders → lowerName entry.1 = "connection" := by
  have hmark : lowerName "x-cache" ∉ hopByHopHeaders := by decide
  have hheaders : cached.response.headers =
      miss.headers.filter (fun entry => entry.1 ≠ "x-cache") :=
    congrArg CachedResponse.headers h.response
  rw [stripsHopByHop_iff, hheaders]
  constructor
  · intro hall entry hentry hname
    have hne : entry.1 ≠ "x-cache" := fun heq => hmark (heq ▸ hname)
    exact hall entry (List.mem_filter.mpr ⟨hentry, by simpa using hne⟩) hname
  · intro hall entry hentry
    exact hall entry (List.mem_filter.mp hentry).1

/-- For every cached response with header names in any letter case, a hit sets none of its
hop-by-hop headers exactly when it has none but `connection`, and this is when the response
to a hit shows none; and in every run the response that a hit replays is one that a miss for
the same URL has sent. -/
theorem hopByHop_iff (libs : Libraries) :
    (∀ cached : Traced,
      (cached.StripsHopByHop ↔ ∀ entry ∈ cached.response.headers,
        lowerName entry.1 ∈ hopByHopHeaders → lowerName entry.1 = "connection") ∧
      (cached.StripsHopByHop ↔ ∀ name ∈ hopByHopHeaders, ∀ (c : Cycle) (latency : Rat),
        getHeader name (c.replay libs cached latency).headers = getHeader name c.headers)) ∧
    ∀ (p : Pipeline) (es : List Event) (hit : Cycle) (cached : Traced), p.Booted →
      hit ∈ (run (step libs) p es).cycles → hit.stage = .found (some cached) →
      ∃ miss ∈ (run (step libs) p es).cycles,
        miss.request.originalUrl = hit.request.originalUrl ∧ miss.Stored libs cached ∧
        (cached.StripsHopByHop ↔ ∀ entry ∈ miss.headers,
          lowerName entry.1 ∈ hopByHopHeaders → lowerName entry.1 = "connection") := by
  refine ⟨fun cached => ⟨stripsHopByHop_iff, stripsHopByHop_iff_getHeader libs⟩, ?_⟩
  intro p es hit cached hboot hmem hfound
  obtain ⟨miss, hmiss, hurl, hstored⟩ := exists_miss hboot es hmem hfound
  exact ⟨miss, hmiss, hurl, hstored, stripsHopByHop_iff_of_stored hstored⟩

/-- A backend answers with one header, and the URL is asked for again. -/
def fetchedWith (name value : String) : List Event :=
  [⟨1, .arrive 0 ⟨"GET", "/", fun _ => none, none⟩ []⟩, ⟨1, .resume 0 0 none⟩,
    ⟨2, .setHeader 0 name value⟩, ⟨2, .endResponse 0 200 [] 1⟩,
    ⟨3, .arrive 1 ⟨"GET", "/", fun _ => none, none⟩ []⟩]

/-- The second request has found the response of the first one. -/
def FindsWith (name value : String) (cached : Traced) : Prop :=
  ∃ hit ∈ (run (step sampleLibraries) samplePipeline (fetchedWith name value)).cycles,
    hit.stage = .found (some cached)

theorem hopByHop_iff_sample :
    ∃ miss ∈ (run (step sampleLibraries) samplePipeline
        (fetchedWith "Connection" "close")).cycles,
      miss.Stored sampleLibraries ⟨⟨200, [("connection", "close")], ""⟩, .backend⟩ ∧
      (Traced.StripsHopByHop ⟨⟨200, [("connection", "close")], ""⟩, .backend⟩ ↔
        ∀ entry ∈ miss.headers,
          lowerName entry.1 ∈ hopByHopHeaders → lowerName entry.1 = "connection") := by
  obtain ⟨hit, hmem, hfound⟩ : FindsWith "Connection" "close"
      ⟨⟨200, [("connection", "close")], ""⟩, .backend⟩ := by
    unfold FindsWith
    decide
  obtain ⟨miss, hmiss, -, hstored, hiff⟩ :=
    (hopByHop_iff sampleLibraries).2 _ _ hit _ booted_samplePipeline hmem hfound
  exact ⟨miss, hmiss, hstored, hiff⟩

/-- The `Keep-Alive` header of a backend comes again on a hit. -/
theorem hopByHop_replayed :
    ¬ ∀ (libs : Libraries) (p : Pipeline) (es : List Event) (hit : Cycle) (cached : Traced),
      p.Booted → hit ∈ (run (step libs) p es).cycles → hit.stage = .found (some cached) →
      cached.StripsHopByHop := by
  intro hclaim
  obtain ⟨hit, hmem, hfound⟩ : FindsWith "Keep-Alive" "timeout=5"
      ⟨⟨200, [("keep-alive", "timeout=5")], ""⟩, .backend⟩ := by
    unfold FindsWith
    decide
  have hstrips := hclaim sampleLibraries samplePipeline _ hit _ booted_samplePipeline hmem hfound
  exact hstrips ("keep-alive", "timeout=5") (by decide) (by decide)

end Pipeline

end Replay

end SentinelADC
