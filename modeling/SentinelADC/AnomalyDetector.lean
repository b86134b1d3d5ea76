import SentinelADC.RedisTokenBucket
import SentinelADC.Lib.KeyedList

/-!
# Anomaly detector

`security/anomalyDetector.js`.  Requests are counted by client and turned into
rates in windows of ten seconds or more; a rate far above the client's moving
average is flagged, and with `autoEnforce` the rate limiter is told to hold the
client to a lower capacity.  Numbers are exact rationals and the square root is
a parameter.
-/

namespace SentinelADC

/-- An entry of `ipStats`. -/
structure IpStats where
  ewma : Rat
  variance : Rat
  windowCount : Nat
  windowStart : Int
  totalRequests : Nat
  totalAnomalies : Nat
  lastZScore : Rat
  /-- Time of `lastFlagged`. -/
  lastFlagged : Option Int
deriving DecidableEq, Repr

/-- An entry of `anomalies`, without its random `id`. -/
structure AnomalyEvent where
  ip : String
  currentRate : Int
  ewma : Rat
  stddev : Rat
  zScore : Rat
  threshold : Rat
  timestamp : Int
  enforced : Bool
deriving DecidableEq, Repr

/-- The fields of the detector. -/
structure AnomalyDetector where
  enabled : Bool
  zThreshold : Rat
  autoEnforce : Bool
  penaltyMaxRequests : Int
  penaltyWindowMs : Int
  ipStats : List (String × IpStats)
  anomalies : List AnomalyEvent

namespace IpStats

/-- Statistics of a client that has not been seen before. -/
def initial (now : Int) : IpStats where
  ewma := 0
  variance := 1
  windowCount := 0
  windowStart := now
  totalRequests := 0
  totalAnomalies := 0
  lastZScore := 0
  lastFlagged := none

/-- One more request. -/
def count (stats : IpStats) : IpStats :=
  { stats with
    windowCount := stats.windowCount + 1
    totalRequests := stats.totalRequests + 1 }

end IpStats

namespace AnomalyDetector

/-- `alpha`, the smoothing factor. -/
def alpha : Rat := 3 / 10

/-- `windowMs`. -/
def windowMs : Int := 10000

/-- The identity that `middleware` records a request under. -/
def clientKey (req : ClientRequest) : String :=
  ((truthy req.ip).or (truthy req.remoteAddress)).getD "127.0.0.1"

/-- `recordRequest`. -/
def recordRequest (now : Int) (ip : String) (d : AnomalyDetector) : AnomalyDetector :=
  if d.enabled = false ∨ ip = "" then d
  else if ∃ entry ∈ d.ipStats, entry.1 = ip then
    { d with ipStats := KeyedList.updateKey Prod.fst ip (fun e => (e.1, e.2.count)) d.ipStats }
  else { d with ipStats := d.ipStats ++ [(ip, (IpStats.initial now).count)] }

/-- `middleware`. -/
def middleware (now : Int) (req : ClientRequest) (d : AnomalyDetector) : AnomalyDetector :=
  if d.enabled then d.recordRequest now (clientKey req) else d

/-- The body of the loop of `evaluateWindows`: the new statistics of a client
and the anomaly, if there is one. -/
def evaluateWindow (sqrt : Rat → Rat) (now : Int) (ip : String) (stats : IpStats)
    (d : AnomalyDetector) : IpStats × Option AnomalyEvent :=
  let elapsed := now - stats.windowStart
  if elapsed < windowMs then (stats, none)
  else
    let currentRate : Rat := (stats.windowCount / ((elapsed : Rat) / 1000)) * 60
    let stats := { stats with windowStart := now, windowCount := 0 }
    if stats.ewma = 0 then
      ({ stats with ewma := currentRate, variance := max 1 (currentRate * (1 / 5)) }, none)
    else
      let stddev := sqrt (max 1 stats.variance)
      let diff := currentRate - stats.ewma
      let zScore := round2 (diff / stddev)
      let stats :=
        { stats with
          lastZScore := zScore
          ewma := round2 (alpha * currentRate + (1 - alpha) * stats.ewma)
          variance := round2 ((1 - alpha) * (stats.variance + alpha * diff ^ 2)) }
      if d.zThreshold ≤ zScore ∧ 15 ≤ currentRate then
        let stats :=
          { stats with
            totalAnomalies := stats.totalAnomalies + 1
            lastFlagged := some now }
        (stats,
          some
            { ip := ip
              currentRate := jsRound currentRate
              ewma := stats.ewma
              stddev := round2 stddev
              zScore := zScore
              threshold := d.zThreshold
              timestamp := now
              enforced := d.autoEnforce })
      else (stats, none)

/-- `anomalies.push`, which keeps the last 100. -/
def pushAnomaly (anomalies : List AnomalyEvent) (event : AnomalyEvent) : List AnomalyEvent :=
  let anomalies := anomalies ++ [event]
  if 100 < anomalies.length then anomalies.drop 1 else anomalies

/-- The anomalies that `evaluateWindows` finds, in order. -/
def found (sqrt : Rat → Rat) (now : Int) (d : AnomalyDetector) : List AnomalyEvent :=
  d.ipStats.filterMap (fun entry => (d.evaluateWindow sqrt now entry.1 entry.2).2)

/-- `rateLimiter.applyPenalty` for a flagged client. -/
def enforce (penalizedAt : Int) (d : AnomalyDetector) (l : RateLimiter) (event : AnomalyEvent) :
    RateLimiter :=
  l.applyPenalty penalizedAt event.ip d.penaltyMaxRequests d.penaltyWindowMs "statistical-anomaly"

/-- `evaluateWindows`.  The iterations read and write different entries.  The
clock is read again for the penalties. -/
def evaluateWindows (sqrt : Rat → Rat) (now penalizedAt : Int) (d : AnomalyDetector)
    (l : RateLimiter) : AnomalyDetector × RateLimiter :=
  ({ d with
      ipStats := d.ipStats.map (fun entry =>
        (entry.1, (d.evaluateWindow sqrt now entry.1 entry.2).1))
      anomalies := (d.found sqrt now).foldl pushAnomaly d.anomalies },
    if d.autoEnforce then (d.found sqrt now).foldl (d.enforce penalizedAt) l else l)

/-- `setAutoEnforce`. -/
def setAutoEnforce (enabled : Bool) (d : AnomalyDetector) : AnomalyDetector :=
  { d with autoEnforce := enabled }

/-- `setZThreshold`; what `parseFloat` makes of the argument, if it is a number. -/
def setZThreshold (threshold : Option Rat) (d : AnomalyDetector) : AnomalyDetector :=
  { d with zThreshold := (threshold.filter (fun z => z ≠ 0)).getD 3 }

/-- `clearAnomalies`. -/
def clearAnomalies (d : AnomalyDetector) : AnomalyDetector :=
  { d with
    anomalies := []
    ipStats := [] }

section Penalties

variable {sqrt : Rat → Rat} {penalizedAt : Int} {ip : String} {d : AnomalyDetector}

/-- A client that is flagged is penalised; the others keep what they have. -/
theorem penalizedIps_enforce (events : List AnomalyEvent) (l : RateLimiter) :
    (events.foldl (d.enforce penalizedAt) l).penalizedIps ip =
      if ∃ event ∈ events, event.ip = ip then
        some ⟨d.penaltyMaxRequests, penalizedAt + d.penaltyWindowMs, "statistical-anomaly"⟩
      else l.penalizedIps ip := by
  induction events generalizing l with
  | nil => simp
  | cons event events ih =>
      rw [List.foldl_cons, ih]
      by_cases hrest : ∃ event ∈ events, event.ip = ip
      · have hall : ∃ e ∈ event :: events, e.ip = ip := by
          obtain ⟨e, he, hip⟩ := hrest
          exact ⟨e, List.mem_cons_of_mem _ he, hip⟩
        rw [if_pos hrest, if_pos hall]
      · rw [if_neg hrest]
        by_cases hhead : event.ip = ip
        · have hall : ∃ e ∈ event :: events, e.ip = ip := ⟨event, List.mem_cons_self, hhead⟩
          rw [if_pos hall, enforce, RateLimiter.penalizedIps_applyPenalty, hhead,
            Function.update_self]
        · have hall : ¬ ∃ e ∈ event :: events, e.ip = ip := by
            rintro ⟨e, he, hip⟩
            rcases List.mem_cons.mp he with rfl | he
            · exact hhead hip
            · exact hrest ⟨e, he, hip⟩
          rw [if_neg hall, enforce, RateLimiter.penalizedIps_applyPenalty,
            Function.update_of_ne (fun heq => hhead heq.symm)]

theorem penalizedIps_evaluateWindows (now penalizedAt : Int) (l : RateLimiter) :
    (d.evaluateWindows sqrt now penalizedAt l).2.penalizedIps ip =
      if d.autoEnforce = true ∧ ∃ event ∈ d.found sqrt now, event.ip = ip then
        some ⟨d.penaltyMaxRequests, penalizedAt + d.penaltyWindowMs, "statistical-anomaly"⟩
      else l.penalizedIps ip := by
  cases henforce : d.autoEnforce with
  | false => simp [evaluateWindows, henforce]
  | true => simp [evaluateWindows, henforce, penalizedIps_enforce]

end Penalties

end AnomalyDetector

end SentinelADC
