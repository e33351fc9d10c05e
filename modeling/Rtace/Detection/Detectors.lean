import Rtace.Common.Config
import Rtace.Detection.Scripts

/-!
# Detectors

The `interpret` functions of the four detectors: they turn the counts and statuses of the Lua scripts
into detections. The random id of `new_detection_id` is overwritten by `_assign_stable_id` before
anything reads it, so a fresh detection carries the id's fixed part only.
-/

namespace Rtace

/-- `MIN_TIME_SECONDS`, the same constant as `minTimeSeconds` of the decision service. -/
def minTimeSeconds : ℚ := 1

/-- The fixed part of `new_detection_id`. -/
def newDetectionId (idPrefix : String) : String := "det-" ++ idPrefix ++ "-"

/-- A Redis string as a JSON value. -/
def Payload.toJson : Payload → Json
  | .text s => .str s
  | .json j => j

/-- `replay_detector.interpret`. -/
def replayInterpret (tx : TransactionEvent) (status : ReplayStatus) (stored : Payload) :
    Option DetectionEvent :=
  if status = .replay then
    some
      { detectionId := newDetectionId "replay"
        detectionType := "replay_attack"
        severity := "high"
        userId := tx.userId
        transactionId := tx.eventId
        timestamp := .wallClock
        ipAddress := none
        details := [("first_seen_record", stored.toJson)] }
  else none

/-- `geo_velocity_detector.interpret`. -/
def geoInterpret (cfg : RedisConfig) (tx : TransactionEvent) (r : TxReply) :
    Option DetectionEvent :=
  if r.geoStatus = .anomaly then
    some
      { detectionId := newDetectionId "geo"
        detectionType := "geo_velocity_anomaly"
        severity := "high"
        userId := tx.userId
        transactionId := tx.eventId
        timestamp := .wallClock
        ipAddress := none
        details :=
          [("distance_km", .num r.distance), ("elapsed_seconds", .num r.elapsed),
            ("velocity_kmh", .num r.velocity), ("threshold_kmh", .num (.num cfg.geoMaxVelocityKmh)),
            ("from_location", .arr [.num (r.prevLat.getD .nan), .num (r.prevLon.getD .nan)]),
            ("to_location", .arr [.num tx.latitude, .num tx.longitude])] }
  else none

/-- `fraud_burst_detector.interpret`. -/
def burstInterpret (cfg : RedisConfig) (tx : TransactionEvent) (count : ℕ) :
    Option DetectionEvent :=
  if (count : ℤ) ≤ cfg.burstThreshold then none
  else
    some
      { detectionId := newDetectionId "burst"
        detectionType := "fraud_burst"
        severity := "high"
        userId := tx.userId
        transactionId := tx.eventId
        timestamp := .wallClock
        ipAddress := none
        details :=
          [("count_in_window", .num (.num count)), ("window_seconds", .num (.num cfg.burstWindowSeconds)),
            ("threshold", .num (.num cfg.burstThreshold))] }

/-- The detection of one scope in `credential_stuffing_detector.interpret`. -/
def stuffingDetection (cfg : RedisConfig) (auth : AuthEvent) (scope : String) (count : ℕ)
    (threshold : ℤ) : Option DetectionEvent :=
  if (count : ℤ) > threshold then
    some
      { detectionId := newDetectionId ("cred-" ++ scope)
        detectionType := "credential_stuffing"
        severity := "high"
        userId := auth.userId
        transactionId := auth.eventId
        timestamp := .wallClock
        ipAddress := some auth.ipAddress
        details :=
          [("scope", .str scope), ("count_in_window", .num (.num count)),
            ("window_seconds", .num (.num cfg.authFailWindowSeconds)),
            ("threshold", .num (.num threshold))] }
  else none

/-- `credential_stuffing_detector.interpret`: the user scope, then the IP scope. -/
def stuffingInterpret (cfg : RedisConfig) (auth : AuthEvent) (countUser countIp : ℕ) :
    Option DetectionEvent × Option DetectionEvent :=
  (stuffingDetection cfg auth "user" countUser cfg.authFailUserThreshold,
    stuffingDetection cfg auth "ip" countIp cfg.authFailIpThreshold)

end Rtace
