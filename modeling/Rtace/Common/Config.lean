import Rtace.Common.Value

/-!
# Configuration

The knobs of `configs/redis_config.py` and `configs/kafka_config.py` that the modelled code reads.
-/

namespace Rtace

/-- `RedisConfig`, without the connection fields. -/
structure RedisConfig where
  replayTtlHours : ℕ := 24
  quarantineTtlSeconds : ℕ := 3600
  sessionTtlDays : ℕ := 7
  geoMaxVelocityKmh : ℚ := 900
  burstWindowSeconds : ℤ := 60
  burstThreshold : ℤ := 20
  burstKeyTtlSeconds : ℕ := 120
  authFailWindowSeconds : ℤ := 60
  authFailUserThreshold : ℤ := 10
  authFailIpThreshold : ℤ := 50
  authFailKeyTtlSeconds : ℕ := 120
  ipBlockTtlSeconds : ℕ := 3600
  stepUpTtlSeconds : ℕ := 900
  containmentReceiptTtlSeconds : ℕ := 691200
  detectionCooldownSeconds : ℤ := 60

/-- `KafkaConfig`, the topics. -/
structure KafkaConfig where
  txEventsTopic : String := "tx-events"
  authEventsTopic : String := "auth-events"
  detectionsTopic : String := "detections"
  auditLogTopic : String := "audit-log"
  dlqTopic : String := "rtace-dlq"

end Rtace
