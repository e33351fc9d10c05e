import Rtace.Common.Config
import Rtace.Common.Keys
import Rtace.Common.Redis

/-!
# Detection cooldown

`detection_engine/cooldown.py`: one `SET NX` for each candidate; the winners may be emitted, and the
keys they set are returned so that a failed delivery can release them.
-/

namespace Rtace

open Lib Redis

/-- `detection.details.get(key)`. -/
def DetectionEvent.detail (d : DetectionEvent) (key : String) : Option Json := d.details.lookup key

/-- `details.get("scope") == "ip" and detection.ip_address`: the address of an IP-scope detection. -/
def DetectionEvent.scopedIp (d : DetectionEvent) : Option String :=
  match d.detail "scope", d.ipAddress with
  | some (.str "ip"), some ip => if ip = "" then none else some ip
  | _, _ => none

/-- `cooldown_subject`. -/
def cooldownSubject (d : DetectionEvent) : String :=
  match d.scopedIp with
  | some ip => "ip:" ++ sanitizeIpForKey ip
  | none => "user:" ++ d.userId

/-- `cooldown_key`. -/
def cooldownKey (d : DetectionEvent) : String :=
  cooldownKeyPrefix ++ (d.detectionType ++ ":" ++ cooldownSubject d)

/-- The pipelined `SET key detection_id NX EX cooldown` of one detection. -/
def cooldownClaim (cfg : RedisConfig) (now : ℕ) (d : DetectionEvent) : Cmd Bool :=
  setNxEx now (cooldownKey d) (.text d.detectionId) cfg.detectionCooldownSeconds.toNat

/-- The detections whose `SET NX` won, in order. -/
def cooldownWinners (ds : List DetectionEvent) (acquired : List Bool) : List DetectionEvent :=
  ((ds.zip acquired).filter (·.2)).map (·.1)

/-- `filter_cooled_down`: the allowed detections and the claimed keys. -/
def filterCooledDown (cfg : RedisConfig) (now : ℕ) (ds : List DetectionEvent) :
    Cmd (List DetectionEvent × List String) :=
  if ds.isEmpty then pure ([], [])
  else if cfg.detectionCooldownSeconds ≤ 0 then pure (ds, [])
  else do
    let acquired ← runAll (ds.map (cooldownClaim cfg now))
    let allowed := cooldownWinners ds acquired
    pure (allowed, allowed.map cooldownKey)

/-- `release_cooldown`: one `DEL` of all the keys. -/
def releaseCooldown (keys : List String) : Cmd Unit := do
  let _ ← runAll (keys.map del)
  pure ()

end Rtace
