import Rtace.Lib.KeyFamily
import Rtace.Common.Models

/-!
# Key layout

The Redis keys of `common/enforcement.py`, the detectors, the cooldown, the containment engine and the
decision service. Every key is a literal prefix followed by text that an event supplies; the prefixes
are pairwise incomparable, so keys of different kinds never meet, whatever the ids are.
-/

namespace Rtace

open Lib

def quarantineKeyPrefix : String := "enforce:quarantine:user:"
def stepUpKeyPrefix : String := "enforce:step_up:user:"
def ipBlockKeyPrefix : String := "block:ip:"
def replayKeyPrefix : String := "replay:seen:"
def burstKeyPrefix : String := "burst:"
def sessionKeyPrefix : String := "session:"
def userFailKeyPrefix : String := "auth:fail:user:"
def ipFailKeyPrefix : String := "auth:fail:ip:"
def cooldownKeyPrefix : String := "cooldown:"
def resultKeyPrefix : String := "decision:result:"
def receiptKeyPrefix : String := "containment:applied:"

/-- All key prefixes. -/
def keyPrefixes : List String :=
  [quarantineKeyPrefix, stepUpKeyPrefix, ipBlockKeyPrefix, replayKeyPrefix, burstKeyPrefix,
    sessionKeyPrefix, userFailKeyPrefix, ipFailKeyPrefix, cooldownKeyPrefix, resultKeyPrefix,
    receiptKeyPrefix]

/-- No key prefix extends another. -/
theorem keyPrefixes_incomparable : keyPrefixes.Pairwise Incomparable := by
  decide

/-- `sanitize_ip_for_key`: `:` becomes `-`. -/
def sanitizeIpForKey (ip : String) : String :=
  String.ofList (ip.toList.map fun c => if c = ':' then '-' else c)

def quarantineKey (userId : String) : String := quarantineKeyPrefix ++ userId

def stepUpKey (userId : String) : String := stepUpKeyPrefix ++ userId

def ipBlockKey (ip : String) : String := ipBlockKeyPrefix ++ sanitizeIpForKey ip

/-- `replay_detector.replay_key`, over the payload hash. -/
def replayKey (hash : String) : String := replayKeyPrefix ++ hash

theorem replayKey_injective : Function.Injective replayKey := fun _ _ h =>
  (String.append_right_inj replayKeyPrefix).mp h

def burstKey (userId : String) : String := burstKeyPrefix ++ (userId ++ ":1m")

def sessionKey (userId : String) : String := sessionKeyPrefix ++ userId

/-- `credential_stuffing_detector.user_key`. -/
def userFailKey (userId : String) : String := userFailKeyPrefix ++ (userId ++ ":1m")

/-- `credential_stuffing_detector.ip_key`. -/
def ipFailKey (ip : String) : String := ipFailKeyPrefix ++ (sanitizeIpForKey ip ++ ":1m")

/-- The key of a stored decision. -/
def resultKey (eventId : String) : String := resultKeyPrefix ++ eventId

theorem resultKey_injective : Function.Injective resultKey := fun _ _ h =>
  (String.append_right_inj resultKeyPrefix).mp h

/-- The delivery reference of the decision service. -/
def decisionRef (eventId : String) : String := "decision:" ++ eventId

theorem decisionRef_injective : Function.Injective decisionRef := by
  intro a b h
  simpa [decisionRef, String.ext_iff] using h

end Rtace
