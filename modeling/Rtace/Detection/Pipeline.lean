import Rtace.Common.ConsumerLoop
import Rtace.Detection.Detectors
import Rtace.Detection.Cooldown

/-!
# Detection pipeline

`detection_engine/pipeline.py`. `handleBatch` runs the phases of `_run` in the source's order: the
pipelined enforcement reads, the pipelined scripts, the pipelined reads of stored decisions, the stable
ids, the cooldown. Items are objects in the source, so what a later loop writes to an item of a
filtered sublist is seen through the full list; `assignResults` and `assignDecisions` walk the full list
and hand the next reply to each item of the sublist.
-/

namespace Rtace

open Lib Redis

/-- `record_ref` of a decoded record. -/
def DecodedRecord.ref (r : DecodedRecord) : String := recordRef r.topic r.partition r.offset

/-- A validated event. -/
inductive Event where
  | tx (e : TransactionEvent)
  | auth (e : AuthEvent)

/-- The reply of one script call. -/
inductive Reply where
  | tx (r : TxReply)
  | auth (countUser countIp : ℕ)

/-- `_Item`, without the record index, which nothing reads. -/
structure Item where
  event : Event
  ref : String
  blocked : Bool := false
  result : Option Reply := none
  candidates : List DetectionEvent := []

/-- The audit record of a refused event. -/
structure BlockedAudit where
  event : String
  reason : String
  userId : String
  eventId : String
  ipAddress : Option String

/-- `BatchResult`. -/
structure BatchResult where
  emitted : List DetectionEvent
  failures : List (ℕ × PyError)
  claimedCooldownKeys : List String

/-- What a call of `handle_batch` does besides its Redis writes: the audit records it emits, and its
result or the exception it raises. -/
structure BatchRun where
  audits : List BlockedAudit
  result : Except PyError BatchResult

namespace Event

def userId : Event → String
  | tx e => e.userId
  | auth e => e.userId

def eventId : Event → String
  | tx e => e.eventId
  | auth e => e.eventId

/-- The enforcement key phase A looks up. -/
def enforcementKey : Event → String
  | tx e => quarantineKey e.userId
  | auth e => ipBlockKey e.ipAddress

/-- `it.is_tx or not it.event.success`. -/
def analysed : Event → Bool
  | tx _ => true
  | auth e => !e.success

end Event

/-- The part of `_blocked` that is emitted. -/
def blockedAudit (e : Event) : BlockedAudit :=
  match e with
  | .tx t => ⟨"transaction_blocked", "quarantine", t.userId, t.eventId, none⟩
  | .auth a => ⟨"auth_blocked", "ip_block", a.userId, a.eventId, some a.ipAddress⟩

/-- `_ID_PREFIX.get(detection_type, "det")`. -/
def idPrefixOf (detectionType : String) : String :=
  if detectionType = "replay_attack" then "replay"
  else if detectionType = "geo_velocity_anomaly" then "geo"
  else if detectionType = "fraud_burst" then "burst"
  else if detectionType = "credential_stuffing" then "cred"
  else "det"

/-- Python truth of a JSON value. -/
def Json.truthy : Json → Bool
  | .null => false
  | .bool b => b
  | .num x => x ≠ .num 0
  | .str s => s ≠ ""
  | .arr xs => !xs.isEmpty
  | .obj fs => !fs.isEmpty

/-- `f"{value}"`. -/
def Json.text (rt : Runtime) : Json → String
  | .str s => s
  | j => rt.strOf j

/-- `_assign_stable_id`. -/
def assignStableId (rt : Runtime) (ref : String) (d : DetectionEvent) : DetectionEvent :=
  let scope := (d.detail "scope").getD (.str "")
  let pre := idPrefixOf d.detectionType
  let pre := if d.detectionType = "credential_stuffing" ∧ scope.truthy then
    pre ++ "-" ++ scope.text rt else pre
  { d with detectionId := stableDetectionId rt pre ref d.detectionType (scope.text rt) }

/-- The keys `_queue_tx_check` passes. -/
def txKeys (rt : Runtime) (tx : TransactionEvent) : TxKeys :=
  ⟨replayKey (tx.replayHash rt), burstKey tx.userId, sessionKey tx.userId⟩

/-- The arguments `_queue_tx_check` passes for an event at `nowTs`. -/
def txArgs (cfg : RedisConfig) (tx : TransactionEvent) (ref : String) (nowTs : ℚ) : TxArgs where
  recordRef := ref
  replayTtl := cfg.replayTtlHours * 3600
  eventId := tx.eventId
  nowTs := nowTs
  burstCutoff := nowTs - cfg.burstWindowSeconds
  burstKeyTtl := cfg.burstKeyTtlSeconds
  lat := tx.latitude
  lon := tx.longitude
  sessionTtl := cfg.sessionTtlDays * 86400
  maxVelocity := cfg.geoMaxVelocityKmh
  minTime := minTimeSeconds

/-- `_queue_tx_check` / `_queue_auth_check`: the script call of an item, or the exception that building
its arguments raises. -/
def queueCheck (rt : Runtime) (cfg : RedisConfig) (now : ℕ) (it : Item) :
    Except PyError (Cmd Reply) :=
  match it.event with
  | .tx tx => do
      let nowTs ← tx.timestamp.timestamp rt
      pure do
        let r ← txCheck rt now (txKeys rt tx) (txArgs cfg tx it.ref nowTs)
        pure (.tx r)
  | .auth a => do
      let nowTs ← a.timestamp.timestamp rt
      pure do
        let (countUser, countIp) ← authCheck now (userFailKey a.userId) (ipFailKey a.ipAddress)
          a.eventId nowTs (nowTs - cfg.authFailWindowSeconds) cfg.authFailKeyTtlSeconds
        pure (.auth countUser countIp)

/-- `for x in value`: the elements, or the exception. -/
def Json.elements : Json → Except PyError (List Json)
  | .arr xs => .ok xs
  | .str s => .ok (s.toList.map fun c => .str (String.ofList [c]))
  | .obj fs => .ok (fs.map fun f => .str f.1)
  | _ => .error .typeError

/-- `value.get(key, default)`; only a dict has `get`. -/
def Json.getD (j : Json) (key : String) (default : Json) : Except PyError Json :=
  match j with
  | .obj fs => .ok ((fs.lookup key).getD default)
  | _ => .error .attributeError

/-- One reason of a stored decision, turned into a detection if its type is known. -/
def detectionFromReason (tx : TransactionEvent) (verdict : Json) (reason : Json) :
    Except PyError (Option DetectionEvent) := do
  let dtype ← reason.getD "type" .null
  match dtype with
  | .str t =>
      if t = "replay_attack" ∨ t = "geo_velocity_anomaly" ∨ t = "fraud_burst" then do
        let details ← reason.getD "details" (.obj [])
        match details with
        | .obj fs =>
            pure (some
              { detectionId := "pending"
                detectionType := t
                severity := "high"
                userId := tx.userId
                transactionId := tx.eventId
                timestamp := .event tx.timestamp
                ipAddress := none
                details := (Dict.insert (Dict.insert fs "source" (.str "decision-service"))
                  "verdict" verdict) })
        | _ => .error .typeError
      else pure none
  | _ => pure none

/-- `_detections_from_decision`. -/
def detectionsFromDecision (tx : TransactionEvent) (raw : Option Payload) :
    Except PyError (List DetectionEvent) :=
  match raw with
  | some (.json decision) => do
      let reasons ← decision.getD "reasons" (.arr [])
      let verdict ← decision.getD "verdict" .null
      let found ← (← reasons.elements).mapM (detectionFromReason tx verdict)
      pure (found.filterMap id)
  | _ => .ok []

/-- The loop of `handle_batch` over the records from index `i` on: items and permanent failures. -/
def validateRecords (rt : Runtime) (kafka : KafkaConfig) :
    ℕ → List DecodedRecord → List Item × List (ℕ × PyError)
  | _, [] => ([], [])
  | i, r :: rs =>
      let (items, failures) := validateRecords rt kafka (i + 1) rs
      let event := if r.topic = kafka.authEventsTopic then (rt.validateAuth r.value).map .auth
        else (rt.validateTx r.value).map .tx
      match event with
      | some e => ({ event := e, ref := r.ref } :: items, failures)
      | none => (items, (i, .validationError) :: failures)

/-- The item takes part in the checks of phase B. -/
def Item.active (it : Item) : Bool := !it.blocked && it.event.analysed

/-- Phase A: the pipelined `EXISTS`, and the blocked flags. -/
def enforcePhase (items : List Item) : Cmd (List Item) := do
  let flags ← runAll (items.map fun it => existsKey it.event.enforcementKey)
  pure (items.zipWith (fun it flag => if flag then { it with blocked := true } else it) flags)

/-- `for it, res in zip(active, results): it.result = res`. -/
def assignResults : List Item → List Reply → List Item
  | [], _ => []
  | it :: its, rs =>
      if it.active then
        match rs with
        | r :: rs => { it with result := some r } :: assignResults its rs
        | [] => it :: its
      else it :: assignResults its rs

/-- The event was scored by the decision service: its item goes to phase C. -/
def Item.prescored (it : Item) : Bool :=
  match it.event, it.result with
  | .tx _, some (.tx r) => r.replayStatus = .prescored
  | _, _ => false

/-- The `interpret` loop for one item. -/
def interpretItem (cfg : RedisConfig) (it : Item) : Item :=
  match it.event, it.result with
  | .tx tx, some (.tx r) =>
      if r.replayStatus = .prescored then it
      else
        { it with
          candidates := it.candidates ++
            [replayInterpret tx r.replayStatus r.storedRef, geoInterpret cfg tx r,
              burstInterpret cfg tx r.burstCount].filterMap id }
  | .auth a, some (.auth countUser countIp) =>
      let (user, ip) := stuffingInterpret cfg a countUser countIp
      { it with candidates := it.candidates ++ [user, ip].filterMap id }
  | _, _ => it

/-- The `decision_fetch` pipeline of phase C. -/
def decisionFetch (items : List Item) : Cmd (List (Option Payload)) :=
  runAll ((items.filter (·.prescored)).map fun it => get (resultKey it.event.eventId))

/-- `for it, raw in zip(prescored, payloads): it.candidates.extend(...)`. -/
def assignDecisions : List Item → List (Option Payload) → Except PyError (List Item)
  | [], _ => .ok []
  | it :: its, raws =>
      if it.prescored then
        match it.event, raws with
        | .tx tx, raw :: raws =>
            (detectionsFromDecision tx raw).bind fun found =>
              (assignDecisions its raws).map fun rest =>
                { it with candidates := it.candidates ++ found } :: rest
        | _, _ => .ok (it :: its)
      else (assignDecisions its raws).map fun rest => it :: rest

/-- The candidates of a batch in order, with their stable ids. -/
def collectCandidates (rt : Runtime) (items : List Item) : List DetectionEvent :=
  items.flatMap fun it => it.candidates.map (assignStableId rt it.ref)

/-- Phases A to C of `_run`: the audit records, and the items with their candidates. -/
def analyse (rt : Runtime) (cfg : RedisConfig) (now : ℕ) (items : List Item) :
    Cmd (List BlockedAudit × Except PyError (List Item)) := do
  let items ← enforcePhase items
  let audits := (items.filter (·.blocked)).map fun it => blockedAudit it.event
  match (items.filter (·.active)).mapM (queueCheck rt cfg now) with
  | .error e => pure (audits, .error e)
  | .ok calls => do
      let results ← runAll calls
      let items := (assignResults items results).map (interpretItem cfg)
      let payloads ← decisionFetch items
      pure (audits, assignDecisions items payloads)

/-- `DetectionPipeline._run`. -/
def runItems (rt : Runtime) (cfg : RedisConfig) (now : ℕ) (items : List Item) : Cmd BatchRun := do
  if items.isEmpty then
    pure ⟨[], .ok ⟨[], [], []⟩⟩
  else do
    let (audits, out) ← analyse rt cfg now items
    match out with
    | .error e => pure ⟨audits, .error e⟩
    | .ok items => do
        let (emitted, claimed) ← filterCooledDown cfg now (collectCandidates rt items)
        pure ⟨audits, .ok ⟨emitted, [], claimed⟩⟩

/-- `DetectionPipeline.handle_batch`. -/
def handleBatch (rt : Runtime) (kafka : KafkaConfig) (cfg : RedisConfig) (now : ℕ)
    (records : List DecodedRecord) : Cmd BatchRun := do
  let (items, failures) := validateRecords rt kafka 0 records
  let run ← runItems rt cfg now items
  pure { run with result := run.result.map fun r => { r with failures := failures } }

end Rtace
