import Rtace.Common.CommitGate
import Rtace.Detection.Batching

/-!
# Detection engine

`detection_engine/consumer.py`: the consumer loop with the handler that runs the pipeline, confirms
delivery and, when delivery fails, releases the cooldown. One step is one action of the loop or the
broker, one pipelined round trip of the handler, or one of its sends. A round trip may fail after some of
its commands were executed, and the process may die and be restarted between any two steps.
-/

namespace Rtace

open Lib Redis

/-- What the handler produces. -/
inductive DetectionMessage where
  | detection (d : DetectionEvent)
  | audit (a : BlockedAudit)

/-- The configuration of the engine and its libraries. -/
structure Deployment where
  codec : Codec
  settings : LoopSettings
  runtime : Runtime
  kafka : KafkaConfig
  redis : RedisConfig

/-- Where the handler is. -/
inductive Task where
  | idle
  /-- Phases A to C are done, with this outcome; audit records are still to be sent. -/
  | auditing (todo : List BlockedAudit) (out : Except PyError (List Item)) (failures : List (ℕ × PyError))
  /-- The cooldown is claimed. -/
  | emitting (todo : List DetectionEvent) (result : BatchResult)
  /-- Delivery failed. -/
  | releasing (result : BatchResult)
  /-- Delivery is confirmed. -/
  | returning (failures : List (ℕ × PyError))

/-- A candidate of the current attempt: whether it won its cooldown, and the content of the cooldown key
after the claims. -/
structure Judged where
  candidate : DetectionEvent
  won : Bool
  owner : Option Payload

/-- How the claims of `filter_cooled_down` go. -/
def judge (cfg : RedisConfig) (now : ℕ) (ds : List DetectionEvent) (db : Db) : List Judged :=
  let out := runAll (ds.map (cooldownClaim cfg now)) db
  (ds.zip out.1).map fun x => ⟨x.1, x.2, payload (out.2 (cooldownKey x.1))⟩

/-- The engine with its Redis. -/
structure Engine where
  loop : Loop DetectionMessage
  task : Task
  judged : List Judged
  now : ℕ
  db : Db

/-- The records handed to the handler. -/
def decodedRecords (c : Codec) (records : List Record) : List DecodedRecord :=
  (decodedOf c records).map fun d => ⟨d.1.topic, d.1.partition, d.1.offset, d.2⟩

/-- A new process: what the broker has acknowledged stays acknowledged, what was in flight is lost. -/
def Loop.restart (s : Loop DetectionMessage) : Loop DetectionMessage where
  phase := .polling
  shutdown := false
  delay := 0
  producer := { s.producer with inflight := [], latch := false }
  sent := []
  outcome := none
  swallowed := false
  counters := {}
  polled := []

/-- A step of the handler. -/
def LoopLabel.ofHandler {M : Type} : LoopLabel M → Bool
  | .handlerSend .. | .handlerFlush _ | .handlerEnd _ => true
  | _ => false

/-- A step that starts an attempt, or a batch that needs none. -/
def LoopLabel.startsAttempt {M : Type} : LoopLabel M → Bool
  | .poll _ | .retry => true
  | _ => false

/-- What a step does. -/
inductive EngineLabel where
  | loop (l : LoopLabel DetectionMessage)
  | analyse
  | claim
  /-- The cooldown round trip fails after its first `executed` commands were executed. -/
  | claimFailed (executed : ℕ)
  | release
  /-- `release_cooldown` raises; its `DEL` may have been executed. -/
  | releaseFailed (executed : Bool) (e : Raised)
  | crash
  /-- Other clients of Redis. -/
  | other
  | tick

/-- One step of the engine. -/
inductive EngineStep (e : Deployment) (s : Engine) : EngineLabel → Engine → Prop
  | loop (l : LoopLabel DetectionMessage) (t : Loop DetectionMessage) (hl : l.ofHandler = false)
      (h : LoopStep e.codec e.settings s.loop l t) :
      EngineStep e s (.loop l)
        { s with loop := t, judged := if l.startsAttempt then [] else s.judged }
  | analyse (records : List Record) (items : List Item) (failures : List (ℕ × PyError))
      (hp : s.loop.phase = .handling records) (hdec : decodedOf e.codec records ≠ []) (ht : s.task = .idle)
      (hv : validateRecords e.runtime e.kafka 0 (decodedRecords e.codec records) = (items, failures)) :
      EngineStep e s .analyse
        { s with
          db := (Rtace.analyse e.runtime e.redis s.now items s.db).2
          task := .auditing (Rtace.analyse e.runtime e.redis s.now items s.db).1.1
            (Rtace.analyse e.runtime e.redis s.now items s.db).1.2 failures }
  | analyseFailed (records : List Record) (items : List Item) (failures : List (ℕ × PyError))
      (audits : List BlockedAudit) (db : Db) (hp : s.loop.phase = .handling records)
      (hdec : decodedOf e.codec records ≠ []) (ht : s.task = .idle)
      (hv : validateRecords e.runtime e.kafka 0 (decodedRecords e.codec records) = (items, failures))
      (ha : audits = [] ∨
        audits = ((enforcePhase items s.db).1.filter (·.blocked)).map fun it => blockedAudit it.event)
      (hdb : ∀ k ∈ cooldownKeys, db k = s.db k) :
      EngineStep e s .analyse
        { s with db := db, task := .auditing audits (.error .redisTransient) failures }
  | audit (a : BlockedAudit) (todo : List BlockedAudit) (out : Except PyError (List Item))
      (failures : List (ℕ × PyError)) (enqueued : Bool) (t : Loop DetectionMessage)
      (ht : s.task = .auditing (a :: todo) out failures)
      (h : LoopStep e.codec e.settings s.loop (.handlerSend (.audit a) enqueued) t) :
      EngineStep e s (.loop (.handlerSend (.audit a) enqueued))
        { s with loop := t, task := .auditing todo out failures }
  | raise (r : Raised) (failures : List (ℕ × PyError)) (t : Loop DetectionMessage)
      (ht : s.task = .auditing [] (.error r.error) failures)
      (h : LoopStep e.codec e.settings s.loop (.handlerEnd (.raised r)) t) :
      EngineStep e s (.loop (.handlerEnd (.raised r))) { s with loop := t, task := .idle }
  | claim (items : List Item) (failures : List (ℕ × PyError)) (emitted : List DetectionEvent)
      (claimed : List String) (db : Db) (ht : s.task = .auditing [] (.ok items) failures)
      (hc : filterCooledDown e.redis s.now (collectCandidates e.runtime items) s.db = ((emitted, claimed), db)) :
      EngineStep e s .claim
        { s with
          db := db
          task := .emitting emitted ⟨emitted, failures, claimed⟩
          judged := judge e.redis s.now (collectCandidates e.runtime items) s.db }
  | claimFailed (items : List Item) (failures : List (ℕ × PyError)) (executed : ℕ) (r : Raised)
      (t : Loop DetectionMessage) (ht : s.task = .auditing [] (.ok items) failures)
      (hr : r.error = .redisTransient)
      (h : LoopStep e.codec e.settings s.loop (.handlerEnd (.raised r)) t) :
      EngineStep e s (.claimFailed executed)
        { s with
          loop := t
          task := .idle
          db := (runAll (((collectCandidates e.runtime items).take executed).map
            (cooldownClaim e.redis s.now)) s.db).2 }
  | emit (d : DetectionEvent) (todo : List DetectionEvent) (result : BatchResult) (enqueued : Bool)
      (t : Loop DetectionMessage) (ht : s.task = .emitting (d :: todo) result)
      (h : LoopStep e.codec e.settings s.loop (.handlerSend (.detection d) enqueued) t) :
      EngineStep e s (.loop (.handlerSend (.detection d) enqueued))
        { s with loop := t, task := .emitting todo result }
  | flush (result : BatchResult) (t : Loop DetectionMessage) (ht : s.task = .emitting [] result)
      (h : LoopStep e.codec e.settings s.loop (.handlerFlush false) t) :
      EngineStep e s (.loop (.handlerFlush false)) { s with loop := t, task := .returning result.failures }
  | flushRaised (result : BatchResult) (t : Loop DetectionMessage) (ht : s.task = .emitting [] result)
      (h : LoopStep e.codec e.settings s.loop (.handlerFlush true) t) :
      EngineStep e s (.loop (.handlerFlush true)) { s with loop := t, task := .releasing result }
  | returned (failures : List (ℕ × PyError)) (f : ℕ → Option Raised) (t : Loop DetectionMessage)
      (ht : s.task = .returning failures) (hf : ∀ i, (f i).map (·.error) = failures.lookup i)
      (h : LoopStep e.codec e.settings s.loop (.handlerEnd (.returned f)) t) :
      EngineStep e s (.loop (.handlerEnd (.returned f))) { s with loop := t, task := .idle }
  | release (result : BatchResult) (r : Raised) (t : Loop DetectionMessage) (ht : s.task = .releasing result)
      (hr : r.error = .kafkaError)
      (h : LoopStep e.codec e.settings s.loop (.handlerEnd (.raised r)) t) :
      EngineStep e s .release
        { s with loop := t, task := .idle, db := (releaseCooldown result.claimedCooldownKeys s.db).2 }
  | releaseFailed (result : BatchResult) (executed : Bool) (r : Raised) (t : Loop DetectionMessage)
      (ht : s.task = .releasing result) (hne : result.claimedCooldownKeys ≠ [])
      (h : LoopStep e.codec e.settings s.loop (.handlerEnd (.raised r)) t) :
      EngineStep e s (.releaseFailed executed r)
        { s with
          loop := t
          task := .idle
          db := if executed then (releaseCooldown result.claimedCooldownKeys s.db).2 else s.db }
  | crash : EngineStep e s .crash { s with loop := s.loop.restart, task := .idle, judged := [] }
  | other (db : Db) (hdb : ∀ k ∈ cooldownKeys, db k = s.db k) : EngineStep e s .other { s with db := db }
  | tick (now : ℕ) (h : s.now ≤ now) : EngineStep e s .tick { s with now := now, db := purge now s.db }

end Rtace
