import Rtace.Common.Subscription
import Rtace.Containment.AtMostOnce
import Rtace.Detection.NoLoss

/-!
# Containment engine

`containment_engine/consumer.py` with `containment_engine/pipeline.py`: the consumer loop whose handler is
`per_record(pipeline.handle_record)`. One step is one action of the loop or the broker, one call of
`apply_containment` at its linearization point, or one audit record. A call may be executed and its reply
lost, the process may die and be started anew between any two steps, and other clients use the same Redis.
-/

namespace Rtace.Containment

open Lib Redis

instance (detectionType : String) : Decidable (Known detectionType) :=
  inferInstanceAs (Decidable (_ ∈ _))

/-- The configuration of the engine, its topics and what it takes from its libraries. -/
structure Setup where
  codec : Codec
  settings : LoopSettings
  redis : RedisConfig
  topics : Topics
  /-- `DetectionEvent.model_validate`. -/
  validate : Json → Except Raised DetectionEvent
  invalid : ∀ j e, validate j = .error e → e.error = .validationError

/-- Where the handler is, with the failures it has collected: before the record at index `next`, or with
the audit record of that record still to be sent. -/
inductive Progress where
  | idle
  | working (next : ℕ) (failures : ℕ → Option Raised)
  | auditing (next : ℕ) (failures : ℕ → Option Raised) (d : DetectionEvent) (actions : List ActionKind)

/-- The engine with its Redis. -/
structure Worker where
  consumer : Consumer AuditRecord
  progress : Progress
  server : Server

namespace Worker

/-- The phase of the loop. -/
def phase (s : Worker) : Phase := s.consumer.loop.phase

/-- The loop goes to `t`. -/
def goto (s : Worker) (t : Loop AuditRecord) (progress : Progress) : Worker :=
  { s with consumer := { s.consumer with loop := t }, progress := progress }

/-- A call for `d` would find no receipt, and rules to write. -/
def writes (s : Worker) (d : DetectionEvent) : Bool :=
  (receipt s.server.db d.detectionId).isNone && decide (Known d.detectionType)

/-- Redis after a call for `d` that was executed or not. -/
def called (s : Worker) (cfg : RedisConfig) (d : DetectionEvent) (executed : Bool) : Server :=
  if executed then (perform cfg s.server (.call d)).2 else s.server

end Worker

/-- How a call of `apply_containment` ends. -/
inductive Reply where
  | returned (actions : List ActionKind)
  /-- It raises a transient error, and the batch is retried. -/
  | interrupted
  /-- It raises another one, and the record is dead-lettered. -/
  | failed

/-- What a step does. -/
inductive WorkLabel where
  | consumer (l : Option (LoopLabel AuditRecord))
  | begin
  | invalid (r : Record)
  /-- A call for the detection of `r`; `wrote` is whether it wrote rules. -/
  | call (r : Record) (d : DetectionEvent) (wrote : Bool) (reply : Reply)
  | auditFailed (d : DetectionEvent)
  /-- Other clients of Redis. -/
  | other
  | tick

/-- A step of the handler. -/
def ofHandler : Option (LoopLabel AuditRecord) → Bool
  | some l => l.ofHandler
  | none => false

/-- The detection of a record, if it has one. -/
def Setup.detectionOf (e : Setup) (r : Record) : Option DetectionEvent :=
  match decodeJson e.codec r.value with
  | .ok (some v) => (e.validate v).toOption
  | _ => none

/-- One step of the engine. -/
inductive WorkStep (e : Setup) (s : Worker) : WorkLabel → Worker → Prop
  | consumer (l : Option (LoopLabel AuditRecord)) (t : Consumer AuditRecord) (hl : ofHandler l = false)
      (h : ConsumerStep e.codec e.settings e.topics s.consumer l t) :
      WorkStep e s (.consumer l) { s with consumer := t, progress := if l.isNone then .idle else s.progress }
  | begin (records : List Record) (hp : s.phase = .handling records) (hdec : decodedOf e.codec records ≠ [])
      (hg : s.progress = .idle) :
      WorkStep e s .begin { s with progress := .working 0 fun _ => none }
  | invalid (records : List Record) (i : ℕ) (failures : ℕ → Option Raised) (r : Record) (v : Json) (x : Raised)
      (hp : s.phase = .handling records) (hg : s.progress = .working i failures)
      (hi : (decodedOf e.codec records)[i]? = some (r, v)) (hv : e.validate v = .error x) :
      WorkStep e s (.invalid r)
        { s with progress := .working (i + 1) (Function.update failures i (some x)) }
  | call (records : List Record) (i : ℕ) (failures : ℕ → Option Raised) (r : Record) (v : Json)
      (d : DetectionEvent) (actions : List ActionKind) (server : Server) (hp : s.phase = .handling records)
      (hg : s.progress = .working i failures) (hi : (decodedOf e.codec records)[i]? = some (r, v))
      (hv : e.validate v = .ok d) (hc : perform e.redis s.server (.call d) = (some actions, server)) :
      WorkStep e s (.call r d (s.writes d) (.returned actions))
        { s with server := server, progress := .auditing i failures d actions }
  | callFailed (records : List Record) (i : ℕ) (failures : ℕ → Option Raised) (r : Record) (v : Json)
      (d : DetectionEvent) (executed : Bool) (x : Raised) (hp : s.phase = .handling records)
      (hg : s.progress = .working i failures) (hi : (decodedOf e.codec records)[i]? = some (r, v))
      (hv : e.validate v = .ok d) (hx : x.error.isTransient = false) :
      WorkStep e s (.call r d (executed && s.writes d) .failed)
        { s with
          server := s.called e.redis d executed
          progress := .working (i + 1) (Function.update failures i (some x)) }
  | callInterrupted (records : List Record) (i : ℕ) (failures : ℕ → Option Raised) (r : Record) (v : Json)
      (d : DetectionEvent) (executed : Bool) (x : Raised) (t : Loop AuditRecord)
      (hp : s.phase = .handling records) (hg : s.progress = .working i failures)
      (hi : (decodedOf e.codec records)[i]? = some (r, v)) (hv : e.validate v = .ok d)
      (hx : x.error.isTransient = true)
      (h : LoopStep e.codec e.settings s.consumer.loop (.handlerEnd (.raised x)) t) :
      WorkStep e s (.call r d (executed && s.writes d) .interrupted)
        { s.goto t .idle with server := s.called e.redis d executed }
  | audit (i : ℕ) (failures : ℕ → Option Raised) (d : DetectionEvent) (actions : List ActionKind)
      (enqueued : Bool) (t : Loop AuditRecord) (hg : s.progress = .auditing i failures d actions)
      (h : LoopStep e.codec e.settings s.consumer.loop (.handlerSend (auditRecord d actions) enqueued) t) :
      WorkStep e s (.consumer (some (.handlerSend (auditRecord d actions) enqueued)))
        (s.goto t (.working (i + 1) failures))
  | auditFailed (i : ℕ) (failures : ℕ → Option Raised) (d : DetectionEvent) (actions : List ActionKind)
      (x : Raised) (hg : s.progress = .auditing i failures d actions) (hx : x.error.isTransient = false) :
      WorkStep e s (.auditFailed d)
        { s with progress := .working (i + 1) (Function.update failures i (some x)) }
  | returned (records : List Record) (failures : ℕ → Option Raised) (t : Loop AuditRecord)
      (hp : s.phase = .handling records)
      (hg : s.progress = .working (decodedOf e.codec records).length failures)
      (h : LoopStep e.codec e.settings s.consumer.loop (.handlerEnd (.returned failures)) t) :
      WorkStep e s (.consumer (some (.handlerEnd (.returned failures)))) (s.goto t .idle)
  | other (db : Db) (hdb : ∀ tp, ∀ r ∈ e.topics.log tp, ∀ d, e.detectionOf r = some d →
        receipt db d.detectionId = receipt s.server.db d.detectionId) :
      WorkStep e s .other { s with server := { s.server with db := db } }
  | tick (now : ℕ) (h : s.server.now ≤ now) :
      WorkStep e s .tick { s with server := (perform e.redis s.server (.tick now)).2 }

/-- Nothing has been polled, sent or committed, and Redis has no receipt of the detections of the topics. -/
structure Worker.Fresh (e : Setup) (s : Worker) : Prop where
  loop : s.consumer.loop.Fresh
  log : s.consumer.loop.producer.log = []
  position : ∀ tp, s.consumer.position tp = 0
  committed : ∀ tp, s.consumer.committed tp = 0
  progress : s.progress = .idle
  receipts : ∀ tp, ∀ r ∈ e.topics.log tp, ∀ d, e.detectionOf r = some d → receipt s.server.db d.detectionId = none

/-! ## Steps -/

section

variable {e : Setup} {s t : Worker} {l : WorkLabel}

/-- Where the handler is at work, the loop waits for it. -/
def Worker.Engaged (e : Setup) (s : Worker) : Prop :=
  s.progress ≠ .idle → ∃ records, s.phase = .handling records ∧ decodedOf e.codec records ≠ []

/-- A step of the loop beside the handler keeps the phase. -/
theorem Worker.Engaged.phase_eq (h : s.Engaged e) (hg : s.progress ≠ .idle) {l : LoopLabel AuditRecord}
    {t : Consumer AuditRecord} (hl : l.ofHandler = false)
    (hstep : ConsumerStep e.codec e.settings e.topics s.consumer (some l) t) : t.loop.phase = s.phase := by
  obtain ⟨records, hp, hdec⟩ := h hg
  exact (waiting_step hp hdec hl hstep.loopStep).1

theorem ne_nil_of_getElem? {α : Type} {l : List α} {i : ℕ} {a : α} (h : l[i]? = some a) : l ≠ [] :=
  List.ne_nil_of_mem (List.mem_of_getElem? h)

theorem Worker.Engaged.step (h : s.Engaged e) (hstep : WorkStep e s l t) : t.Engaged e := by
  intro hg
  cases hstep with
  | consumer l t hl hc =>
      cases l with
      | none => exact absurd rfl hg
      | some l =>
          obtain ⟨records, hp, hdec⟩ := h hg
          exact ⟨records, (h.phase_eq hg hl hc).trans hp, hdec⟩
  | begin records hp hdec => exact ⟨records, hp, hdec⟩
  | invalid records _ _ _ _ _ hp _ hi | call records _ _ _ _ _ _ _ hp _ hi | callFailed records _ _ _ _ _ _ _ hp _ hi =>
      exact ⟨records, hp, ne_nil_of_getElem? hi⟩
  | callInterrupted | returned => exact absurd rfl hg
  | audit i failures d actions enqueued t hg' hloop =>
      obtain ⟨records, hp, hdec⟩ := h (by rw [hg']; simp)
      refine ⟨records, ?_, hdec⟩
      cases hloop with
      | handlerSend => exact hp
  | auditFailed i failures d actions x hg' => exact h (by rw [hg']; simp)
  | other | tick => exact h hg

end

/-! ## Calls -/

section

variable {cfg : RedisConfig} {s : Worker} {d : DetectionEvent}

/-- A call that finds no receipt leaves that of its own detection and no other. -/
theorem receipt_applyContainment {now : ℕ} {db : Db} (hnone : receipt db d.detectionId = none)
    (hknown : Known d.detectionType) :
    receipt (applyContainment cfg now d db).2 d.detectionId ≠ none ∧
      ∀ i ≠ d.detectionId, receipt (applyContainment cfg now d db).2 i = receipt db i := by
  have hne : (plan cfg d (db (stepUpKey d.userId)).isSome).1 ≠ [] := (plan_ne_nil_iff cfg d _).mpr hknown
  rw [applyContainment_of_known hnone hne]
  refine ⟨?_, fun i hi => ?_⟩
  · rw [receipt, writeAll_receipt _ _ _ _ _ (receiptKey_notMem_plan _ _ _ _)]
    exact Option.some_ne_none _
  · have hkey : receiptKey i ≠ receiptKey d.detectionId := fun heq => hi (by simpa [receiptKey] using heq)
    have hplan := receiptKey_notMem_plan cfg d (db (stepUpKey d.userId)).isSome i
    rw [receipt, receipt, writeAll_frame _ _ _ _ _ (by simp only [writtenKeys, hkey, hplan]; rfl)]

theorem Worker.writes_iff : s.writes d = true ↔ receipt s.server.db d.detectionId = none ∧ Known d.detectionType := by
  simp [Worker.writes]

theorem perform_writes (h : s.writes d = true) :
    receipt (perform cfg s.server (.call d)).2.db d.detectionId ≠ none ∧
      ∀ i ≠ d.detectionId, receipt (perform cfg s.server (.call d)).2.db i = receipt s.server.db i := by
  obtain ⟨hnone, hknown⟩ := Worker.writes_iff.mp h
  exact receipt_applyContainment hnone hknown

/-- Any other call leaves Redis as it is. -/
theorem perform_not_writes (h : s.writes d = false) : (perform cfg s.server (.call d)).2 = s.server := by
  cases hr : receipt s.server.db d.detectionId with
  | some p => simp only [perform, applyContainment_of_receipt hr]
  | none =>
      have hunknown : ¬ Known d.detectionType := fun hk => by simp [Worker.writes, hr, hk] at h
      simp only [perform, applyContainment_of_unknown hr hunknown]

end

end Rtace.Containment
