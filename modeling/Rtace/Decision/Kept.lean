import Rtace.Decision.CacheIntegrity
import Rtace.Detection.Retry

/-!
# A decided event keeps its decision

Between two calls of `Decide` for one transaction, both services score whatever else comes in. Which
reference the payload's replay key holds was settled before the first call, and it decides whether the second
call is answered with the stored decision.
-/

namespace Rtace

open Lib Redis

/-- One step of the traffic between two calls, while the replay key of the payload `hash` lives: a script or
a write of any call of `Decide`, the check of any event in the detection engine, or anything that leaves the
key alone. -/
inductive TrafficStep (rt : Runtime) (hash : String) (db : Db) : Unit → Db → Prop
  | script (cfg : Engine.Config) (now : ℕ) (tx : Engine.Transaction) :
      TrafficStep rt hash db () (Engine.runTxCheck rt cfg now tx db).2
  | store (cfg : Engine.Config) (now : ℕ) (tx : Engine.Transaction) (d : Engine.Decision) :
      TrafficStep rt hash db () (Engine.storeDecision cfg now tx d db).2
  | check (cfg : RedisConfig) (now : ℕ) (it : Item) : TrafficStep rt hash db () (it.advance rt cfg now db)
  | other (db' : Db) (h : storedRef db' (replayKey hash) = storedRef db (replayKey hash)) :
      TrafficStep rt hash db () db'

section

variable {rt : Runtime} {cfg : Engine.Config} {now : ℕ} {call : Engine.Call} {tx : Engine.Transaction} {db db' : Db}

/-- The step lemma: no traffic replaces a stored reference. -/
theorem TrafficStep.ref {hash : String} {l : Unit} (h : TrafficStep rt hash db l db') {p : Payload}
    (hp : storedRef db (replayKey hash) = some p) : storedRef db' (replayKey hash) = some p := by
  cases h with
  | script cfg now tx =>
      rw [storedRef_runTxCheck]
      split
      · rw [hp]
        rfl
      · exact hp
  | store cfg now tx d =>
      rw [storedRef, (Engine.footprint_storeDecision cfg now tx d).frame _ _ (replayKey_ne_resultKey _ _)]
      exact hp
  | check cfg now it => exact (Later.advance rt cfg now it db).refs hash p hp
  | other db' h => rw [h, hp]

/-- On a stored decision: a call is answered with it and leaves it alone exactly if the payload's replay key
holds the event's own reference. -/
theorem decide_kept_iff (hids : ¬ (tx.eventId = "" ∨ tx.userId = ""))
    (hrule : Engine.refusal (tx.stamped call) (Engine.activeRules db (tx.stamped call)) = none) {d : Engine.Decision}
    (hresult : payload (db (resultKey tx.eventId)) = some (.json d.toJson)) :
    ((Engine.decide rt cfg now call tx db).1 = .ok { d with cached := true } ∧
        (Engine.decide rt cfg now call tx db).2 (resultKey tx.eventId) = db (resultKey tx.eventId)) ↔
      storedRef db (replayKey ((tx.stamped call).replayHash rt)) = some (.text (decisionRef tx.eventId)) := by
  have hstatus : (Engine.runTxCheck rt cfg now (tx.stamped call) db).1.replayStatus
      = replayStatusOf (storedRef db (replayKey ((tx.stamped call).replayHash rt))) (Engine.txArgs cfg (tx.stamped call)) :=
    txCheck_replayStatus (Engine.txKeys_distinct rt (tx.stamped call))
  have href : (Engine.txArgs cfg (tx.stamped call)).recordRef = decisionRef tx.eventId := by
    simp [Engine.txArgs]
  constructor
  · rintro ⟨hreturned, -⟩
    by_contra hother
    -- any other status scores the event afresh, and a fresh decision is not marked as cached
    have hfresh : (Engine.runTxCheck rt cfg now (tx.stamped call) db).1.replayStatus ≠ .redelivery := by
      intro hagain
      rw [hstatus] at hagain
      exact hother (href ▸ replayStatusOf_redelivery hagain)
    rw [Engine.decide_scored hids hrule hfresh] at hreturned
    have hcached := congrArg (fun x => x.toOption.map Engine.Decision.cached) hreturned
    simp [Engine.scored, Engine.newDecision] at hcached
  · intro hown
    have hagain : (Engine.runTxCheck rt cfg now (tx.stamped call) db).1.replayStatus = .redelivery := by
      rw [hstatus, hown, ← href]
      simp [replayStatusOf, replayVerdict]
    have hkept : (Engine.runTxCheck rt cfg now (tx.stamped call) db).2 (resultKey tx.eventId)
        = db (resultKey tx.eventId) :=
      (footprint_txCheck _ _ _ _).frame _ _ fun hk =>
        resultKey_notMem_detectionKeys _ (Engine.txKeys_subset rt (tx.stamped call) hk)
    have hread : (Engine.cachedDecision (tx.stamped call) (Engine.runTxCheck rt cfg now (tx.stamped call) db).2).1
        = some { d with cached := true } := by
      have hdoc : payload ((Engine.runTxCheck rt cfg now (tx.stamped call) db).2
          (resultKey (tx.stamped call).eventId)) = some (.json d.toJson) := by
        rw [Engine.stamped_eventId, hkept, hresult]
      rw [Engine.cachedDecision_json hdoc, Engine.unmarshal_toJson]
      rfl
    rw [Engine.decide_redelivered hids hrule hagain]
    simp only [hread, true_and]
    exact hkept

end

/-- Let a call of `Decide` reach the script, let both services then score whatever comes in while the payload's
replay key lives, and let a decision be stored under the event id. A later call that hashes to the same payload
returns that decision and leaves it in place exactly if, before the first call, the replay key was free or held
the event's own reference. An event without a timestamp is stamped by each call; if that makes the later call
another payload, the reference under that payload's key decides. -/
theorem decision_kept_iff {rt : Runtime} {cfg cfg' : Engine.Config} {now now' : ℕ} {call call' : Engine.Call}
    {tx : Engine.Transaction} {db₀ db : Db} {d : Engine.Decision} {labels : List Unit}
    (hids : ¬ (tx.eventId = "" ∨ tx.userId = ""))
    (hrule : Engine.refusal (tx.stamped call) (Engine.activeRules db₀ (tx.stamped call)) = none)
    (htraffic : Run (TrafficStep rt ((tx.stamped call).replayHash rt)) (Engine.decide rt cfg now call tx db₀).2 labels db)
    (hrule' : Engine.refusal (tx.stamped call') (Engine.activeRules db (tx.stamped call')) = none)
    (hresult : payload (db (resultKey tx.eventId)) = some (.json d.toJson)) :
    ((Engine.decide rt cfg' now' call' tx db).1 = .ok { d with cached := true } ∧
        (Engine.decide rt cfg' now' call' tx db).2 (resultKey tx.eventId) = db (resultKey tx.eventId)) ↔
      if (tx.stamped call').replayHash rt = (tx.stamped call).replayHash rt then
        storedRef db₀ (replayKey ((tx.stamped call).replayHash rt)) = none ∨
          storedRef db₀ (replayKey ((tx.stamped call).replayHash rt)) = some (.text (decisionRef tx.eventId))
      else storedRef db (replayKey ((tx.stamped call').replayHash rt)) = some (.text (decisionRef tx.eventId)) := by
  have hfirst : storedRef (Engine.decide rt cfg now call tx db₀).2 (replayKey ((tx.stamped call).replayHash rt))
      = some ((storedRef db₀ (replayKey ((tx.stamped call).replayHash rt))).getD (.text (decisionRef tx.eventId))) := by
    rw [storedRef, Engine.decide_frame hids hrule (replayKey_ne_resultKey _ _), ← storedRef, storedRef_runTxCheck,
      if_pos rfl, Engine.stamped_eventId]
  have hlast := htraffic.invariant hfirst fun _ _ _ hp hstep => hstep.ref hp
  rw [decide_kept_iff hids hrule' hresult]
  split
  case isTrue hsame =>
    rw [hsame, hlast, Option.some.injEq]
    cases storedRef db₀ (replayKey ((tx.stamped call).replayHash rt)) with
    | none => simp
    | some p => simp
  case isFalse hother => exact Iff.rfl

namespace Sample

/-- A decision on `e1`, and what it stored. -/
def decidedFirst : Db := (Engine.decide runtime {} 0 call (transaction "e1") fun _ => none).2

/-- A decision on `e2`, which carries the same payload. -/
def decidedReplay : Db := (Engine.decide runtime {} 1000 call (transaction "e2") decidedFirst).2

/-- The stored decision of an event. -/
def storedDecision (eventId : String) (db : Db) : Option Engine.Decision :=
  match payload (db (resultKey eventId)) with
  | some (.json j) => Engine.unmarshal j
  | _ => none

/-- The decision on `e1`. -/
def firstDecision : Engine.Decision :=
  Engine.scored {} call ((transaction "e1").stamped call)
    (Engine.runTxCheck runtime {} 0 ((transaction "e1").stamped call) fun _ => none).1

theorem stored_first : payload (decidedFirst (resultKey "e1")) = some (.json firstDecision.toJson) := by
  have hfirst : (Engine.runTxCheck runtime {} 0 ((transaction "e1").stamped call) fun _ => none).1.replayStatus
      ≠ .redelivery := by
    decide +kernel
  have hfinite : Engine.marshal firstDecision = some firstDecision.toJson := if_pos (by decide +kernel)
  rw [decidedFirst, Engine.decide_scored (by decide) rfl hfirst]
  exact @Engine.storeDecision_marshal {} 0 ((transaction "e1").stamped call) _ _ hfinite
    (Engine.runTxCheck runtime {} 0 ((transaction "e1").stamped call) fun _ => none).2

end Sample

/-- A retry of a first delivery is answered with the stored decision. -/
theorem decision_kept_iff_retry :
    let retry := Engine.decide Sample.runtime {} 1000 Sample.secondCall (Sample.transaction "e1") Sample.decidedFirst
    retry.1 = .ok { Sample.firstDecision with cached := true } ∧
      retry.2 (resultKey "e1") = Sample.decidedFirst (resultKey "e1") := by
  have hsame : ((Sample.transaction "e1").stamped Sample.secondCall).replayHash Sample.runtime
      = ((Sample.transaction "e1").stamped Sample.call).replayHash Sample.runtime := by
    decide +kernel
  have hrule : Engine.refusal ((Sample.transaction "e1").stamped Sample.secondCall)
      (Engine.activeRules Sample.decidedFirst ((Sample.transaction "e1").stamped Sample.secondCall)) = none := by
    exact Option.isNone_iff_eq_none.mp (by decide +kernel)
  have hids : ¬ ((Sample.transaction "e1").eventId = "" ∨ (Sample.transaction "e1").userId = "") := by
    decide
  have hfree : Engine.refusal ((Sample.transaction "e1").stamped Sample.call)
      (Engine.activeRules (fun _ => none) ((Sample.transaction "e1").stamped Sample.call)) = none := rfl
  have htraffic : Run (TrafficStep Sample.runtime (((Sample.transaction "e1").stamped Sample.call).replayHash Sample.runtime))
      (Engine.decide Sample.runtime {} 0 Sample.call (Sample.transaction "e1") fun _ => none).2 [] Sample.decidedFirst :=
    Run.nil
  have hnew : storedRef (fun _ => none) (replayKey (((Sample.transaction "e1").stamped Sample.call).replayHash Sample.runtime))
      = none := rfl
  have hkept := @decision_kept_iff Sample.runtime {} {} 0 1000 Sample.call Sample.secondCall (Sample.transaction "e1") _ _
    Sample.firstDecision [] hids hfree htraffic hrule Sample.stored_first
  rw [if_pos hsame, show (Sample.transaction "e1").eventId = "e1" from rfl] at hkept
  exact hkept.mpr (Or.inl hnew)

/-- A retry of an event whose payload another event carried first is scored again: it gets a new decision,
which replaces the stored one. -/
theorem replayed_decision_replaced :
    let first := Engine.decide Sample.runtime {} 1000 Sample.call (Sample.transaction "e2") Sample.decidedFirst
    let retry := Engine.decide Sample.runtime {} 2000 Sample.secondCall (Sample.transaction "e2") Sample.decidedReplay
    first.2 = Sample.decidedReplay ∧
    first.1.toOption.map Engine.Decision.decisionId = some "dec-0f8fad5b-d9cb-469f-a165-70867728950e" ∧
    (Sample.storedDecision "e2" Sample.decidedReplay).map Engine.Decision.decisionId
      = some "dec-0f8fad5b-d9cb-469f-a165-70867728950e" ∧
    retry.1.toOption.map (fun d => (d.decisionId, d.cached)) = some ("dec-7c9e6679-7425-40de-944b-e07fc1f90ae7", false) ∧
    (Sample.storedDecision "e2" retry.2).map Engine.Decision.decisionId
      = some "dec-7c9e6679-7425-40de-944b-e07fc1f90ae7" := by
  refine ⟨rfl, ?_, ?_, ?_, ?_⟩
  · decide +kernel
  · decide +kernel
  · decide +kernel
  · decide +kernel

end Rtace
