import Rtace.Decision.Replay

/-!
# A decision whose result is lost

`Decide` runs the script and stores its verdict in two steps. If the second fails, the Kafka record of
the event still meets the replay key of the first, is taken for prescored, and re-emits whatever the
result key holds.
-/

namespace Rtace

open Lib Redis

/-- The keyspace a failed call leaves: the script ran, and its result was written or not. A write can
take effect although the call fails, when only its reply is lost. -/
def failedDecide (rt : Runtime) (gcfg : Engine.Config) (now : ℕ) (call : Engine.Call) (g : Engine.Transaction)
    (written : Bool) (db : Db) : Db :=
  let out := Engine.runTxCheck rt gcfg now (g.stamped call) db
  if written then
    (Engine.storeDecision gcfg now (g.stamped call) (Engine.scored gcfg call (g.stamped call) out.1) out.2).2
  else out.2

/-- The types of the detections a stored document gives rise to. -/
def documentTypes (tx : TransactionEvent) (raw : Option Payload) : List String :=
  ((detectionsFromDecision tx raw).toOption.getD []).map (·.detectionType)

/-- The candidates of the record contain a finding of this type about the transaction. -/
def Reported (cands : List DetectionEvent) (tx : TransactionEvent) (type : String) : Prop :=
  ∃ d ∈ cands, d.detectionType = type ∧ d.userId = tx.userId ∧ d.transactionId = tx.eventId

theorem resultKey_notMem_detectionKeys (eventId : String) : resultKey eventId ∉ detectionKeys :=
  Set.disjoint_right.mp detectionKeys_disjoint_readOnlyKeys (resultKey_mem _)

theorem resultKey_notMem_cooldownKeys (eventId : String) : resultKey eventId ∉ cooldownKeys :=
  Set.disjoint_left.mp cooldownKeys_disjoint (Or.inr (resultKey_mem _))

/-- The script leaves the stored decisions alone. -/
theorem runTxCheck_result (rt : Runtime) (cfg : Engine.Config) (now : ℕ) (tx : Engine.Transaction) (db : Db)
    (e : String) : (Engine.runTxCheck rt cfg now tx db).2 (resultKey e) = db (resultKey e) :=
  (footprint_txCheck _ _ _ _).frame _ _ fun h => resultKey_notMem_detectionKeys e (Engine.txKeys_subset rt tx h)

/-- A type is reported for a record exactly when the analysis of its transaction finds it. -/
theorem reported_recordCandidates {rt : Runtime} {kafka : KafkaConfig} (cfg : RedisConfig) (now : ℕ)
    (r : TxRecord rt kafka) (db : Db) (type : String) :
    Reported ((recordCandidates rt kafka cfg now r.record db).toOption.getD []) r.tx type ↔
      type ∈ ((scanTx rt cfg now r.tx r.ref db).1.toOption.getD []).map (·.detectionType) := by
  rw [recordCandidates_tx]
  cases hscan : (scanTx rt cfg now r.tx r.ref db).1 with
  | error e => simp [Reported, Except.map]
  | ok found =>
      simp only [Reported, Except.map, toOption_ok, Option.getD_some, List.mem_map]
      constructor
      · rintro ⟨_, ⟨d, hd, rfl⟩, htype, -⟩
        exact ⟨d, hd, htype⟩
      · rintro ⟨d, hd, htype⟩
        have habout := scanTx_about hscan hd
        exact ⟨_, ⟨d, hd, rfl⟩, htype, habout.userId, habout.transactionId⟩

section

variable {rt : Runtime} {kafka : KafkaConfig} {cfg : RedisConfig} {gcfg : Engine.Config} {now now' : ℕ}
  {call : Engine.Call} {g : Engine.Transaction} {written : Bool} {db later : Db}

/-- A first delivery to `Decide` leaves its own reference, whether or not its result was written. -/
theorem storedRef_failedDecide {tx : TransactionEvent} (hsame : SameEvent rt call g tx)
    (hfirst : db (replayKey (tx.replayHash rt)) = none) :
    storedRef (failedDecide rt gcfg now call g written db) (replayKey (tx.replayHash rt))
      = some (.text (decisionRef tx.eventId)) := by
  have hscript := storedRef_txCheck rt now (Engine.txArgs gcfg (g.stamped call)) db
    (Engine.txKeys_distinct rt (g.stamped call))
  rw [hsame.replay_key, hsame.recordRef] at hscript
  have hnone : storedRef db (replayKey (tx.replayHash rt)) = none := by rw [storedRef, hfirst, Option.map_none]
  rw [hnone, Option.getD_none] at hscript
  rw [← hscript]
  cases written with
  | false => rfl
  | true =>
      simp only [failedDecide, if_true, storedRef]
      rw [(Engine.footprint_storeDecision _ _ _ _).frame _ _ (replayKey_ne_resultKey _ _)]
      rfl

/-- The status of a first delivery to `Decide`. -/
theorem status_first (gcfg : Engine.Config) {tx : TransactionEvent} (hsame : SameEvent rt call g tx)
    (hfirst : db (replayKey (tx.replayHash rt)) = none) :
    replayStatusOf (storedRef db (Engine.txKeys rt (g.stamped call)).replay)
      (Engine.txArgs gcfg (g.stamped call)) = .first := by
  rw [hsame.replay_key, storedRef, hfirst]
  rfl

theorem reemitted_of_mem_firing {keys : TxKeys} {a : TxArgs} {threshold : ℤ} {type : String}
    (h : type ∈ firing rt keys a threshold db) : Engine.reemitted type := by
  simp only [firing, List.mem_append, List.mem_ite_nil_right, List.mem_singleton] at h
  rcases h with ⟨-, rfl⟩ | ⟨-, rfl⟩
  · rfl
  · rfl

/-- The document under the result key afterwards: the decision if it was written, else what was there. -/
theorem documentTypes_failedDecide {tx : TransactionEvent} (hsame : SameEvent rt call g tx)
    (hfirst : db (replayKey (tx.replayHash rt)) = none) {type : String}
    (htype : type ∈ firing rt (Engine.txKeys rt (g.stamped call)) (Engine.txArgs gcfg (g.stamped call))
      gcfg.burstThreshold db) :
    type ∈ documentTypes tx (payload (failedDecide rt gcfg now call g written db (resultKey tx.eventId))) ↔
      written = true ∨ type ∈ documentTypes tx (payload (db (resultKey tx.eventId))) := by
  have hstatus := status_first gcfg hsame hfirst
  cases written with
  | false =>
      simp only [failedDecide, Bool.false_eq_true, if_false, runTxCheck_result, false_or]
  | true =>
      have hreply : (Engine.runTxCheck rt gcfg now (g.stamped call) db).1.replayStatus ≠ .replay := by
        rw [Engine.runTxCheck, txCheck_replayStatus (Engine.txKeys_distinct _ _), hstatus]
        decide
      have hmarshal := Engine.marshal_scored call hreply
      have hreason := (Engine.mem_interpret_types now (by rw [hstatus]; decide) type).mpr (Or.inr htype)
      obtain ⟨x, hx, rfl⟩ := List.mem_map.mp hreason
      simp only [failedDecide, if_true, true_or, iff_true]
      rw [← hsame.stamped_eventId, Engine.storeDecision_marshal hmarshal, documentTypes,
        Engine.detectionsFromDecision_toJson]
      refine List.mem_map.mpr ⟨Engine.reasonDetection tx _ x, List.mem_map_of_mem ?_, rfl⟩
      exact List.mem_filter.mpr ⟨hx, reemitted_of_mem_firing htype⟩

/-- What the record of a failed first decision reports. -/
theorem reported_after_failedDecide {r : TxRecord rt kafka} (hsame : SameEvent rt call g r.tx)
    (hfirst : db (replayKey (r.tx.replayHash rt)) = none)
    (hreplay : later (replayKey (r.tx.replayHash rt))
      = failedDecide rt gcfg now call g written db (replayKey (r.tx.replayHash rt)))
    (hresult : later (resultKey r.tx.eventId) = failedDecide rt gcfg now call g written db (resultKey r.tx.eventId))
    (hfree : later (quarantineKey r.tx.userId) = none) {type : String}
    (htype : type ∈ firing rt (Engine.txKeys rt (g.stamped call)) (Engine.txArgs gcfg (g.stamped call))
      gcfg.burstThreshold db) :
    Reported ((recordCandidates rt kafka cfg now' r.record later).toOption.getD []) r.tx type ↔
      if r.ref = decisionRef r.tx.eventId then
        type ∈ firing rt (txKeys rt r.tx) (txArgs cfg r.tx r.ref (g.stamped call).nowTs)
          cfg.burstThreshold later
      else written = true ∨ type ∈ documentTypes r.tx (payload (db (resultKey r.tx.eventId))) := by
  have hstored : storedRef later (txKeys rt r.tx).replay = some (.text (decisionRef r.tx.eventId)) := by
    rw [← storedRef_failedDecide hsame hfirst, storedRef, storedRef]
    exact congrArg _ hreplay
  rw [reported_recordCandidates, scanTx_free _ _ _ hsame.timestamp hfree]
  by_cases href : r.ref = decisionRef r.tx.eventId
  · -- the reference is the decision's own: the record is scored again
    have hstatus : replayStatusOf (storedRef later (txKeys rt r.tx).replay)
        (txArgs cfg r.tx r.ref (g.stamped call).nowTs) = .redelivery := by
      simp only [hstored, replayStatusOf, replayVerdict, txArgs, href, if_true]
    have hpre : replayStatusOf (storedRef later (txKeys rt r.tx).replay)
        (txArgs cfg r.tx r.ref (g.stamped call).nowTs) ≠ .prescored := by
      rw [hstatus]
      decide
    simp only [txCheck_replayStatus (txKeys_distinct rt r.tx), if_neg hpre, toOption_ok, Option.getD_some,
      mem_findings_types _ hpre, if_pos href]
    simp only [hstatus, reduceCtorEq, and_false, false_or]
  · have hstatus : replayStatusOf (storedRef later (txKeys rt r.tx).replay)
        (txArgs cfg r.tx r.ref (g.stamped call).nowTs) = .prescored := by
      simp only [hstored, replayStatusOf, replayVerdict, txArgs, if_neg (Ne.symm href), if_true]
    simp only [txCheck_prescored hstatus, if_true, if_neg href, hresult]
    exact documentTypes_failedDecide hsame hfirst htype

/-- Let `Decide` run the script for a first delivery and fail afterwards, and let the event's record be
handled while the replay and result keys are as the call left them. The candidates contain every burst
and geo finding of the script's reply exactly when, for each of them, the result was written in spite of
the failure or an older document under the result key lists it. (A record whose reference is
`decision:{event_id}` itself is scored again instead.) -/
theorem failedDecide_findings {r : TxRecord rt kafka} (hsame : SameEvent rt call g r.tx)
    (hfirst : db (replayKey (r.tx.replayHash rt)) = none)
    (hreplay : later (replayKey (r.tx.replayHash rt))
      = failedDecide rt gcfg now call g written db (replayKey (r.tx.replayHash rt)))
    (hresult : later (resultKey r.tx.eventId) = failedDecide rt gcfg now call g written db (resultKey r.tx.eventId))
    (hfree : later (quarantineKey r.tx.userId) = none) :
    (∀ x ∈ Engine.interpret gcfg (g.stamped call) (Engine.runTxCheck rt gcfg now (g.stamped call) db).1,
      x.type = "fraud_burst" ∨ x.type = "geo_velocity_anomaly" →
        Reported ((recordCandidates rt kafka cfg now' r.record later).toOption.getD []) r.tx x.type) ↔
    ∀ type ∈ firing rt (Engine.txKeys rt (g.stamped call)) (Engine.txArgs gcfg (g.stamped call))
        gcfg.burstThreshold db,
      if r.ref = decisionRef r.tx.eventId then
        type ∈ firing rt (txKeys rt r.tx) (txArgs cfg r.tx r.ref (g.stamped call).nowTs)
          cfg.burstThreshold later
      else written = true ∨ type ∈ documentTypes r.tx (payload (db (resultKey r.tx.eventId))) := by
  have hstatus := status_first gcfg hsame hfirst
  have hpre : replayStatusOf (storedRef db (Engine.txKeys rt (g.stamped call)).replay)
      (Engine.txArgs gcfg (g.stamped call)) ≠ .prescored := by
    rw [hstatus]
    decide
  have hmem := Engine.mem_interpret_types now hpre
  simp only [hstatus, reduceCtorEq, and_false, false_or] at hmem
  constructor
  · intro h type htype
    obtain ⟨x, hx, rfl⟩ := List.mem_map.mp ((hmem type).mpr htype)
    have hkind : x.type = "fraud_burst" ∨ x.type = "geo_velocity_anomaly" := by
      simp only [firing, List.mem_append, List.mem_ite_nil_right, List.mem_singleton] at htype
      exact htype.imp And.right And.right
    exact (reported_after_failedDecide hsame hfirst hreplay hresult hfree htype).mp (h x hx hkind)
  · intro h x hx _
    have htype := (hmem x.type).mp (List.mem_map_of_mem hx)
    exact (reported_after_failedDecide hsame hfirst hreplay hresult hfree htype).mpr (h x.type htype)

end

namespace Sample

/-- Twenty transactions of `u1` in the last minute, and nothing else. -/
def busy : Db := fun k =>
  if k = burstKey "u1" then
    some ⟨.zset ⟨(List.range 20).map fun i => ("t" ++ toString i, 1704067190), by decide⟩, some 120000⟩
  else none

/-- The keyspace after a failed decision on `e1` in the busy state. -/
def afterFailure (written : Bool) : Db := failedDecide runtime {} 0 call (transaction "e1") written busy

theorem afterFailure_apply (written : Bool) (k : String) :
    afterFailure written k = failedDecide runtime {} 0 call (transaction "e1") written busy k := rfl

theorem afterFailure_quarantine (written : Bool) : afterFailure written (quarantineKey "u1") = none := by
  have hscript : (Engine.runTxCheck runtime {} 0 ((transaction "e1").stamped call) busy).2 (quarantineKey "u1")
      = none :=
    (footprint_txCheck _ _ _ _).frame _ _
      (fun h => quarantineKey_notMem_detectionKeys "u1" (txKeys_subset runtime (tx "e1") h))
  cases written with
  | false => exact hscript
  | true =>
      refine ((Engine.footprint_storeDecision _ _ _ _).frame _ _ ?_).trans hscript
      exact append_ne_of_incomparable (p := quarantineKeyPrefix) (q := resultKeyPrefix) (by decide) _ _

theorem record_ref_ne : (record 0 "e1").ref ≠ decisionRef (record 0 "e1").tx.eventId := by
  decide

theorem burst_fires : "fraud_burst" ∈ firing runtime (Engine.txKeys runtime ((transaction "e1").stamped call))
    (Engine.txArgs {} ((transaction "e1").stamped call)) 20 busy := by
  decide +kernel

/-- The script finds the burst. -/
theorem burst_interpreted : "fraud_burst" ∈ (Engine.interpret {} ((transaction "e1").stamped call)
    (Engine.runTxCheck runtime {} 0 ((transaction "e1").stamped call) busy).1).map Engine.Reason.type := by
  refine (Engine.mem_interpret_types _ ?_ _).mpr (Or.inr burst_fires)
  rw [status_first _ (sameEvent "e1") (show busy (replayKey ((tx "e1").replayHash runtime)) = none from rfl)]
  decide

end Sample

/-- A failed call whose write took effect loses nothing. -/
theorem failedDecide_findings_written :
    ∃ x ∈ Engine.interpret {} ((Sample.transaction "e1").stamped Sample.call)
        (Engine.runTxCheck Sample.runtime {} 0 ((Sample.transaction "e1").stamped Sample.call) Sample.busy).1,
      x.type = "fraud_burst" ∧
        Reported ((recordCandidates Sample.runtime {} {} 0 (Sample.record 0 "e1").record
          (Sample.afterFailure true)).toOption.getD []) (Sample.tx "e1") x.type := by
  obtain ⟨x, hx, htype⟩ := List.mem_map.mp Sample.burst_interpreted
  refine ⟨x, hx, htype, ?_⟩
  refine (failedDecide_findings (r := Sample.record 0 "e1") (Sample.sameEvent "e1") rfl
    (Sample.afterFailure_apply true _) (Sample.afterFailure_apply true _)
    (Sample.afterFailure_quarantine true)).mpr (fun type _ => ?_) x hx (Or.inl htype)
  rw [if_neg Sample.record_ref_ne]
  exact Or.inl rfl

/-- A call that dies before its write loses the burst its script found. -/
theorem failedDecide_loses_burst :
    "fraud_burst" ∈ (Engine.interpret {} ((Sample.transaction "e1").stamped Sample.call)
      (Engine.runTxCheck Sample.runtime {} 0 ((Sample.transaction "e1").stamped Sample.call) Sample.busy).1).map
        Engine.Reason.type ∧
    ¬ Reported ((recordCandidates Sample.runtime {} {} 0 (Sample.record 0 "e1").record
        (Sample.afterFailure false)).toOption.getD []) (Sample.tx "e1") "fraud_burst" := by
  have hsame := Sample.sameEvent "e1"
  have hfirst : Sample.busy (replayKey ((Sample.tx "e1").replayHash Sample.runtime)) = none := rfl
  constructor
  · exact Sample.burst_interpreted
  · intro hreported
    have h := (reported_after_failedDecide (r := Sample.record 0 "e1") hsame hfirst
      (Sample.afterFailure_apply false _) (Sample.afterFailure_apply false _)
      (Sample.afterFailure_quarantine false) Sample.burst_fires).mp hreported
    rw [if_neg Sample.record_ref_ne] at h
    rcases h with h | h
    · cases h
    · cases h

end Rtace
